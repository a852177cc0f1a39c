import PeerTrust.FilePath

/-!
# Trust paths and rebuild plans

The trust material of a role is named by six optional paths. A change of paths makes the artifacts
derived from them stale: the context when a certificate, key or anchor path changes, the revocation
store when a list path changes.

## Main definitions

* `TrustPaths` — the paths of one role
* `RebuildPlan.between` — what a change of paths makes stale
-/

namespace PeerTrust

/-- The paths of one role. Without `key`, the private key is read from `cert`. -/
structure TrustPaths where
  cert : Option FilePath := none
  key : Option FilePath := none
  caFile : Option FilePath := none
  caDir : Option FilePath := none
  crlFile : Option FilePath := none
  crlDir : Option FilePath := none
  deriving DecidableEq, Repr

namespace TrustPaths

/-- Whether a location of revocation lists is set. -/
def hasCrl (p : TrustPaths) : Bool := p.crlFile.isSome || p.crlDir.isSome

/-- Whether a location of trust anchors is set. -/
def hasCa (p : TrustPaths) : Bool := p.caFile.isSome || p.caDir.isSome

/-- Whether no path is set. -/
def isEmpty (p : TrustPaths) : Bool := p = {}

/-- The set paths, in the order of the fields. -/
def present (p : TrustPaths) : List FilePath :=
  [p.cert, p.key, p.caFile, p.caDir, p.crlFile, p.crlDir].filterMap id

end TrustPaths

/-- Which derived artifacts are stale. -/
structure RebuildPlan where
  context : Bool := false
  revocation : Bool := false
  deriving DecidableEq, Repr

namespace RebuildPlan

/-- What the change from `old` to `new` makes stale. -/
def between (old new : TrustPaths) : RebuildPlan where
  context :=
    !(FilePath.sameOption old.cert new.cert && FilePath.sameOption old.key new.key
      && FilePath.sameOption old.caFile new.caFile && FilePath.sameOption old.caDir new.caDir)
  revocation :=
    !(FilePath.sameOption old.crlFile new.crlFile && FilePath.sameOption old.crlDir new.crlDir)

/-- Whether nothing is stale. -/
def isEmpty (p : RebuildPlan) : Bool := !p.context && !p.revocation

end RebuildPlan

theorem FilePath.sameOption_self (p : Option FilePath) : FilePath.sameOption p p = true :=
  FilePath.sameOption_iff.mpr rfl

end PeerTrust
