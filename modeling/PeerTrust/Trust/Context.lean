import PeerTrust.Trust.Material
import PeerTrust.Trust.Paths
import PeerTrust.Verification.Verifier

/-!
# Contexts

A context is what all handshakes of a role share: the credentials of the client, and the verifier
over the trust anchors. The verifier looks for the revocation store in a slot of the configuration,
so that the store can change under the context.

## Main definitions

* `Context` — credentials and verifier
* `Context.build` — the context that the paths of a role lead to
-/

namespace PeerTrust

/-- The slot that a revocation store is looked up in. A configuration opens a new one whenever it is
reset. -/
abbrev SlotId := Nat

/-- What all handshakes of a role share. -/
structure Context where
  chain : List Bytes
  key : PrivateKey
  verifier : Verifier
  slot : SlotId

namespace Context

/-- The role that the context is for. -/
def role (c : Context) : Role := c.verifier.role

/-- How many anchors there are, repeated ones included. -/
def anchorCount (c : Context) : Nat := c.verifier.anchors.length

/-- The wording of an unusable anchor. -/
def anchorProblem : AnchorFault → AnchorProblem
  | .unusable problem => .unusable problem.failure.message
  | .noAnchors => .noneFound

/-- The context of loaded material. The key must fit the first certificate of the chain. -/
def ofMaterial (role : Role) (slot : SlotId) (keyPath : FilePath) (chain : List Bytes)
    (key : PrivateKey) (anchors : List Bytes) : Except Error Context := do
  -- Unusable anchors are told before a key that does not fit.
  let verifier ← (Verifier.ofAnchors role anchors).mapError fun fault =>
    .trustAnchorLoadFailed (anchorProblem fault)
  if chain.head?.any key.fits then return { chain, key, verifier, slot }
  else throw (.keyLoadFailed keyPath .unusableKey)

/-- The credentials under the paths of a role. -/
def loadCredentials (fs : FileSystem) (cert keyPath : FilePath) :
    Except Error (List Bytes × PrivateKey) := do
  let chain ← loadChain fs cert
  let key ← loadKey fs keyPath
  return (chain, key)

/-- The context that the paths of a role lead to. Without a path of its own, the key is looked for
beside the certificate. -/
def build (fs : FileSystem) (role : Role) (paths : TrustPaths) (slot : SlotId) :
    Logged (Except Error Context) :=
  match paths.cert with
  | none => return .error (.invalidArgument (.certificateNotSet role))
  | some cert =>
    let keyPath := paths.key.getD cert
    match loadCredentials fs cert keyPath with
    | .error e => return .error e
    | .ok (chain, key) => do
      match ← loadAnchors fs paths.caFile paths.caDir with
      | .error e => return .error e
      | .ok anchors => return ofMaterial role slot keyPath chain key anchors

end Context

end PeerTrust
