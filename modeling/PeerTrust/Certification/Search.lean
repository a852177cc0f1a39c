import PeerTrust.Certification.Conditions
import PeerTrust.Certification.NameConstraints
import PeerTrust.Certification.Signature

/-!
# The search for a path

A path leads from an end entity through presented certificates to a trust anchor, each signed by the
next. Issuers are found by the bytes of their names. Anchors are tried first, and then the presented
certificates in order.

## Main definitions

* `CertPath` — a path
* `Certification.search` — the first path that meets all conditions, or the most specific reason why
  there is none
* `Certification.preVerify` — the search, followed by the check of the server's name
-/

namespace PeerTrust

/-- A path: the certificates from the end entity up, and the anchor that signed the last one. -/
structure CertPath where
  certificates : List Bytes
  anchor : Bytes
  deriving DecidableEq, Repr

namespace Certification

/-- What succeeds first, or the most specific of the reasons why nothing does. -/
def firstOf {α β : Type} (attempt : α → Search β) : (reason : Problem) → List α → Search β
  | reason, [] => throw reason
  | reason, a :: as => fun budget =>
    match (attempt a) budget with
    | (.ok b, budget) => (.ok b, budget)
    | (.error p, budget) =>
      if p.endsSearch then (.error p, budget)
      else firstOf attempt (reason.mostSpecific p) as budget

/-- The certificates of a path under construction, the last one first. -/
structure Partial where
  last : Certificate
  before : List Certificate

namespace Partial

/-- All certificates, the last one first. -/
def all (p : Partial) : List Certificate := p.last :: p.before

/-- The place of the last certificate. -/
def place (p : Partial) : Place := p.before.foldl (fun place _ => place.next) .endEntity

/-- Whether a certificate has the subject and the key of one in the path. -/
def holds (p : Partial) (c : Certificate) : Bool :=
  p.all.any fun q => q.publicKey = c.publicKey && q.subject = c.subject

/-- The path with an anchor at its end. -/
def endingIn (p : Partial) (a : Anchor) : CertPath := ⟨(p.all.map (·.der)).reverse, a.der⟩

end Partial

/-- Each certificate is signed by the key of the one above it, and the uppermost by the given
key. -/
def checkSignatures : (key : Bytes) → List Certificate → Search Unit
  | _, [] => return ()
  | key, c :: below => do
    spendSignature
    ofExcept (c.signed.verify key)
    checkSignatures c.publicKey below

/-- The names below each authority keep to its constraints. -/
def checkConstraints : (constraints : Option Bytes) → List Certificate → Search Unit
  | _, [] => return ()
  | constraints, c :: below => do
    checkNames constraints (c :: below)
    checkConstraints c.nameConstraints below

/-- The path that ends in an anchor, if the anchor issued its last certificate. -/
def attachAnchor (p : Partial) (a : Anchor) : Search CertPath := do
  if p.last.issuer ≠ a.subject then throw .unknownIssuer
  checkSignatures a.publicKey p.all
  checkConstraints a.nameConstraints p.all
  return p.endingIn a

/-- Goes on with a presented certificate if it is named as the issuer and is not yet in the path. -/
def attachPresented (goOn : Partial → Search CertPath) (p : Partial) (der : Bytes) :
    Search CertPath := do
  let c ← ofExcept (Certificate.ofDer der)
  -- A path that came back to a certificate would only repeat itself.
  if c.subject ≠ p.last.issuer ∨ p.holds c then throw .unknownIssuer
  spendPath
  goOn ⟨c, p.all⟩

/-- The first path that continues the one under construction. -/
def continueFrom (anchors : List Anchor) (presented : List Bytes) (now : Moment)
    (goOn : Partial → Search CertPath) (p : Partial) : Search CertPath := do
  ofExcept (p.last.check now p.place)
  fun budget =>
    match firstOf (attachAnchor p) .unknownIssuer anchors budget with
    | (.ok path, budget) => (.ok path, budget)
    | (.error reason, budget) =>
      if reason.endsSearch then (.error reason, budget)
      -- The best reason so far goes on to compete with those of the presented certificates.
      else firstOf (attachPresented goOn p) reason presented budget

/-- The first path that continues the one under construction with at most `room` more
certificates. -/
def search (anchors : List Anchor) (presented : List Bytes) (now : Moment) :
    (room : Nat) → Partial → Search CertPath
  | 0 => continueFrom anchors presented now fun _ => throw .tooDeep
  | room + 1 => continueFrom anchors presented now (search anchors presented now room)

/-- How many certificates may stand between an end entity and an anchor. -/
def maxIntermediates : Nat := 6

/-- The path from an end entity to one of the anchors, for a server at a moment. -/
def findPath (anchors : List Anchor) (endEntity : Bytes) (presented : List Bytes)
    (server : ServerName) (now : Moment) : Except Problem CertPath := do
  let c ← Certificate.ofDer endEntity
  let path ← (search anchors presented now maxIntermediates ⟨c, []⟩).run.run {} |>.1
  -- A server of another name is told only once there is a path.
  c.checkServer server
  return path

end Certification

/-- A judgement on presented certificates, made before revocation is looked at: the path that was
found, or why there is none. -/
abbrev PreVerifier :=
  (endEntity : Bytes) → (presented : List Bytes) → ServerName → Moment → Except TlsFailure CertPath

/-- The search for a path to one of the anchors. -/
def Certification.preVerify (anchors : List Anchor) : PreVerifier :=
  fun endEntity presented server now =>
    (findPath anchors endEntity presented server now).mapError (·.failure)

end PeerTrust
