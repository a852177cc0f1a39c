import PeerTrust.Certification.Search
import PeerTrust.Revocation.Store

/-!
# Verifying a peer

A peer presents its certificate and others. The verifier asks for a path to an anchor first. If a
revocation store is there, it then puts every presented certificate to the store, and the anchor
behind the last one. What came of it is recorded in a report, if there is one.

## Main definitions

* `PeerVerdict`, `Report` — what is recorded
* `Verifier` — anchors with a judgement on paths
* `Verifier.anchorOf?` — the anchor behind the last presented certificate
* `Verifier.visited` — the certificates that are put to the store, in order
* `Verifier.firstReject` — the first of them that the store rejects
* `Verifier.verify` — the outcome, and the report after it

## Main results

* `Verifier.verify_fst_eq` — the outcome does not depend on the report
-/

namespace PeerTrust

/-- The outcome of verification in one handshake. -/
inductive PeerVerdict
  | notChecked
  | verified
  | failed (code : VerifyCode)
  deriving DecidableEq, Repr

/-- What is recorded of a verification: the outcome, and the subject of a certificate that was
rejected. -/
structure Report where
  verdict : PeerVerdict := .notChecked
  subject : Option String := none
  deriving DecidableEq, Repr

/-- What a peer presents: its certificate and others. -/
structure Presented where
  endEntity : Bytes
  others : List Bytes
  deriving DecidableEq, Repr

/-- All presented certificates. -/
def Presented.all (p : Presented) : List Bytes := p.endEntity :: p.others

/-- A certificate that a store rejected. -/
structure Rejection where
  /-- Its place among those put to the store. -/
  depth : Nat
  reason : RejectReason
  subject : String
  deriving DecidableEq, Repr

/-- The code under which a rejection is recorded. -/
def Rejection.code (r : Rejection) : VerifyCode := .ofReject r.reason

/-- Anchors, as they were loaded, with a judgement on paths. -/
structure Verifier where
  role : Role
  anchors : List Bytes
  preVerify : PreVerifier

namespace Verifier

/-- Whether an anchor issued a certificate: by name, and by signature. -/
def isIssuer (cert anchor : Certificate) : Bool :=
  Name.same anchor.subject cert.issuer && cert.isSignedBy anchor.publicKey

/-- The first anchor that issued a certificate. Anchors that cannot be read are passed over, and
what issued itself has none. -/
def anchorOf? (v : Verifier) (last : Certificate) : Option Certificate :=
  if Name.same last.subject last.issuer then none
  else (v.anchors.filterMap Certificate.ofBytes?).find? (isIssuer last)

/-- The certificates that are put to the store, in order: the presented ones, and the anchor behind
the last of them. -/
def visited (v : Verifier) (chain : List Certificate) : List Certificate :=
  -- Which path was found plays no part.
  chain ++ (chain.getLast?.bind v.anchorOf?).toList

/-- The first certificate that the store rejects, counted from `depth`. Each rejection is told after
what the store tells of it. -/
def firstReject (role : Role) (fs : FileSystem) (store : RevocationStore) (now : Moment) :
    (depth : Nat) → List Certificate → Logged (Option Rejection)
  | _, [] => pure none
  | depth, cert :: rest => do
    match ← store.check fs cert now with
    | .accept => firstReject role fs store now (depth + 1) rest
    | .reject reason =>
      let rejection : Rejection := ⟨depth, reason, cert.subject.display⟩
      Logged.tell (.peerRejected role depth rejection.subject rejection.code)
      -- The rest is not looked at.
      return some rejection

/-- What a verification comes to: a result, and what is recorded of it, if anything is. -/
structure Outcome where
  result : Except TlsFailure CertPath
  record : Option Report

/-- What putting the presented certificates to the store comes to. Nothing is recorded when one of
them cannot be read. -/
def checkRevocation (v : Verifier) (fs : FileSystem) (store : RevocationStore) (p : Presented)
    (path : CertPath) (now : Moment) : Logged Outcome :=
  match p.all.mapM Certificate.ofBytes? with
  -- Also a certificate that no path needs must be readable here.
  | none => return ⟨.error (.certificate .badEncoding), none⟩
  | some chain => do
    match ← firstReject v.role fs store now 0 (v.visited chain) with
    | none => return ⟨.ok path, some ⟨.verified, none⟩⟩
    | some rejection =>
      return ⟨.error rejection.code.toFailure, some ⟨.failed rejection.code, rejection.subject⟩⟩

/-- What a verification comes to. -/
def outcome (v : Verifier) (fs : FileSystem) (store : Option RevocationStore) (p : Presented)
    (server : ServerName) (now : Moment) : Logged Outcome :=
  match v.preVerify p.endEntity p.others server now with
  | .error failure => do
    Logged.tell (.preVerificationFailed v.role failure)
    return ⟨.error failure, some ⟨.failed (.ofFailure failure), none⟩⟩
  | .ok path =>
    match store with
    -- Without a store nothing is looked up.
    | none => return ⟨.ok path, some ⟨.verified, none⟩⟩
    | some store => v.checkRevocation fs store p path now

/-- Verifies what a peer presents: the path, or what aborts the handshake, and the report after it
if there was one before. -/
def verify (v : Verifier) (fs : FileSystem) (store : Option RevocationStore)
    (report : Option Report) (p : Presented) (server : ServerName) (now : Moment) :
    Logged (Except TlsFailure CertPath × Option Report) := do
  let outcome ← v.outcome fs store p server now
  -- Where nothing is recorded, the report stays what it was.
  return (outcome.result, report.map fun before => outcome.record.getD before)

theorem verify_fst_eq (v : Verifier) (fs : FileSystem) (store : Option RevocationStore)
    (report : Option Report) (p : Presented) (server : ServerName) (now : Moment) :
    (v.verify fs store report p server now).value.1
      = (v.outcome fs store p server now).value.result := rfl

theorem events_verify (v : Verifier) (fs : FileSystem) (store : Option RevocationStore)
    (report : Option Report) (p : Presented) (server : ServerName) (now : Moment) :
    (v.verify fs store report p server now).events
      = (v.outcome fs store p server now).events := by
  simp [verify]

end Verifier

/-- Why anchors make no verifier. -/
inductive AnchorFault
  /-- One of them is no anchor. -/
  | unusable (problem : Certification.Problem)
  | noAnchors
  deriving DecidableEq, Repr

/-- The verifier that looks for paths to the given anchors, of which there must be one and which must
all be usable. -/
def Verifier.ofAnchors (role : Role) (anchors : List Bytes) : Except AnchorFault Verifier := do
  let usable ← (anchors.mapM Certification.Anchor.ofDer).mapError .unusable
  if usable = [] then throw .noAnchors
  return { role, anchors, preVerify := Certification.preVerify usable }

end PeerTrust
