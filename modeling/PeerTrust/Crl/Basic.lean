import PeerTrust.Certificate.Basic
import PeerTrust.Name.Canonical
import PeerTrust.Name.Display

/-!
# Revocation lists

A revocation list names the serials that its issuer revoked, and says when the next list is due.

## Main definitions

* `RevocationList` — a list
* `RevocationList.ofDer?` — the list that a byte string starts with
* `RevocationList.isIssuedBy`, `RevocationList.revokes`, `RevocationList.isSignedBy` — its views

## Main results

* `RevocationList.revokes_iff` — a serial is revoked when one of the same magnitude is listed
-/

namespace PeerTrust

/-- A revocation list. -/
structure RevocationList where
  issuer : Name
  thisUpdate : Moment
  nextUpdate : Option Moment
  /-- The serials, as they were written. -/
  serials : List Bytes
  algorithm : AlgorithmIdentifier
  signature : Bytes
  /-- The octets that are signed. -/
  signed : Bytes
  deriving DecidableEq, Repr

namespace RevocationList

/-- One entry: a serial, the moment of its revocation, and perhaps extensions. -/
def readEntry? (bs : Bytes) : Option (Bytes × Bytes) := do
  let (e, rest) ← Der.Element.readNumbered? Der.Tag.sequence bs
  let (serial, body) ← Serial.read? e.content
  let _ ← Moment.read? body
  return (serial, rest)

/-- The entries, consumed to their end. -/
def readEntries? (bs : Bytes) : Option (List Bytes × Bytes) := do
  let (e, rest) ← Der.Element.readNumbered? Der.Tag.sequence bs
  return (← Der.readAll? readEntry? e.content, rest)

/-- A part that may be missing: what `step` reads, or nothing and the bytes unread. -/
def optionalPart {α : Type} (step : Bytes → Option (α × Bytes)) (bs : Bytes) : Option α × Bytes :=
  match step bs with
  | some (a, rest) => (some a, rest)
  | none => (none, bs)

/-- The revocation list that a byte string starts with. -/
def ofDer? (bs : Bytes) : Option RevocationList := do
  let (e, _) ← Der.Element.readNumbered? Der.Tag.sequence bs
  let (signed, body) ← Der.Element.readNumbered? Der.Tag.sequence e.content
  let (_, tbs) := optionalPart SmallInteger.read? signed.content
  let (_, tbs) ← AlgorithmIdentifier.read? tbs
  let (issuer, tbs) ← Name.read? tbs
  let (thisUpdate, tbs) ← Moment.read? tbs
  -- Whatever is no moment here is left to the parts after it.
  let (nextUpdate, tbs) := optionalPart Moment.read? tbs
  let (entries, tbs) := optionalPart readEntries? tbs
  let _ ← Extensions.wrapped? 0 tbs
  let (algorithm, body) ← AlgorithmIdentifier.read? body
  let (signature, _) ← BitString.read? body
  return { issuer, thisUpdate, nextUpdate, serials := entries.getD [], algorithm, signature,
           signed := signed.octets }

/-- Whether the list was issued under a name, by canonical encoding. -/
def isIssuedBy (list : RevocationList) (name : Name) : Bool :=
  list.issuer.canonical = name.canonical

/-- Whether a serial is listed. Leading zero bytes do not count. -/
def revokes (list : RevocationList) (serial : Bytes) : Bool :=
  list.serials.any fun listed => Bytes.significant listed = Bytes.significant serial

theorem revokes_iff {list : RevocationList} {serial : Bytes} :
    list.revokes serial = true ↔
      ∃ listed ∈ list.serials, Bytes.significant listed = Bytes.significant serial := by
  simp [revokes]

/-- What comes of verifying the signature of the list under a key. -/
def signatureResult (list : RevocationList) (key : SubjectPublicKeyInfo) : SignatureResult :=
  verifySignature key list.algorithm list.signed list.signature

end RevocationList

end PeerTrust
