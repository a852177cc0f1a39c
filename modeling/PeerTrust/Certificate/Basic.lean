import PeerTrust.Name.Basic
import PeerTrust.Signature.Scheme
import PeerTrust.Time

/-!
# Certificates

The lenient reading of certificates, which is what revocation checks look at. Versions, extensions
and the agreement of the two algorithm identifiers are not judged here.

## Main definitions

* `Extensions.wrapped?` — the extensions at the end of a certificate or revocation list
* `Certificate` — the parts of a certificate that revocation checks use
* `Certificate.read?` — a certificate at the head of a byte string
* `Certificate.verifySignature` — whether a key signed the certificate
-/

namespace PeerTrust

/-- An extension: an identifier, a criticality flag that may be left out, and octets. -/
def Extensions.readOne? (bs : Bytes) : Option (Unit × Bytes) := do
  let (e, rest) ← Der.Element.readNumbered? Der.Tag.sequence bs
  let (_, body) ← Oid.read? e.content
  -- What is no flag must be the value.
  let body := match Der.Element.read? body with
    | some (flag, after) =>
      if flag.number = Der.Tag.boolean ∧ flag.content.length = 1 then after else body
    | none => body
  let (value, _) ← Der.Element.readNumbered? Der.Tag.octetString body
  if value.constructed then none else return ((), rest)

/-- A sequence of extensions, consumed to its end. -/
def Extensions.read? (bs : Bytes) : Option Bytes := do
  let (e, rest) ← Der.Element.readNumbered? Der.Tag.sequence bs
  let _ ← Der.readAll? Extensions.readOne? e.content
  return rest

/-- Whether the rest of a structure is empty, or is the expected wrapper followed by a sequence of
extensions and nothing more. The length of the wrapper is not looked at. -/
def Extensions.wrapped? (number : Nat) (bs : Bytes) : Option Unit := do
  match bs with
  | [] => return ()
  | first :: body =>
    let (found, rest) ← Der.readNumber first body
    let (_, rest) ← Der.readLength rest
    -- The wrapper reaches to the end, so the extensions must too.
    if found = number ∧ (← Extensions.read? rest) = [] then return () else none

/-- A serial number: the content of an integer, read as unsigned. -/
def Serial.read? (bs : Bytes) : Option (Bytes × Bytes) := do
  let (e, rest) ← Der.Element.readNumbered? Der.Tag.integer bs
  return (e.content, rest)

/-- An integer of at most 32 bits that is not negative. -/
def SmallInteger.read? (bs : Bytes) : Option (Nat × Bytes) := do
  let (e, rest) ← Der.Element.readNumbered? Der.Tag.integer bs
  match e.content with
  | [] => none
  | first :: _ =>
    if 0x80 ≤ first.toNat ∨ e.constructed ∨ 4 < (Bytes.significant e.content).length then none
    else return (Bytes.toNat e.content, rest)

/-- The parts of a certificate that revocation checks use. -/
structure Certificate where
  serial : Bytes
  issuer : Name
  subject : Name
  publicKey : SubjectPublicKeyInfo
  algorithm : AlgorithmIdentifier
  signature : Bytes
  /-- The octets that are signed. -/
  signed : Bytes
  deriving DecidableEq, Repr

namespace Certificate

/-- A version in its wrapper, if there is one. -/
def skipVersion? (bs : Bytes) : Option Bytes := do
  let (e, rest) ← Der.Element.read? bs
  if e.number ≠ 0 then return bs
  else if e.tagClass ≠ .contextSpecific then none
  else do
    let _ ← SmallInteger.read? e.content
    return rest

/-- A unique identifier under the given tag number, if there is one. -/
def skipUniqueId? (number : Nat) (bs : Bytes) : Option Bytes := do
  if bs = [] then return bs
  let (e, rest) ← Der.Element.read? bs
  if e.number ≠ number then return bs
  else if e.tagClass ≠ .contextSpecific ∨ e.content = [] then none
  else return rest

/-- A certificate at the head of a byte string. -/
def read? (bs : Bytes) : Option (Certificate × Bytes) := do
  let (e, rest) ← Der.Element.readNumbered? Der.Tag.sequence bs
  let (signed, body) ← Der.Element.readNumbered? Der.Tag.sequence e.content
  let tbs ← skipVersion? signed.content
  let (serial, tbs) ← Serial.read? tbs
  let (_, tbs) ← AlgorithmIdentifier.read? tbs
  let (issuer, tbs) ← Name.read? tbs
  let (validity, tbs) ← Der.Element.readNumbered? Der.Tag.sequence tbs
  let (_, validity) ← Moment.read? validity.content
  let _ ← Moment.read? validity
  let (subject, tbs) ← Name.read? tbs
  let (publicKey, tbs) ← SubjectPublicKeyInfo.read? tbs
  let tbs ← skipUniqueId? 1 tbs
  let tbs ← skipUniqueId? 2 tbs
  let _ ← Extensions.wrapped? 3 tbs
  let (algorithm, body) ← AlgorithmIdentifier.read? body
  let (signature, _) ← BitString.read? body
  return ({ serial, issuer, subject, publicKey, algorithm, signature, signed := signed.octets },
    rest)

/-- The certificate that a byte string starts with. -/
def ofBytes? (bs : Bytes) : Option Certificate := (read? bs).map (·.1)

/-- Whether the key signed the certificate. -/
def isSignedBy (c : Certificate) (key : SubjectPublicKeyInfo) : Bool :=
  verifySignature key c.algorithm c.signed c.signature = .valid

end Certificate

end PeerTrust
