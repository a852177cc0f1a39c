import PeerTrust.Certification.Reader

/-!
# Certificates and anchors of a path

The strict reading of certificates: version 3 only, every byte accounted for, and no critical
extension that is not understood.

## Main definitions

* `Certification.Certificate`, `Certification.Certificate.ofDer` — certificates
* `Certification.Anchor`, `Certification.Anchor.ofDer` — trust anchors

An anchor is a certificate of version 3, or one of version 1 of which only the parts that are used
are looked at.
-/

namespace PeerTrust.Certification

/-- A signature beside the octets that it signs. -/
structure Signed where
  octets : Bytes
  algorithm : Bytes
  signature : Bytes
  deriving DecidableEq, Repr

/-- The extensions that are understood, by the last byte of their identifiers. -/
def understood : List UInt8 := [15, 17, 19, 30, 31, 37]

/-- The contents of the extensions that are understood. -/
abbrev Extensions := List (UInt8 × Bytes)

/-- A certificate. Names, validity and key are the contents of their elements. -/
structure Certificate where
  der : Bytes
  signed : Signed
  issuer : Bytes
  validity : Bytes
  subject : Bytes
  publicKey : Bytes
  extensions : Extensions
  deriving DecidableEq, Repr

namespace Certificate

/-- The alternative names of the subject. -/
def alternativeNames (c : Certificate) : Option Bytes := c.extensions.lookup 17

/-- Whether, and above how many others, the certificate stands for an authority. -/
def basicConstraints (c : Certificate) : Option Bytes := c.extensions.lookup 19

/-- What the names below the certificate must keep to. -/
def nameConstraints (c : Certificate) : Option Bytes := c.extensions.lookup 30

/-- What the key may be used for. -/
def purposes (c : Certificate) : Option Bytes := c.extensions.lookup 37

/-- The content of an extension with this number: a sequence, but for the key usage. -/
def extensionContent (number : UInt8) (value : Bytes) : Except Problem Bytes :=
  if number = 15 then .ok value else whole .badEncoding (expect 0x30) value

/-- An extension taken into account after others. -/
def remember (extensions : Extensions) (id : Bytes) (critical : Bool) (value : Bytes) :
    Except Problem Extensions :=
  match id with
  | [0x55, 0x1D, number] =>
    if number ∈ understood then
      if (extensions.lookup number).isSome then .error .repeatedExtension
      else do return (number, ← extensionContent number value) :: extensions
    else if critical then .error .unsupportedCriticalExtension
    else .ok extensions
  | _ => if critical then .error .unsupportedCriticalExtension else .ok extensions

/-- One extension. -/
def extension (extensions : Extensions) : Reader Extensions :=
  nested 0x30 .trailingData do
    let id ← expect 0x06
    let critical ← flag
    let value ← expect 0x04
    remember extensions id critical value

/-- The extensions in their wrapper, if there is one. -/
def readExtensions : Reader Extensions := do
  if ← atEnd then return []
  nested 0xA3 .trailingData (nested 0x30 .trailingData (untilEnd extension []))

/-- The version, which must be the third. -/
def version : Reader Unit :=
  nested 0xA0 .unsupportedVersion do
    if (← smallNumber) ≠ 2 then throw .unsupportedVersion

/-- What is signed, with its signature. -/
def signedParts : Reader (Bytes × Signed) := do
  let (octets, content) ← octetsOf (expect 0x30)
  let algorithm ← expect 0x30
  let signature ← bitString
  return (content, ⟨octets, algorithm, signature⟩)

/-- The parts of the signed content. -/
def body (der : Bytes) (signed : Signed) : Reader Certificate := do
  version
  let _ ← expect 0x02
  if (← expect 0x30) ≠ signed.algorithm then throw .algorithmsDiffer
  let issuer ← expect 0x30
  let validity ← expect 0x30
  let subject ← expect 0x30
  let publicKey ← expect 0x30
  let extensions ← readExtensions
  return { der, signed, issuer, validity, subject, publicKey, extensions }

/-- The certificate that a byte string encodes. -/
def ofDer (der : Bytes) : Except Problem Certificate := do
  let (content, signed) ← whole .trailingData (nested 0x30 .trailingData signedParts) der
  whole .trailingData (body der signed) content

end Certificate

/-- A trust anchor. -/
structure Anchor where
  der : Bytes
  subject : Bytes
  publicKey : Bytes
  nameConstraints : Option Bytes
  deriving DecidableEq, Repr

namespace Anchor

/-- The parts of a certificate without a version. -/
def bodyWithoutVersion (der : Bytes) : Reader Anchor := do
  let _ ← expect 0x02
  let _ ← expect 0x30
  let _ ← expect 0x30
  let _ ← expect 0x30
  let subject ← expect 0x30
  let publicKey ← expect 0x30
  return { der, subject, publicKey, nameConstraints := none }

/-- The anchor that a certificate without a version makes. -/
def ofFirstVersion (der : Bytes) : Except Problem Anchor :=
  whole .badEncoding (nested 0x30 .badEncoding do
    let anchor ← nested 0x30 .badEncoding (bodyWithoutVersion der)
    let _ ← expect 0x30
    let _ ← expect 0x03
    return anchor) der

/-- The anchor that a certificate makes. -/
def ofDer (der : Bytes) : Except Problem Anchor :=
  match Certificate.ofDer der with
  | .ok c => .ok ⟨der, c.subject, c.publicKey, c.nameConstraints⟩
  | .error .unsupportedVersion => (ofFirstVersion der).mapError fun _ => .badEncoding
  | .error p => .error p

end Anchor

end PeerTrust.Certification
