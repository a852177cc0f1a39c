import PeerTrust.Certification.Signature
import PeerTrust.Pem.Basic

/-!
# Private keys

A private key is usable if it is in one of the supported forms, its parts agree with each other, and
its public half can be computed from it.

## Main definitions

* `PrivateKey` — a key as it was armoured
* `PrivateKey.publicHalf?` — the public key that belongs to it
* `PrivateKey.fits` — whether a certificate is for the key
-/

namespace PeerTrust

/-- A private key as it was armoured: with an algorithm identifier, or for RSA or a prime curve
alone. -/
structure PrivateKey where
  kind : Pem.Kind
  content : Bytes
  deriving DecidableEq, Repr

namespace PrivateKey

/-- The content of a public key: the identifier of its algorithm, and its bits. -/
def publicKey (identifier bits : Bytes) : Bytes :=
  Der.encode 0x30 identifier ++ Der.encode 0x03 (0 :: bits)

/-- A number as an element. -/
def numberElement (n : Nat) : Bytes :=
  let digits := Bytes.ofNat n
  Der.encode 0x02 (if digits.head?.all (·.toNat < 0x80) ∧ digits ≠ [] then digits else 0 :: digits)

/-- The rest after an element with this tag byte that may be left out. -/
def skipOptional? (tag : UInt8) (bs : Bytes) : Option Bytes :=
  (Der.Strict.optional? tag bs).map (·.2)

/-- The key bytes of a wrapped key of the algorithm, with the version of the wrapping, and the rest
inside. -/
def unwrap? (identifier : Bytes) (bs : Bytes) : Option (Nat × Bytes × Bytes) := do
  let body ← Der.Strict.nested? 0x30 bs
  let (version, body) ← Der.Strict.natural? body
  let (found, body) ← Der.Strict.expect? 0x30 body
  if found ≠ identifier then none
  else
    let (key, body) ← Der.Strict.expect? 0x04 body
    return (version, key, ← skipOptional? 0xA0 body)

/-- The key bytes of a wrapped key of the algorithm, in the first version of the wrapping. -/
def unwrapFirst? (identifier : Bytes) (bs : Bytes) : Option Bytes := do
  match ← unwrap? identifier bs with
  | (0, key, []) => some key
  | _ => none

namespace Rsa

/-- The identifier of the algorithm. -/
def identifier : Bytes := (Certification.Algorithm.rsa 11 .sha256 []).key

/-- Numbers in a row. -/
def numbers? : (count : Nat) → Bytes → Option (List Nat)
  | 0, bs => if bs = [] then some [] else none
  | count + 1, bs => do
    let (n, rest) ← Der.Strict.natural? bs
    return n :: (← numbers? count rest)

/-- Whether the parts of a key agree: modulus, exponents, primes, and what is derived from them. -/
def agree (n e d p q dp dq qi : Nat) : Bool :=
  let bits := PeerTrust.Rsa.bitLength
  (PeerTrust.Rsa.PublicKey.mk n e).isUsable 2048 && bits n ≤ 4096 && 65537 ≤ e && p * q = n
    && bits p = bits q && bits p % 512 = 0 && d % 2 = 1 && d < n && bits n / 2 < bits d
    && dp % 2 = 1 && dp < p && dq % 2 = 1 && dq < q && qi < p && qi * q % p = 1

/-- The public half of a key without its identifier. -/
def publicHalf? (bs : Bytes) : Option Bytes := do
  match ← numbers? 9 (← Der.Strict.nested? 0x30 bs) with
  | [0, n, e, d, p, q, dp, dq, qi] =>
    -- The version is 0: keys of more than two primes are not supported.
    if agree n e d p q dp dq qi then
      some (publicKey identifier (Der.encode 0x30 (numberElement n ++ numberElement e)))
    else none
  | _ => none

end Rsa

namespace Prime

/-- The identifier of the algorithm with a curve. -/
def identifier (curve : Oid × Curve) : Bytes := (Certification.Algorithm.ecdsa curve 2 .sha256).key

/-- Whether the curve that a key may name is the expected one. -/
def namesCurve (curve : Oid × Curve) (named : Option Bytes) : Bool :=
  named.all (· = Der.encode 0x06 curve.1.content)

/-- The public half of a key over a curve without its identifier. The key itself holds it too. -/
def publicHalf? (curve : Oid × Curve) (bs : Bytes) : Option Bytes := do
  let (version, body) ← Der.Strict.natural? (← Der.Strict.nested? 0x30 bs)
  let (secret, body) ← Der.Strict.expect? 0x04 body
  let (named, body) ← Der.Strict.optional? 0xA0 body
  let (held, rest) ← Der.Strict.bitString? (← Der.Strict.nested? 0xA1 body)
  let n := Bytes.toNat secret
  if version = 1 ∧ namesCurve curve named ∧ rest = [] ∧ secret.length = curve.2.size ∧ 0 < n
      ∧ n < curve.2.order ∧ held = curve.2.publicPoint n then
    some (publicKey (identifier curve) held)
  else none

end Prime

namespace Edwards

/-- The identifier of the algorithm. -/
def identifier : Bytes := Certification.Algorithm.ed25519.key

/-- Whether the public key that a wrapping may hold is the expected one. -/
def holds (expected : Bytes) : (version : Nat) → (rest : Bytes) → Bool
  | 0, rest => rest = []
  -- The second version must hold the public key, under either of two wrappers.
  | 1, rest =>
    let held := (Der.Strict.nested? 0x81 rest).bind Der.Strict.wholeBits?
    let heldInside := (Der.Strict.nested? 0xA1 rest).bind fun inner =>
      (Der.Strict.nested? 0x03 inner).bind Der.Strict.wholeBits?
    held = some expected || heldInside = some expected
  | _, _ => false

/-- The public half of a wrapped key. -/
def publicHalf? (bs : Bytes) : Option Bytes := do
  let (version, key, rest) ← unwrap? identifier bs
  let seed ← Der.Strict.nested? 0x04 key
  let bits := PeerTrust.Edwards.publicKey seed
  if seed.length = 32 ∧ holds bits version rest then some (publicKey identifier bits) else none

end Edwards

/-- The public half of a wrapped key of any supported algorithm. -/
def ofWrapped? (bs : Bytes) : Option Bytes :=
  ((unwrapFirst? Rsa.identifier bs).bind Rsa.publicHalf?)
    <|> (SignatureScheme.curves.findSome? fun curve =>
      (unwrapFirst? (Prime.identifier curve) bs).bind (Prime.publicHalf? curve))
    <|> Edwards.publicHalf? bs

/-- The content of the public key that belongs to a key, if the key is usable. -/
def publicHalf? (key : PrivateKey) : Option Bytes :=
  match key.kind with
  | .privateKey => ofWrapped? key.content
  | .rsaPrivateKey => Rsa.publicHalf? key.content
  | .ecPrivateKey => SignatureScheme.curves.findSome? (Prime.publicHalf? · key.content)
  | _ => none

/-- Whether a certificate is for the key. -/
def fits (key : PrivateKey) (cert : Bytes) : Bool :=
  match key.publicHalf?, Certification.Certificate.ofDer cert with
  | some half, .ok c => c.publicKey = half
  | _, _ => false

end PrivateKey

end PeerTrust
