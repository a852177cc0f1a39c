import PeerTrust.Oid
import PeerTrust.Signature.Curve
import PeerTrust.Signature.Edwards
import PeerTrust.Signature.Rsa

/-!
# Signed data under an algorithm identifier

The algorithm identifier beside a signature chooses how it is verified. For the prime curves the
curve is named by the parameters of the *key's* identifier, and any of the two curves goes with any
of the two digests.

## Main definitions

* `AlgorithmIdentifier` — an identifier with its parameters
* `SubjectPublicKeyInfo` — a key with its identifier
* `BitString.read?` — a bit string whose unused bits are zero
* `SignatureScheme.choose?` — what an identifier and a key choose
* `verifySignature` — whether a signature verifies, or that the choice is unsupported
-/

namespace PeerTrust

/-- An algorithm with its parameters. -/
structure AlgorithmIdentifier where
  algorithm : Oid
  parameters : Option Der.Element
  deriving DecidableEq, Repr

/-- An algorithm identifier at the head of a byte string. -/
def AlgorithmIdentifier.read? (bs : Bytes) : Option (AlgorithmIdentifier × Bytes) := do
  let (e, rest) ← Der.Element.readNumbered? Der.Tag.sequence bs
  let (algorithm, body) ← Oid.read? e.content
  if body = [] then return (⟨algorithm, none⟩, rest)
  let (parameters, _) ← Der.Element.read? body
  return (⟨algorithm, some parameters⟩, rest)

/-- How many of the last bits of a byte are zero. -/
def trailingZeros (b : UInt8) : Nat :=
  ((List.range 8).takeWhile fun i => !b.toNat.testBit i).length

/-- The bytes of a bit string: the first byte counts the unused bits of the last, which are zero. -/
def BitString.ofContent? : Bytes → Option Bytes
  | [] => none
  | [unused] => if unused = 0 then some [] else none
  | unused :: b :: bits =>
    if unused.toNat ≤ trailingZeros ((b :: bits).getLast (List.cons_ne_nil b bits)) then
      some (b :: bits)
    else none

/-- A bit string at the head of a byte string. -/
def BitString.read? (bs : Bytes) : Option (Bytes × Bytes) := do
  let (e, rest) ← Der.Element.readNumbered? Der.Tag.bitString bs
  if e.constructed then none else return (← BitString.ofContent? e.content, rest)

/-- A public key with the algorithm that it is for. -/
structure SubjectPublicKeyInfo where
  algorithm : AlgorithmIdentifier
  key : Bytes
  deriving DecidableEq, Repr

/-- A public key at the head of a byte string. -/
def SubjectPublicKeyInfo.read? (bs : Bytes) : Option (SubjectPublicKeyInfo × Bytes) := do
  let (e, rest) ← Der.Element.readNumbered? Der.Tag.sequence bs
  let (algorithm, body) ← AlgorithmIdentifier.read? e.content
  let (key, _) ← BitString.read? body
  return (⟨algorithm, key⟩, rest)

/-- A way to verify a signature. -/
inductive SignatureScheme
  | rsa (digest : Digest.Algorithm) (minBits : Nat)
  | ecdsa (curve : Curve) (digest : Digest.Algorithm)
  | ed25519
  deriving DecidableEq, Repr

namespace SignatureScheme

/-- Whether `signature` signs `message` under the key bytes. -/
def verify : SignatureScheme → (key message signature : Bytes) → Bool
  | rsa digest minBits => Rsa.verify digest minBits
  | ecdsa curve digest => curve.verify digest
  | ed25519 => Edwards.verify

/-- The curves by their identifiers. -/
def curves : List (Oid × Curve) :=
  [(Oid.ofArcs [1, 2, 840, 10045, 3, 1, 7], Curve.p256), (Oid.ofArcs [1, 3, 132, 0, 34], Curve.p384)]

/-- The curve that the parameters of a key name. -/
def curveOf? (key : AlgorithmIdentifier) : Option Curve := do
  let parameters ← key.parameters
  curves.lookup ⟨parameters.content⟩

/-- The algorithms whose scheme does not depend on the key. -/
def fixed : List (Oid × SignatureScheme) :=
  [(Oid.ofArcs [1, 2, 840, 113549, 1, 1, 5], rsa .sha1 1024),
   (Oid.ofArcs [1, 3, 14, 3, 2, 29], rsa .sha1 1024),
   (Oid.ofArcs [1, 2, 840, 113549, 1, 1, 11], rsa .sha256 2048),
   (Oid.ofArcs [1, 2, 840, 113549, 1, 1, 12], rsa .sha384 2048),
   (Oid.ofArcs [1, 2, 840, 113549, 1, 1, 13], rsa .sha512 2048),
   (Oid.ofArcs [1, 3, 101, 112], ed25519)]

/-- The algorithms over prime curves, by their digests. -/
def overCurves : List (Oid × Digest.Algorithm) :=
  [(Oid.ofArcs [1, 2, 840, 10045, 4, 3, 2], .sha256),
   (Oid.ofArcs [1, 2, 840, 10045, 4, 3, 3], .sha384)]

/-- The scheme that the identifier beside a signature and the identifier of a key choose. -/
def choose? (signed key : AlgorithmIdentifier) : Option SignatureScheme :=
  match fixed.lookup signed.algorithm with
  | some scheme => some scheme
  | none => do return .ecdsa (← curveOf? key) (← overCurves.lookup signed.algorithm)

end SignatureScheme

/-- What came of verifying a signature. -/
inductive SignatureResult
  | valid
  | invalid
  /-- No scheme goes with the algorithm and the key. -/
  | unsupported
  deriving DecidableEq, Repr

/-- Verifies a signature over `message` beside the identifier `signed`, under a public key. -/
def verifySignature (key : SubjectPublicKeyInfo) (signed : AlgorithmIdentifier)
    (message signature : Bytes) : SignatureResult :=
  match SignatureScheme.choose? signed key.algorithm with
  | none => .unsupported
  | some scheme => if scheme.verify key.key message signature then .valid else .invalid

end PeerTrust
