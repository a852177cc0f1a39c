import PeerTrust.Der.Strict
import PeerTrust.Digest.Sha2
import PeerTrust.Signature.Modular

/-!
# RSA signatures

A signature is a number below the modulus whose power by the public exponent is the digest in a
fixed frame.

## Main definitions

* `Rsa.PublicKey`, `Rsa.PublicKey.read?` — modulus and exponent
* `Rsa.frame` — the digest as it is signed
* `Rsa.verify` — whether a signature verifies
-/

namespace PeerTrust.Rsa

/-- A public key. -/
structure PublicKey where
  modulus : Nat
  exponent : Nat
  deriving DecidableEq, Repr

/-- The key that a byte string encodes. -/
def PublicKey.read? (bs : Bytes) : Option PublicKey := do
  let content ← Der.Strict.nested? 0x30 bs
  let (modulus, rest) ← Der.Strict.positive? content
  let (exponent, rest) ← Der.Strict.positive? rest
  if rest = [] then some ⟨modulus, exponent⟩ else none

/-- How many bytes the modulus takes. -/
def PublicKey.size (key : PublicKey) : Nat := (Bytes.ofNat key.modulus).length

/-- How many bits a number takes. -/
def bitLength (n : Nat) : Nat := if n = 0 then 0 else n.log2 + 1

/-- Whether the key may verify signatures: an odd modulus of whole bytes of at least `minBits` and
at most 8192 bits, and an odd exponent from 3 to below 2³³. -/
def PublicKey.isUsable (key : PublicKey) (minBits : Nat) : Bool :=
  key.modulus % 2 = 1 && minBits ≤ 8 * key.size && bitLength key.modulus ≤ 8192
    && key.exponent % 2 = 1 && 3 ≤ key.exponent && key.exponent < 0x200000000

/-- The identification of a digest algorithm inside the frame, up to the digest itself. -/
def digestHeader : Digest.Algorithm → Bytes
  | .sha1 => [0x30, 0x21, 0x30, 0x09, 0x06, 0x05, 0x2b, 0x0e, 0x03, 0x02, 0x1a, 0x05, 0x00, 0x04,
      0x14]
  | .sha256 => [0x30, 0x31, 0x30, 0x0d, 0x06, 0x09, 0x60, 0x86, 0x48, 0x01, 0x65, 0x03, 0x04, 0x02,
      0x01, 0x05, 0x00, 0x04, 0x20]
  | .sha384 => [0x30, 0x41, 0x30, 0x0d, 0x06, 0x09, 0x60, 0x86, 0x48, 0x01, 0x65, 0x03, 0x04, 0x02,
      0x02, 0x05, 0x00, 0x04, 0x30]
  | .sha512 => [0x30, 0x51, 0x30, 0x0d, 0x06, 0x09, 0x60, 0x86, 0x48, 0x01, 0x65, 0x03, 0x04, 0x02,
      0x03, 0x05, 0x00, 0x04, 0x40]

/-- The digest of a message in its frame of `size` bytes. -/
def frame (algorithm : Digest.Algorithm) (size : Nat) (message : Bytes) : Bytes :=
  let info := digestHeader algorithm ++ algorithm.digest message
  [0x00, 0x01] ++ List.replicate (size - info.length - 3) 0xff ++ [0x00] ++ info

/-- Whether `signature` signs `message` under the encoded key, whose modulus takes at least
`minBits` bits. -/
def verify (algorithm : Digest.Algorithm) (minBits : Nat) (key message signature : Bytes) : Bool :=
  match PublicKey.read? key with
  | none => false
  | some key =>
    let s := Bytes.toNat signature
    key.isUsable minBits && signature.length = key.size && s < key.modulus
      && Bytes.ofNatPadded key.size (Modular.pow key.modulus s key.exponent)
        = frame algorithm key.size message

end PeerTrust.Rsa
