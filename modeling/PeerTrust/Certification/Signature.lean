import PeerTrust.Certification.Certificate
import PeerTrust.Der.Encode
import PeerTrust.Signature.Scheme

/-!
# Signatures in a path

The whole algorithm identifier beside a signature, and the whole identifier inside the key, choose
how the signature is verified.

## Main definitions

* `Certification.Algorithm`, `Certification.Algorithm.all` — the supported combinations
* `Certification.Signed.verify` — whether a key made the signature
-/

namespace PeerTrust.Certification

/-- A supported combination: the contents of the two identifiers, and the scheme. -/
structure Algorithm where
  signed : Bytes
  key : Bytes
  scheme : SignatureScheme
  deriving DecidableEq, Repr

namespace Algorithm

/-- An identifier as it is written. -/
def identifier (arcs : List Nat) : Bytes := Der.encode 0x06 (Oid.ofArcs arcs).content

/-- Parameters that are empty. -/
def emptyParameters : Bytes := Der.encode 0x05 []

/-- A digest signed with RSA; the identifier beside the signature may leave out its parameters. -/
def rsa (last : Nat) (digest : Digest.Algorithm) (parameters : Bytes) : Algorithm where
  signed := identifier [1, 2, 840, 113549, 1, 1, last] ++ parameters
  key := identifier [1, 2, 840, 113549, 1, 1, 1] ++ emptyParameters
  scheme := .rsa digest 2048

/-- A digest signed over a prime curve. -/
def ecdsa (curve : Oid × Curve) (last : Nat) (digest : Digest.Algorithm) : Algorithm where
  signed := identifier [1, 2, 840, 10045, 4, 3, last]
  key := identifier [1, 2, 840, 10045, 2, 1] ++ Der.encode 0x06 curve.1.content
  scheme := .ecdsa curve.2 digest

/-- A signature over the Edwards curve. -/
def ed25519 : Algorithm where
  signed := identifier [1, 3, 101, 112]
  key := identifier [1, 3, 101, 112]
  scheme := .ed25519

/-- The supported combinations. -/
def all : List Algorithm :=
  (SignatureScheme.curves.flatMap fun curve => [ecdsa curve 2 .sha256, ecdsa curve 3 .sha384])
    ++ [ed25519]
    ++ [emptyParameters, []].flatMap fun parameters =>
      [rsa 11 .sha256 parameters, rsa 12 .sha384 parameters, rsa 13 .sha512 parameters]

end Algorithm

/-- The identifier and the bits of a key. -/
def keyParts : Reader (Bytes × Bytes) := do
  let identifier ← expect 0x30
  let bits ← bitString
  return (identifier, bits)

/-- Whether the key made the signature. A key is read only once the algorithm is known to be
supported. -/
def Signed.verify (s : Signed) (publicKey : Bytes) : Except Problem Unit :=
  match Algorithm.all.filter (·.signed = s.algorithm) with
  | [] => .error .unsupportedAlgorithm
  | candidates => do
    let (identifier, bits) ← whole .trailingData keyParts publicKey
    match candidates.find? (·.key = identifier) with
    -- The algorithm is known, but for keys of another kind.
    | none => throw .unsupportedForKey
    | some algorithm =>
      if algorithm.scheme.verify bits s.octets s.signature then return () else throw .badSignature

end PeerTrust.Certification
