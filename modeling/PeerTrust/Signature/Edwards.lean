import PeerTrust.Digest.Sha2
import PeerTrust.Signature.Modular

/-!
# Ed25519 signatures

The curve `-x² + y² = 1 + d x² y²` over the prime `2²⁵⁵ - 19`. Points are kept as `(x, y, z, t)`
standing for `(x / z, y / z)`, with `t = x y / z`.

## Main definitions

* `Edwards.add`, `Edwards.multiply` — the group
* `Edwards.decode?`, `Edwards.encode` — points as 32 bytes
* `Edwards.verify` — whether a signature verifies
* `Edwards.publicKey` — the public key of a secret seed
-/

namespace PeerTrust.Edwards

/-- The prime of the field. -/
def prime : Nat := Nat.pow 2 255 - 19

/-- The order of the generator. -/
def order : Nat := Nat.pow 2 252 + 27742317777372353535851937790883648493

/-- The coefficient of the curve. -/
def d : Nat := 37095705934669439343138083508754565189542113879843219016388785533085940283555

/-- A square root of minus one. -/
def rootOfMinusOne : Nat :=
  19681161376707505956807079304988542015446066515923890162744021073123829784752

/-- A point in extended coordinates. -/
structure Point where
  x : Nat
  y : Nat
  z : Nat
  t : Nat
  deriving DecidableEq, Repr

/-- The neutral point. -/
def Point.neutral : Point := ⟨0, 1, 1, 0⟩

/-- The point with these coordinates. -/
def Point.ofAffine (x y : Nat) : Point := ⟨x, y, 1, x * y % prime⟩

/-- The generator. -/
def base : Point :=
  .ofAffine 15112221349535400772501151409588531511454012693041857206046113283949847762202
    46316835694926478169428394003475163141307993866256225615783033603165251855960

/-- The sum of two points. -/
def add (p q : Point) : Point :=
  let a := Modular.sub prime p.y p.x * Modular.sub prime q.y q.x % prime
  let b := (p.y + p.x) * (q.y + q.x) % prime
  let c := 2 * p.t * q.t * d % prime
  let z := 2 * p.z * q.z % prime
  let e := Modular.sub prime b a
  let f := Modular.sub prime z c
  let g := (z + c) % prime
  let h := (b + a) % prime
  ⟨e * f % prime, g * h % prime, f * g % prime, e * h % prime⟩

/-- The `n`-fold sum of a point. -/
def multiply (n : Nat) (p : Point) : Point :=
  if n = 0 then .neutral
  else
    let half := multiply (n / 2) p
    let twice := add half half
    if n % 2 = 1 then add twice p else twice
termination_by n

/-- The opposite point. -/
def negate (p : Point) : Point := ⟨(prime - p.x) % prime, p.y, p.z, (prime - p.t) % prime⟩

/-- A square root of `u / v`, if there is one. -/
def root? (u v : Nat) : Option Nat :=
  let v3 := v * v % prime * v % prime
  let v7 := v3 * v3 % prime * v % prime
  let x := u * v3 % prime * Modular.pow prime (u * v7 % prime) ((prime - 5) / 8) % prime
  let square := v * (x * x % prime) % prime
  if square = u then some x
  else if square = (prime - u) % prime then some (x * rootOfMinusOne % prime)
  else none

/-- The point that 32 bytes write: the second coordinate, and the parity of the first in the high
bit of the last byte. -/
def decode? (bs : Bytes) : Option Point :=
  if bs.length ≠ 32 then none
  else
    let n := Bytes.toNatLittle bs
    let parity := n / Nat.pow 2 255
    let y := n % Nat.pow 2 255 % prime
    let y2 := y * y % prime
    (root? (Modular.sub prime y2 1) ((d * y2 + 1) % prime)).map fun x =>
      .ofAffine (if x % 2 = parity then x else (prime - x) % prime) y

/-- The 32 bytes that write a point. -/
def encode (p : Point) : Bytes :=
  let inverse := Modular.inverse prime p.z
  let x := p.x * inverse % prime
  let y := p.y * inverse % prime
  Bytes.ofNatLittle 32 (y + x % 2 * Nat.pow 2 255)

/-- Whether `signature` signs `message` under the encoded key. -/
def verify (key message signature : Bytes) : Bool :=
  match decode? key, Bytes.split? 32 signature with
  | some a, some (r, scalar) =>
    let s := Bytes.toNatLittle scalar
    let k := Bytes.toNatLittle (Digest.sha512 (r ++ key ++ message)) % order
    scalar.length = 32 && s < order
      && encode (add (multiply s base) (multiply k (negate a))) = r
  | _, _ => false

/-- The public key that belongs to a secret seed of 32 bytes. -/
def publicKey (seed : Bytes) : Bytes :=
  let n := Bytes.toNatLittle ((Digest.sha512 seed).take 32) % Nat.pow 2 255
  let clamped := n % Nat.pow 2 254 / 8 * 8 + Nat.pow 2 254
  encode (multiply clamped base)

end PeerTrust.Edwards
