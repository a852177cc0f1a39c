import PeerTrust.Der.Strict
import PeerTrust.Digest.Sha2
import PeerTrust.Signature.Modular

/-!
# Signatures over prime curves

The curves `y² = x³ - 3x + b` over the primes of 256 and 384 bits. Points are computed with in
coordinates `(x, y, z)` that stand for `(x / z², y / z³)`, with `z = 0` for the neutral point.

## Main definitions

* `Curve`, `Curve.p256`, `Curve.p384` — the two curves
* `Curve.Point`, `Curve.add`, `Curve.double`, `Curve.multiply` — the group
* `Curve.readPoint?` — an uncompressed point of the curve
* `Curve.verify` — whether a signature verifies
-/

namespace PeerTrust

/-- A curve with its field, its order and its generator. -/
structure Curve where
  /-- Bytes of a coordinate and of a scalar. -/
  size : Nat
  prime : Nat
  b : Nat
  order : Nat
  baseX : Nat
  baseY : Nat
  deriving DecidableEq, Repr

namespace Curve

/-- The curve over the prime of 256 bits. -/
def p256 : Curve where
  size := 32
  prime := 0xffffffff00000001000000000000000000000000ffffffffffffffffffffffff
  b := 0x5ac635d8aa3a93e7b3ebbd55769886bc651d06b0cc53b0f63bce3c3e27d2604b
  order := 0xffffffff00000000ffffffffffffffffbce6faada7179e84f3b9cac2fc632551
  baseX := 0x6b17d1f2e12c4247f8bce6e563a440f277037d812deb33a0f4a13945d898c296
  baseY := 0x4fe342e2fe1a7f9b8ee7eb4a7c0f9e162bce33576b315ececbb6406837bf51f5

/-- The curve over the prime of 384 bits. -/
def p384 : Curve where
  size := 48
  prime := 0xfffffffffffffffffffffffffffffffffffffffffffffffffffffffffffffffeffffffff0000000000000000ffffffff
  b := 0xb3312fa7e23ee7e4988e056be3f82d19181d9c6efe8141120314088f5013875ac656398d8a2ed19d2a85c8edd3ec2aef
  order := 0xffffffffffffffffffffffffffffffffffffffffffffffffc7634d81f4372ddf581a0db248b0a77aecec196accc52973
  baseX := 0xaa87ca22be8b05378eb1c71ef320ad746e1d3b628ba79b9859f741e082542a385502f25dbf55296c3a545e3872760ab7
  baseY := 0x3617de4a96262c6f5d9e98bf9292dc29f8f41dbd289a147ce9da3113b5f0b8c00a60b1ce1d7e819d7a431d7c90ea0e5f

/-- A point in coordinates with a common denominator. -/
structure Point where
  x : Nat
  y : Nat
  z : Nat
  deriving DecidableEq, Repr

/-- The neutral point. -/
def Point.neutral : Point := ⟨1, 1, 0⟩

variable (c : Curve)

/-- The generator. -/
def base : Point := ⟨c.baseX, c.baseY, 1⟩

/-- The sum of a point with itself. -/
def double (p : Point) : Point :=
  let m := c.prime
  if p.z = 0 ∨ p.y = 0 then .neutral
  else
    let z2 := p.z * p.z % m
    let y2 := p.y * p.y % m
    let s := 4 * (p.x * y2) % m
    let slope := 3 * (Modular.sub m p.x z2 * (p.x + z2)) % m
    let x := Modular.sub m (slope * slope) (2 * s % m)
    let y := Modular.sub m (slope * Modular.sub m s x) (8 * (y2 * y2) % m)
    ⟨x, y, 2 * (p.y * p.z) % m⟩

/-- The sum of two points. -/
def add (p q : Point) : Point :=
  let m := c.prime
  if p.z = 0 then q
  else if q.z = 0 then p
  else
    let pz2 := p.z * p.z % m
    let qz2 := q.z * q.z % m
    let u1 := p.x * qz2 % m
    let u2 := q.x * pz2 % m
    let s1 := p.y * (qz2 * q.z % m) % m
    let s2 := q.y * (pz2 * p.z % m) % m
    -- Equal first coordinates: the same point or opposite ones.
    if u1 = u2 then if s1 = s2 then double c p else .neutral
    else
      let h := Modular.sub m u2 u1
      let r := Modular.sub m s2 s1
      let h2 := h * h % m
      let h3 := h2 * h % m
      let v := u1 * h2 % m
      let x := Modular.sub m (Modular.sub m (r * r) h3) (2 * v % m)
      let y := Modular.sub m (r * Modular.sub m v x) (s1 * h3 % m)
      ⟨x, y, p.z * q.z % m * h % m⟩

/-- The `n`-fold sum of a point. -/
def multiply (n : Nat) (p : Point) : Point :=
  if n = 0 then .neutral
  else
    let half := double c (multiply (n / 2) p)
    if n % 2 = 1 then add c half p else half
termination_by n

/-- Whether `y² = x³ - 3x + b`. -/
def contains (x y : Nat) : Bool :=
  y * y % c.prime = (x * x % c.prime * x + 3 * (c.prime - x) + c.b) % c.prime

/-- The coordinates of an uncompressed point of the curve. -/
def readCoordinates? : Bytes → Option (Nat × Nat)
  | 0x04 :: coordinates => do
    let (xs, ys) ← Bytes.split? c.size coordinates
    let x := Bytes.toNat xs
    let y := Bytes.toNat ys
    if ys.length = c.size ∧ x < c.prime ∧ y < c.prime ∧ c.contains x y then some (x, y) else none
  | _ => none

/-- The first coordinate of a point other than the neutral one. -/
def affineX? (p : Point) : Option Nat :=
  if p.z = 0 then none
  else some (p.x * Modular.inverse c.prime (p.z * p.z % c.prime) % c.prime)

/-- The uncompressed writing of the `n`-fold generator. -/
def publicPoint (n : Nat) : Bytes :=
  let p := multiply c n c.base
  let inverse := Modular.inverse c.prime p.z
  let inverse2 := inverse * inverse % c.prime
  0x04 :: Bytes.ofNatPadded c.size (p.x * inverse2 % c.prime)
    ++ Bytes.ofNatPadded c.size (p.y * inverse2 % c.prime * inverse % c.prime)

/-- The two numbers of an encoded signature. -/
def readSignature? (bs : Bytes) : Option (Nat × Nat) := do
  let content ← Der.Strict.nested? 0x30 bs
  let (r, rest) ← Der.Strict.positive? content
  let (s, rest) ← Der.Strict.positive? rest
  if rest = [] then some (r, s) else none

/-- Whether the encoded `signature` signs `message` under the encoded point. A digest longer than
a scalar is cut to its first bytes. -/
def verify (algorithm : Digest.Algorithm) (key message signature : Bytes) : Bool :=
  match c.readCoordinates? key, readSignature? signature with
  | some (x, y), some (r, s) =>
    let n := c.order
    if r < n ∧ s < n then
      let e := Bytes.toNat ((algorithm.digest message).take c.size)
      let w := Modular.inverse n s
      let sum := add c (multiply c (e * w % n) c.base) (multiply c (r * w % n) ⟨x, y, 1⟩)
      match c.affineX? sum with
      | some x => x % n = r
      | none => false
    else false
  | _, _ => false

end Curve

end PeerTrust
