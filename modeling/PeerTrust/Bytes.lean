/-!
# Byte strings

Byte strings are lists of bytes. This file holds the operations that every encoding shares:
cutting a string at a given length, reading and writing big-endian numbers, and hexadecimal text.

## Main definitions

* `Bytes.split?` — the first `n` bytes and the rest, if there are that many
* `Bytes.toNat` / `Bytes.ofNat` — the unsigned big-endian number a string denotes, and its
  shortest writing
* `Bytes.significant` — a string without its leading zero bytes
* `Bytes.toHex` / `Bytes.ofHex?` — two hexadecimal digits a byte

## Main results

* `Bytes.toNat_significant` — leading zero bytes do not change the number
* `Bytes.append_of_split?` — cutting loses nothing
-/

namespace PeerTrust

/-- A byte string. -/
abbrev Bytes := List UInt8

namespace Bytes

/-- The first `n` bytes and the rest; `none` if there are fewer than `n`. -/
def split? (n : Nat) (bs : Bytes) : Option (Bytes × Bytes) :=
  let front := bs.take n
  if front.length = n then some (front, bs.drop n) else none

theorem append_of_split? {n : Nat} {bs front rest : Bytes}
    (h : split? n bs = some (front, rest)) : front ++ rest = bs ∧ front.length = n := by
  simp only [split?] at h
  split at h
  · obtain ⟨rfl, rfl⟩ := Prod.mk.inj (Option.some.inj h)
    exact ⟨List.take_append_drop n bs, by assumption⟩
  · simp at h

theorem split?_append (front rest : Bytes) :
    split? front.length (front ++ rest) = some (front, rest) := by
  simp [split?]

theorem length_le_of_split? {n : Nat} {bs front rest : Bytes}
    (h : split? n bs = some (front, rest)) : rest.length ≤ bs.length := by
  have := congrArg List.length (append_of_split? h).1
  simp at this
  omega

/-- The unsigned number that a byte string denotes, most significant byte first. -/
def toNat (bs : Bytes) : Nat :=
  bs.foldl (fun n b => 256 * n + b.toNat) 0

@[simp] theorem toNat_nil : toNat [] = 0 := rfl

theorem toNat_concat (bs : Bytes) (b : UInt8) : toNat (bs ++ [b]) = 256 * toNat bs + b.toNat := by
  simp [toNat]

theorem toNat_zero_cons (bs : Bytes) : toNat (0 :: bs) = toNat bs := by
  simp [toNat]

/-- The bytes of `n` in front of `low`, without leading zero bytes. -/
def ofNatOnto (n : Nat) (low : Bytes) : Bytes :=
  if n = 0 then low else ofNatOnto (n / 256) (UInt8.ofNat n :: low)
termination_by n
decreasing_by omega

/-- The shortest big-endian writing of a number; zero is written by no bytes at all. -/
def ofNat (n : Nat) : Bytes := ofNatOnto n []

/-- The big-endian writing of `n` with at least `width` bytes. -/
def ofNatPadded (width n : Nat) : Bytes :=
  let digits := ofNat n
  List.replicate (width - digits.length) 0 ++ digits

/-- The string without its leading zero bytes. -/
def significant (bs : Bytes) : Bytes := bs.dropWhile (· == 0)

theorem toNat_significant (bs : Bytes) : toNat (significant bs) = toNat bs := by
  induction bs with
  | nil => rfl
  | cons b bs ih =>
    by_cases h : b = 0
    · subst h
      rw [toNat_zero_cons, ← ih]
      rfl
    · simp [significant, h]

/-- The number that a byte string denotes, least significant byte first. -/
def toNatLittle (bs : Bytes) : Nat := toNat bs.reverse

/-- The little-endian writing of `n` in exactly `width` bytes, higher bytes dropped. -/
def ofNatLittle : (width : Nat) → (n : Nat) → Bytes
  | 0, _ => []
  | width + 1, n => UInt8.ofNat n :: ofNatLittle width (n / 256)

/-- The bytes of a text whose characters are all below `0x100`. -/
def ofAscii (s : String) : Bytes := s.toList.map fun c => UInt8.ofNat c.toNat

/-- The two hexadecimal digits of a byte. -/
def hexPair (digit : Nat → Char) (b : UInt8) : List Char :=
  [digit (b.toNat / 16), digit (b.toNat % 16)]

/-- Lower-case hexadecimal text, two digits a byte. -/
def toHex (bs : Bytes) : String := String.ofList (bs.flatMap (hexPair Nat.digitChar))

/-- Upper-case hexadecimal text, two digits a byte. -/
def toUpperHex (bs : Bytes) : String :=
  String.ofList (bs.flatMap (hexPair fun n => (Nat.digitChar n).toUpper))

/-- Hexadecimal pairs joined by colons. -/
def toColonHex (bs : Bytes) : String :=
  ":".intercalate (bs.map fun b => String.ofList (hexPair Nat.digitChar b))

/-- The value of a hexadecimal digit of either case. -/
def hexDigit? (c : Char) : Option Nat :=
  if c.isDigit then some (c.toNat - '0'.toNat)
  else if 'a' ≤ c ∧ c ≤ 'f' then some (c.toNat - 'a'.toNat + 10)
  else if 'A' ≤ c ∧ c ≤ 'F' then some (c.toNat - 'A'.toNat + 10)
  else none

/-- The bytes that a list of hexadecimal digits denotes, if it is one of even length. -/
def ofHexDigits? : List Char → Option Bytes
  | [] => some []
  | high :: low :: rest => do
    let h ← hexDigit? high
    let l ← hexDigit? low
    return UInt8.ofNat (16 * h + l) :: (← ofHexDigits? rest)
  | [_] => none

/-- The bytes that hexadecimal text denotes. -/
def ofHex? (s : String) : Option Bytes := ofHexDigits? s.toList

/-- The list cut into pieces of `n`; a shorter last piece is kept. -/
def chunks {α : Type} (n : Nat) (xs : List α) : List (List α) :=
  if _h : n = 0 ∨ xs = [] then []
  else xs.take n :: chunks n (xs.drop n)
termination_by xs.length
decreasing_by
  have : xs.length ≠ 0 := fun h' => _h (.inr (List.eq_nil_of_length_eq_zero h'))
  simp only [List.length_drop]
  omega

end Bytes

end PeerTrust
