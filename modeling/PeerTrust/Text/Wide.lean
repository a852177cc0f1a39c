import PeerTrust.Text.Utf8

/-!
# Text in one, two and four bytes a unit

Directory names may also be written in Latin-1, in big-endian UTF-16 and in big-endian UTF-32.

## Main definitions

* `Text.Latin1.decode` — one character a byte
* `Text.Utf16.units` — the units of a byte string; bytes short of a unit are dropped or kept
* `Text.Utf16.decode?` / `Text.Utf16.decodeLossy` — strict and lossy reading of units
* `Text.Utf32.decodeLossy` — lossy reading of four-byte units
-/

namespace PeerTrust.Text

/-- Every byte is the character of that number. -/
def Latin1.decode (bs : Bytes) : List Char := bs.map fun b => Char.ofNat b.toNat

namespace Utf16

/-- The whole two-byte units of a byte string; an odd last byte is dropped. -/
def units : Bytes → List Nat
  | high :: low :: rest => (256 * high.toNat + low.toNat) :: units rest
  | _ => []

/-- The two-byte units of a byte string; an odd last byte is a unit of its own. -/
def unitsWithTail : Bytes → List Nat
  | high :: low :: rest => (256 * high.toNat + low.toNat) :: unitsWithTail rest
  | [last] => [last.toNat]
  | [] => []

/-- The first half of a surrogate pair. -/
def isHigh (u : Nat) : Bool := 0xD800 ≤ u && u < 0xDC00

/-- The second half of a surrogate pair. -/
def isLow (u : Nat) : Bool := 0xDC00 ≤ u && u < 0xE000

/-- The marks of a sequence of units: a character, or `none` for a lone surrogate. -/
def scan : List Nat → List (Option Char)
  | [] => []
  | [u] => [if isHigh u || isLow u then none else some (Char.ofNat u)]
  | u :: v :: rest =>
    if isHigh u && isLow v then
      some (Char.ofNat (0x10000 + 0x400 * (u - 0xD800) + (v - 0xDC00))) :: scan rest
    else if isHigh u || isLow u then none :: scan (v :: rest)
    else some (Char.ofNat u) :: scan (v :: rest)

/-- The text of a sequence of units without lone surrogates. -/
def decode? (us : List Nat) : Option (List Char) := (scan us).mapM id

/-- The text of a sequence of units, each lone surrogate replaced. -/
def decodeLossy (us : List Nat) : List Char := (scan us).map (·.getD replacement)

end Utf16

namespace Utf32

/-- The whole four-byte units of a byte string; up to three last bytes are dropped. -/
def units : Bytes → List Nat
  | a :: b :: c :: d :: rest => Bytes.toNat [a, b, c, d] :: units rest
  | _ => []

/-- The character of a number, or the replacement character if the number has none. -/
def charOf (n : Nat) : Char := if n.isValidChar then Char.ofNat n else replacement

/-- The text of a byte string, each unit that is no character replaced. -/
def decodeLossy (bs : Bytes) : List Char := (units bs).map charOf

end Utf32

end PeerTrust.Text
