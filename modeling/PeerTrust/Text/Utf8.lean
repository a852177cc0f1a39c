import PeerTrust.Bytes

/-!
# UTF-8

A byte string is read as a sequence of marks, one for each well-formed character and one for each
longest stretch of bytes that begins a character without completing it. The strict reading accepts
a string without such stretches; the lossy reading writes the replacement character for each.

## Main definitions

* `Text.Utf8.scan` — the marks of a byte string
* `Text.Utf8.decode?` — the text of a well-formed byte string
* `Text.Utf8.decodeLossy` — the text with every ill-formed stretch replaced
* `Text.Utf8.encode` — the bytes of a text
-/

namespace PeerTrust.Text

/-- The character that stands for bytes that are no text. -/
def replacement : Char := Char.ofNat 0xFFFD

namespace Utf8

/-- What a lead byte announces: how many continuation bytes follow, the range of the first of
them, and the bits the lead byte itself contributes. -/
structure Lead where
  following : Nat
  low : UInt8
  high : UInt8
  bits : Nat

/-- The announcement of a byte that may start a character. The ranges of the second byte leave out
overlong forms, surrogates and numbers above `0x10FFFF`. -/
def Lead.of? (b : UInt8) : Option Lead :=
  let n := b.toNat
  if n < 0x80 then some ⟨0, 0x80, 0xBF, n⟩
  else if n < 0xC2 then none
  else if n < 0xE0 then some ⟨1, 0x80, 0xBF, n - 0xC0⟩
  else if n = 0xE0 then some ⟨2, 0xA0, 0xBF, 0⟩
  else if n = 0xED then some ⟨2, 0x80, 0x9F, 0xD⟩
  else if n < 0xF0 then some ⟨2, 0x80, 0xBF, n - 0xE0⟩
  else if n = 0xF0 then some ⟨3, 0x90, 0xBF, 0⟩
  else if n < 0xF4 then some ⟨3, 0x80, 0xBF, n - 0xF0⟩
  else if n = 0xF4 then some ⟨3, 0x80, 0x8F, 4⟩
  else none

/-- Reads the continuation bytes that a lead byte announced; `none` at the first byte out of range,
which is left in the rest. -/
def continuation : (following : Nat) → (low high : UInt8) → (bits : Nat) → Bytes →
    Option Nat × Bytes
  | 0, _, _, bits, rest => (some bits, rest)
  | _ + 1, _, _, _, [] => (none, [])
  | n + 1, low, high, bits, b :: rest =>
    if low ≤ b ∧ b ≤ high then continuation n 0x80 0xBF (64 * bits + (b.toNat - 0x80)) rest
    else (none, b :: rest)

theorem continuation_length_le (n : Nat) (low high : UInt8) (bits : Nat) (bs : Bytes) :
    (continuation n low high bits bs).2.length ≤ bs.length := by
  fun_induction continuation n low high bits bs <;> simp_all
  omega

/-- The marks of a byte string: a character, or `none` for an ill-formed stretch. -/
def scan : Bytes → List (Option Char)
  | [] => []
  | b :: bs =>
    match Lead.of? b with
    | none => none :: scan bs
    | some lead =>
      let step := continuation lead.following lead.low lead.high lead.bits bs
      step.1.map Char.ofNat :: scan step.2
termination_by bs => bs.length
decreasing_by
  · simp
  · have := continuation_length_le lead.following lead.low lead.high lead.bits bs
    simp only [List.length_cons]
    omega

/-- The text of a well-formed byte string. -/
def decode? (bs : Bytes) : Option (List Char) := (scan bs).mapM id

/-- The text of any byte string, each ill-formed stretch written as the replacement character. -/
def decodeLossy (bs : Bytes) : List Char := (scan bs).map (·.getD replacement)

/-- The bytes of one character. -/
def encodeChar (c : Char) : Bytes :=
  let n := c.toNat
  let tail (shift : Nat) : UInt8 := UInt8.ofNat (0x80 + n / Nat.pow 2 shift % 64)
  if n < 0x80 then [UInt8.ofNat n]
  else if n < 0x800 then [UInt8.ofNat (0xC0 + n / 64), tail 0]
  else if n < 0x10000 then [UInt8.ofNat (0xE0 + n / 4096), tail 6, tail 0]
  else [UInt8.ofNat (0xF0 + n / 262144), tail 12, tail 6, tail 0]

/-- The bytes of a text. -/
def encode (cs : List Char) : Bytes := cs.flatMap encodeChar

end Utf8

end PeerTrust.Text
