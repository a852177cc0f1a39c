import PeerTrust.Name.Canonical
import PeerTrust.Proofs.Magnitudes

/-!
# Names of hashed files

The name of a file under a hash tells the hash and the index: the hash is written with as many digits
as any other, and so the index starts at the same place in all names.

## Main results

* `Bytes.ofHexDigits?_flatMap_hexPair` — hexadecimal text is read back
* `hashDigits_injective`, `length_hashDigits` — the digits of a hash
* `hashedFileName_inj` — what a file name tells
* `not_mem_hashedFileName`, `length_hashedFileName_le` — its characters
-/

namespace PeerTrust

namespace Bytes

/-! ### Hexadecimal text -/

theorem hexDigit?_digitChar {n : Nat} (digit : n < 16) : hexDigit? n.digitChar = some n := by
  have all : ∀ n < 16, hexDigit? n.digitChar = some n := by decide
  exact all n digit

/-- Hexadecimal text is read back. -/
theorem ofHexDigits?_flatMap_hexPair (bs : Bytes) :
    ofHexDigits? (bs.flatMap (hexPair Nat.digitChar)) = some bs := by
  induction bs with
  | nil => rfl
  | cons b bs ih =>
    have low : b.toNat < 256 := b.toNat_lt
    have whole : UInt8.ofNat (16 * (b.toNat / 16) + b.toNat % 16) = b := by
      rw [Nat.div_add_mod, UInt8.ofNat_toNat]
    rw [List.flatMap_cons, hexPair, List.cons_append, List.cons_append, List.nil_append,
      ofHexDigits?, hexDigit?_digitChar (by omega), hexDigit?_digitChar (by omega), ih]
    exact congrArg (fun b => some (b :: bs)) whole

theorem isAlphanum_of_mem_hexPair {bs : Bytes} {c : Char}
    (mem : c ∈ bs.flatMap (hexPair Nat.digitChar)) : c.isAlphanum = true := by
  have digits : ∀ n < 16, n.digitChar.isAlphanum = true := by decide
  obtain ⟨b, -, mem⟩ := List.mem_flatMap.mp mem
  have low : b.toNat < 256 := b.toNat_lt
  rcases List.mem_cons.mp mem with rfl | mem
  · exact digits _ (by omega)
  · obtain rfl := List.mem_singleton.mp mem
    exact digits _ (by omega)

theorem length_flatMap_hexPair (bs : Bytes) :
    (bs.flatMap (hexPair Nat.digitChar)).length = 2 * bs.length := by
  induction bs with
  | nil => rfl
  | cons b bs ih =>
    rw [List.flatMap_cons, List.length_append, ih, List.length_cons]
    simp only [hexPair, List.length_cons, List.length_nil]
    omega

/-! ### Numbers of a fixed width -/

theorem toNat_ofNatPadded (width n : Nat) : toNat (ofNatPadded width n) = n := by
  rw [ofNatPadded, toNat_replicate_zero_append, toNat_ofNat]

theorem length_ofNatPadded {width n : Nat} (fits : n < 256 ^ width) :
    (ofNatPadded width n).length = width := by
  have few := length_ofNat_le fits
  rw [ofNatPadded, List.length_append, List.length_replicate]
  omega

end Bytes

/-! ### The digits of a hash -/

theorem length_hashDigits (hash : UInt32) : (hashDigits hash).length = 8 := by
  have fits : hash.toNat < 256 ^ 4 := hash.toNat_lt
  rw [hashDigits, Bytes.length_flatMap_hexPair, Bytes.length_ofNatPadded fits]

theorem hashDigits_injective {hash other : UInt32} (same : hashDigits hash = hashDigits other) :
    hash = other := by
  have bytes := congrArg Bytes.ofHexDigits? same
  rw [hashDigits, hashDigits, Bytes.ofHexDigits?_flatMap_hexPair,
    Bytes.ofHexDigits?_flatMap_hexPair] at bytes
  have numbers := congrArg Bytes.toNat (Option.some.inj bytes)
  rw [Bytes.toNat_ofNatPadded, Bytes.toNat_ofNatPadded] at numbers
  exact UInt32.toNat_inj.mp numbers

/-! ### File names -/

variable {hash other : UInt32} {index place : UInt32}

theorem toList_hashedFileName (hash index : UInt32) :
    (hashedFileName hash index).toList
      = hashDigits hash ++ ('.' :: 'r' :: Nat.toDigits 10 index.toNat) := by
  simp [hashedFileName]

/-- The name of a hashed file tells the hash and the index. -/
theorem hashedFileName_inj (same : hashedFileName hash index = hashedFileName other place) :
    hash = other ∧ index = place := by
  have chars := congrArg String.toList same
  rw [toList_hashedFileName, toList_hashedFileName] at chars
  have sameLength : (hashDigits hash).length = (hashDigits other).length := by
    rw [length_hashDigits, length_hashDigits]
  obtain ⟨digits, suffixes⟩ := List.append_inj chars sameLength
  have indices := congrArg (Nat.ofDigitChars 10 · 0) (List.cons.inj (List.cons.inj suffixes).2).2
  simp only [Nat.ofDigitChars_ten_toDigits] at indices
  exact ⟨hashDigits_injective digits, UInt32.toNat_inj.mp indices⟩

/-- A name is made of letters, digits and a dot. -/
theorem not_mem_hashedFileName {c : Char} (other : c.isAlphanum = false) (notDot : c ≠ '.') :
    c ∉ (hashedFileName hash index).toList := by
  intro mem
  rw [toList_hashedFileName, List.mem_append, List.mem_cons, List.mem_cons] at mem
  rcases mem with inHash | dot | rfl | inIndex
  · exact Bool.false_ne_true (other.symm.trans (Bytes.isAlphanum_of_mem_hexPair inHash))
  · exact notDot dot
  · exact absurd other (by decide)
  · have digit := Nat.isDigit_of_mem_toDigits (by decide) (by decide) inIndex
    simp [Char.isAlphanum, digit] at other

theorem length_hashedFileName_le (hash index : UInt32) :
    (hashedFileName hash index).toList.length ≤ 20 := by
  have fits : (Nat.toDigits 10 index.toNat).length ≤ 10 :=
    (Nat.length_toDigits_le_iff (by decide) (by decide)).mpr
      (Nat.lt_trans index.toNat_lt (by decide))
  rw [toList_hashedFileName, List.length_append, length_hashDigits]
  simp only [List.length_cons]
  omega

end PeerTrust
