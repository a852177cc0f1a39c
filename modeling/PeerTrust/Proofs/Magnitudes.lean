import Mathlib.Algebra.Group.Nat.Defs
import Mathlib.Data.List.Induction
import PeerTrust.Bytes

/-!
# Byte strings as numbers

A byte string without its leading zero bytes is the shortest writing of the number it denotes, so
that strings denote the same number exactly if they agree up to leading zero bytes.

## Main results

* `Bytes.ofNat_toNat` — the shortest writing of the number that a byte string denotes
* `Bytes.toNat_ofNat`, `Bytes.length_ofNat_le` — what the shortest writing denotes, and its length
* `Bytes.toNat_lt` — how large the number of a byte string can be
* `Bytes.significant_eq_significant_iff` — when two byte strings denote the same number
-/

namespace PeerTrust.Bytes

theorem ofNatOnto_zero (low : Bytes) : ofNatOnto 0 low = low := by
  rw [ofNatOnto, if_pos rfl]

theorem ofNatOnto_of_ne_zero {n : Nat} (nonzero : n ≠ 0) (low : Bytes) :
    ofNatOnto n low = ofNatOnto (n / 256) (UInt8.ofNat n :: low) := by
  rw [ofNatOnto, if_neg nonzero]

theorem ofNatOnto_eq_append (n : Nat) (low : Bytes) : ofNatOnto n low = ofNat n ++ low := by
  unfold ofNat
  induction n using Nat.strongRecOn generalizing low with
  | ind n ih =>
    by_cases zero : n = 0
    · rw [zero, ofNatOnto_zero, ofNatOnto_zero, List.nil_append]
    · have smaller : n / 256 < n := by omega
      rw [ofNatOnto_of_ne_zero zero, ofNatOnto_of_ne_zero zero, ih _ smaller,
        ih _ smaller [UInt8.ofNat n], List.append_assoc, List.singleton_append]

theorem ofNat_concat {n : Nat} {b : UInt8} (positive : 256 * n + b.toNat ≠ 0) :
    ofNat (256 * n + b.toNat) = ofNat n ++ [b] := by
  have low : b.toNat < 256 := b.toNat_lt
  have high : (256 * n + b.toNat) / 256 = n := by omega
  have last : UInt8.ofNat (256 * n + b.toNat) = b := by
    apply UInt8.toNat_inj.mp
    rw [UInt8.toNat_ofNat']
    omega
  rw [ofNat, ofNatOnto_of_ne_zero positive, high, last, ofNatOnto_eq_append]

theorem ofNat_of_ne_zero {n : Nat} (nonzero : n ≠ 0) :
    ofNat n = ofNat (n / 256) ++ [UInt8.ofNat n] := by
  rw [ofNat, ofNatOnto_of_ne_zero nonzero, ofNatOnto_eq_append]

/-- The shortest writing of a number denotes it. -/
theorem toNat_ofNat (n : Nat) : toNat (ofNat n) = n := by
  induction n using Nat.strongRecOn with
  | ind n ih =>
    by_cases zero : n = 0
    · rw [zero, ofNat, ofNatOnto_zero, toNat_nil]
    · have smaller : n / 256 < n := by omega
      rw [ofNat_of_ne_zero zero, toNat_concat, ih _ smaller, UInt8.toNat_ofNat']
      omega

/-- A number below `256 ^ width` is written in at most `width` bytes. -/
theorem length_ofNat_le {width n : Nat} (fits : n < 256 ^ width) : (ofNat n).length ≤ width := by
  induction width generalizing n with
  | zero =>
    obtain rfl : n = 0 := by simpa using fits
    exact Nat.le_of_eq (congrArg List.length (ofNatOnto_zero []))
  | succ width ih =>
    by_cases zero : n = 0
    · rw [zero, ofNat, ofNatOnto_zero, List.length_nil]
      exact Nat.zero_le _
    · have high : n / 256 < 256 ^ width := by
        rw [Nat.div_lt_iff_lt_mul (by decide), ← Nat.pow_succ]
        exact fits
      rw [ofNat_of_ne_zero zero, List.length_append]
      exact Nat.succ_le_succ (ih high)

/-- A byte string denotes a number below the power of its length. -/
theorem toNat_lt (bs : Bytes) : toNat bs < 256 ^ bs.length := by
  induction bs using List.reverseRecOn with
  | nil => exact Nat.one_pos
  | append_singleton bs b ih =>
    have low : b.toNat < 256 := b.toNat_lt
    rw [toNat_concat, List.length_append, List.length_singleton, Nat.pow_succ]
    omega

/-- Zeros in front do not change the number. -/
theorem toNat_replicate_zero_append (count : Nat) (bs : Bytes) :
    toNat (List.replicate count 0 ++ bs) = toNat bs := by
  induction count with
  | zero => rfl
  | succ count ih => rw [List.replicate_succ, List.cons_append, toNat_zero_cons, ih]

theorem significant_concat (bs : Bytes) (b : UInt8) :
    significant (bs ++ [b]) = if significant bs = [] then significant [b]
      else significant bs ++ [b] := by
  unfold significant
  rw [List.dropWhile_append]
  simp only [List.isEmpty_iff]

/-- Without its leading zero bytes, a string is the shortest writing of its number. -/
theorem ofNat_toNat (bs : Bytes) : ofNat (toNat bs) = significant bs := by
  induction bs using List.reverseRecOn with
  | nil => exact ofNatOnto_zero []
  | append_singleton bs b ih =>
    rw [toNat_concat, significant_concat, ← ih]
    by_cases zero : 256 * toNat bs + b.toNat = 0
    · have noHigh : toNat bs = 0 := by omega
      obtain rfl : b = 0 := UInt8.toNat_inj.mp (by simpa using (by omega : b.toNat = 0))
      rw [noHigh]
      simp [ofNat, ofNatOnto_zero, significant]
    · rw [ofNat_concat zero]
      split
      case isTrue noHigh =>
        -- All that comes before is zero, and so the last byte is not.
        have high : toNat bs = 0 := by rw [← toNat_significant, ← ih, noHigh, toNat_nil]
        have nonzero : b ≠ 0 := by
          rintro rfl
          simp [high] at zero
        rw [noHigh, List.nil_append, significant,
          List.dropWhile_cons_of_neg (by simpa using nonzero)]
      case isFalse => rfl

/-- Two byte strings denote the same number exactly if they agree but for leading zero bytes. -/
theorem significant_eq_significant_iff {as bs : Bytes} :
    significant as = significant bs ↔ toNat as = toNat bs := by
  constructor
  · intro same
    rw [← toNat_significant as, same, toNat_significant]
  · intro same
    rw [← ofNat_toNat as, same, ofNat_toNat]

end PeerTrust.Bytes
