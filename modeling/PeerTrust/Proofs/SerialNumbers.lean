import Mathlib.Data.List.TakeWhile
import Mathlib.Data.Nat.Digits.Defs
import PeerTrust.Crl.Basic
import PeerTrust.Proofs.Magnitudes

/-!
# Serials as numbers

A list revokes a serial if one of the serials that it lists is the same number. So two lists answer
alike exactly if they hold the same serials but for leading zero bytes, in whatever order and however
often, and an entry of another magnitude or length never counts.

## Main definitions

* `Bytes.SameButZeros` — byte strings that differ in leading zero bytes at most
* `RevocationList.ListsAlike` — lists of the same serials, but for leading zero bytes

## Main results

* `Bytes.toNat_eq_ofDigits` — the number of a byte string by its digits
* `Bytes.sameButZeros_iff` — byte strings of the same number
* `RevocationList.revokes_iff_toNat`, `RevocationList.listsAlike_iff` — what a list answers
* `RevocationList.revokes_by_number` — what does not count for the answer
-/

namespace PeerTrust

namespace Bytes

variable {as bs cs : Bytes}

/-- The number that a byte string denotes is the one of its bytes as digits in base 256. -/
theorem toNat_eq_ofDigits (bs : Bytes) :
    toNat bs = Nat.ofDigits 256 (bs.reverse.map UInt8.toNat) := by
  induction bs using List.reverseRecOn with
  | nil => rfl
  | append_singleton bs b ih =>
    rw [toNat_concat, List.reverse_concat, List.map_cons, Nat.ofDigits_cons, ← ih, Nat.add_comm]

/-- Byte strings that differ in leading zero bytes at most. -/
def SameButZeros (as bs : Bytes) : Prop :=
  ∃ zeros zeros' core, as = List.replicate zeros 0 ++ core ∧ bs = List.replicate zeros' 0 ++ core

/-- In front of what is significant there are zeros only. -/
theorem exists_zeros_append (bs : Bytes) :
    ∃ zeros, bs = List.replicate zeros 0 ++ significant bs := by
  refine ⟨(bs.takeWhile (· == 0)).length, ?_⟩
  have zeros : bs.takeWhile (· == 0) = List.replicate (bs.takeWhile (· == 0)).length 0 :=
    List.eq_replicate_iff.mpr ⟨rfl, fun b mem => by simpa using List.mem_takeWhile_imp mem⟩
  rw [← zeros]
  exact List.takeWhile_append_dropWhile.symm

/-- Byte strings that differ in leading zero bytes at most are those of the same number. -/
theorem sameButZeros_iff : SameButZeros as bs ↔ toNat as = toNat bs := by
  constructor
  · rintro ⟨zeros, zeros', core, rfl, rfl⟩
    rw [toNat_replicate_zero_append, toNat_replicate_zero_append]
  · intro same
    rw [← significant_eq_significant_iff] at same
    obtain ⟨zeros, front⟩ := exists_zeros_append as
    obtain ⟨zeros', front'⟩ := exists_zeros_append bs
    exact ⟨zeros, zeros', significant bs, same ▸ front, front'⟩

end Bytes

namespace RevocationList

variable {list other : RevocationList} {serial : Bytes}

/-- A list revokes the numbers of the serials that it lists. -/
theorem revokes_iff_toNat :
    list.revokes serial = true ↔ ∃ listed ∈ list.serials, Bytes.toNat listed = Bytes.toNat serial := by
  simp only [revokes_iff, Bytes.significant_eq_significant_iff]

/-- Lists of the same serials but for leading zero bytes, in whatever order and however often. -/
def ListsAlike (list other : RevocationList) : Prop :=
  (∀ listed ∈ list.serials, ∃ named ∈ other.serials, Bytes.SameButZeros listed named)
    ∧ ∀ named ∈ other.serials, ∃ listed ∈ list.serials, Bytes.SameButZeros named listed

theorem revokes_of_mem (mem : serial ∈ list.serials) : list.revokes serial = true :=
  revokes_iff_toNat.mpr ⟨serial, mem, rfl⟩

theorem exists_sameButZeros (revoked : list.revokes serial = true) :
    ∃ listed ∈ list.serials, Bytes.SameButZeros serial listed := by
  obtain ⟨listed, mem, number⟩ := revokes_iff_toNat.mp revoked
  exact ⟨listed, mem, Bytes.sameButZeros_iff.mpr number.symm⟩

/-- Two lists answer alike exactly if they hold the same serials, but for leading zero bytes. -/
theorem listsAlike_iff :
    list.ListsAlike other ↔ ∀ serial, list.revokes serial = other.revokes serial := by
  constructor
  · rintro ⟨there, back⟩ serial
    rw [Bool.eq_iff_iff, revokes_iff_toNat, revokes_iff_toNat]
    constructor
    · rintro ⟨listed, mem, number⟩
      obtain ⟨named, mem', same⟩ := there listed mem
      exact ⟨named, mem', (Bytes.sameButZeros_iff.mp same).symm.trans number⟩
    · rintro ⟨named, mem, number⟩
      obtain ⟨listed, mem', same⟩ := back named mem
      exact ⟨listed, mem', (Bytes.sameButZeros_iff.mp same).symm.trans number⟩
  · intro alike
    -- Each list revokes what it lists, and so the other does.
    refine ⟨fun listed mem => ?_, fun named mem => ?_⟩
    · exact exists_sameButZeros (alike listed ▸ revokes_of_mem mem)
    · exact exists_sameButZeros (alike named ▸ revokes_of_mem mem)

/-- The order of the serials does not count, nor how often one is listed. -/
theorem listsAlike_of_mem_iff (same : ∀ s, s ∈ list.serials ↔ s ∈ other.serials) :
    list.ListsAlike other :=
  ⟨fun listed mem => ⟨listed, (same listed).mp mem, Bytes.sameButZeros_iff.mpr rfl⟩,
    fun named mem => ⟨named, (same named).mpr mem, Bytes.sameButZeros_iff.mpr rfl⟩⟩

theorem revokes_congr_number {respelled : Bytes}
    (same : Bytes.toNat serial = Bytes.toNat respelled) :
    list.revokes serial = list.revokes respelled := by
  rw [Bool.eq_iff_iff, revokes_iff_toNat, revokes_iff_toNat, same]

example (list : RevocationList) :
    { list with serials := [[5], [7]] }.revokes [0, 7] = true
      ∧ { list with serials := [[5], [7]] }.revokes [7, 0] = false := ⟨rfl, rfl⟩

/-- An entry that is another number does not count. -/
theorem revokes_cons_of_ne {named : Bytes} (ne : Bytes.toNat named ≠ Bytes.toNat serial) :
    { list with serials := named :: list.serials }.revokes serial = list.revokes serial := by
  rw [Bool.eq_iff_iff, revokes_iff_toNat, revokes_iff_toNat]
  simp [ne]

/-- What a list answers about a serial. The serial is revoked exactly if a serial that is listed is
the same number, where bytes are read as digits in base 256, the first of them highest. The answer
stays the same if leading zero bytes are added or removed on either side and if the listed serials
are put in another order or repeated, and two lists that answer alike about every serial differ in
nothing but that. An entry of another magnitude, or of another length apart from leading zero bytes,
changes no answer. -/
theorem revokes_by_number (list : RevocationList) (serial : Bytes) :
    (let number (bs : Bytes) : Nat := Nat.ofDigits 256 (bs.reverse.map UInt8.toNat)
    list.revokes serial = true ↔ ∃ listed ∈ list.serials, number listed = number serial)
      ∧ (∀ (other : RevocationList) (respelled : Bytes), list.ListsAlike other →
        Bytes.SameButZeros serial respelled → other.revokes respelled = list.revokes serial)
      ∧ (∀ other : RevocationList, (∀ s, s ∈ list.serials ↔ s ∈ other.serials) →
        other.revokes serial = list.revokes serial)
      ∧ (∀ other : RevocationList,
        (∀ any, list.revokes any = other.revokes any) → list.ListsAlike other)
      ∧ ∀ named : Bytes,
        Bytes.toNat named ≠ Bytes.toNat serial
            ∨ (Bytes.significant named).length ≠ (Bytes.significant serial).length →
          { list with serials := named :: list.serials }.revokes serial = list.revokes serial := by
  refine ⟨?_, fun other respelled alike same => ?_, fun other same => ?_,
    fun other => listsAlike_iff.mpr, fun named differs => revokes_cons_of_ne fun same => ?_⟩
  · simp only [← Bytes.toNat_eq_ofDigits]
    exact revokes_iff_toNat
  · rw [← listsAlike_iff.mp alike, revokes_congr_number (Bytes.sameButZeros_iff.mp same)]
  · exact (listsAlike_iff.mp (listsAlike_of_mem_iff same) serial).symm
  · have spelling := Bytes.significant_eq_significant_iff.mpr same
    exact differs.elim (· same) (· (congrArg List.length spelling))

end RevocationList

end PeerTrust
