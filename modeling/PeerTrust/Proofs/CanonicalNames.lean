import Mathlib.Data.List.Forall2
import PeerTrust.Name.Canonical
import PeerTrust.Proofs.Elements

/-!
# What a canonical name tells

The canonical encoding of a name forgets how the values of its attributes were spelled, and in which
order the attributes of a relative name stood. It forgets nothing else: neither which attributes
stood together, nor how often, nor the order of the relative names.

## Main definitions

* `Name.Attribute.written` — as much of an attribute as its canonical encoding tells
* `Name.Relative.Fits`, `Name.Relative.Bounded` — a relative name whose length eight bytes can hold,
  or can be written at all

## Main results

* `Name.Attribute.canonical_eq_write` — an attribute is encoded from what its encoding tells
* `Name.Relative.Bounded.canonical_eq_iff` — when two relative names have the same encoding
* `Name.canonical_eq_iff_perm` — when two names do
-/

namespace PeerTrust

/-! ### Lists -/

section Lists

variable {α β γ : Type} {xs ys : List α}

/-- Where lists agree up to order in one respect, one of them can be put in an order in which its
elements are related, place by place, to those of the other. -/
theorem exists_forall₂_of_perm_map {f : α → β} {R : α → α → Prop}
    (known : ∀ x ∈ xs, ∀ y ∈ ys, f x = f y → R x y) (same : (xs.map f).Perm (ys.map f)) :
    ∃ zs : List α, zs.Perm ys ∧ List.Forall₂ R xs zs := by
  induction xs generalizing ys with
  | nil =>
    obtain rfl : ys = [] := List.map_eq_nil_iff.mp same.nil_eq.symm
    exact ⟨[], .nil, .nil⟩
  | cons x xs ih =>
    -- Somewhere in the other list stands a partner of the first element.
    obtain ⟨y, mem, partner⟩ := List.mem_map.mp (same.subset List.mem_cons_self)
    obtain ⟨front, back, rfl⟩ := List.append_of_mem mem
    have others : (xs.map f).Perm ((front ++ back).map f) := by
      have moved := same.trans (List.perm_middle.map f)
      rw [List.map_cons, List.map_cons, partner] at moved
      exact moved.cons_inv
    obtain ⟨zs, reordered, paired⟩ := ih (fun x' memx y' memy =>
      known x' (List.mem_cons_of_mem _ memx) y' (by
        rw [List.mem_append, List.mem_cons]
        exact (List.mem_append.mp memy).imp_right .inr)) others
    have first : R x y := known x List.mem_cons_self y mem partner.symm
    exact ⟨y :: zs, (reordered.cons y).trans List.perm_middle.symm, .cons first paired⟩

/-- Lists agree in one respect, place by place, if their elements are related there. -/
theorem map_eq_map_iff_forall₂ {f : α → β} {R : α → α → Prop}
    (known : ∀ x ∈ xs, ∀ y ∈ ys, f x = f y ↔ R x y) :
    xs.map f = ys.map f ↔ List.Forall₂ R xs ys := by
  induction xs generalizing ys with
  | nil => simp [eq_comm]
  | cons x xs ih =>
    cases ys with
    | nil => simp
    | cons y ys =>
      have others := ih fun x' memx y' memy =>
        known x' (List.mem_cons_of_mem _ memx) y' (List.mem_cons_of_mem _ memy)
      rw [List.map_cons, List.map_cons, List.cons.injEq, List.forall₂_cons, others,
        known x List.mem_cons_self y List.mem_cons_self]

/-- Lists that agree up to order in one respect agree up to order in any other that is known from
it. -/
theorem perm_map_of_perm_map {f : α → β} {g : α → γ}
    (known : ∀ x ∈ xs, ∀ y ∈ ys, f x = f y → g x = g y) (same : (xs.map f).Perm (ys.map f)) :
    (xs.map g).Perm (ys.map g) := by
  obtain ⟨zs, reordered, paired⟩ := exists_forall₂_of_perm_map known same
  have places : xs.map g = zs.map g := (map_eq_map_iff_forall₂ fun _ _ _ _ => Iff.rfl).mpr paired
  exact places ▸ reordered.map g

end Lists

namespace Name

/-! ### The order of byte strings -/

theorem bytesLe_cons_iff {a b : UInt8} {as bs : Bytes} :
    bytesLe (a :: as) (b :: bs) = true ↔ a < b ∨ a = b ∧ bytesLe as bs = true := by
  by_cases same : a = b
  · subst same
    simp [bytesLe]
  · simp [bytesLe, same]

theorem bytesLe_total (as bs : Bytes) : (bytesLe as bs || bytesLe bs as) = true := by
  rw [Bool.or_eq_true]
  induction as generalizing bs with
  | nil => exact .inl rfl
  | cons a as ih =>
    cases bs with
    | nil => exact .inr rfl
    | cons b bs =>
      rw [bytesLe_cons_iff, bytesLe_cons_iff]
      by_cases same : a = b
      · exact (ih bs).imp (fun h => .inr ⟨same, h⟩) fun h => .inr ⟨same.symm, h⟩
      · exact (UInt8.lt_or_lt_of_ne same).imp .inl .inl

theorem bytesLe_trans (as bs cs : Bytes) (h : bytesLe as bs = true) (h' : bytesLe bs cs = true) :
    bytesLe as cs = true := by
  induction as generalizing bs cs with
  | nil => rfl
  | cons a as ih =>
    cases bs with
    | nil => cases h
    | cons b bs =>
      cases cs with
      | nil => cases h'
      | cons c cs =>
        rw [bytesLe_cons_iff] at h h' ⊢
        rcases h with less | ⟨rfl, h⟩
        · rcases h' with less' | ⟨rfl, -⟩
          · exact .inl (UInt8.lt_trans less less')
          · exact .inl less
        · exact h'.imp_right fun ⟨same, h'⟩ => ⟨same, ih bs cs h h'⟩

theorem bytesLe_antisymm (as bs : Bytes) (h : bytesLe as bs = true) (h' : bytesLe bs as = true) :
    as = bs := by
  induction as generalizing bs with
  | nil =>
    cases bs with
    | nil => rfl
    | cons => cases h'
  | cons a as ih =>
    cases bs with
    | nil => cases h
    | cons b bs =>
      rw [bytesLe_cons_iff] at h h'
      rcases h with less | ⟨rfl, h⟩
      · rcases h' with less' | ⟨rfl, -⟩
        · exact absurd less' (UInt8.lt_asymm less)
        · exact absurd less (UInt8.lt_irrefl _)
      · rcases h' with less' | ⟨-, h'⟩
        · exact absurd less' (UInt8.lt_irrefl _)
        · rw [ih bs h h']

/-- Byte strings that agree up to order are sorted into the same list. -/
theorem mergeSort_eq_of_perm {xs ys : List Bytes} (same : xs.Perm ys) :
    xs.mergeSort bytesLe = ys.mergeSort bytesLe := by
  have sorted (zs : List Bytes) := List.pairwise_mergeSort bytesLe_trans bytesLe_total zs
  refine List.Perm.eq_of_pairwise (fun x y _ _ => bytesLe_antisymm x y) (sorted xs) (sorted ys) ?_
  exact (List.mergeSort_perm xs bytesLe).trans (same.trans (List.mergeSort_perm ys bytesLe).symm)

/-! ### Attributes -/

/-- The tag numbers of strings. -/
def stringNumbers : List Nat :=
  [Der.Tag.utf8String, Der.Tag.printableString, Der.Tag.teletexString, Der.Tag.ia5String,
    Der.Tag.visibleString, Der.Tag.universalString, Der.Tag.bmpString]

/-- Strings are the values that have a text. -/
theorem stringText?_eq_none_iff {value : Der.Element} :
    stringText? value = none ↔ value.number ∉ stringNumbers := by
  unfold stringText?
  split <;> simp_all [stringNumbers]

namespace Attribute

/-- As much of an attribute as its canonical encoding tells: the octets of its type, and a tag byte
and content that stand for its value. A string becomes a UTF-8 string of its text in canonical form;
of anything else, the content stays as it is. -/
def written (a : Attribute) : Bytes × UInt8 × Bytes :=
  (a.kind.content,
    if a.value.number ∈ stringNumbers then
      (0x0c, Text.Utf8.encode (canonicalText ((stringText? a.value).getD [])))
    else (UInt8.ofNat a.value.number, a.value.content))

/-- The canonical encoding of an attribute of which that much is known. -/
def write (w : Bytes × UInt8 × Bytes) : Bytes :=
  Der.encode 0x30 (Der.encode 0x06 w.1 ++ Der.encode w.2.1 w.2.2)

theorem written_eq (a : Attribute) : a.written = (a.kind.content, canonicalValue a.value) := by
  unfold written canonicalValue
  cases text : stringText? a.value with
  | none => rw [if_neg (stringText?_eq_none_iff.mp text)]
  | some cs =>
    have isString : a.value.number ∈ stringNumbers := by
      by_contra other
      exact nomatch (stringText?_eq_none_iff.mpr other).symm.trans text
    rw [if_pos isString, Option.getD_some]

theorem canonical_eq_write (a : Attribute) : a.canonical = write a.written := by
  rw [written_eq]
  rfl

/-- The encoding loses nothing of that. -/
theorem write_inj {v w : Bytes × UInt8 × Bytes} (fits : (write v).length < Der.lengthLimit)
    (fits' : (write w).length < Der.lengthLimit) (same : write v = write w) : v = w := by
  obtain ⟨kind, tag, content⟩ := v
  obtain ⟨kind', tag', content'⟩ := w
  have fit := Der.length_lt_of_encode fits
  have fit' := Der.length_lt_of_encode fits'
  obtain ⟨-, body⟩ := Der.encode_inj fit fit' same
  rw [List.length_append] at fit fit'
  obtain ⟨-, rfl, value⟩ := Der.encode_append_inj
    (Der.length_lt_of_encode (Nat.lt_of_le_of_lt (Nat.le_add_right _ _) fit))
    (Der.length_lt_of_encode (Nat.lt_of_le_of_lt (Nat.le_add_right _ _) fit')) body
  obtain ⟨rfl, rfl⟩ := Der.encode_inj
    (Der.length_lt_of_encode (Nat.lt_of_le_of_lt (Nat.le_add_left _ _) fit))
    (Der.length_lt_of_encode (Nat.lt_of_le_of_lt (Nat.le_add_left _ _) fit')) value
  rfl

end Attribute

/-! ### Relative names -/

namespace Relative

/-- A relative name whose canonical encoding has a content of a length that eight bytes can hold. -/
def Fits (r : Relative) : Prop := (r.map Attribute.canonical).flatten.length < 2 ^ 64

instance (r : Relative) : Decidable r.Fits :=
  inferInstanceAs (Decidable ((r.map Attribute.canonical).flatten.length < 2 ^ 64))

variable {r s : Relative}

/-- The content of the canonical encoding. -/
def body (r : Relative) : Bytes := ((r.map Attribute.canonical).mergeSort bytesLe).flatten

theorem length_body (r : Relative) : r.body.length = (r.map Attribute.canonical).flatten.length :=
  (List.mergeSort_perm _ bytesLe).flatten.length_eq

/-- A relative name whose canonical encoding has a content of a length that can be told apart. -/
def Bounded (r : Relative) : Prop := r.body.length < Der.lengthLimit

theorem Fits.bounded (fits : r.Fits) : r.Bounded :=
  Der.lt_lengthLimit (length_body r ▸ fits)

theorem Bounded.canonical_length_lt (bounded : r.Bounded) {a : Attribute} (mem : a ∈ r) :
    a.canonical.length < Der.lengthLimit := by
  have part := List.sublist_flatten_of_mem (List.mem_map_of_mem (f := Attribute.canonical) mem)
  exact Nat.lt_of_le_of_lt part.length_le (length_body r ▸ bounded)

theorem isEncoded_of_mem (bounded : r.Bounded) {entry : Bytes}
    (mem : entry ∈ (r.map Attribute.canonical).mergeSort bytesLe) : Der.IsEncoded entry := by
  obtain ⟨a, isEntry, rfl⟩ := List.mem_map.mp ((List.mergeSort_perm _ bytesLe).mem_iff.mp mem)
  exact ⟨_, _, Der.length_lt_of_encode (bounded.canonical_length_lt isEntry), rfl⟩

/-- Two relative names have the same canonical encoding if they tell the same of their attributes,
in any order. -/
theorem Bounded.canonical_eq_iff (bounded : r.Bounded) (bounded' : s.Bounded) :
    r.canonical = s.canonical ↔ (r.map Attribute.written).Perm (s.map Attribute.written) := by
  constructor
  · intro same
    obtain ⟨-, same⟩ := Der.encode_inj bounded bounded' same
    -- The sorted encodings can be told apart, and so they are the same.
    have entries := Der.IsEncoded.eq_of_flatten_eq (fun _ => isEncoded_of_mem bounded)
      (fun _ => isEncoded_of_mem bounded') same
    have permuted : (r.map Attribute.canonical).Perm (s.map Attribute.canonical) :=
      (List.mergeSort_perm _ bytesLe).symm.trans (entries ▸ List.mergeSort_perm _ bytesLe)
    refine perm_map_of_perm_map (fun a mem b mem' same => ?_) permuted
    have fit := bounded.canonical_length_lt mem
    have fit' := bounded'.canonical_length_lt mem'
    rw [Attribute.canonical_eq_write] at fit fit' same
    rw [Attribute.canonical_eq_write] at same
    exact Attribute.write_inj fit fit' same
  · intro same
    have permuted := same.map Attribute.write
    simp only [List.map_map, Function.comp_def, ← Attribute.canonical_eq_write] at permuted
    have sorted := mergeSort_eq_of_perm permuted
    exact congrArg (fun entries => Der.encode 0x31 entries.flatten) sorted

theorem canonical_eq_iff (fits : r.Fits) (fits' : s.Fits) :
    r.canonical = s.canonical ↔ (r.map Attribute.written).Perm (s.map Attribute.written) :=
  fits.bounded.canonical_eq_iff fits'.bounded

theorem isWritten_canonical {relatives : List Relative} (fits : ∀ r ∈ relatives, r.Fits)
    (entry : Bytes) (mem : entry ∈ relatives.map canonical) : Der.IsWritten entry := by
  obtain ⟨r, isEntry, rfl⟩ := List.mem_map.mp mem
  exact ⟨0x31, r.body, length_body r ▸ fits r isEntry, rfl⟩

end Relative

/-- What the canonical encoding of a name tells. Where all lengths can be held in eight bytes, two
names have the same encoding exactly if they have equally many relative names, and those at the same
place consist of the same attributes in any order, as far as octets of the type and what is written
of the value go. -/
theorem canonical_eq_iff_perm {a b : Name} (fits : ∀ r ∈ a.relatives, r.Fits)
    (fits' : ∀ r ∈ b.relatives, r.Fits) :
    a.canonical = b.canonical ↔
      List.Forall₂ (fun r s => (r.map Attribute.written).Perm (s.map Attribute.written))
        a.relatives b.relatives := by
  have known (r : Relative) (mem : r ∈ a.relatives) (s : Relative) (mem' : s ∈ b.relatives) :
      r.canonical = s.canonical ↔ (r.map Attribute.written).Perm (s.map Attribute.written) :=
    Relative.canonical_eq_iff (fits r mem) (fits' s mem')
  rw [← map_eq_map_iff_forall₂ known, canonical, canonical, List.flatMap_def, List.flatMap_def]
  constructor
  · intro same
    exact Der.eq_of_flatten_eq (Relative.isWritten_canonical fits)
      (Relative.isWritten_canonical fits') same
  · exact congrArg List.flatten

/-! ### A name in two spellings -/

namespace Respelled

/-- A common name and the value it holds. -/
def commonName (number : Nat) (content : Bytes) : Attribute where
  kind := .ofArcs [2, 5, 4, 3]
  value := ⟨.universal, false, number, content, []⟩

/-- A relative name of two attributes, one of them long, and a relative name of one. -/
def name : Name where
  raw := []
  relatives :=
    [[commonName Der.Tag.utf8String (Bytes.ofAscii "Test CA"),
        commonName Der.Tag.octetString (List.replicate 200 1)],
      [commonName Der.Tag.integer [5]]]

/-- The same, with the two attributes the other way round and the string in another spelling. -/
def other : Name where
  raw := []
  relatives :=
    [[commonName Der.Tag.octetString (List.replicate 200 1),
        commonName Der.Tag.printableString (Bytes.ofAscii "  TEST   ca ")],
      [commonName Der.Tag.integer [5]]]

/-- The same attributes as in the first, but in one relative name. -/
def joined : Name where
  raw := []
  relatives := [name.relatives.flatten]

end Respelled

open Respelled in
/-- The spelling and the order of the attributes do not count, but where a relative name ends
does. -/
theorem canonical_of_respelled :
    ((∀ r ∈ name.relatives, r.Fits) ∧ (∀ r ∈ other.relatives, r.Fits)
        ∧ ∀ r ∈ joined.relatives, r.Fits)
      ∧ name.canonical = other.canonical ∧ name.canonical ≠ joined.canonical := by
  have fits : (∀ r ∈ name.relatives, r.Fits) ∧ (∀ r ∈ other.relatives, r.Fits)
      ∧ ∀ r ∈ joined.relatives, r.Fits := by
    decide +kernel
  refine ⟨fits, (canonical_eq_iff_perm fits.1 fits.2.1).mpr ?_, fun same => ?_⟩
  · decide +kernel
  · have places := ((canonical_eq_iff_perm fits.1 fits.2.2).mp same).length_eq
    exact absurd places (by decide)

end Name

end PeerTrust
