import Mathlib.Algebra.Group.Action.Defs
import Mathlib.Algebra.Order.BigOperators.Group.List
import Mathlib.Algebra.Order.Ring.Nat
import PeerTrust.Proofs.CanonicalNames
import PeerTrust.Proofs.Spellings

/-!
# How long a canonical name can be

The elements of a name that was read have lengths of eight bytes at most. In canonical form they may
be longer, since characters of one byte may become characters of several and lengths are written
anew, but each step adds a factor only. So the canonical encodings of relative names that were read
have lengths that can be told apart, whatever the name.

## Main results

* `Der.Element.length_content_lt` — the content of an element that was read
* `Name.length_stringText?_le` — the text of a string
* `Name.Parsed.bounded` — the relative names of a name that was read
-/

namespace PeerTrust

/-! ### Elements -/

namespace Der

variable {bs rest : Bytes}

theorem readLength_lt {n : Nat} (read : readLength bs = some (n, rest)) : n < 2 ^ 64 := by
  rcases readLength_eq_some_iff.mp read with ⟨b, short, rfl, -⟩ | ⟨_, digits, -, -, -, few, rfl, -⟩
  · omega
  · rw [← Bytes.toNat_significant]
    exact Nat.lt_of_lt_of_le (Bytes.toNat_lt _) (Nat.pow_le_pow_right (by decide) few)

namespace Element

variable {e : Element}

theorem length_content_lt (read : read? bs = some (e, rest)) : e.content.length < 2 ^ 64 := by
  cases bs with
  | nil => cases read
  | cons first body =>
    obtain ⟨⟨number, afterNumber⟩, -, read⟩ := Option.bind_eq_some_iff.mp read
    obtain ⟨⟨length, afterLength⟩, isLength, read⟩ := Option.bind_eq_some_iff.mp read
    obtain ⟨⟨content, afterContent⟩, cut, same⟩ := Option.bind_eq_some_iff.mp read
    obtain ⟨rfl, -⟩ := Prod.mk.inj (Option.some.inj same)
    obtain ⟨-, counted⟩ := Bytes.append_of_split? cut
    exact counted ▸ readLength_lt isLength

theorem length_content_lt_of_numbered {number : Nat}
    (read : readNumbered? number bs = some (e, rest)) : e.content.length < 2 ^ 64 :=
  length_content_lt (readNumbered?_eq_some_iff.mp read).1

end Element

section Many

variable {α : Type} {step : Bytes → Option (α × Bytes)}

/-- Whatever is read takes a byte at least. -/
theorem length_readMany_fst_le (bs : Bytes) : (readMany step bs).1.length ≤ bs.length := by
  fun_induction readMany step bs with
  | case1 => exact Nat.zero_le _
  | case2 bs a rest read shorter more ih => exact Nat.le_trans (Nat.succ_le_succ ih) shorter
  | case3 => exact Nat.zero_le _

theorem exists_of_mem_readMany {a : α} (mem : a ∈ (readMany step bs).1) :
    ∃ front rest, step front = some (a, rest) := by
  fun_induction readMany step bs with
  | case1 => cases mem
  | case2 bs b rest read shorter more ih =>
    rcases List.mem_cons.mp mem with rfl | later
    · exact ⟨bs, rest, read⟩
    · exact ih later
  | case3 => cases mem

end Many

/-- No number takes more bytes than it counts. -/
theorem length_lengthOctets_le (n : Nat) : (lengthOctets n).length ≤ n + 1 := by
  have few : (Bytes.ofNat n).length ≤ n := Bytes.length_ofNat_le (Nat.lt_pow_self (by decide))
  unfold lengthOctets
  split
  · exact Nat.le_add_left 1 n
  · exact Nat.succ_le_succ few

theorem length_encode_le (tag : UInt8) (content : Bytes) :
    (encode tag content).length ≤ 2 * content.length + 2 := by
  have octets := length_lengthOctets_le content.length
  rw [encode_eq, List.length_append, List.length_append, List.length_singleton]
  omega

end Der

namespace Name

/-- An attribute whose parts are no longer than what eight bytes can count. -/
def Attribute.Small (a : Attribute) : Prop :=
  a.kind.content.length < 2 ^ 64 ∧ a.value.content.length < 2 ^ 64

theorem Attribute.small_of_read? {bs rest : Bytes} {a : Attribute}
    (read : read? bs = some (a, rest)) : a.Small := by
  obtain ⟨⟨e, after⟩, -, read⟩ := Option.bind_eq_some_iff.mp read
  obtain ⟨⟨kind, body⟩, isKind, read⟩ := Option.bind_eq_some_iff.mp read
  obtain ⟨⟨value, _⟩, isValue, same⟩ := Option.bind_eq_some_iff.mp read
  obtain ⟨rfl, -⟩ := Prod.mk.inj (Option.some.inj same)
  obtain ⟨⟨octets, _⟩, isElement, kept⟩ := Option.bind_eq_some_iff.mp isKind
  dsimp only at kept
  split at kept
  case isTrue =>
    obtain ⟨rfl, -⟩ := Prod.mk.inj (Option.some.inj kept)
    exact ⟨Der.Element.length_content_lt isElement, Der.Element.length_content_lt isValue⟩
  case isFalse => cases kept

/-- A relative name that was read has no more attributes than eight bytes can count, and these are
small. -/
theorem Relative.small_of_read? {bs rest : Bytes} {r : Relative}
    (read : read? bs = some (r, rest)) : r.length < 2 ^ 64 ∧ ∀ a ∈ r, a.Small := by
  obtain ⟨⟨e, after⟩, isSet, kept⟩ := Option.bind_eq_some_iff.mp read
  dsimp only at kept
  split at kept
  case h_1 => cases kept
  case h_2 =>
    obtain ⟨rfl, -⟩ := Prod.mk.inj (Option.some.inj kept)
    refine ⟨Nat.lt_of_le_of_lt (Der.length_readMany_fst_le _)
      (Der.Element.length_content_lt_of_numbered isSet), fun a mem => ?_⟩
    obtain ⟨_, _, isAttribute⟩ := Der.exists_of_mem_readMany mem
    exact Attribute.small_of_read? isAttribute

theorem Parsed.small {n : Name} (parsed : n.Parsed) {r : Relative} (mem : r ∈ n.relatives) :
    r.length < 2 ^ 64 ∧ ∀ a ∈ r, a.Small := by
  obtain ⟨bs, rest, read⟩ := parsed
  obtain ⟨⟨e, after⟩, -, kept⟩ := Option.bind_eq_some_iff.mp read
  obtain ⟨rfl, -⟩ := Prod.mk.inj (Option.some.inj kept)
  obtain ⟨_, _, isRelative⟩ := Der.exists_of_mem_readMany mem
  exact Relative.small_of_read? isRelative

end Name

/-! ### Texts -/

namespace Text

theorem Utf8.length_scan_le (bs : Bytes) : (Utf8.scan bs).length ≤ bs.length := by
  fun_induction Utf8.scan bs with
  | case1 => exact Nat.le_refl _
  | case2 b bs stray ih => exact Nat.succ_le_succ ih
  | case3 b bs lead isLead step ih =>
    have shorter := Utf8.continuation_length_le lead.following lead.low lead.high lead.bits bs
    exact Nat.succ_le_succ (Nat.le_trans ih shorter)

theorem Utf8.length_encode_le (cs : List Char) : (Utf8.encode cs).length ≤ 4 * cs.length := by
  induction cs with
  | nil => exact Nat.le_refl _
  | cons c cs ih =>
    have few : (Utf8.encodeChar c).length ≤ 4 := by
      unfold Utf8.encodeChar
      dsimp only
      split_ifs <;> simp
    rw [Utf8.encode, List.flatMap_cons, List.length_append, ← Utf8.encode, List.length_cons]
    omega

theorem Utf16.length_units_le (bs : Bytes) : (Utf16.units bs).length ≤ bs.length := by
  fun_induction Utf16.units bs with
  | case1 high low rest ih =>
    simp only [List.length_cons]
    omega
  | case2 => exact Nat.zero_le _

theorem Utf16.length_scan_le (us : List Nat) : (Utf16.scan us).length ≤ us.length := by
  fun_induction Utf16.scan us with
  | case1 => exact Nat.le_refl _
  | case2 => exact Nat.le_refl _
  | case3 u v rest pair ih =>
    simp only [List.length_cons]
    omega
  | case4 u v rest noPair lone ih => exact Nat.succ_le_succ ih
  | case5 u v rest noPair whole ih => exact Nat.succ_le_succ ih

theorem Utf32.length_units_le (bs : Bytes) : (Utf32.units bs).length ≤ bs.length := by
  fun_induction Utf32.units bs with
  | case1 a b c d rest ih =>
    simp only [List.length_cons]
    omega
  | case2 => exact Nat.zero_le _

end Text

namespace Name

open Text

/-- A string has at most as many characters as its content has bytes. -/
theorem length_stringText?_le {value : Der.Element} {cs : List Char}
    (text : stringText? value = some cs) : cs.length ≤ value.content.length := by
  unfold stringText? at text
  split at text
  case h_8 => cases text
  case h_5 =>
    obtain rfl := Option.some.inj text
    exact Nat.le_of_eq (List.length_map _)
  case h_6 =>
    obtain rfl := Option.some.inj text
    rw [Utf16.decodeLossy, List.length_map]
    exact Nat.le_trans (Utf16.length_scan_le _) (Utf16.length_units_le _)
  case h_7 =>
    obtain rfl := Option.some.inj text
    rw [Utf32.decodeLossy, List.length_map]
    exact Utf32.length_units_le _
  all_goals
    obtain rfl := Option.some.inj text
    rw [Utf8.decodeLossy, List.length_map]
    exact Utf8.length_scan_le _

/-- Only where blanks are pending, one character more than there was may be written. -/
theorem length_collapse_le (pending : Bool) (cs : List Char) :
    (collapse pending cs).length ≤ cs.length + pending.toNat := by
  fun_induction collapse pending cs with
  | case1 => exact Nat.zero_le _
  | case2 pending c cs blank ih =>
    rw [List.length_cons]
    exact Nat.le_trans ih (by simp)
  | case3 c cs word ih =>
    simp only [List.length_cons, Bool.toNat_true, Bool.toNat_false] at ih ⊢
    omega
  | case4 pending c cs word settled ih =>
    simp only [List.length_cons, Bool.toNat_false] at ih ⊢
    omega

theorem length_canonicalText_le (cs : List Char) : (canonicalText cs).length ≤ cs.length := by
  have shorter := (List.dropWhile_sublist (l := cs) isBlank).length_le
  exact Nat.le_trans (length_collapse_le false _) shorter

/-! ### Encodings -/

namespace Attribute

/-- A character takes four bytes at most. -/
theorem length_canonicalValue_le (value : Der.Element) :
    (canonicalValue value).2.length ≤ 4 * value.content.length := by
  unfold canonicalValue
  cases text : stringText? value with
  | none =>
    dsimp only
    omega
  | some cs =>
    have written := Utf8.length_encode_le (canonicalText cs)
    have folded := length_canonicalText_le cs
    have held := length_stringText?_le text
    dsimp only
    omega

theorem Small.length_canonical_le {a : Attribute} (small : a.Small) :
    a.canonical.length ≤ 2 ^ 70 := by
  obtain ⟨smallKind, smallValue⟩ := small
  have whole := Der.length_encode_le 0x30 (Der.encode 0x06 a.kind.content
    ++ Der.encode (canonicalValue a.value).1 (canonicalValue a.value).2)
  have kind := Der.length_encode_le 0x06 a.kind.content
  have value := Der.length_encode_le (canonicalValue a.value).1 (canonicalValue a.value).2
  have content := length_canonicalValue_le a.value
  rw [List.length_append] at whole
  show (Der.encode 0x30 _).length ≤ _
  omega

end Attribute

/-- The canonical encodings of the relative names of a name that was read have lengths that can be
told apart. -/
theorem Parsed.bounded {n : Name} (parsed : n.Parsed) (r : Relative) (mem : r ∈ n.relatives) :
    r.Bounded := by
  obtain ⟨few, small⟩ := parsed.small mem
  have total : (r.map Attribute.canonical).flatten.length ≤ r.length * 2 ^ 70 := by
    rw [List.length_flatten, List.map_map, ← smul_eq_mul, ← List.length_map]
    refine List.sum_le_card_nsmul _ _ fun length isLength => ?_
    obtain ⟨a, mem, rfl⟩ := List.mem_map.mp isLength
    exact (small a mem).length_canonical_le
  rw [Relative.Bounded, Relative.length_body]
  calc (r.map Attribute.canonical).flatten.length ≤ r.length * 2 ^ 70 := total
    _ < 2 ^ 64 * 2 ^ 70 := Nat.mul_lt_mul_of_pos_right few (by decide)
    _ < Der.lengthLimit := by decide

end Name

end PeerTrust
