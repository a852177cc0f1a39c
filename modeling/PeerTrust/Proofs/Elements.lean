import PeerTrust.Der.Element
import PeerTrust.Der.Encode
import PeerTrust.Proofs.Magnitudes

/-!
# Where elements end

An element tells by its own octets where it ends. So a reader takes the same off the front of a byte
string whatever follows it, and byte strings that were written one element after the other can be
taken apart again in one way only.

## Main definitions

* `Der.SelfDelimiting` — a reader that looks no further than what it takes
* `Der.lengthLimit` — up to where lengths can be told apart in writing
* `Der.IsWritten`, `Der.IsEncoded` — a byte string that was written as one element

## Main results

* `Der.readLength_eq_some_iff` — what a length is read from
* `Der.Element.selfDelimiting_read?`, `Der.readMany_fst_eq` — what is read is known from the octets
  that are taken off
* `Der.encode_append_inj` — what was written of an element, and what follows it
* `Der.IsEncoded.eq_of_flatten_eq` — what was written one after the other
-/

namespace PeerTrust.Der

/-! ### Lengths -/

/-- A length is an octet of its own, or digits behind the octet that counts them. -/
theorem readLength_eq_some_iff {bs rest : Bytes} {n : Nat} :
    readLength bs = some (n, rest) ↔
      (∃ b : UInt8, b.toNat < 128 ∧ b.toNat = n ∧ bs = b :: rest)
        ∨ ∃ (count : UInt8) (digits : Bytes), 0 < digits.length ∧ digits.length < 127
          ∧ count.toNat = 128 + digits.length ∧ (Bytes.significant digits).length ≤ 8
          ∧ Bytes.toNat digits = n ∧ bs = count :: (digits ++ rest) := by
  constructor
  · intro read
    cases bs with
    | nil => cases read
    | cons b bs =>
      rw [readLength] at read
      split at read
      case isTrue short =>
        obtain ⟨rfl, rfl⟩ := Prod.mk.inj (Option.some.inj read)
        exact .inl ⟨b, short, rfl, rfl⟩
      case isFalse long =>
        split at read
        case isTrue => cases read
        case isFalse definite =>
          obtain ⟨⟨digits, after⟩, cut, kept⟩ := Option.bind_eq_some_iff.mp read
          obtain ⟨rfl, counted⟩ := Bytes.append_of_split? cut
          dsimp only at kept
          split at kept
          case isFalse => cases kept
          case isTrue few =>
            obtain ⟨rfl, rfl⟩ := Prod.mk.inj (Option.some.inj kept)
            -- The two counts that are refused are 0 and 127.
            rw [not_or, ← UInt8.toNat_inj, ← UInt8.toNat_inj] at definite
            obtain ⟨notIndefinite, notReserved⟩ := definite
            have below : b.toNat < 256 := b.toNat_lt
            have indefinite : (0x80 : UInt8).toNat = 128 := rfl
            have reserved : (0xff : UInt8).toNat = 255 := rfl
            exact .inr ⟨b, digits, by omega, by omega, by omega, few, rfl, rfl⟩
  · rintro (⟨b, short, rfl, rfl⟩ | ⟨count, digits, written, notReserved, counts, few, rfl, rfl⟩)
    · rw [readLength, if_pos short]
    · have definite : ¬(count = 0x80 ∨ count = 0xff) := by
        rintro (rfl | rfl)
        · have value : (0x80 : UInt8).toNat = 0x80 := rfl
          omega
        · have value : (0xff : UInt8).toNat = 0xff := rfl
          omega
      rw [readLength, if_neg (by omega), if_neg definite, counts, Nat.add_sub_cancel_left,
        Bytes.split?_append]
      exact if_pos few

/-- A length in its shortest form is read back, whatever follows it. -/
theorem readLength_lengthOctets {n : Nat} (fits : n < 2 ^ 64) (rest : Bytes) :
    readLength (lengthOctets n ++ rest) = some (n, rest) := by
  rw [readLength_eq_some_iff]
  unfold lengthOctets
  split
  case isTrue short =>
    have byte : (UInt8.ofNat n).toNat = n := by
      rw [UInt8.toNat_ofNat']
      omega
    exact .inl ⟨UInt8.ofNat n, by omega, byte, rfl⟩
  case isFalse long =>
    have number := Bytes.toNat_ofNat n
    -- Eight digits at most, so that the count is none of those that are refused.
    have few : (Bytes.ofNat n).length ≤ 8 := Bytes.length_ofNat_le fits
    have written : 0 < (Bytes.ofNat n).length := by
      apply Nat.pos_of_ne_zero
      intro none
      rw [List.eq_nil_of_length_eq_zero none, Bytes.toNat_nil] at number
      omega
    have counts : (UInt8.ofNat (0x80 + (Bytes.ofNat n).length)).toNat
        = 128 + (Bytes.ofNat n).length := by
      rw [UInt8.toNat_ofNat']
      omega
    have fewer : (Bytes.significant (Bytes.ofNat n)).length ≤ 8 :=
      Nat.le_trans (List.dropWhile_sublist _).length_le few
    exact .inr ⟨_, Bytes.ofNat n, written, by omega, counts, fewer, number, rfl⟩

/-- The lengths below it can be told apart in writing: their bytes are counted by seven bits. -/
def lengthLimit : Nat := 256 ^ 127

theorem lt_lengthLimit {n : Nat} (fits : n < 2 ^ 64) : n < lengthLimit :=
  Nat.lt_trans fits (by decide)

/-- What is written of a length starts with the length, or with the count of the bytes it is written
in. -/
theorem exists_lengthOctets_eq_cons {n : Nat} (fits : n < lengthLimit) :
    ∃ first more, lengthOctets n = first :: more
      ∧ (first.toNat = n ∧ n < 0x80 ∧ more = []
        ∨ first.toNat = 0x80 + more.length ∧ Bytes.toNat more = n) := by
  by_cases short : n < 0x80
  · refine ⟨UInt8.ofNat n, [], lengthOctets_of_lt short, .inl ⟨?_, short, rfl⟩⟩
    rw [UInt8.toNat_ofNat']
    omega
  · refine ⟨_, _, if_neg short, .inr ⟨?_, Bytes.toNat_ofNat n⟩⟩
    have few : (Bytes.ofNat n).length ≤ 127 := Bytes.length_ofNat_le fits
    rw [UInt8.toNat_ofNat']
    omega

/-- What was written of a length tells the length and what follows it. -/
theorem lengthOctets_append_inj {m n : Nat} {rest rest' : Bytes} (fits : m < lengthLimit)
    (fits' : n < lengthLimit) (same : lengthOctets m ++ rest = lengthOctets n ++ rest') :
    m = n ∧ rest = rest' := by
  obtain ⟨first, more, written, form⟩ := exists_lengthOctets_eq_cons fits
  obtain ⟨first', more', written', form'⟩ := exists_lengthOctets_eq_cons fits'
  rw [written, written', List.cons_append, List.cons_append] at same
  obtain ⟨sameFirst, tails⟩ := List.cons.inj same
  rw [← sameFirst] at form'
  rcases form with ⟨byte, short, rfl⟩ | ⟨counts, number⟩
  · rcases form' with ⟨byte', -, rfl⟩ | ⟨counts', -⟩
    · exact ⟨byte.symm.trans byte', tails⟩
    · omega
  · rcases form' with ⟨byte', short', -⟩ | ⟨counts', number'⟩
    · omega
    · have sameLength : more.length = more'.length := by omega
      obtain ⟨rfl, sameRest⟩ := List.append_inj tails sameLength
      exact ⟨number.symm.trans number', sameRest⟩

/-! ### Elements one after the other -/

section Written

variable {tag tag' : UInt8} {content content' rest rest' : Bytes}

theorem encode_append (tag : UInt8) (content rest : Bytes) :
    encode tag content ++ rest = tag :: (lengthOctets content.length ++ (content ++ rest)) := by
  rw [encode, List.cons_append, List.cons_append, List.append_assoc]

/-- What was written of an element tells its tag, its content and what follows it. -/
theorem encode_append_inj (fits : content.length < lengthLimit)
    (fits' : content'.length < lengthLimit)
    (same : encode tag content ++ rest = encode tag' content' ++ rest') :
    tag = tag' ∧ content = content' ∧ rest = rest' := by
  rw [encode_append, encode_append] at same
  obtain ⟨sameTag, same⟩ := List.cons.inj same
  obtain ⟨sameLength, same⟩ := lengthOctets_append_inj fits fits' same
  obtain ⟨sameContent, sameRest⟩ := List.append_inj same sameLength
  exact ⟨sameTag, sameContent, sameRest⟩

/-- What was written of an element tells its tag and its content. -/
theorem encode_inj (fits : content.length < lengthLimit) (fits' : content'.length < lengthLimit)
    (same : encode tag content = encode tag' content') : tag = tag' ∧ content = content' := by
  have same : encode tag content ++ [] = encode tag' content' ++ [] := by rw [same]
  obtain ⟨sameTag, sameContent, -⟩ := encode_append_inj fits fits' same
  exact ⟨sameTag, sameContent⟩

end Written

theorem length_lt_of_encode {tag : UInt8} {content : Bytes} {bound : Nat}
    (fits : (encode tag content).length < bound) : content.length < bound := by
  rw [encode_eq, List.length_append] at fits
  omega

/-- A byte string that was written as one element, of a length that can be told apart. -/
def IsEncoded (bs : Bytes) : Prop :=
  ∃ tag content, content.length < lengthLimit ∧ bs = encode tag content

/-- Elements that were written one after the other can be taken apart in one way only. -/
theorem IsEncoded.eq_of_flatten_eq {xs ys : List Bytes} (encodedX : ∀ x ∈ xs, IsEncoded x)
    (encodedY : ∀ y ∈ ys, IsEncoded y) (same : xs.flatten = ys.flatten) : xs = ys := by
  induction xs generalizing ys with
  | nil =>
    cases ys with
    | nil => rfl
    | cons y ys =>
      obtain ⟨tag, content, -, rfl⟩ := encodedY y List.mem_cons_self
      exact nomatch same
  | cons x xs ih =>
    obtain ⟨⟨tag, content, fits, rfl⟩, othersX⟩ := List.forall_mem_cons.mp encodedX
    cases ys with
    | nil => exact nomatch same
    | cons y ys =>
      obtain ⟨⟨tag', content', fits', rfl⟩, othersY⟩ := List.forall_mem_cons.mp encodedY
      rw [List.flatten_cons, List.flatten_cons] at same
      obtain ⟨rfl, rfl, sameOthers⟩ := encode_append_inj fits fits' same
      rw [ih othersX othersY sameOthers]

/-- A byte string that was written as one element, of a length that eight bytes can hold. -/
def IsWritten (bs : Bytes) : Prop :=
  ∃ tag content, content.length < 2 ^ 64 ∧ bs = encode tag content

theorem IsWritten.isEncoded {bs : Bytes} (written : IsWritten bs) : IsEncoded bs := by
  obtain ⟨tag, content, fits, rfl⟩ := written
  exact ⟨tag, content, lt_lengthLimit fits, rfl⟩

theorem eq_of_flatten_eq {xs ys : List Bytes} (writtenX : ∀ x ∈ xs, IsWritten x)
    (writtenY : ∀ y ∈ ys, IsWritten y) (same : xs.flatten = ys.flatten) : xs = ys :=
  IsEncoded.eq_of_flatten_eq (fun x mem => (writtenX x mem).isEncoded)
    (fun y mem => (writtenY y mem).isEncoded) same

/-! ### Readers -/

/-- A reader that looks no further than what it takes off the front: it takes the same whatever
follows. -/
def SelfDelimiting {α : Type} (step : Bytes → Option (α × Bytes)) : Prop :=
  ∀ {bs a rest}, step bs = some (a, rest) →
    ∃ front, bs = front ++ rest ∧ ∀ other, step (front ++ other) = some (a, other)

theorem selfDelimiting_readHighNumber (left number : Nat) :
    SelfDelimiting (readHighNumber left number) := by
  intro bs n rest h
  induction left generalizing number bs with
  | zero => cases h
  | succ left ih =>
    cases bs with
    | nil => cases h
    | cons b bs =>
      rw [readHighNumber] at h
      split at h
      case isTrue last =>
        obtain ⟨rfl, rfl⟩ := Prod.mk.inj (Option.some.inj h)
        exact ⟨[b], rfl, fun other => if_pos last⟩
      case isFalse more =>
        obtain ⟨front, rfl, again⟩ := ih _ h
        exact ⟨b :: front, rfl, fun other => (if_neg more).trans (again other)⟩

theorem selfDelimiting_readNumber (first : UInt8) : SelfDelimiting (readNumber first) := by
  intro bs n rest h
  unfold readNumber at h ⊢
  split at h
  case isTrue high =>
    simp only [if_pos high]
    exact selfDelimiting_readHighNumber 5 0 h
  case isFalse low =>
    obtain ⟨rfl, rfl⟩ := Prod.mk.inj (Option.some.inj h)
    exact ⟨[], rfl, fun other => if_neg low⟩

theorem selfDelimiting_readLength : SelfDelimiting readLength := by
  intro bs n rest h
  rcases readLength_eq_some_iff.mp h with
    ⟨b, short, isNumber, rfl⟩ | ⟨count, digits, written, notReserved, counts, few, isNumber, rfl⟩
  · exact ⟨[b], rfl, fun other => readLength_eq_some_iff.mpr (.inl ⟨b, short, isNumber, rfl⟩)⟩
  · exact ⟨count :: digits, rfl, fun other => readLength_eq_some_iff.mpr
      (.inr ⟨count, digits, written, notReserved, counts, few, isNumber, rfl⟩)⟩

/-- The head of an element: its first octet, its tag number and the length of its content. -/
def readHead : Bytes → Option ((UInt8 × Nat × Nat) × Bytes)
  | [] => none
  | first :: body => do
    let (number, rest) ← readNumber first body
    let (length, rest) ← readLength rest
    return ((first, number, length), rest)

theorem selfDelimiting_readHead : SelfDelimiting readHead := by
  intro bs head rest h
  cases bs with
  | nil => cases h
  | cons first body =>
    obtain ⟨⟨number, afterNumber⟩, readNumber, h⟩ := Option.bind_eq_some_iff.mp h
    obtain ⟨⟨length, afterLength⟩, readLength, h⟩ := Option.bind_eq_some_iff.mp h
    obtain ⟨rfl, rfl⟩ := Prod.mk.inj (Option.some.inj h)
    obtain ⟨digits, rfl, numberAgain⟩ := selfDelimiting_readNumber first readNumber
    obtain ⟨octets, rfl, lengthAgain⟩ := selfDelimiting_readLength readLength
    refine ⟨first :: (digits ++ octets), by simp, fun other => ?_⟩
    rw [List.cons_append, List.append_assoc, readHead, numberAgain]
    simp only [Option.bind_eq_bind, Option.bind_some, lengthAgain]
    rfl

namespace Element

/-- The element with this head and content. -/
def ofHead (head : UInt8 × Nat × Nat) (header content : Bytes) : Element where
  tagClass := .ofOctet head.1
  constructed := head.1.toNat / 32 % 2 = 1
  number := head.2.1
  content
  octets := header ++ content

variable {head : UInt8 × Nat × Nat} {header bs content rest : Bytes} {e : Element}

/-- An element is read where its head is read and its content follows. -/
theorem read?_append (reads : ∀ other, readHead (header ++ other) = some (head, other))
    (length : head.2.2 = content.length) (rest : Bytes) :
    read? (header ++ (content ++ rest)) = some (ofHead head header content, rest) := by
  cases header with
  | nil => exact nomatch reads []
  | cons first digits =>
    have readsHead := reads (content ++ rest)
    rw [List.cons_append] at readsHead ⊢
    obtain ⟨⟨number, afterNumber⟩, number_eq, kept⟩ := Option.bind_eq_some_iff.mp readsHead
    obtain ⟨⟨count, afterLength⟩, length_eq, kept⟩ := Option.bind_eq_some_iff.mp kept
    obtain ⟨rfl, rfl⟩ := Prod.mk.inj (Option.some.inj kept)
    obtain rfl : count = content.length := length
    rw [read?, number_eq]
    simp only [Option.bind_eq_bind, Option.bind_some, length_eq, Bytes.split?_append]
    -- The octets are what the rest leaves of the whole.
    have octets : (first :: (digits ++ (content ++ rest))).take
        ((digits ++ (content ++ rest)).length + 1 - rest.length) = first :: (digits ++ content) := by
      have whole : first :: (digits ++ (content ++ rest))
          = (first :: (digits ++ content)) ++ rest := by simp
      rw [whole]
      exact List.take_left' (by simp; omega)
    rw [octets]
    rfl

/-- What is read as an element is a head, the content and the rest. -/
theorem exists_head_of_read? (h : read? bs = some (e, rest)) :
    ∃ header head, bs = header ++ (e.content ++ rest) ∧ head.2.2 = e.content.length
      ∧ ∀ other, readHead (header ++ other) = some (head, other) := by
  cases bs with
  | nil => cases h
  | cons first body =>
    obtain ⟨⟨number, afterNumber⟩, number_eq, kept⟩ := Option.bind_eq_some_iff.mp h
    obtain ⟨⟨length, afterLength⟩, length_eq, kept⟩ := Option.bind_eq_some_iff.mp kept
    obtain ⟨⟨content, afterContent⟩, cut, same⟩ := Option.bind_eq_some_iff.mp kept
    obtain ⟨rfl, rfl⟩ := Prod.mk.inj (Option.some.inj same)
    obtain ⟨rfl, counted⟩ := Bytes.append_of_split? cut
    have readsHead : readHead (first :: body)
        = some ((first, number, length), content ++ afterContent) := by
      rw [readHead, number_eq]
      simp only [Option.bind_eq_bind, Option.bind_some, length_eq]
      rfl
    obtain ⟨header, whole, again⟩ := selfDelimiting_readHead readsHead
    exact ⟨header, _, whole, counted.symm, again⟩

theorem selfDelimiting_read? : SelfDelimiting read? := by
  intro bs e rest h
  obtain ⟨header, head, rfl, length, reads⟩ := exists_head_of_read? h
  -- Whatever follows, it is the element that stood before this rest.
  have same : ofHead head header e.content = e :=
    congrArg Prod.fst (Option.some.inj ((read?_append reads length rest).symm.trans h))
  refine ⟨header ++ e.content, (List.append_assoc _ _ _).symm, fun other => ?_⟩
  rw [List.append_assoc, read?_append reads length, same]

theorem readNumbered?_eq_some_iff {number : Nat} :
    readNumbered? number bs = some (e, rest) ↔ read? bs = some (e, rest) ∧ e.number = number := by
  simp only [readNumbered?, Option.bind_eq_bind, Option.bind_eq_some_iff]
  constructor
  · rintro ⟨⟨found, after⟩, read, kept⟩
    split at kept
    case isTrue expected =>
      obtain ⟨rfl, rfl⟩ := Prod.mk.inj (Option.some.inj kept)
      exact ⟨read, expected⟩
    case isFalse => cases kept
  · rintro ⟨read, expected⟩
    exact ⟨_, read, if_pos expected⟩

theorem selfDelimiting_readNumbered? (number : Nat) : SelfDelimiting (readNumbered? number) := by
  intro bs e rest h
  obtain ⟨read, expected⟩ := readNumbered?_eq_some_iff.mp h
  obtain ⟨front, rfl, again⟩ := selfDelimiting_read? read
  exact ⟨front, rfl, fun other => readNumbered?_eq_some_iff.mpr ⟨again other, expected⟩⟩

/-- An element begins with an octet that holds its tag number, or says that the number follows. -/
theorem exists_first_of_readNumbered? {number : Nat}
    (h : readNumbered? number bs = some (e, rest)) :
    ∃ first body, bs = first :: body ∧ (first.toNat % 32 = number ∨ first.toNat % 32 = 31) := by
  obtain ⟨read, expected⟩ := readNumbered?_eq_some_iff.mp h
  cases bs with
  | nil => cases read
  | cons first body =>
    obtain ⟨⟨given, _⟩, isNumber, more⟩ := Option.bind_eq_some_iff.mp read
    obtain ⟨⟨_, _⟩, -, more⟩ := Option.bind_eq_some_iff.mp more
    obtain ⟨⟨_, _⟩, -, same⟩ := Option.bind_eq_some_iff.mp more
    obtain ⟨rfl, -⟩ := Prod.mk.inj (Option.some.inj same)
    refine ⟨first, body, rfl, ?_⟩
    unfold readNumber at isNumber
    split at isNumber
    case isTrue high => exact .inr high
    case isFalse => exact .inl ((Prod.mk.inj (Option.some.inj isNumber)).1.trans expected)

end Element

section Many

variable {α : Type} {step : Bytes → Option (α × Bytes)}

theorem readMany_of_none {bs : Bytes} (ends : step bs = none) : readMany step bs = ([], bs) := by
  rw [readMany, ends]

theorem readMany_of_some {bs rest : Bytes} {a : α} (read : step bs = some (a, rest))
    (shorter : rest.length < bs.length) :
    readMany step bs = (a :: (readMany step rest).1, (readMany step rest).2) := by
  rw [readMany, read]
  exact if_pos shorter

/-- What is read off the front is read whatever follows, and then reading goes on with that. -/
theorem readMany_append (delimits : SelfDelimiting step) (bs : Bytes) :
    ∃ consumed, bs = consumed ++ (readMany step bs).2 ∧ ∀ other,
      readMany step (consumed ++ other)
        = ((readMany step bs).1 ++ (readMany step other).1, (readMany step other).2) := by
  fun_induction readMany step bs with
  | case1 bs ends => exact ⟨[], rfl, fun other => by simp⟩
  | case2 bs a rest read shorter more ih =>
    obtain ⟨consumed, isRest, again⟩ := ih
    obtain ⟨front, rfl, readAgain⟩ := delimits read
    refine ⟨front ++ consumed, ?_, fun other => ?_⟩
    · rw [List.append_assoc, ← isRest]
    · have taken : 0 < front.length := by simpa using shorter
      rw [List.append_assoc, readMany_of_some (readAgain _) (by simpa using taken), again]
      rfl
  | case3 bs a rest read notShorter => exact ⟨[], rfl, fun other => by simp⟩

theorem length_readMany_le (step : Bytes → Option (α × Bytes)) (bs : Bytes) :
    (readMany step bs).2.length ≤ bs.length := by
  fun_induction readMany step bs with
  | case1 => exact Nat.le_refl _
  | case2 bs a rest read shorter more ih => exact Nat.le_trans ih (Nat.le_of_lt shorter)
  | case3 => exact Nat.le_refl _

/-- Where nothing is taken off, nothing is read. -/
theorem readMany_eq_nil {bs : Bytes} (untouched : (readMany step bs).2 = bs) :
    (readMany step bs).1 = [] := by
  cases read : step bs with
  | none => rw [readMany_of_none read]
  | some pair =>
    obtain ⟨a, rest⟩ := pair
    by_cases shorter : rest.length < bs.length
    · rw [readMany_of_some read shorter] at untouched
      have short := length_readMany_le step rest
      have long := congrArg List.length untouched
      dsimp only at long
      omega
    · rw [readMany, read]
      exact congrArg Prod.fst (if_neg shorter)

/-- What is read is known from what is taken off the front. -/
theorem readMany_fst_eq (delimits : SelfDelimiting step) {consumed unread other : Bytes}
    (h : (readMany step (consumed ++ unread)).2 = unread)
    (h' : (readMany step (consumed ++ other)).2 = other) :
    (readMany step (consumed ++ unread)).1 = (readMany step (consumed ++ other)).1 := by
  obtain ⟨front, whole, again⟩ := readMany_append delimits (consumed ++ unread)
  obtain rfl : consumed = front := by
    rw [h] at whole
    exact List.append_cancel_right whole
  rw [again other] at h' ⊢
  rw [readMany_eq_nil h', List.append_nil]

end Many

end PeerTrust.Der
