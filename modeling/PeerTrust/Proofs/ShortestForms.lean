import PeerTrust.Der.Strict
import PeerTrust.Proofs.CanonicalNames

/-!
# Elements in their shortest form

Of all the octets that a length can be read from, those that are written are the fewest. A reader
that takes nothing else still reads every element that is written, whatever follows it, and finds the
tag octet and the content. So elements that were written one after the other are read back one after
the other, as the relative names of a canonical name are.

## Main definitions

* `Der.ShortestLength` — the octets of a length in its shortest form
* `Der.Shortest.read?` — a reader of elements whose lengths are in their shortest form
* `Der.writeOnto` — elements written onto what stands in a buffer

## Main results

* `Der.shortestLength_iff`, `Der.shorter_of_readLength` — what is written of a length, and that
  nothing shorter is read as that length
* `Der.Shortest.read?_eq_some_iff` — what is read in shortest form is what is written
* `Der.Strict.read?_eq_some_iff`, `Der.Element.read?_encode` — what the other readers make of it
* `Der.written_in_shortest_form` — an element behind a buffer, and elements one after the other
* `Name.readAll?_canonical` — the relative names in a canonical name
-/

namespace PeerTrust

namespace Bytes

theorem significant_of_head? {bs : Bytes} (noZero : bs.head? ≠ some 0) : significant bs = bs := by
  cases bs with
  | nil => rfl
  | cons b bs =>
    have nonzero : b ≠ 0 := fun zero => noZero (congrArg some zero)
    rw [significant, List.dropWhile_cons_of_neg (by simpa using nonzero)]

theorem head?_ofNat (n : Nat) : (ofNat n).head? ≠ some 0 := by
  intro zero
  have head := List.head?_dropWhile_not (· == 0) (ofNat n)
  rw [← significant, ← ofNat_toNat, toNat_ofNat, zero] at head
  exact absurd head (by decide)

end Bytes

namespace Der

/-! ### Lengths in their shortest form -/

/-- The octets of a length in its shortest form. A length below 128 is an octet of its own. Any other
is written in digits of eight bits, of which the first is not zero, behind an octet with the high bit
that counts them. -/
inductive ShortestLength : Nat → Bytes → Prop
  | short {n : Nat} (below : n < 0x80) : ShortestLength n [UInt8.ofNat n]
  | long {digits : Bytes} (few : digits.length ≤ 8) (noZero : digits.head? ≠ some 0)
      (needed : 0x80 ≤ Bytes.toNat digits) :
      ShortestLength (Bytes.toNat digits) ((0x80 ||| UInt8.ofNat digits.length) :: digits)

/-- The high bit and a count below it do not meet. -/
theorem highBit_or_count {count : Nat} (few : count < 0x80) :
    0x80 ||| UInt8.ofNat count = UInt8.ofNat (0x80 + count) := by
  apply UInt8.toNat_inj.mp
  have fits : count % 2 ^ 8 = count := Nat.mod_eq_of_lt (by omega)
  have apart := Nat.two_pow_add_eq_or_of_lt (i := 7) few 1
  rw [UInt8.toNat_or, UInt8.toNat_ofNat', UInt8.toNat_ofNat', fits,
    Nat.mod_eq_of_lt (by omega : 0x80 + count < 2 ^ 8)]
  exact apart.symm

theorem toNat_highBit_or_count {count : Nat} (few : count < 0x80) :
    (0x80 ||| UInt8.ofNat count).toNat = 0x80 + count := by
  rw [highBit_or_count few, UInt8.toNat_ofNat']
  omega

variable {n : Nat} {bs octets rest : Bytes}

/-- What is written of a length is its shortest form, and nothing else is. -/
theorem shortestLength_iff : ShortestLength n octets ↔ n < 2 ^ 64 ∧ octets = lengthOctets n := by
  constructor
  · intro shortest
    cases shortest with
    | short below => exact ⟨by omega, (lengthOctets_of_lt below).symm⟩
    | @long digits few noZero needed =>
      have fits : Bytes.toNat digits < 256 ^ 8 :=
        Nat.lt_of_lt_of_le (Bytes.toNat_lt digits) (Nat.pow_le_pow_right (by decide) few)
      refine ⟨fits, ?_⟩
      rw [lengthOctets, if_neg (Nat.not_lt.mpr needed), Bytes.ofNat_toNat,
        Bytes.significant_of_head? noZero, highBit_or_count (by omega)]
  · rintro ⟨fits, rfl⟩
    by_cases below : n < 0x80
    · rw [lengthOctets_of_lt below]
      exact .short below
    · have few : (Bytes.ofNat n).length ≤ 8 := Bytes.length_ofNat_le fits
      have number := Bytes.toNat_ofNat n
      have long := ShortestLength.long few (Bytes.head?_ofNat n) (by omega)
      rw [number, highBit_or_count (by omega)] at long
      rwa [lengthOctets, if_neg below]

/-- Whatever is read as a length, the octets that are written of it are fewer, or the same. -/
theorem shorter_of_readLength (read : readLength bs = some (n, rest)) :
    ∃ octets, bs = octets ++ rest
      ∧ (octets = lengthOctets n ∨ (lengthOctets n).length < octets.length) := by
  rcases readLength_eq_some_iff.mp read with
    ⟨b, below, rfl, rfl⟩ | ⟨count, digits, written, -, counts, -, rfl, rfl⟩
  · refine ⟨[b], rfl, .inl ?_⟩
    rw [lengthOctets_of_lt below, UInt8.ofNat_toNat]
  · refine ⟨count :: digits, rfl, ?_⟩
    by_cases below : Bytes.toNat digits < 0x80
    · refine .inr ?_
      rw [lengthOctets_of_lt below]
      exact Nat.succ_lt_succ written
    · rw [lengthOctets, if_neg below, Bytes.ofNat_toNat]
      -- Zeros in front make the difference.
      have suffix : Bytes.significant digits <:+ digits := List.dropWhile_suffix _
      by_cases same : Bytes.significant digits = digits
      · exact .inl (by rw [same, ← counts, UInt8.ofNat_toNat])
      · have fewer := Nat.lt_of_le_of_ne suffix.length_le fun all =>
          same (suffix.eq_of_length all)
        exact .inr (Nat.succ_lt_succ fewer)

namespace Shortest

/-- A length in its shortest form. -/
def readLength : Bytes → Option (Nat × Bytes)
  | [] => none
  | count :: rest =>
    if count.toNat < 0x80 then some (count.toNat, rest)
    else do
      let (digits, rest) ← Bytes.split? (count.toNat - 0x80) rest
      if digits.length ≤ 8 ∧ digits.head? ≠ some 0 ∧ 0x80 ≤ Bytes.toNat digits then
        some (Bytes.toNat digits, rest)
      else none

/-- The tag octet and the content of the first element, whose length must be in its shortest form,
and the rest. -/
def read? : Bytes → Option ((UInt8 × Bytes) × Bytes)
  | [] => none
  | tag :: rest => do
    let (length, rest) ← readLength rest
    let (content, rest) ← Bytes.split? length rest
    return ((tag, content), rest)

theorem readLength_append (shortest : ShortestLength n octets) (rest : Bytes) :
    readLength (octets ++ rest) = some (n, rest) := by
  cases shortest with
  | short below =>
    have byte : (UInt8.ofNat n).toNat = n := by
      rw [UInt8.toNat_ofNat']
      omega
    rw [List.singleton_append, readLength, byte, if_pos below]
  | @long digits few noZero needed =>
    have counts := toNat_highBit_or_count (by omega : digits.length < 0x80)
    rw [List.cons_append, readLength, counts, if_neg (by omega), Nat.add_sub_cancel_left,
      Bytes.split?_append]
    exact if_pos ⟨few, noZero, needed⟩

/-- A length is read where it stands in its shortest form. -/
theorem readLength_eq_some_iff :
    readLength bs = some (n, rest) ↔ ∃ octets, ShortestLength n octets ∧ bs = octets ++ rest := by
  constructor
  · intro read
    cases bs with
    | nil => cases read
    | cons count bs =>
      rw [readLength] at read
      split at read
      case isTrue below =>
        obtain ⟨rfl, rfl⟩ := Prod.mk.inj (Option.some.inj read)
        have short := ShortestLength.short below
        rw [UInt8.ofNat_toNat] at short
        exact ⟨[count], short, rfl⟩
      case isFalse notShort =>
        obtain ⟨⟨digits, after⟩, cut, kept⟩ := Option.bind_eq_some_iff.mp read
        obtain ⟨rfl, counted⟩ := Bytes.append_of_split? cut
        dsimp only at kept
        split at kept
        case isFalse => cases kept
        case isTrue shortest =>
          obtain ⟨few, noZero, needed⟩ := shortest
          obtain ⟨rfl, rfl⟩ := Prod.mk.inj (Option.some.inj kept)
          -- The count that was read is the one that goes with so many digits.
          have total : 0x80 + digits.length = count.toNat := by omega
          have long := ShortestLength.long few noZero needed
          rw [highBit_or_count (by omega), total, UInt8.ofNat_toNat] at long
          exact ⟨count :: digits, long, rfl⟩
  · rintro ⟨octets, shortest, rfl⟩
    exact readLength_append shortest rest

variable {tag : UInt8} {content : Bytes}

/-- An element is read where one of this tag and content was written, and nowhere else. -/
theorem read?_eq_some_iff :
    read? bs = some ((tag, content), rest) ↔
      content.length < 2 ^ 64 ∧ bs = encode tag content ++ rest := by
  constructor
  · intro read
    cases bs with
    | nil => cases read
    | cons first bs =>
      obtain ⟨⟨length, afterLength⟩, isLength, read⟩ := Option.bind_eq_some_iff.mp read
      obtain ⟨⟨found, afterContent⟩, cut, same⟩ := Option.bind_eq_some_iff.mp read
      obtain ⟨element, rfl⟩ := Prod.mk.inj (Option.some.inj same)
      obtain ⟨rfl, rfl⟩ := Prod.mk.inj element
      obtain ⟨octets, shortest, rfl⟩ := readLength_eq_some_iff.mp isLength
      obtain ⟨rfl, rfl⟩ := Bytes.append_of_split? cut
      -- There is one shortest form of a length, and it is the one that is written.
      obtain ⟨fits, rfl⟩ := shortestLength_iff.mp shortest
      exact ⟨fits, (encode_append _ _ _).symm⟩
  · rintro ⟨fits, rfl⟩
    have isLength := readLength_append (shortestLength_iff.mpr ⟨fits, rfl⟩) (content ++ rest)
    rw [encode_append, read?, isLength]
    simp only [Option.bind_eq_bind, Option.bind_some, Bytes.split?_append]
    rfl

theorem read?_length_lt {item : UInt8 × Bytes} (read : read? bs = some (item, rest)) :
    rest.length < bs.length := by
  obtain ⟨-, rfl⟩ := read?_eq_some_iff.mp read
  rw [List.length_append]
  exact Nat.lt_add_of_pos_left (Nat.succ_pos _)

end Shortest

/-! ### The other readers -/

section FewDigits

variable {a b : UInt8}

theorem count_singleton (a : UInt8) : 0x80 ||| UInt8.ofNat [a].length = 0x81 := by
  rw [List.length_singleton]
  rfl

theorem count_pair (a b : UInt8) : 0x80 ||| UInt8.ofNat [a, b].length = 0x82 := by
  rw [List.length_cons, List.length_singleton]
  rfl

theorem toNat_singleton (a : UInt8) : Bytes.toNat [a] = a.toNat := by
  simp [Bytes.toNat]

theorem toNat_pair (a b : UInt8) : Bytes.toNat [a, b] = 256 * a.toNat + b.toNat := by
  simp [Bytes.toNat]

theorem ShortestLength.one (needed : 0x80 ≤ a.toNat) : ShortestLength a.toNat [0x81, a] := by
  have nonzero : a ≠ 0 := by
    rintro rfl
    exact absurd needed (by decide)
  have needed' : 0x80 ≤ Bytes.toNat [a] := by rwa [toNat_singleton]
  have long := ShortestLength.long (by simp) (by simpa using nonzero) needed'
  rwa [toNat_singleton, count_singleton] at long

theorem ShortestLength.two (nonzero : a ≠ 0) :
    ShortestLength (256 * a.toNat + b.toNat) [0x82, a, b] := by
  have positive : a.toNat ≠ 0 := fun zero => nonzero (UInt8.toNat_inj.mp zero)
  have needed : 0x80 ≤ Bytes.toNat [a, b] := by
    rw [toNat_pair]
    omega
  have long := ShortestLength.long (by simp) (by simpa using nonzero) needed
  rwa [toNat_pair, count_pair] at long

end FewDigits

namespace Strict

theorem readLength_of_short {a : UInt8} (below : a.toNat < 0x80) (rest : Bytes) :
    readLength (a :: rest) = some (a.toNat, rest) := by
  have notOne : a ≠ 0x81 := by
    rintro rfl
    exact absurd below (by decide)
  have notTwo : a ≠ 0x82 := by
    rintro rfl
    exact absurd below (by decide)
  simp [readLength, below, notOne, notTwo]

/-- The strict reader reads the shortest forms of the lengths that two digits can hold. -/
theorem readLength_eq_some_iff :
    readLength bs = some (n, rest) ↔
      Shortest.readLength bs = some (n, rest) ∧ n < 256 ^ 2 := by
  rw [Shortest.readLength_eq_some_iff]
  constructor
  · intro read
    unfold readLength at read
    split at read
    case h_1 a tail =>
      obtain ⟨needed, rfl, rfl⟩ : 0x80 ≤ a.toNat ∧ a.toNat = n ∧ tail = rest := by simpa using read
      exact ⟨⟨[0x81, a], .one needed, rfl⟩, Nat.lt_trans a.toNat_lt (by decide)⟩
    case h_2 a b tail =>
      obtain ⟨nonzero, rfl, rfl⟩ : a ≠ 0 ∧ 256 * a.toNat + b.toNat = n ∧ tail = rest := by
        simpa using read
      have high := a.toNat_lt
      have low := b.toNat_lt
      exact ⟨⟨[0x82, a, b], .two nonzero, rfl⟩, by omega⟩
    case h_3 a tail _ _ =>
      obtain ⟨below, rfl, rfl⟩ : a.toNat < 0x80 ∧ a.toNat = n ∧ tail = rest := by simpa using read
      have short := ShortestLength.short below
      rw [UInt8.ofNat_toNat] at short
      exact ⟨⟨[a], short, rfl⟩, Nat.lt_trans a.toNat_lt (by decide)⟩
    case h_4 => cases read
  · rintro ⟨⟨octets, shortest, rfl⟩, fits⟩
    cases shortest with
    | short below =>
      have byte : (UInt8.ofNat n).toNat = n := by
        rw [UInt8.toNat_ofNat']
        omega
      have read := readLength_of_short (a := UInt8.ofNat n) (by omega) rest
      rwa [byte] at read
    | @long digits few noZero needed =>
      -- A third digit would make the length too large.
      have atMostTwo := Bytes.length_ofNat_le fits
      rw [Bytes.ofNat_toNat, Bytes.significant_of_head? noZero] at atMostTwo
      match digits with
      | [] => exact absurd needed (by decide)
      | [a] =>
        rw [toNat_singleton] at needed ⊢
        rw [count_singleton]
        exact if_pos needed
      | [a, b] =>
        have nonzero : a ≠ 0 := by simpa using noZero
        rw [toNat_pair, count_pair]
        exact if_neg nonzero
      | a :: b :: c :: more =>
        simp only [List.length_cons] at atMostTwo
        omega

variable {tag : UInt8} {content : Bytes}

/-- The strict reader reads what is written of an element, if its tag is one octet and two digits
can hold its length. -/
theorem read?_eq_some_iff :
    read? bs = some (tag, content, rest) ↔
      tag.toNat % 32 ≠ 31 ∧ content.length < 256 ^ 2 ∧ bs = encode tag content ++ rest := by
  constructor
  · intro read
    cases bs with
    | nil => cases read
    | cons first bs =>
      simp only [read?] at read
      split at read
      case isTrue => cases read
      case isFalse low =>
        obtain ⟨⟨length, afterLength⟩, isLength, read⟩ := Option.bind_eq_some_iff.mp read
        obtain ⟨⟨found, afterContent⟩, cut, same⟩ := Option.bind_eq_some_iff.mp read
        obtain ⟨rfl, rfl, rfl⟩ : first = tag ∧ found = content ∧ afterContent = rest := by
          simpa using same
        obtain ⟨shortest, fits⟩ := readLength_eq_some_iff.mp isLength
        obtain ⟨-, counted⟩ := Bytes.append_of_split? cut
        have read : Shortest.read? (first :: bs) = some ((first, found), afterContent) := by
          simp only [Shortest.read?, shortest, Option.bind_eq_bind, Option.bind_some, cut]
          rfl
        exact ⟨low, counted ▸ fits, (Shortest.read?_eq_some_iff.mp read).2⟩
  · rintro ⟨low, fits, rfl⟩
    have small : content.length < 2 ^ 64 := Nat.lt_trans fits (by decide)
    have shortest := Shortest.readLength_append (shortestLength_iff.mpr ⟨small, rfl⟩)
      (content ++ rest)
    have isLength := readLength_eq_some_iff.mpr ⟨shortest, fits⟩
    simp only [encode_append, read?, if_neg low, isLength, Option.bind_eq_bind, Option.bind_some,
      Bytes.split?_append]
    rfl

end Strict

/-- The lenient reader reads what is written of an element whose tag is one octet. -/
theorem Element.read?_encode {tag : UInt8} {content : Bytes} (low : tag.toNat % 32 ≠ 31)
    (fits : content.length < 2 ^ 64) (rest : Bytes) :
    Element.read? (encode tag content ++ rest)
      = some ({ tagClass := .ofOctet tag
                constructed := tag.toNat / 32 % 2 = 1
                number := tag.toNat % 32
                content
                octets := encode tag content }, rest) := by
  have readsHead (other : Bytes) :
      readHead (tag :: lengthOctets content.length ++ other)
        = some ((tag, tag.toNat % 32, content.length), other) := by
    have number : readNumber tag (lengthOctets content.length ++ other)
        = some (tag.toNat % 32, lengthOctets content.length ++ other) := if_neg low
    rw [List.cons_append, readHead, number]
    simp only [Option.bind_eq_bind, Option.bind_some, readLength_lengthOctets fits]
    rfl
  have read := Element.read?_append readsHead rfl rest
  rwa [← List.append_assoc] at read

/-! ### Elements behind a buffer -/

/-- Elements written one after the other onto what stands in a buffer. -/
def writeOnto (buffer : Bytes) (items : List (UInt8 × Bytes)) : Bytes :=
  items.foldl (fun written item => written ++ encode item.1 item.2) buffer

section Written

variable {items : List (UInt8 × Bytes)}

theorem writeOnto_cons (buffer : Bytes) (item : UInt8 × Bytes) :
    writeOnto buffer (item :: items) = writeOnto (buffer ++ encode item.1 item.2) items := rfl

/-- What stands in the buffer stays, and does not change what comes behind it. -/
theorem writeOnto_eq_append (buffer : Bytes) (items : List (UInt8 × Bytes)) :
    writeOnto buffer items = buffer ++ items.flatMap fun item => encode item.1 item.2 := by
  induction items generalizing buffer with
  | nil => exact (List.append_nil buffer).symm
  | cons item items ih => rw [writeOnto_cons, ih, List.append_assoc, List.flatMap_cons]

/-- Elements that were written one after the other are read back, and then what follows them. -/
theorem readMany_written (fits : ∀ item ∈ items, item.2.length < 2 ^ 64) (trailing : Bytes) :
    readMany Shortest.read? ((items.flatMap fun item => encode item.1 item.2) ++ trailing)
      = (items ++ (readMany Shortest.read? trailing).1, (readMany Shortest.read? trailing).2) := by
  induction items with
  | nil => rfl
  | cons item items ih =>
    obtain ⟨first, others⟩ := List.forall_mem_cons.mp fits
    rw [List.flatMap_cons, List.append_assoc]
    generalize (items.flatMap _) ++ trailing = rest at ih ⊢
    have read : Shortest.read? (encode item.1 item.2 ++ rest) = some (item, rest) :=
      Shortest.read?_eq_some_iff.mpr ⟨first, rfl⟩
    rw [readMany_of_some read (Shortest.read?_length_lt read), ih others]
    rfl

/-- Behind a buffer, elements that were written one after the other are all that is read. -/
theorem readAll?_written (fits : ∀ item ∈ items, item.2.length < 2 ^ 64) (buffer : Bytes) :
    readAll? Shortest.read? ((writeOnto buffer items).drop buffer.length) = some items := by
  have ends : readMany Shortest.read? [] = ([], []) := readMany_of_none rfl
  have read := readMany_written fits []
  rw [List.append_nil, ends, List.append_nil] at read
  rw [writeOnto_eq_append, List.drop_left, readAll?, read]

end Written

/-- What is written of an element behind a buffer. The buffer stays, and is followed by the tag, the
length in its shortest form and the content, of any length that eight bytes can hold. No octets that
are read as that length are fewer. Whatever follows the element, the reader of shortest forms finds
the tag octet, the content and what follows; so do the lenient reader, if the tag is one octet, and
the strict one, if besides two digits can hold the length. Elements that were written one after the
other are read back one after the other, so that the octets tell what was written. -/
theorem written_in_shortest_form (tag : UInt8) {content : Bytes} (fits : content.length < 2 ^ 64)
    (buffer trailing : Bytes) :
    (∃ octets, ShortestLength content.length octets
        ∧ writeOnto buffer [(tag, content)] = buffer ++ tag :: (octets ++ content)
        ∧ ∀ others, readLength others = some (content.length, []) →
          others = octets ∨ octets.length < others.length)
      ∧ (let element := (writeOnto buffer [(tag, content)]).drop buffer.length
        Shortest.read? (element ++ trailing) = some ((tag, content), trailing)
          ∧ (tag.toNat % 32 ≠ 31 →
            Element.read? (element ++ trailing)
                = some ({ tagClass := .ofOctet tag
                          constructed := tag.toNat / 32 % 2 = 1
                          number := tag.toNat % 32
                          content
                          octets := element }, trailing)
              ∧ (content.length < 256 ^ 2 →
                Strict.read? (element ++ trailing) = some (tag, content, trailing))))
      ∧ ∀ items : List (UInt8 × Bytes), (∀ item ∈ items, item.2.length < 2 ^ 64) →
        buffer <+: writeOnto buffer items
          ∧ readAll? Shortest.read? ((writeOnto buffer items).drop buffer.length) = some items
          ∧ ∀ others, (∀ item ∈ others, item.2.length < 2 ^ 64) →
            writeOnto buffer items = writeOnto buffer others → items = others := by
  have single : writeOnto buffer [(tag, content)] = buffer ++ encode tag content := rfl
  have element : (writeOnto buffer [(tag, content)]).drop buffer.length = encode tag content := by
    rw [single, List.drop_left]
  refine ⟨⟨lengthOctets content.length, shortestLength_iff.mpr ⟨fits, rfl⟩, single,
    fun others read => ?_⟩, ?_, fun items itemsFit =>
      ⟨⟨_, (writeOnto_eq_append buffer items).symm⟩, readAll?_written itemsFit buffer,
        fun others othersFit same => ?_⟩⟩
  · obtain ⟨octets, rfl, shortest⟩ := shorter_of_readLength read
    rwa [List.append_nil]
  · simp only [element]
    exact ⟨Shortest.read?_eq_some_iff.mpr ⟨fits, rfl⟩, fun low =>
      ⟨Element.read?_encode low fits trailing, fun small =>
        Strict.read?_eq_some_iff.mpr ⟨low, small, rfl⟩⟩⟩
  · have back := readAll?_written itemsFit buffer
    rw [same, readAll?_written othersFit] at back
    exact (Option.some.inj back).symm

/-- A content of two hundred octets behind three octets and before two others: its length takes an
octet behind the count of its digits. -/
theorem written_in_shortest_form_of_long :
    (List.replicate 200 (0x61 : UInt8)).length < 2 ^ 64
      ∧ Shortest.read? ((writeOnto [1, 2, 3] [(0x0c, List.replicate 200 0x61)]).drop 3 ++ [4, 5])
        = some ((0x0c, List.replicate 200 0x61), [4, 5])
      ∧ (writeOnto [1, 2, 3] [(0x0c, List.replicate 200 0x61)]).take 6
        = [1, 2, 3, 0x0c, 0x81, 200] := by
  have fits : (List.replicate 200 (0x61 : UInt8)).length < 2 ^ 64 := by decide +kernel
  obtain ⟨-, ⟨read, -⟩, -⟩ := written_in_shortest_form 0x0c fits [1, 2, 3] [4, 5]
  exact ⟨fits, read, by decide +kernel⟩

end Der

namespace Name

/-! ### Canonical names -/

/-- A canonical name is written relative name by relative name. -/
theorem canonical_eq_writeOnto (n : Name) :
    n.canonical = Der.writeOnto [] (n.relatives.map fun r => (0x31, r.body)) := by
  rw [Der.writeOnto_eq_append, List.nil_append, List.flatMap_map]
  rfl

/-- The relative names are read back from the canonical name. -/
theorem readAll?_canonical {n : Name} (fits : ∀ r ∈ n.relatives, r.Fits) :
    Der.readAll? Der.Shortest.read? n.canonical = some (n.relatives.map fun r => (0x31, r.body)) := by
  rw [canonical_eq_writeOnto]
  refine Der.readAll?_written (fun item mem => ?_) []
  obtain ⟨r, isRelative, rfl⟩ := List.mem_map.mp mem
  exact Relative.length_body r ▸ fits r isRelative

end Name

end PeerTrust
