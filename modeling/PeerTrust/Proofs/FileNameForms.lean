import PeerTrust.Proofs.DirectoryLookups
import PeerTrust.Proofs.HashedNames

/-!
# The form of hashed file names

The name of a hashed file is eight hexadecimal digits in lower case, a dot, an `r` and the index in
decimal digits without leading zeros. Numbers are read from their digits, and a text of this form is
the name of the hash and the index that are read from it, and of no others. So a walk along the files
of one hash comes to no file of another, whatever the directory holds.

## Main definitions

* `readNumber?` — the number that digits denote
* `IsHashedForm`, `readHashedName?` — texts in the form of hashed file names, and how they are read

## Main results

* `eq_of_readNumber?`, `eq_toDigits_of_readNumber?` — digits that denote the same number
* `eq_hashedFileName_iff` — which text is the name of a hash and an index
* `CrlSource.hashedPath_ne` — paths under different hashes
* `hashed_names_apart` — what this says of names and of look-ups
-/

namespace PeerTrust

/-! ### Numbers read from digits -/

/-- The number that digits in a base denote, most significant digit first. -/
def readNumber? (base : Nat) (cs : List Char) : Option Nat :=
  cs.foldlM (fun number c => do
    let digit ← Bytes.hexDigit? c
    if digit < base then some (base * number + digit) else none) 0

section Digits

variable {base n : Nat} {c d : Char} {cs ds : List Char}

/-- The last digit is the lowest. -/
theorem readNumber?_concat_eq_some_iff :
    readNumber? base (cs ++ [c]) = some n ↔
      ∃ high low, readNumber? base cs = some high ∧ Bytes.hexDigit? c = some low ∧ low < base
        ∧ base * high + low = n := by
  simp only [readNumber?, List.foldlM_append, List.foldlM_cons, List.foldlM_nil,
    Option.bind_eq_bind, Option.bind_eq_some_iff]
  constructor
  · rintro ⟨high, isHigh, last, ⟨low, isLow, kept⟩, same⟩
    obtain rfl := Option.some.inj same
    split at kept
    case isTrue below => exact ⟨high, low, isHigh, isLow, below, Option.some.inj kept⟩
    case isFalse => cases kept
  · rintro ⟨high, low, isHigh, isLow, below, rfl⟩
    exact ⟨high, isHigh, _, ⟨low, isLow, if_pos below⟩, rfl⟩

/-- A number is read from its digits. -/
theorem readNumber?_toDigits (base_gt : 1 < base) (base_le : base ≤ 16) (n : Nat) :
    readNumber? base (Nat.toDigits base n) = some n := by
  induction n using Nat.strongRecOn with
  | ind n ih =>
    have last : n % base < base := Nat.mod_lt n (by omega)
    have digit := Bytes.hexDigit?_digitChar (Nat.lt_of_lt_of_le last base_le)
    rw [Nat.toDigits_eq_if base_gt]
    split
    case isTrue below =>
      rw [Nat.mod_eq_of_lt below] at digit
      rw [← List.nil_append [n.digitChar]]
      exact readNumber?_concat_eq_some_iff.mpr ⟨0, n, rfl, digit, below, by simp⟩
    case isFalse above =>
      have smaller : n / base < n := Nat.div_lt_self (by omega) base_gt
      exact readNumber?_concat_eq_some_iff.mpr
        ⟨_, _, ih _ smaller, digit, last, Nat.div_add_mod n base⟩

/-- The number of a byte string is read from its hexadecimal digits. -/
theorem readNumber?_flatMap_hexPair (bs : Bytes) :
    readNumber? 16 (bs.flatMap (Bytes.hexPair Nat.digitChar)) = some (Bytes.toNat bs) := by
  induction bs using List.reverseRecOn with
  | nil => rfl
  | append_singleton bs b ih =>
    have below : b.toNat < 256 := b.toNat_lt
    have digits : (bs ++ [b]).flatMap (Bytes.hexPair Nat.digitChar)
        = (bs.flatMap (Bytes.hexPair Nat.digitChar) ++ [(b.toNat / 16).digitChar])
          ++ [(b.toNat % 16).digitChar] := by
      simp [Bytes.hexPair]
    rw [digits, Bytes.toNat_concat]
    have high := readNumber?_concat_eq_some_iff.mpr
      ⟨_, _, ih, Bytes.hexDigit?_digitChar (by omega : b.toNat / 16 < 16), by omega, rfl⟩
    exact readNumber?_concat_eq_some_iff.mpr
      ⟨_, _, high, Bytes.hexDigit?_digitChar (by omega), by omega, by omega⟩

/-- The digits of a base up to sixteen, in lower case. -/
def digitsBelow (base : Nat) : List Char := "0123456789abcdef".toList.take base

theorem mem_digitsBelow_iff (base_le : base ≤ 16) :
    c ∈ digitsBelow base ↔ ∃ value < base, value.digitChar = c := by
  have all : ∀ base < 17, digitsBelow base = (List.range base).map Nat.digitChar := by decide
  rw [all base (by omega), List.mem_map]
  simp only [List.mem_range]

theorem eq_digitChar_of_hexDigit? (base_le : base ≤ 16) (digit : c ∈ digitsBelow base)
    (value : Bytes.hexDigit? c = some n) : c = n.digitChar := by
  obtain ⟨known, below, rfl⟩ := (mem_digitsBelow_iff base_le).mp digit
  rw [Bytes.hexDigit?_digitChar (by omega)] at value
  rw [Option.some.inj value]

/-- The last digit and what comes before it are known from the number. -/
theorem digits_unique {high low high' low' : Nat} (below : low < base) (below' : low' < base)
    (same : base * high + low = base * high' + low') : high = high' ∧ low = low' := by
  have quotients := congrArg (· / base) same
  have positive : 0 < base := by omega
  simp only [Nat.mul_add_div positive, Nat.div_eq_of_lt below, Nat.div_eq_of_lt below',
    Nat.add_zero] at quotients
  subst quotients
  exact ⟨rfl, Nat.add_left_cancel same⟩

/-- Equally many digits that denote the same number are the same. -/
theorem eq_of_readNumber? (base_le : base ≤ 16) (digits : ∀ c ∈ cs, c ∈ digitsBelow base)
    (digits' : ∀ d ∈ ds, d ∈ digitsBelow base) (sameLength : cs.length = ds.length)
    (read : readNumber? base cs = some n) (read' : readNumber? base ds = some n) : cs = ds := by
  induction cs using List.reverseRecOn generalizing ds n with
  | nil => exact (List.eq_nil_of_length_eq_zero sameLength.symm).symm
  | append_singleton cs c ih =>
    rcases List.eq_nil_or_concat ds with rfl | ⟨ds, d, rfl⟩
    · simp at sameLength
    · rw [List.concat_eq_append] at digits' sameLength read' ⊢
      obtain ⟨high, low, isHigh, isLow, below, number⟩ := readNumber?_concat_eq_some_iff.mp read
      obtain ⟨high', low', isHigh', isLow', below', number'⟩ :=
        readNumber?_concat_eq_some_iff.mp read'
      obtain ⟨rfl, rfl⟩ := digits_unique below below' (number.trans number'.symm)
      have last := eq_digitChar_of_hexDigit? base_le (digits c (by simp)) isLow
      have last' := eq_digitChar_of_hexDigit? base_le (digits' d (by simp)) isLow'
      have front := ih (fun c mem => digits c (List.mem_append_left _ mem))
        (fun d mem => digits' d (List.mem_append_left _ mem)) (by simpa using sameLength)
        isHigh isHigh'
      rw [front, last, last']

/-- Digits without leading zeros are those of the number that they denote. -/
theorem eq_toDigits_of_readNumber? (base_gt : 1 < base) (base_le : base ≤ 16)
    (digits : ∀ c ∈ cs, c ∈ digitsBelow base) (nonempty : cs ≠ [])
    (noZero : cs.head? = some '0' → cs = ['0']) (read : readNumber? base cs = some n) :
    cs = Nat.toDigits base n := by
  induction cs using List.reverseRecOn generalizing n with
  | nil => exact absurd rfl nonempty
  | append_singleton cs c ih =>
    obtain ⟨high, low, isHigh, isLow, below, rfl⟩ := readNumber?_concat_eq_some_iff.mp read
    have last := eq_digitChar_of_hexDigit? base_le (digits c (by simp)) isLow
    by_cases single : cs = []
    · subst single
      obtain rfl : 0 = high := Option.some.inj isHigh
      rw [Nat.mul_zero, Nat.zero_add, Nat.toDigits_of_lt_base below, last]
      rfl
    · -- What comes before the last digit does not start with zero, or else it would be all.
      have head : (cs ++ [c]).head? = cs.head? := List.head?_append_of_ne_nil cs single
      have notZero : cs.head? ≠ some '0' := by
        intro zero
        have whole := congrArg List.length (noZero (head.trans zero))
        exact single (by simpa using whole)
      have front := ih (fun c mem => digits c (List.mem_append_left _ mem)) single
        (fun zero => absurd zero notZero) isHigh
      have positive : 0 < high := by
        apply Nat.pos_of_ne_zero
        rintro rfl
        rw [front, Nat.toDigits_zero] at notZero
        exact notZero rfl
      have whole := Nat.toDigits_append_toDigits base_gt positive below
      rw [← whole, ← front, Nat.toDigits_of_lt_base below, last]

/-- No leading zeros are written. -/
theorem toDigits_of_head?_zero (base_gt : 1 < base) (base_le : base ≤ 16)
    (zero : (Nat.toDigits base n).head? = some '0') : Nat.toDigits base n = ['0'] := by
  induction n using Nat.strongRecOn with
  | ind n ih =>
    rw [Nat.toDigits_eq_if base_gt] at zero ⊢
    split at zero
    case isTrue below => simpa [below] using zero
    case isFalse above =>
      have smaller : n / base < n := Nat.div_lt_self (by omega) base_gt
      rw [List.head?_append_of_ne_nil _ Nat.toDigits_ne_nil] at zero
      -- Then the number before the last digit is zero, although it is not.
      have high := readNumber?_toDigits base_gt base_le (n / base)
      have none := readNumber?_toDigits base_gt base_le 0
      rw [ih _ smaller zero] at high
      rw [Nat.toDigits_zero, high] at none
      have positive : 0 < n / base := Nat.div_pos (by omega) (by omega)
      exact absurd (Option.some.inj none) (by omega)

end Digits

/-! ### Names of a form -/

/-- A text in the form of hashed file names: eight hexadecimal digits in lower case, a dot and an
`r`, and decimal digits, the first of which is zero only if it is the last. -/
def IsHashedForm (name : String) : Prop :=
  ∃ digits decimal : List Char, name.toList = digits ++ '.' :: 'r' :: decimal
    ∧ digits.length = 8 ∧ (∀ c ∈ digits, c ∈ digitsBelow 16)
    ∧ decimal ≠ [] ∧ (∀ c ∈ decimal, c ∈ digitsBelow 10) ∧ (decimal.head? = some '0' → decimal = ['0'])

/-- The hash and the index that a file name tells, read in base sixteen and in base ten. -/
def readHashedName? (name : String) : Option (UInt32 × UInt32) :=
  match name.toList.splitAt 8 with
  | (digits, '.' :: 'r' :: decimal) => do
    let hash ← readNumber? 16 digits
    let index ← readNumber? 10 decimal
    if hash < UInt32.size ∧ index < UInt32.size then
      some (UInt32.ofNat hash, UInt32.ofNat index)
    else none
  | _ => none

section Names

variable {hash other index place : UInt32} {name : String} {digits decimal : List Char}

theorem readHashedName?_eq_some_iff (text : name.toList = digits ++ '.' :: 'r' :: decimal)
    (eight : digits.length = 8) :
    readHashedName? name = some (hash, index) ↔
      readNumber? 16 digits = some hash.toNat ∧ readNumber? 10 decimal = some index.toNat := by
  have split : name.toList.splitAt 8 = (digits, '.' :: 'r' :: decimal) := by
    rw [text, List.splitAt_eq, ← eight, List.take_left, List.drop_left]
  simp only [readHashedName?, split, Option.bind_eq_bind, Option.bind_eq_some_iff]
  constructor
  · rintro ⟨number, isHash, count, isIndex, kept⟩
    split at kept
    case isFalse => cases kept
    case isTrue small =>
      obtain ⟨rfl, rfl⟩ := Prod.mk.inj (Option.some.inj kept)
      rw [UInt32.toNat_ofNat_of_lt' small.1, UInt32.toNat_ofNat_of_lt' small.2]
      exact ⟨isHash, isIndex⟩
  · rintro ⟨isHash, isIndex⟩
    refine ⟨_, isHash, _, isIndex, ?_⟩
    rw [if_pos ⟨hash.toNat_lt, index.toNat_lt⟩, UInt32.ofNat_toNat, UInt32.ofNat_toNat]

theorem mem_digitsBelow_of_mem_hashDigits {c : Char} (mem : c ∈ hashDigits hash) :
    c ∈ digitsBelow 16 := by
  obtain ⟨b, -, mem⟩ := List.mem_flatMap.mp mem
  have below : b.toNat < 256 := b.toNat_lt
  refine (mem_digitsBelow_iff (by decide)).mpr ?_
  rcases List.mem_cons.mp mem with rfl | mem
  · exact ⟨_, by omega, rfl⟩
  · obtain rfl := List.mem_singleton.mp mem
    exact ⟨_, by omega, rfl⟩

theorem readNumber?_hashDigits (hash : UInt32) :
    readNumber? 16 (hashDigits hash) = some hash.toNat := by
  rw [hashDigits, readNumber?_flatMap_hexPair, Bytes.toNat_ofNatPadded]

theorem mem_digitsBelow_of_mem_toDigits {base n : Nat} {c : Char} (base_gt : 1 < base)
    (base_le : base ≤ 16) (mem : c ∈ Nat.toDigits base n) : c ∈ digitsBelow base := by
  rw [mem_digitsBelow_iff base_le]
  induction n using Nat.strongRecOn with
  | ind n ih =>
    rw [Nat.toDigits_eq_if base_gt] at mem
    split at mem
    case isTrue below => exact ⟨n, below, (List.mem_singleton.mp mem).symm⟩
    case isFalse above =>
      rcases List.mem_append.mp mem with front | last
      · exact ih _ (Nat.div_lt_self (by omega) base_gt) front
      · exact ⟨_, Nat.mod_lt n (by omega), (List.mem_singleton.mp last).symm⟩

/-- A text is the name of a hash and an index exactly if it is of the form and these are read from
it. -/
theorem eq_hashedFileName_iff :
    name = hashedFileName hash index ↔
      IsHashedForm name ∧ readHashedName? name = some (hash, index) := by
  constructor
  · rintro rfl
    have text := toList_hashedFileName hash index
    have eight := length_hashDigits hash
    refine ⟨⟨_, _, text, eight, fun c => mem_digitsBelow_of_mem_hashDigits, Nat.toDigits_ne_nil,
      fun c => mem_digitsBelow_of_mem_toDigits (by decide) (by decide),
      toDigits_of_head?_zero (by decide) (by decide)⟩, ?_⟩
    exact (readHashedName?_eq_some_iff text eight).mpr
      ⟨readNumber?_hashDigits hash, readNumber?_toDigits (by decide) (by decide) _⟩
  · rintro ⟨⟨digits, decimal, text, eight, lower, nonempty, decimals, noZero⟩, read⟩
    obtain ⟨isHash, isIndex⟩ := (readHashedName?_eq_some_iff text eight).mp read
    have sameDigits : digits = hashDigits hash :=
      eq_of_readNumber? (by decide) lower (fun _ => mem_digitsBelow_of_mem_hashDigits)
        (by rw [eight, length_hashDigits]) isHash (readNumber?_hashDigits hash)
    have sameDecimal : decimal = Nat.toDigits 10 index.toNat :=
      eq_toDigits_of_readNumber? (by decide) (by decide) decimals nonempty noZero isIndex
    apply String.toList_injective
    rw [text, toList_hashedFileName, sameDigits, sameDecimal]

example : readHashedName? "3f7b4893.r10" = some (0x3f7b4893, 10) := by decide

end Names

/-! ### Walks along the files of a hash -/

theorem FilePath.join_injective (dir : FilePath) : Function.Injective dir.join := by
  intro name other same
  unfold FilePath.join at same
  split at same
  case isTrue => exact String.append_right_inj _ |>.mp (FilePath.mk.inj same)
  case isFalse => exact String.append_right_inj _ |>.mp (FilePath.mk.inj same)

namespace CrlSource

variable {fs fs' : FileSystem} {dir : FilePath} {hash other : UInt32}

/-- No index makes the path of one hash a path of another. -/
theorem hashedPath_ne (ne : hash ≠ other) (index place : Nat) :
    hashedPath dir hash index ≠ hashedPath dir other place :=
  fun same => ne (hashedFileName_inj (FilePath.join_injective dir same)).1

/-- What a walk comes to is a file of its hash. -/
theorem exists_index_of_mem_candidates {path : FilePath} (mem : path ∈ candidates fs dir hash) :
    ∃ index, path = hashedPath dir hash index := by
  rw [candidates_eq_numberedFiles, numberedFiles] at mem
  obtain ⟨index, -, rfl⟩ := List.mem_map.mp (List.takeWhile_subset _ mem)
  exact ⟨index, rfl⟩

end CrlSource

/-- Names of hashed files are never confused. A text is the name of a hash and an index exactly if
it is eight hexadecimal digits in lower case, a dot and an `r`, and decimal digits without leading
zeros, and the hash and the index are read from it, so that names are the same for the same hash and
index only. A walk along the files of a hash comes to no path under another hash, and a look-up of a
name gives the same list and the same events in two states of a directory that differ in nothing but
files under other hashes. -/
theorem hashed_names_apart :
    (∀ (name : String) (hash index : UInt32),
        name = hashedFileName hash index ↔
          IsHashedForm name ∧ readHashedName? name = some (hash, index))
      ∧ (∀ hash index other place : UInt32,
        hashedFileName hash index = hashedFileName other place ↔ hash = other ∧ index = place)
      ∧ (∀ (fs : FileSystem) (dir : FilePath) (hash other : UInt32), hash ≠ other →
        ∀ path ∈ CrlSource.candidates fs dir hash,
          ∀ place, path ≠ CrlSource.hashedPath dir other place)
      ∧ ∀ (fs fs' : FileSystem) (dir : FilePath) (name : Name),
        (∀ file : String,
          (∀ other place, file = hashedFileName other place → other = name.hash) →
            fs.file? (dir.join file) = fs'.file? (dir.join file)) →
          CrlSource.find fs name (.hashedDir dir) = CrlSource.find fs' name (.hashedDir dir) := by
  refine ⟨fun name hash index => eq_hashedFileName_iff, fun hash index other place => ?_,
    fun fs dir hash other ne path mem place => ?_, fun fs fs' dir name same => ?_⟩
  · constructor
    · exact hashedFileName_inj
    · rintro ⟨rfl, rfl⟩
      rfl
  · obtain ⟨index, rfl⟩ := CrlSource.exists_index_of_mem_candidates mem
    exact CrlSource.hashedPath_ne ne index place
  · refine CrlSource.find_of_sameUnder fun index => same _ fun other place isName => ?_
    exact (hashedFileName_inj isName).1.symm

end PeerTrust
