import PeerTrust.Pem.Basic

/-!
# Writing armoured text

A section is written as its opening line, lines of at most 64 signs of base 64, and its closing line.
Sections that are written one after the other are read back in their order.

## Main definitions

* `Pem.Base64.encode` — base 64 with padding
* `Pem.armour` — a section

## Main results

* `Pem.Base64.decode?_encode` — base 64 is read back, whatever white space is put between the signs
* `Pem.sections_armour_append` — a section is read back before all that follows it
* `Pem.sections_flatMap_armour` — sections are read back in order
-/

namespace PeerTrust

/-! ### Pieces of a list -/

namespace Bytes

variable {α : Type} {n : Nat}

theorem flatten_chunks (positive : 0 < n) (xs : List α) : (chunks n xs).flatten = xs := by
  fun_induction chunks n xs with
  | case1 xs ends =>
    rcases ends with rfl | rfl
    · exact absurd positive (Nat.lt_irrefl 0)
    · rfl
  | case2 xs more ih => rw [List.flatten_cons, ih, List.take_append_drop]

end Bytes

namespace Pem

namespace Base64

/-! ### Base 64 -/

/-- The sign of a digit. -/
def sign (n : Nat) : UInt8 :=
  if n < 26 then UInt8.ofNat (65 + n)
  else if n < 52 then UInt8.ofNat (97 + (n - 26))
  else if n < 62 then UInt8.ofNat (48 + (n - 52))
  else if n = 62 then 43
  else 47

/-- The digits of a byte string, three bytes to four digits. Bits that the last digit has no use for
are zero. -/
def digits : Bytes → List Nat
  | a :: b :: c :: rest =>
    a.toNat / 4 :: (a.toNat % 4 * 16 + b.toNat / 16) :: (b.toNat % 16 * 4 + c.toNat / 64)
      :: c.toNat % 64 :: digits rest
  | [a, b] => [a.toNat / 4, a.toNat % 4 * 16 + b.toNat / 16, b.toNat % 16 * 4]
  | [a] => [a.toNat / 4, a.toNat % 4 * 16]
  | [] => []

/-- The signs that fill up the last four. -/
def padding (length : Nat) : Bytes := List.replicate ((3 - length % 3) % 3) 0x3d

/-- Base 64 with padding. -/
def encode (bs : Bytes) : Bytes := (digits bs).map sign ++ padding bs.length

theorem digit?_sign {n : Nat} (digit : n < 64) : digit? (sign n) = some n := by
  have all : ∀ n < 64, digit? (sign n) = some n := by decide
  exact all n digit

theorem digits_lt (bs : Bytes) : ∀ n ∈ digits bs, n < 64 := by
  fun_induction digits bs with
  | case1 a b c rest ih =>
    have lowA : a.toNat < 256 := a.toNat_lt
    have lowB : b.toNat < 256 := b.toNat_lt
    have lowC : c.toNat < 256 := c.toNat_lt
    simp only [List.forall_mem_cons]
    exact ⟨by omega, by omega, by omega, by omega, ih⟩
  | case2 a b =>
    have lowA : a.toNat < 256 := a.toNat_lt
    have lowB : b.toNat < 256 := b.toNat_lt
    simp only [List.forall_mem_cons]
    exact ⟨by omega, by omega, by omega, List.forall_mem_nil _⟩
  | case3 a =>
    have lowA : a.toNat < 256 := a.toNat_lt
    simp only [List.forall_mem_cons]
    exact ⟨by omega, by omega, List.forall_mem_nil _⟩
  | case4 => exact List.forall_mem_nil _

theorem ofNat_eq_of_toNat_eq {n : Nat} {b : UInt8} (same : n % 256 = b.toNat) :
    UInt8.ofNat n = b := by
  apply UInt8.toNat_inj.mp
  rw [UInt8.toNat_ofNat', ← same]

theorem bytesOf_digits (bs : Bytes) : bytesOf (digits bs) = bs := by
  fun_induction digits bs with
  | case1 a b c rest ih =>
    have lowA : a.toNat < 256 := a.toNat_lt
    have lowB : b.toNat < 256 := b.toNat_lt
    have lowC : c.toNat < 256 := c.toNat_lt
    rw [bytesOf, ih, ofNat_eq_of_toNat_eq (b := a) (by omega),
      ofNat_eq_of_toNat_eq (b := b) (by omega), ofNat_eq_of_toNat_eq (b := c) (by omega)]
  | case2 a b =>
    have lowA : a.toNat < 256 := a.toNat_lt
    have lowB : b.toNat < 256 := b.toNat_lt
    rw [bytesOf, ofNat_eq_of_toNat_eq (b := a) (by omega),
      ofNat_eq_of_toNat_eq (b := b) (by omega)]
  | case3 a =>
    have lowA : a.toNat < 256 := a.toNat_lt
    rw [bytesOf, ofNat_eq_of_toNat_eq (b := a) (by omega)]
  | case4 => rfl

theorem isPadding_digits (bs : Bytes) :
    isPadding (digits bs).length (padding bs.length).length = true := by
  fun_induction digits bs with
  | case1 a b c rest ih =>
    -- Three bytes more are four digits more, and the padding is the same.
    have digits_mod : ((digits rest).length + 4) % 4 = (digits rest).length % 4 := by omega
    have bytes_mod : (rest.length + 3) % 3 = rest.length % 3 := by omega
    simp only [isPadding, padding, List.length_cons, Nat.add_assoc, Nat.reduceAdd, digits_mod,
      bytes_mod] at ih ⊢
    exact ih
  | case2 a b => rfl
  | case3 a => rfl
  | case4 => rfl

/-- What is read of the signs of digits. -/
theorem mapM_digit?_sign (ns : List Nat) (digits : ∀ n ∈ ns, n < 64) :
    (ns.map sign).mapM digit? = some ns := by
  induction ns with
  | nil => rfl
  | cons n ns ih =>
    obtain ⟨digit, digits⟩ := List.forall_mem_cons.mp digits
    rw [List.map_cons, List.mapM_cons, digit?_sign digit, ih digits]
    rfl

/-- The signs that base 64 is written with: neither white space, nor line ends, nor dashes, and
padding only at the end. -/
theorem sign_ne {n : Nat} (digit : n < 64) :
    isSpace (sign n) = false ∧ sign n ≠ 0x3d ∧ sign n ≠ 0x2d := by
  have all : ∀ n < 64, isSpace (sign n) = false ∧ sign n ≠ 0x3d ∧ sign n ≠ 0x2d := by decide
  exact all n digit

theorem plain_of_mem_encode {bs : Bytes} {b : UInt8} (mem : b ∈ encode bs) :
    isSpace b = false ∧ b ≠ 0x2d := by
  rcases List.mem_append.mp mem with isSign | isPad
  · obtain ⟨n, isDigit, rfl⟩ := List.mem_map.mp isSign
    obtain ⟨notSpace, -, notDash⟩ := sign_ne (digits_lt bs n isDigit)
    exact ⟨notSpace, notDash⟩
  · obtain rfl := List.eq_of_mem_replicate isPad
    decide

/-- Base 64 is read back, whatever white space is put between the signs. -/
theorem decode?_encode {bs text : Bytes} (spaced : text.filter (!isSpace ·) = encode bs) :
    decode? text = some bs := by
  have isSign : ∀ b ∈ (digits bs).map sign, decide (b ≠ 0x3d) = true := by
    intro b mem
    obtain ⟨n, isDigit, rfl⟩ := List.mem_map.mp mem
    exact decide_eq_true (sign_ne (digits_lt bs n isDigit)).2.1
  have isPad : ∀ b ∈ padding bs.length, decide (b = 0x3d) = true := by
    intro b mem
    exact decide_eq_true (List.eq_of_mem_replicate mem)
  -- The signs of digits end where the padding begins.
  have signs : (encode bs).takeWhile (· ≠ 0x3d) = (digits bs).map sign := by
    rw [encode, List.takeWhile_append_of_pos isSign, padding, List.takeWhile_replicate]
    exact List.append_nil _
  have pads : (encode bs).dropWhile (· ≠ 0x3d) = padding bs.length := by
    rw [encode, List.dropWhile_append_of_pos isSign, padding, List.dropWhile_replicate]
    rfl
  have padded := isPadding_digits bs
  rw [decode?, spaced]
  simp only [signs, pads, mapM_digit?_sign _ (digits_lt bs), Option.bind_eq_bind, Option.bind_some]
  rw [if_pos ⟨List.all_eq_true.mpr isPad, padded⟩, bytesOf_digits]

end Base64

/-! ### Lines -/

/-- Whether a byte ends a line. -/
def isBreak (b : UInt8) : Bool := b = 0x0a || b = 0x0d

/-- A line is cut off where it ends. -/
theorem lines_append {line : Bytes} (unbroken : ∀ b ∈ line, isBreak b = false)
    (before rest : Bytes) :
    lines before (line ++ 0x0a :: rest) = (before.reverse ++ line ++ [0x0a]) :: lines [] rest := by
  induction line generalizing before with
  | nil => simp [lines]
  | cons b line ih =>
    obtain ⟨other, unbroken⟩ := List.forall_mem_cons.mp unbroken
    have noBreak : ¬(b = 0x0a ∨ b = 0x0d) := by simpa [isBreak] using other
    rw [List.cons_append, lines, if_neg noBreak, ih unbroken, List.reverse_cons, List.append_assoc,
      List.append_assoc, List.append_assoc, List.singleton_append, List.cons_append]

/-- Lines that are written one after the other are cut apart again. -/
theorem lines_flatMap_append {ls : List Bytes} (unbroken : ∀ l ∈ ls, ∀ b ∈ l, isBreak b = false)
    (rest : Bytes) :
    lines [] (ls.flatMap (· ++ [0x0a]) ++ rest) = ls.map (· ++ [0x0a]) ++ lines [] rest := by
  induction ls with
  | nil => rfl
  | cons l ls ih =>
    obtain ⟨first, others⟩ := List.forall_mem_cons.mp unbroken
    rw [List.flatMap_cons, List.append_assoc, List.append_assoc, List.singleton_append,
      lines_append first, ih others]
    rfl

/-! ### Sections -/

/-- The line that opens a section. -/
def openingLine (kind : Kind) : Bytes := opening ++ Bytes.ofAscii kind.label ++ dashes

/-- The line that closes a section. -/
def closingLine (kind : Kind) : Bytes := closing ++ Bytes.ofAscii kind.label ++ dashes

/-- The lines in between, of at most 64 signs each. -/
def bodyLines (content : Bytes) : List Bytes := Bytes.chunks 64 (Base64.encode content)

/-- A section, line by line. -/
def armour (kind : Kind) (content : Bytes) : Bytes :=
  (openingLine kind :: (bodyLines content ++ [closingLine kind])).flatMap (· ++ [0x0a])

theorem plain_of_mem_bodyLines {content line : Bytes} (mem : line ∈ bodyLines content) {b : UInt8}
    (isSign : b ∈ line) : Base64.isSpace b = false ∧ b ≠ 0x2d := by
  have whole := Bytes.flatten_chunks (by decide : 0 < 64) (Base64.encode content)
  exact Base64.plain_of_mem_encode (whole ▸ List.mem_flatten.mpr ⟨line, mem, isSign⟩)

theorem unbroken_openingLine (kind : Kind) : ∀ b ∈ openingLine kind, isBreak b = false := by
  cases kind <;> decide +kernel

theorem unbroken_closingLine (kind : Kind) : ∀ b ∈ closingLine kind, isBreak b = false := by
  cases kind <;> decide +kernel

theorem unbroken_bodyLines (content : Bytes) :
    ∀ line ∈ bodyLines content, ∀ b ∈ line, isBreak b = false := by
  intro line mem b isSign
  obtain ⟨notSpace, -⟩ := plain_of_mem_bodyLines mem isSign
  simp only [Base64.isSpace, isBreak, Bool.or_eq_false_iff] at notSpace ⊢
  exact ⟨notSpace.1.2, notSpace.2⟩

/-- A line without dashes neither opens nor closes a section. -/
theorem not_prefix_of_not_mem {front line : Bytes} (dash : 0x2d ∈ front) (plain : 0x2d ∉ line) :
    front.isPrefixOf line = false := by
  rw [Bool.eq_false_iff]
  intro isPrefix
  exact plain ((List.isPrefixOf_iff_prefix.mp isPrefix).subset dash)

/-- Lines without dashes are gathered. -/
theorem readLines_body {label : Bytes} {body : List Bytes} (plain : ∀ line ∈ body, 0x2d ∉ line)
    (text rest : List Bytes) :
    readLines (some label) text (body ++ rest) = readLines (some label) (body.reverse ++ text) rest := by
  induction body generalizing text with
  | nil => rfl
  | cons line body ih =>
    obtain ⟨first, others⟩ := List.forall_mem_cons.mp plain
    have notOpening : opening.isPrefixOf line = false := not_prefix_of_not_mem (by decide) first
    have notClosing : isClosing label line = false :=
      not_prefix_of_not_mem (List.mem_append_left _ (List.mem_append_left _ (by decide))) first
    rw [List.cons_append, readLines, if_neg (by simp [notOpening])]
    simp only [notClosing]
    rw [if_neg (by decide), ih others, List.reverse_cons, List.append_assoc, List.singleton_append]

theorem decode?_bodyLines (content : Bytes) :
    Base64.decode? ((bodyLines content).map (· ++ [0x0a])).flatten = some content := by
  have kept : ∀ line ∈ bodyLines content,
      (line ++ [0x0a]).filter (!Base64.isSpace ·) = line := by
    intro line mem
    have signs : line.filter (!Base64.isSpace ·) = line :=
      List.filter_eq_self.mpr fun b isSign => by simp [(plain_of_mem_bodyLines mem isSign).1]
    rw [List.filter_append, signs]
    exact List.append_nil line
  apply Base64.decode?_encode
  rw [List.filter_flatten, List.map_map]
  calc ((bodyLines content).map _).flatten
      = ((bodyLines content).map id).flatten := congrArg _ (List.map_congr_left kept)
    _ = Base64.encode content := by
        rw [List.map_id]
        exact Bytes.flatten_chunks (by decide) _

/-- The lines of a section are read as the section, and reading goes on after them. -/
theorem readLines_armour (kind : Kind) (content : Bytes) (rest : List Bytes) :
    readLines none []
        ((openingLine kind ++ [0x0a]) :: ((bodyLines content).map (· ++ [0x0a])
          ++ (closingLine kind ++ [0x0a]) :: rest))
      = (⟨kind, content⟩ :: (readLines none [] rest).1, (readLines none [] rest).2) := by
  have opens : opening.isPrefixOf (openingLine kind ++ [0x0a]) = true
      ∧ openingLabel? (openingLine kind ++ [0x0a]) = some (Bytes.ofAscii kind.label) := by
    cases kind <;> decide +kernel
  have closes : opening.isPrefixOf (closingLine kind ++ [0x0a]) = false
      ∧ isClosing (Bytes.ofAscii kind.label) (closingLine kind ++ [0x0a]) = true
      ∧ Kind.ofLabel? (Bytes.ofAscii kind.label) = some kind := by
    cases kind <;> decide +kernel
  have plain : ∀ line ∈ (bodyLines content).map (· ++ [0x0a]), 0x2d ∉ line := by
    intro broken mem dash
    obtain ⟨line, isLine, rfl⟩ := List.mem_map.mp mem
    rcases List.mem_append.mp dash with isSign | isBreak
    · exact (plain_of_mem_bodyLines isLine isSign).2 rfl
    · exact absurd (List.mem_singleton.mp isBreak) (by decide)
  rw [readLines, if_pos opens.1, opens.2]
  dsimp only
  rw [readLines_body plain, readLines, if_neg (by simp [closes.1])]
  simp only [closes.2.1, closes.2.2, if_true]
  rw [List.append_nil, List.reverse_reverse, decode?_bodyLines]

/-- A section is read back before all that follows it. -/
theorem sections_armour_append (kind : Kind) (content rest : Bytes) :
    sections (armour kind content ++ rest)
      = (⟨kind, content⟩ :: (sections rest).1, (sections rest).2) := by
  have unbroken : ∀ line ∈ openingLine kind :: (bodyLines content ++ [closingLine kind]),
      ∀ b ∈ line, isBreak b = false := by
    simp only [List.forall_mem_cons, List.forall_mem_append]
    exact ⟨unbroken_openingLine kind, unbroken_bodyLines content, unbroken_closingLine kind,
      List.forall_mem_nil _⟩
  rw [sections, armour, lines_flatMap_append unbroken]
  simp only [List.map_cons, List.map_append, List.map_nil, List.cons_append, List.append_assoc,
    List.nil_append]
  exact readLines_armour kind content (lines [] rest)

/-- Sections that are written one after the other are read back in order. -/
theorem sections_flatMap_armour (kind : Kind) (contents : List Bytes) :
    sections (contents.flatMap (armour kind)) = (contents.map (⟨kind, ·⟩), none) := by
  induction contents with
  | nil => rfl
  | cons content contents ih =>
    rw [List.flatMap_cons, sections_armour_append, ih]
    rfl

end Pem

end PeerTrust
