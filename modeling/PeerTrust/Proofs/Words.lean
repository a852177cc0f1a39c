import Mathlib.Data.List.Chain
import PeerTrust.Name.Canonical

/-!
# The words of a text

A text is brought into canonical form character by character, with a note of the blanks that are
still to be written. What comes of it are the words of the text in lower case, with one space
between any two of them. The words of what comes of it are these again, and so texts have the same
canonical form exactly if they have the same words up to case, and a canonical form is its own.

## Main definitions

* `Name.words` — the longest stretches of a text without blanks
* `Name.ConsistsOf` — the words of a text, told by how it is put together
* `Name.foldedWords` — the words with ASCII letters in lower case
* `Name.IsTidy` — blanks are spaces that stand alone between words

## Main results

* `Name.consistsOf_iff` — a text consists of its words and of no others
* `Name.canonicalText_eq_intercalate` — the canonical form of a text in terms of its words
* `Name.words_canonicalText`, `Name.isTidy_canonicalText` — the words and the blanks in it
* `Name.canonicalText_eq_iff` — when two texts have the same canonical form
* `Name.canonical_text_of_words` — what this says of canonical forms
-/

namespace PeerTrust.Name

variable {c : Char} {cs ds w : List Char} {ws : List (List Char)}

/-- The words of a text: its longest stretches without blanks. -/
def words (cs : List Char) : List (List Char) := (cs.splitOnP isBlank).filter (· ≠ [])

/-- The words of a text with ASCII letters in lower case. -/
def foldedWords (cs : List Char) : List (List Char) := (words cs).map (·.map Char.toLower)

/-! ### Words one after the other -/

@[simp] theorem words_nil : words [] = [] := rfl

theorem words_cons_of_isBlank (blank : isBlank c = true) (cs : List Char) :
    words (c :: cs) = words cs := by
  rw [words, List.splitOnP_cons_eq_if_modifyHead, if_pos blank, List.filter_cons_of_neg (by simp),
    words]

/-- A text splits at its blanks into what stands before the first of them and pieces that hold the
words after it. -/
theorem exists_pieces (cs : List Char) :
    ∃ pieces, cs.splitOnP isBlank = cs.takeWhile (!isBlank ·) :: pieces
      ∧ pieces.filter (· ≠ []) = words (cs.dropWhile (!isBlank ·)) := by
  induction cs with
  | nil => exact ⟨[], rfl, rfl⟩
  | cons c cs ih =>
    cases blank : isBlank c with
    | true =>
      refine ⟨cs.splitOnP isBlank, ?_, ?_⟩
      · rw [List.splitOnP_cons_eq_if_modifyHead, if_pos blank,
          List.takeWhile_cons_of_neg (by simp [blank])]
      · rw [List.dropWhile_cons_of_neg (by simp [blank]), words_cons_of_isBlank blank, words]
    | false =>
      obtain ⟨pieces, split, others⟩ := ih
      refine ⟨pieces, ?_, ?_⟩
      · rw [List.splitOnP_cons_eq_if_modifyHead, if_neg (by simp [blank]), split,
          List.takeWhile_cons_of_pos (by simp [blank]), List.modifyHead_cons]
      · rw [others, List.dropWhile_cons_of_pos (by simp [blank])]

/-- A text that starts with a word consists of the rest of this word and the words behind it. -/
theorem words_cons_of_not_isBlank (inWord : isBlank c = false) (cs : List Char) :
    words (c :: cs)
      = (c :: cs.takeWhile (!isBlank ·)) :: words (cs.dropWhile (!isBlank ·)) := by
  obtain ⟨pieces, split, others⟩ := exists_pieces cs
  rw [words, List.splitOnP_cons_eq_if_modifyHead, if_neg (by simp [inWord]), split,
    List.modifyHead_cons, List.filter_cons_of_pos (by simp), others]

/-! ### What a text consists of -/

/-- A text consists of these words: they are its longest stretches without blanks, in order. -/
inductive ConsistsOf : List Char → List (List Char) → Prop
  | nil : ConsistsOf [] []
  | blank {c : Char} {cs : List Char} {ws : List (List Char)} (isBlank : isBlank c = true)
      (rest : ConsistsOf cs ws) : ConsistsOf (c :: cs) ws
  | word {w cs : List Char} {ws : List (List Char)} (nonempty : w ≠ [])
      (unbroken : ∀ c ∈ w, isBlank c = false)
      -- The word ends with the text or before a blank, so that no longer one starts here.
      (ends : ∀ c ∈ cs.head?, isBlank c = true)
      (rest : ConsistsOf cs ws) : ConsistsOf (w ++ cs) (w :: ws)

/-- A word at the start of a text is the first of its words. -/
theorem words_append (nonempty : w ≠ []) (unbroken : ∀ c ∈ w, isBlank c = false)
    (ends : ∀ c ∈ cs.head?, isBlank c = true) : words (w ++ cs) = w :: words cs := by
  obtain ⟨c, rest, rfl⟩ := List.exists_cons_of_ne_nil nonempty
  obtain ⟨first, others⟩ := List.forall_mem_cons.mp unbroken
  have inWord : ∀ d ∈ rest, (!isBlank d) = true := fun d mem => by simp [others d mem]
  have behind : cs.takeWhile (!isBlank ·) = [] ∧ cs.dropWhile (!isBlank ·) = cs := by
    cases cs with
    | nil => exact ⟨rfl, rfl⟩
    | cons d cs =>
      have blank : isBlank d = true := ends d rfl
      exact ⟨List.takeWhile_cons_of_neg (by simp [blank]),
        List.dropWhile_cons_of_neg (by simp [blank])⟩
  rw [List.cons_append, words_cons_of_not_isBlank first, List.takeWhile_append_of_pos inWord,
    List.dropWhile_append_of_pos inWord, behind.1, behind.2, List.append_nil]

theorem ConsistsOf.eq_words (consists : ConsistsOf cs ws) : ws = words cs := by
  induction consists with
  | nil => rfl
  | blank blank _ ih => rw [words_cons_of_isBlank blank, ih]
  | word nonempty unbroken ends _ ih => rw [words_append nonempty unbroken ends, ← ih]

/-- A text that does not start with a blank starts with a word. -/
theorem exists_word (inWord : isBlank c = false) (cs : List Char) :
    ∃ w rest, c :: cs = w ++ rest ∧ w ≠ [] ∧ (∀ d ∈ w, isBlank d = false)
      ∧ ∀ d ∈ rest.head?, isBlank d = true := by
  refine ⟨c :: cs.takeWhile (!isBlank ·), cs.dropWhile (!isBlank ·), ?_, List.cons_ne_nil _ _, ?_,
    fun d isNext => ?_⟩
  · rw [List.cons_append, List.takeWhile_append_dropWhile]
  · refine List.forall_mem_cons.mpr ⟨inWord, fun d mem => ?_⟩
    simpa using List.all_eq_true.mp List.all_takeWhile d mem
  · have stopped := List.head?_dropWhile_not (!isBlank ·) cs
    rw [Option.mem_def.mp isNext] at stopped
    simpa using stopped

theorem consistsOf_words (cs : List Char) : ConsistsOf cs (words cs) := by
  -- What comes behind a word is shorter, but it is not the tail of the text.
  induction length : cs.length using Nat.strong_induction_on generalizing cs with
  | _ n ih =>
    subst length
    cases cs with
    | nil => exact .nil
    | cons c cs =>
      cases blank : isBlank c with
      | true =>
        rw [words_cons_of_isBlank blank]
        exact .blank blank (ih _ (Nat.lt_succ_self _) cs rfl)
      | false =>
        obtain ⟨w, rest, split, nonempty, unbroken, ends⟩ := exists_word blank cs
        have shorter : rest.length < (w ++ rest).length := by
          have := List.length_pos_iff.mpr nonempty
          rw [List.length_append]
          omega
        rw [split] at ih ⊢
        rw [words_append nonempty unbroken ends]
        exact .word nonempty unbroken ends (ih _ shorter rest rfl)

/-- A text consists of its words, and of no others. -/
theorem consistsOf_iff : ConsistsOf cs ws ↔ ws = words cs := by
  refine ⟨ConsistsOf.eq_words, ?_⟩
  rintro rfl
  exact consistsOf_words cs

/-- These can be the words of a text: none is empty, and none holds a blank. -/
def AreWords (ws : List (List Char)) : Prop := ∀ w ∈ ws, w ≠ [] ∧ ∀ c ∈ w, isBlank c = false

theorem ConsistsOf.areWords (consists : ConsistsOf cs ws) : AreWords ws := by
  induction consists with
  | nil => exact fun _ mem => nomatch mem
  | blank _ _ ih => exact ih
  | word nonempty unbroken _ _ ih => exact List.forall_mem_cons.mpr ⟨⟨nonempty, unbroken⟩, ih⟩

/-! ### Words in lower case -/

/-- The blanks by their codes: the space, and the five from the tab to the carriage return. -/
theorem isBlank_iff (c : Char) :
    isBlank c = true ↔ c.toNat = 32 ∨ 9 ≤ c.toNat ∧ c.toNat ≤ 13 := by
  have space : c = ' ' ↔ c.toNat = 32 := (Char.toNat_inj (d := ' ')).symm
  simp [isBlank, space]

/-- Lower case adds 32 to the code of a capital letter of ASCII and changes nothing else. -/
theorem toNat_toLower (c : Char) :
    c.toLower.toNat = if 65 ≤ c.toNat ∧ c.toNat ≤ 90 then c.toNat + 32 else c.toNat := by
  by_cases upper : c.val ≥ 'A'.val ∧ c.val ≤ 'Z'.val
  · have first : 65 ≤ c.toNat := UInt32.le_iff_toNat_le.mp upper.1
    have last : c.toNat ≤ 90 := UInt32.le_iff_toNat_le.mp upper.2
    have value : c.toLower.val = c.val + ('a'.val - 'A'.val) := congrArg Char.val (dif_pos upper)
    rw [if_pos ⟨first, last⟩]
    show c.toLower.val.toNat = _
    rw [value, UInt32.toNat_add]
    show (c.toNat + 32) % 4294967296 = _
    omega
  · have unchanged : c.toLower = c := dif_neg upper
    rw [unchanged, if_neg]
    rintro ⟨first, last⟩
    exact upper ⟨UInt32.le_iff_toNat_le.mpr first, UInt32.le_iff_toNat_le.mpr last⟩

/-- Lower case makes no blanks, and leaves them as they are. -/
theorem isBlank_toLower (c : Char) : isBlank c.toLower = isBlank c := by
  rw [Bool.eq_iff_iff, isBlank_iff, isBlank_iff, toNat_toLower]
  split <;> omega

theorem foldedWords_cons_of_isBlank (blank : isBlank c = true) (cs : List Char) :
    foldedWords (c :: cs) = foldedWords cs := by
  rw [foldedWords, foldedWords, words_cons_of_isBlank blank]

theorem foldedWords_cons_of_not_isBlank (inWord : isBlank c = false) (cs : List Char) :
    foldedWords (c :: cs) = (c.toLower :: (cs.takeWhile (!isBlank ·)).map Char.toLower)
      :: foldedWords (cs.dropWhile (!isBlank ·)) := by
  rw [foldedWords, foldedWords, words_cons_of_not_isBlank inWord, List.map_cons, List.map_cons]

/-- Lower case makes words of words. -/
theorem areWords_foldedWords (cs : List Char) : AreWords (foldedWords cs) := by
  intro w mem
  obtain ⟨word, isWord, rfl⟩ := List.mem_map.mp mem
  obtain ⟨nonempty, unbroken⟩ := (consistsOf_words cs).areWords word isWord
  refine ⟨by simpa using nonempty, fun c mem => ?_⟩
  obtain ⟨d, inWord, rfl⟩ := List.mem_map.mp mem
  rw [isBlank_toLower, unbroken d inWord]

/-! ### Words in a canonical form -/

/-- Words with a space before each of them. -/
def preceded (ws : List (List Char)) : List Char := ws.flatMap (' ' :: ·)

theorem preceded_cons (w : List Char) (ws : List (List Char)) :
    preceded (w :: ws) = ' ' :: (w ++ preceded ws) := rfl

theorem intercalate_cons_eq (w : List Char) (ws : List (List Char)) :
    [' '].intercalate (w :: ws) = w ++ preceded ws := by
  induction ws generalizing w with
  | nil => simp [preceded]
  | cons next ws ih =>
    rw [List.intercalate_cons_cons, ih, preceded_cons, List.append_assoc, List.singleton_append]

/-- After blanks, a space is written before each word. Within a word, its rest comes first. -/
theorem collapse_eq (cs : List Char) :
    collapse true cs = preceded (foldedWords cs)
      ∧ collapse false cs = (cs.takeWhile (!isBlank ·)).map Char.toLower
          ++ preceded (foldedWords (cs.dropWhile (!isBlank ·))) := by
  induction cs with
  | nil => exact ⟨rfl, rfl⟩
  | cons c cs ih =>
    obtain ⟨after, within⟩ := ih
    cases blank : isBlank c with
    | true =>
      have others : collapse true cs = preceded (foldedWords (c :: cs)) := by
        rw [after, foldedWords_cons_of_isBlank blank]
      refine ⟨?_, ?_⟩
      · rw [collapse, if_pos blank, others]
      · rw [collapse, if_pos blank, others, List.takeWhile_cons_of_neg (by simp [blank]),
          List.dropWhile_cons_of_neg (by simp [blank]), List.map_nil, List.nil_append]
    | false =>
      refine ⟨?_, ?_⟩
      · rw [collapse, if_neg (by simp [blank]), if_pos rfl, within,
          foldedWords_cons_of_not_isBlank blank, preceded_cons, List.cons_append]
      · rw [collapse, if_neg (by simp [blank]), if_neg Bool.false_ne_true, within,
          List.takeWhile_cons_of_pos (by simp [blank]),
          List.dropWhile_cons_of_pos (by simp [blank]), List.map_cons, List.cons_append]

/-- A text in canonical form is its words in lower case with a space between any two. -/
theorem canonicalText_eq_intercalate (cs : List Char) :
    canonicalText cs = [' '].intercalate (foldedWords cs) := by
  unfold canonicalText
  induction cs with
  | nil => rfl
  | cons c cs ih =>
    cases blank : isBlank c with
    | true => rw [List.dropWhile_cons_of_pos blank, ih, foldedWords_cons_of_isBlank blank]
    | false =>
      rw [List.dropWhile_cons_of_neg (by simp [blank]), collapse, if_neg (by simp [blank]),
        if_neg Bool.false_ne_true, (collapse_eq cs).2, foldedWords_cons_of_not_isBlank blank,
        intercalate_cons_eq, List.cons_append]

/-- Words with a space before each of them are the words of what comes of it. -/
theorem consistsOf_preceded (areWords : AreWords ws) : ConsistsOf (preceded ws) ws := by
  induction ws with
  | nil => exact .nil
  | cons w ws ih =>
    obtain ⟨⟨nonempty, unbroken⟩, others⟩ := List.forall_mem_cons.mp areWords
    have ends : ∀ c ∈ (preceded ws).head?, isBlank c = true := by
      intro c isNext
      cases ws with
      | nil => cases isNext
      | cons next ws =>
        obtain rfl := Option.some.inj isNext
        rfl
    rw [preceded_cons]
    exact .blank rfl (.word nonempty unbroken ends (ih others))

theorem words_intercalate (areWords : AreWords ws) : words ([' '].intercalate ws) = ws := by
  cases ws with
  | nil => rfl
  | cons w ws =>
    rw [intercalate_cons_eq, ← words_cons_of_isBlank (c := ' ') rfl, ← preceded_cons]
    exact (consistsOf_preceded areWords).eq_words.symm

/-- The words of a canonical form are those of the text in lower case. -/
theorem words_canonicalText (cs : List Char) : words (canonicalText cs) = foldedWords cs := by
  rw [canonicalText_eq_intercalate, words_intercalate (areWords_foldedWords cs)]

/-- Texts have the same canonical form exactly if they have the same words up to case. -/
theorem canonicalText_eq_iff :
    canonicalText cs = canonicalText ds ↔ foldedWords cs = foldedWords ds := by
  constructor
  · intro same
    rw [← words_canonicalText, same, words_canonicalText]
  · intro same
    rw [canonicalText_eq_intercalate, canonicalText_eq_intercalate, same]

theorem toLower_toLower (c : Char) : c.toLower.toLower = c.toLower := by
  rw [← Char.toNat_inj, toNat_toLower c.toLower, toNat_toLower c]
  split_ifs <;> omega

theorem canonicalText_canonicalText (cs : List Char) :
    canonicalText (canonicalText cs) = canonicalText cs := by
  have folded : foldedWords (canonicalText cs) = foldedWords cs := by
    rw [foldedWords, words_canonicalText, foldedWords, List.map_map]
    refine List.map_congr_left fun w _ => ?_
    simp only [Function.comp_apply, List.map_map]
    exact List.map_congr_left fun c _ => toLower_toLower c
  exact canonicalText_eq_iff.mpr folded

/-! ### Blanks in a canonical form -/

/-- Blanks are spaces that stand alone between words. -/
structure IsTidy (cs : List Char) : Prop where
  starts : ∀ c ∈ cs.head?, isBlank c = false
  ends : ∀ c ∈ cs.getLast?, isBlank c = false
  single : cs.IsChain fun c d => isBlank c = false ∨ isBlank d = false
  space : ∀ c ∈ cs, isBlank c = true → c = ' '

theorem isTidy_of_unbroken (unbroken : ∀ c ∈ w, isBlank c = false) : IsTidy w where
  starts _ isFirst := unbroken _ (List.mem_of_head? isFirst)
  ends _ isLast := unbroken _ (List.mem_of_getLast? isLast)
  single := List.isChain_iff_forall_rel_of_append_cons_cons.mpr fun c d front back split =>
    .inl (unbroken c (by simp [split]))
  space c mem blank := by simp [unbroken c mem] at blank

/-- A word and a space may be put before a text that does not end there. -/
theorem IsTidy.word_append (tidy : IsTidy cs) (going : cs ≠ []) (nonempty : w ≠ [])
    (unbroken : ∀ c ∈ w, isBlank c = false) : IsTidy (w ++ ' ' :: cs) where
  starts c isFirst := by
    rw [List.head?_append_of_ne_nil _ nonempty] at isFirst
    exact unbroken c (List.mem_of_head? isFirst)
  ends c isLast := by
    rw [List.getLast?_append_of_ne_nil _ (List.cons_ne_nil _ _),
      List.getLast?_cons_of_ne_nil going] at isLast
    exact tidy.ends c isLast
  single := by
    refine (isTidy_of_unbroken unbroken).single.append ?_ ?_
    · exact List.isChain_cons.mpr ⟨fun c isFirst => .inr (tidy.starts c isFirst), tidy.single⟩
    · exact fun c isLast _ _ => .inl (unbroken c (List.mem_of_getLast? isLast))
  space c mem blank := by
    rcases List.mem_append.mp mem with inWord | behind
    · simp [unbroken c inWord] at blank
    · rcases List.mem_cons.mp behind with rfl | behind
      · rfl
      · exact tidy.space c behind blank

theorem isTidy_intercalate (areWords : AreWords ws) : IsTidy ([' '].intercalate ws) := by
  induction ws with
  | nil => exact isTidy_of_unbroken fun _ mem => nomatch mem
  | cons w ws ih =>
    obtain ⟨⟨nonempty, unbroken⟩, others⟩ := List.forall_mem_cons.mp areWords
    cases ws with
    | nil => simpa using isTidy_of_unbroken unbroken
    | cons next ws =>
      have going : [' '].intercalate (next :: ws) ≠ [] := by
        rw [intercalate_cons_eq]
        exact List.append_ne_nil_of_left_ne_nil (others next List.mem_cons_self).1 _
      rw [List.intercalate_cons_cons, List.append_assoc, List.singleton_append]
      exact (ih others).word_append going nonempty unbroken

theorem isTidy_canonicalText (cs : List Char) : IsTidy (canonicalText cs) := by
  rw [canonicalText_eq_intercalate]
  exact isTidy_intercalate (areWords_foldedWords cs)

/-- A text is brought into canonical form by writing its words, capital letters of ASCII made small
and all other characters kept, with a space between any two. Words are the longest stretches
without blanks, of which there are six. So a canonical form is its own, its blanks are single spaces
between words, and two texts have the same one exactly if their words differ in case only. -/
theorem canonical_text_of_words (cs : List Char) :
    (∀ ws, ConsistsOf cs ws ↔ ws = words cs)
      ∧ (∀ c, isBlank c = true ↔ c.toNat ∈ [0x20, 0x09, 0x0a, 0x0b, 0x0c, 0x0d])
      ∧ canonicalText cs = [' '].intercalate ((words cs).map (·.map Char.toLower))
      ∧ (∀ c : Char, c.toLower.toNat
          = if 65 ≤ c.toNat ∧ c.toNat ≤ 90 then c.toNat + 32 else c.toNat)
      ∧ canonicalText (canonicalText cs) = canonicalText cs
      ∧ IsTidy (canonicalText cs)
      ∧ ∀ ds, canonicalText cs = canonicalText ds ↔
          (words cs).map (·.map Char.toLower) = (words ds).map (·.map Char.toLower) := by
  refine ⟨fun ws => consistsOf_iff, fun c => ?_, canonicalText_eq_intercalate cs, toNat_toLower,
    canonicalText_canonicalText cs, isTidy_canonicalText cs, fun ds => canonicalText_eq_iff⟩
  rw [isBlank_iff]
  simp only [List.mem_cons, List.not_mem_nil, or_false]
  omega

/-- Blanks of all kinds around and between words, and a letter that is none of ASCII. -/
example : canonicalText ("  ÄB\t\n Cd ".toList) = "Äb cd".toList := by decide +kernel

end PeerTrust.Name
