import PeerTrust.Proofs.KeptLists
import PeerTrust.Proofs.ListsOnPath

/-!
# Text around lists

A reader of armoured text passes over what stands around sections, and a file may explain its lists
before it gives them. Whether a file is taken for armoured text is decided by how it begins, though.
Where it begins with a section, all its lists are loaded or none. Where it begins with an
explanation, it is taken for a single encoded list, and none is loaded.

## Main definitions

* `RevocationList.encodedIn` — the encoded lists that a reader of armoured text finds
* `RevocationList.LoadsAll` — a result that holds all lists of a file in order, or is an error
* `RevocationList.Explains` — a line of explanation

## Main results

* `RevocationList.parseAll_of_isArmoured`, `RevocationList.parseAll_of_not_isArmoured` — what is
  loaded of either kind of file
* `RevocationList.loads_all_iff` — when all lists are loaded
* `RevocationList.parseAll_explained` — lists below an explanation are not
-/

namespace PeerTrust.RevocationList

/-- The encoded lists in the sections of a text, up to its first fault. -/
def encodedIn (bs : Bytes) : List Bytes := Pem.ofKind .crl (Pem.sections bs).1

/-- The lists in all sections of a text without a fault, in order. -/
def InSections (bs : Bytes) (lists : List RevocationList) : Prop :=
  (Pem.sections bs).2 = none ∧ (encodedIn bs).mapM ofDer? = some lists

/-- The one list that a byte string encodes. -/
def InWhole (bs : Bytes) (lists : List RevocationList) : Prop :=
  ∃ list, ofDer? bs = some list ∧ lists = [list]

/-- The result holds all lists of a file: those in its sections, if it has any for lists, or else
the one that it encodes. If they cannot all be read, it is an error. -/
structure LoadsAll (bs : Bytes) (result : Except CrlProblem (List RevocationList)) : Prop where
  sections : encodedIn bs ≠ [] → ∀ lists, result = .ok lists ↔ InSections bs lists
  whole : encodedIn bs = [] → ∀ lists, result = .ok lists ↔ InWhole bs lists

section Parsed

variable {bs : Bytes} {lists : List RevocationList}

theorem ofDer_eq_ok_iff {list : RevocationList} : ofDer bs = .ok list ↔ ofDer? bs = some list := by
  constructor
  · exact ofDer?_of_ofDer
  · intro isList
    rw [ofDer, isList]

/-- Sections come to lists if there is no fault and every section for a list holds one. -/
theorem ofSections_eq_ok_iff {found : List Pem.Section} {fault : Option Pem.Fault} :
    ofSections found fault = .ok lists ↔
      fault = none ∧ (Pem.ofKind .crl found).mapM ofDer? = some lists := by
  induction found generalizing lists with
  | nil => cases fault <;> simp [ofSections, Pem.ofKind]
  | cons s rest ih =>
    rw [ofSections]
    by_cases isCrl : s.kind = .crl
    · have kept : Pem.ofKind .crl (s :: rest) = s.content :: Pem.ofKind .crl rest :=
        List.filterMap_cons_some (if_pos isCrl)
      rw [if_pos isCrl, kept, List.mapM_cons]
      simp only [bind_eq_ok_iff, ofDer_eq_ok_iff, ih, Option.bind_eq_bind, Option.bind_eq_some_iff]
      constructor
      · rintro ⟨list, isList, others, ⟨rfl, areLists⟩, same⟩
        obtain rfl := Except.ok.inj same
        exact ⟨rfl, list, isList, others, areLists, rfl⟩
      · rintro ⟨rfl, list, isList, others, areLists, same⟩
        obtain rfl := Option.some.inj same
        exact ⟨list, isList, others, ⟨rfl, areLists⟩, rfl⟩
    · have passed : Pem.ofKind .crl (s :: rest) = Pem.ofKind .crl rest :=
        List.filterMap_cons_none (if_neg isCrl)
      rw [if_neg isCrl, passed, ih]

/-- Of armoured text all lists are loaded, of which there must be one. -/
theorem parseAll_of_isArmoured (armoured : isArmoured bs = true) :
    parseAll bs = .ok lists ↔ InSections bs lists ∧ lists ≠ [] := by
  rw [parseAll, if_pos armoured, InSections, encodedIn, ← ofSections_eq_ok_iff]
  dsimp only
  rw [bind_eq_ok_iff]
  constructor
  · rintro ⟨made, areLists, kept⟩
    cases made with
    | nil => cases kept
    | cons list rest =>
      obtain rfl := Except.ok.inj kept
      exact ⟨areLists, List.cons_ne_nil _ _⟩
  · rintro ⟨areLists, nonempty⟩
    obtain ⟨list, rest, rfl⟩ := List.exists_cons_of_ne_nil nonempty
    exact ⟨_, areLists, rfl⟩

/-- Of anything else the one encoded list is loaded, whatever sections there may be. -/
theorem parseAll_of_not_isArmoured (bare : isArmoured bs = false) :
    parseAll bs = .ok lists ↔ InWhole bs lists := by
  rw [parseAll, bare, if_neg Bool.false_ne_true, bind_eq_ok_iff, InWhole]
  simp only [ofDer_eq_ok_iff]
  refine exists_congr fun list => and_congr_right fun _ => ?_
  constructor
  · exact fun same => (Except.ok.inj same).symm
  · rintro rfl
    rfl

/-- There are as many lists as sections for them. -/
theorem InSections.eq_nil_iff (inSections : InSections bs lists) :
    lists = [] ↔ encodedIn bs = [] := by
  obtain ⟨-, areLists⟩ := inSections
  cases encoded : encodedIn bs with
  | nil =>
    rw [encoded] at areLists
    exact ⟨fun _ => rfl, fun _ => (Option.some.inj areLists).symm⟩
  | cons der ders =>
    rw [encoded] at areLists
    obtain ⟨list, mem, -⟩ := exists_mem_of_mapM_eq_some areLists List.mem_cons_self
    constructor
    · rintro rfl
      cases mem
    · exact fun none => nomatch none

/-- What begins with a section is no encoded list. -/
theorem not_inWhole_of_isArmoured (armoured : isArmoured bs = true) : ¬InWhole bs lists := by
  rintro ⟨list, isList, -⟩
  have bare := isArmoured_eq_false (ofDer_eq_ok_iff.mpr isList)
  exact Bool.false_ne_true (bare.symm.trans armoured)

end Parsed

/-- All lists of a file are loaded, or none with an error, if the file has no section for a list or
begins with a section. Where sections come after something else, the file is read as a single
encoded list, and that is right only where the sections hold just this list, or cannot all be read
and it is none. -/
theorem loads_all_iff (bs : Bytes) :
    LoadsAll bs (parseAll bs) ↔
      (encodedIn bs ≠ [] → isArmoured bs = false →
        ∀ lists, InWhole bs lists ↔ InSections bs lists) := by
  constructor
  · intro loads held bare lists
    rw [← loads.sections held lists, parseAll_of_not_isArmoured bare]
  · intro alike
    cases armoured : isArmoured bs with
    | false =>
      refine ⟨fun held lists => ?_, fun _ lists => parseAll_of_not_isArmoured armoured⟩
      rw [parseAll_of_not_isArmoured armoured, alike held armoured]
    | true =>
      constructor
      · intro held lists
        rw [parseAll_of_isArmoured armoured, and_iff_left_iff_imp]
        exact fun inSections => mt inSections.eq_nil_iff.mp held
      · -- Without a section for a list there is nothing to load, in either reading.
        intro none lists
        rw [parseAll_of_isArmoured armoured]
        constructor
        · rintro ⟨inSections, nonempty⟩
          exact absurd (inSections.eq_nil_iff.mpr none) nonempty
        · exact fun inWhole => absurd inWhole (not_inWhole_of_isArmoured armoured)

/-! ### Explanations -/

/-- A line that begins with a sign of text: with neither white space nor a dash, and not like an
encoded sequence. -/
structure Explains (line : Bytes) : Prop where
  unbroken : ∀ b ∈ line, Pem.isBreak b = false
  begins : ∃ first ∈ line.head?, isLeadingSpace first = false ∧ first ≠ 0x2d
    ∧ first.toNat % 32 ≠ Der.Tag.sequence ∧ first.toNat % 32 ≠ 31

section Explained

variable {line : Bytes}

/-- A reader of armoured text passes over a line of explanation. -/
theorem Explains.sections_append (explains : Explains line) (rest : Bytes) :
    Pem.sections (line ++ 0x0a :: rest) = Pem.sections rest := by
  obtain ⟨unbroken, first, isFirst, -, notDash, -⟩ := explains
  obtain ⟨more, rfl⟩ := List.head?_eq_some_iff.mp isFirst
  rw [Pem.sections, Pem.lines_append unbroken, List.reverse_nil, List.nil_append, Pem.readLines,
    if_neg ?_]
  · rfl
  · intro isOpening
    obtain ⟨_, same⟩ := List.isPrefixOf_iff_prefix.mp isOpening
    exact notDash (List.cons.inj same).1.symm

/-- What begins with a line of explanation is not taken for armoured text. -/
theorem Explains.isArmoured_append (explains : Explains line) (rest : Bytes) :
    isArmoured (line ++ rest) = false := by
  obtain ⟨-, first, isFirst, notSpace, notDash, -⟩ := explains
  obtain ⟨more, rfl⟩ := List.head?_eq_some_iff.mp isFirst
  rw [isArmoured, List.cons_append, List.dropWhile_cons_of_neg (by simp [notSpace]),
    Bool.eq_false_iff]
  intro isPrefix
  obtain ⟨_, same⟩ := List.isPrefixOf_iff_prefix.mp isPrefix
  exact notDash (List.cons.inj same).1.symm

/-- Nor does it encode a list. -/
theorem Explains.ofDer?_append (explains : Explains line) (rest : Bytes) :
    ofDer? (line ++ rest) = none := by
  obtain ⟨-, first, isFirst, -, -, notSequence, notHigh⟩ := explains
  obtain ⟨more, rfl⟩ := List.head?_eq_some_iff.mp isFirst
  rw [Option.eq_none_iff_forall_ne_some]
  intro list isList
  obtain ⟨⟨e, after⟩, isSequence, -⟩ := Option.bind_eq_some_iff.mp isList
  obtain ⟨_, _, same, tag⟩ := Der.Element.exists_first_of_readNumbered? isSequence
  obtain ⟨rfl, -⟩ := List.cons.inj same
  exact tag.elim notSequence notHigh

/-- Whatever lists stand below a line of explanation, none of them is loaded. -/
theorem parseAll_explained (explains : Explains line) (rest : Bytes) :
    encodedIn (line ++ 0x0a :: rest) = encodedIn rest
      ∧ (∀ lists, InSections (line ++ 0x0a :: rest) lists ↔ InSections rest lists)
      ∧ parseAll (line ++ 0x0a :: rest) = .error (.malformed "not a revocation list") := by
  have sections := explains.sections_append rest
  refine ⟨?_, fun lists => ?_, ?_⟩
  · rw [encodedIn, sections, encodedIn]
  · rw [InSections, InSections, encodedIn, sections, encodedIn]
  · rw [parseAll, explains.isArmoured_append, if_neg Bool.false_ne_true, ofDer,
      explains.ofDer?_append]
    rfl

end Explained

open TestAuthority in
/-- The list of Test CA below the line that usually explains such lists. -/
def explainedList : Bytes :=
  Bytes.ofAscii "Certificate Revocation List (CRL):" ++ 0x0a :: Pem.armour .crl expiredList

open TestAuthority in
/-- The list of Test CA can be read, and a reader of armoured text finds it, but below the line that
explains it the list is not loaded. -/
theorem explained_list_refused :
    encodedIn explainedList = [expiredList]
      ∧ (∃ list, ofDer? expiredList = some list ∧ InSections explainedList [list])
      ∧ parseAll explainedList = .error (.malformed "not a revocation list")
      ∧ ¬LoadsAll explainedList (parseAll explainedList) := by
  have explains : Explains (Bytes.ofAscii "Certificate Revocation List (CRL):") :=
    ⟨by decide +kernel, 0x43, by decide +kernel⟩
  obtain ⟨held, sameLists, refused⟩ := parseAll_explained explains (Pem.armour .crl expiredList)
  have sections := Pem.sections_flatMap_armour .crl [expiredList]
  rw [List.flatMap_singleton] at sections
  have encoded : encodedIn (Pem.armour .crl expiredList) = [expiredList] := by
    rw [encodedIn, sections]
    rfl
  have readable : (ofDer? expiredList).isSome = true := by decide +kernel
  obtain ⟨list, isList⟩ := Option.isSome_iff_exists.mp readable
  have inSections : InSections explainedList [list] := by
    refine (sameLists _).mpr ⟨by rw [sections], ?_⟩
    rw [encoded, List.mapM_cons, isList]
    rfl
  refine ⟨held.trans encoded, ⟨list, isList, inSections⟩, refused, fun loads => ?_⟩
  have nonempty : encodedIn explainedList ≠ [] := by
    rw [explainedList, held, encoded]
    exact List.cons_ne_nil _ _
  have loaded := (loads.sections nonempty _).mpr inSections
  exact nomatch loaded.symm.trans refused

end PeerTrust.RevocationList
