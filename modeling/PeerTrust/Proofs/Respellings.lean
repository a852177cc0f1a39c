import Mathlib.Data.List.Basic
import Mathlib.Data.List.Induction
import PeerTrust.Proofs.Directories

/-!
# Paths that are spelled in different ways

Two spellings of one path have the same components. They lead to the same place, with two
exceptions: a path that is too long leads nowhere, and a file is not reached under a spelling that
ends in a slash or in a dot.

## Main definitions

* `FilePath.lead`, `FilePath.named` — what the components of a path are made of
* `FilePath.opensFile`, `FilePath.isShort` — the spellings under which files and directories open
* `FileSystem.LeadsTo` — what a path leads to, spelling aside

## Main results

* `FilePath.same_join` — entries of one directory are the same under both spellings of it
* `FileSystem.locate_eq_ok_iff_leadsTo` — what spelling adds to where a path leads
* `FileSystem.read_eq_ok_iff_leadsTo`, `FileSystem.list_eq_ok_iff_leadsTo` — what it adds to reading
  and listing
* `FilePath.opensFile_join_total` — one of two spellings of a directory opens the more entries
-/

namespace PeerTrust

namespace FilePath

variable {p q : FilePath} {name : String}

/-! ### What components are made of -/

/-- The words of a path between its slashes. -/
def spelled (p : FilePath) : List (List Char) := splitSlashes [] p.text.toList

/-- Whether a word names nothing. -/
def isIdle (word : List Char) : Bool := word = [] ∨ word = ['.']

/-- The words of a path that name something. -/
def named (p : FilePath) : List (List Char) := p.spelled.filter (!isIdle ·)

/-- The component of a path that comes before those that its words name, if there is one. -/
def leadOf : List (List Char) → Option Component
  | [] :: _ :: _ => some .root
  | ['.'] :: _ => some .current
  | _ => none

/-- What a path begins with. -/
def lead (p : FilePath) : Option Component := leadOf p.spelled

/-- The component that a word names. -/
def ofWord (word : List Char) : Component :=
  if word = ['.', '.'] then .parent else .entry (String.ofList word)

theorem isIdle_iff {word : List Char} : isIdle word = true ↔ word = [] ∨ word = ['.'] :=
  decide_eq_true_iff

theorem ofWords_eq_map (words : List (List Char)) :
    ofWords words = (words.filter (!isIdle ·)).map ofWord := by
  induction words with
  | nil => rfl
  | cons word words ih =>
    rw [ofWords, List.filterMap_cons, ← ofWords, ih]
    cases idle : isIdle word with
    | true =>
      rw [List.filter_cons_of_neg (by simp [idle]), if_pos (isIdle_iff.mp idle)]
    | false =>
      have names : ¬(word = [] ∨ word = ['.']) := fun h => by simp [isIdle_iff.mpr h] at idle
      rw [List.filter_cons_of_pos (by simp [idle]), if_neg names, List.map_cons, ofWord]
      by_cases up : word = ['.', '.']
      · rw [if_pos up, if_pos up]
      · rw [if_neg up, if_neg up]

theorem components_eq (p : FilePath) : p.components = p.lead.toList ++ p.named.map ofWord := by
  rw [named, ← ofWords_eq_map, lead, spelled, components]
  split
  next first rest words => simp [words, leadOf]
  next rest words => simp [words, leadOf]
  next notRoot notCurrent =>
    have plain : leadOf (splitSlashes [] p.text.toList) = none := by
      unfold leadOf
      split
      next first rest words => exact absurd words (notRoot first rest)
      next rest words => exact absurd words (notCurrent rest)
      next => rfl
    rw [plain]
    rfl

/-- Whether a component stands at the beginning of a path only. -/
def Component.isLead : Component → Bool
  | .root | .current => true
  | .parent | .entry _ => false

theorem isLead_ofWord (word : List Char) : (ofWord word).isLead = false := by
  unfold ofWord
  split <;> rfl

theorem isLead_of_lead {c : Component} (leads : p.lead = some c) : c.isLead = true := by
  unfold lead leadOf at leads
  split at leads <;> cases leads <;> rfl

theorem ofWord_injective : Function.Injective ofWord := by
  intro word other same
  unfold ofWord at same
  split at same <;> split at same
  · simp_all
  · cases same
  · cases same
  · exact String.ofList_injective (Component.entry.inj same)

theorem lead_eq_filter (p : FilePath) : p.lead.toList = p.components.filter (·.isLead) := by
  have none_named : (p.named.map ofWord).filter (·.isLead) = [] := by
    simp [List.filter_eq_nil_iff, isLead_ofWord]
  have all_lead : p.lead.toList.filter (·.isLead) = p.lead.toList :=
    List.filter_eq_self.mpr fun c mem => isLead_of_lead (Option.mem_toList.mp mem)
  rw [components_eq, List.filter_append, none_named, all_lead, List.append_nil]

theorem named_eq_filter (p : FilePath) :
    p.named.map ofWord = p.components.filter (!·.isLead) := by
  have all_named : (p.named.map ofWord).filter (!·.isLead) = p.named.map ofWord := by
    simp [List.filter_eq_self, isLead_ofWord]
  have none_lead : p.lead.toList.filter (!·.isLead) = [] :=
    List.filter_eq_nil_iff.mpr fun c mem => by simp [isLead_of_lead (Option.mem_toList.mp mem)]
  rw [components_eq, List.filter_append, none_lead, all_named, List.nil_append]

/-- Paths are the same exactly if they begin alike and the same words in them name something. -/
theorem components_eq_iff : p.components = q.components ↔ p.lead = q.lead ∧ p.named = q.named := by
  constructor
  · intro same
    have lead : p.lead.toList = q.lead.toList := by
      rw [lead_eq_filter, same, ← lead_eq_filter]
    have named : p.named.map ofWord = q.named.map ofWord := by
      rw [named_eq_filter, same, ← named_eq_filter]
    refine ⟨?_, List.map_injective_iff.mpr ofWord_injective named⟩
    simpa using congrArg List.head? lead
  · rintro ⟨lead, named⟩
    rw [components_eq, components_eq, lead, named]

/-! ### What all spellings of a path have in common -/

theorem exists_head_splitSlashes (word cs : List Char) :
    ∃ head rest, splitSlashes word cs = (word.reverse ++ head) :: rest := by
  induction cs generalizing word with
  | nil => exact ⟨[], [], by rw [splitSlashes, List.append_nil]⟩
  | cons c cs ih =>
    rw [splitSlashes]
    split
    · exact ⟨[], _, by rw [List.append_nil]⟩
    · obtain ⟨head, rest, words⟩ := ih (c :: word)
      exact ⟨c :: head, rest, by simp [words]⟩

/-- The words of a path that begins with a slash, and those of any other. -/
theorem spelled_of_slash {cs : List Char} (text : p.text.toList = '/' :: cs) :
    ∃ word rest, p.spelled = [] :: word :: rest := by
  obtain ⟨word, rest, words⟩ := List.exists_cons_of_ne_nil (splitSlashes_ne_nil [] cs)
  exact ⟨word, rest, by rw [spelled, text, splitSlashes, if_pos rfl, words]; rfl⟩

theorem spelled_of_ne_slash {c : Char} {cs : List Char} (text : p.text.toList = c :: cs)
    (noSlash : c ≠ '/') : ∃ head rest, p.spelled = (c :: head) :: rest := by
  obtain ⟨head, rest, words⟩ := exists_head_splitSlashes [c] cs
  exact ⟨head, rest, by rw [spelled, text, splitSlashes, if_neg noSlash, words]; rfl⟩

theorem text_eq_empty_iff : p.text = "" ↔ p.lead = none ∧ p.named = [] := by
  constructor
  · intro empty
    rw [lead, named, spelled, empty]
    exact ⟨rfl, rfl⟩
  · rintro ⟨noLead, noName⟩
    by_contra nonempty
    obtain ⟨c, cs, text⟩ := List.exists_cons_of_ne_nil
      fun empty => nonempty (String.toList_eq_nil_iff.mp empty)
    by_cases slash : c = '/'
    · obtain ⟨word, rest, words⟩ := spelled_of_slash (slash ▸ text)
      simp [lead, words, leadOf] at noLead
    · obtain ⟨head, rest, words⟩ := spelled_of_ne_slash text slash
      -- The first word is a dot that the path begins with, or names something.
      by_cases idle : isIdle (c :: head) = true
      · have dot : c :: head = ['.'] := (isIdle_iff.mp idle).resolve_left (List.cons_ne_nil _ _)
        simp [lead, words, dot, leadOf] at noLead
      · simp [named, words, idle] at noName

theorem text_eq_empty_congr (same : p.components = q.components) : p.text = "" ↔ q.text = "" := by
  obtain ⟨lead, named⟩ := components_eq_iff.mp same
  rw [text_eq_empty_iff, text_eq_empty_iff, lead, named]

theorem isAbsolute_iff : p.isAbsolute = true ↔ p.lead = some .root := by
  rw [isAbsolute, String.startsWith_string_iff, lead]
  cases text : p.text.toList with
  | nil => simp [spelled, text, splitSlashes, leadOf]
  | cons c cs =>
    by_cases slash : c = '/'
    · obtain ⟨word, rest, words⟩ := spelled_of_slash (slash ▸ text)
      simp [words, leadOf, slash]
    · obtain ⟨head, rest, words⟩ := spelled_of_ne_slash text slash
      have relative : leadOf p.spelled ≠ some .root := by
        rw [words]
        unfold leadOf
        split <;> simp_all
      simp [relative, Ne.symm slash]

theorem mem_splitSlashes_iff {c : Char} (noSlash : c ≠ '/') (word cs : List Char) :
    (∃ other ∈ splitSlashes word cs, c ∈ other) ↔ c ∈ word ∨ c ∈ cs := by
  induction cs generalizing word with
  | nil => simp [splitSlashes]
  | cons first cs ih =>
    rw [splitSlashes]
    split
    next slash =>
      have other : c ≠ first := fun same => noSlash (same.trans slash)
      simp [ih, other]
    next => simp [ih, or_assoc, or_left_comm]

/-- A character that is no slash and no dot stands in a word that names something. -/
theorem mem_text_iff {c : Char} (noSlash : c ≠ '/') (noDot : c ≠ '.') :
    c ∈ p.text.toList ↔ ∃ word ∈ p.named, c ∈ word := by
  have named (word : List Char) (mem : c ∈ word) : isIdle word = false := by
    rw [Bool.eq_false_iff, Ne, isIdle_iff]
    rintro (rfl | rfl) <;> simp_all
  have all := mem_splitSlashes_iff noSlash [] p.text.toList
  simp only [List.not_mem_nil, false_or] at all
  rw [← all]
  constructor
  · rintro ⟨word, mem, inside⟩
    exact ⟨word, List.mem_filter.mpr ⟨mem, by simp [named word inside]⟩, inside⟩
  · rintro ⟨word, mem, inside⟩
    exact ⟨word, List.mem_of_mem_filter mem, inside⟩

/-! ### What spellings differ in -/

/-- Whether the last word of a path names something. -/
def endsInName (p : FilePath) : Bool := p.spelled.getLast?.any (!isIdle ·)

/-- Whether a path is not too long to lead anywhere. -/
def isShort (p : FilePath) : Bool := p.text.utf8ByteSize < 4096

/-- Whether a file can be opened under a path that is spelled like this. -/
def opensFile (p : FilePath) : Bool := p.isShort && p.endsInName

theorem leadOf_nil_cons {rest : List (List Char)} (more : rest ≠ []) :
    leadOf ([] :: rest) = some .root := by
  obtain ⟨next, others, rfl⟩ := List.exists_cons_of_ne_nil more
  rfl

theorem leadOf_cons {word : List Char} (nonempty : word ≠ []) (rest other : List (List Char)) :
    leadOf (word :: rest) = leadOf (word :: other) := by
  unfold leadOf
  split <;> split <;> simp_all

theorem lead_join {dir : FilePath} (nonempty : dir.text ≠ "") (name : String) :
    (dir.join name).lead = dir.lead := by
  obtain ⟨words, some_word, joined, own⟩ := exists_words_join_split nonempty name
  obtain ⟨first, rest, rfl⟩ := List.exists_cons_of_ne_nil some_word
  obtain ⟨more, own⟩ : ∃ more, dir.spelled = first :: more := by
    rcases own with own | own <;> exact ⟨_, own⟩
  rw [lead, lead, spelled, joined, own, List.cons_append]
  cases first with
  | nil =>
    -- With the first word alone, the directory would be the empty path.
    have follows : more ≠ [] := by
      rintro rfl
      exact nonempty (text_eq_empty_iff.mpr (by rw [lead, named, own]; exact ⟨rfl, rfl⟩))
    rw [leadOf_nil_cons follows]
    exact leadOf_nil_cons (by simp [splitSlashes_ne_nil])
  | cons c cs => exact leadOf_cons (List.cons_ne_nil c cs) _ _

theorem named_join {dir : FilePath} (nonempty : dir.text ≠ "") (name : String) :
    (dir.join name).named = dir.named ++ (splitSlashes [] name.toList).filter (!isIdle ·) := by
  obtain ⟨words, -, joined, own⟩ := exists_words_join_split nonempty name
  rw [named, named, spelled, spelled, joined, List.filter_append]
  rcases own with own | own
  · rw [own]
  · rw [own, List.filter_append]
    simp [isIdle]

/-- Entries of one directory are the same under all spellings of it. -/
theorem same_join (same : p.components = q.components) (name : String) :
    (p.join name).components = (q.join name).components := by
  obtain ⟨lead, named⟩ := components_eq_iff.mp same
  by_cases empty : p.text = ""
  · rw [join, join, empty, (text_eq_empty_congr same).mp empty]
  · have nonempty : q.text ≠ "" := (text_eq_empty_congr same).not.mp empty
    rw [components_eq_iff, lead_join empty, lead_join nonempty, named_join empty,
      named_join nonempty, lead, named]
    exact ⟨rfl, rfl⟩

theorem endsInName_join {dir : FilePath} (nonempty : dir.text ≠ "") (name : String) :
    (dir.join name).endsInName = (splitSlashes [] name.toList).getLast?.any (!isIdle ·) := by
  obtain ⟨words, -, joined, -⟩ := exists_words_join_split nonempty name
  rw [endsInName, spelled, joined, List.getLast?_append_of_ne_nil _ (splitSlashes_ne_nil _ _)]

theorem exists_utf8ByteSize_join (dir : FilePath) :
    ∃ own, ∀ name, (dir.join name).text.utf8ByteSize = own + name.utf8ByteSize := by
  by_cases ends : dir.text = "" ∨ dir.text.endsWith "/"
  · exact ⟨dir.text.utf8ByteSize, fun name => by rw [join, if_pos ends, String.utf8ByteSize_append]⟩
  · exact ⟨(dir.text ++ "/").utf8ByteSize, fun name => by
      rw [join, if_neg ends, String.utf8ByteSize_append]⟩

/-- Of two spellings of a directory, one opens all the entries that the other does. -/
theorem opensFile_join_total (same : p.components = q.components) :
    (∀ name, (q.join name).opensFile = true → (p.join name).opensFile = true)
      ∨ ∀ name, (p.join name).opensFile = true → (q.join name).opensFile = true := by
  by_cases empty : p.text = ""
  · have spelledAlike : p.text = q.text := empty.trans ((text_eq_empty_congr same).mp empty).symm
    exact .inl fun name opens => by rwa [join, spelledAlike]
  · have nonempty : q.text ≠ "" := (text_eq_empty_congr same).not.mp empty
    obtain ⟨size, sized⟩ := exists_utf8ByteSize_join p
    obtain ⟨size', sized'⟩ := exists_utf8ByteSize_join q
    simp only [opensFile, isShort, endsInName_join empty, endsInName_join nonempty, sized, sized',
      Bool.and_eq_true, decide_eq_true_eq]
    rcases Nat.le_total size size' with le | le
    · exact .inl fun name => And.imp_left fun short => by omega
    · exact .inr fun name => And.imp_left fun short => by omega

end FilePath

namespace FileSystem

open PeerTrust.FilePath (isIdle isIdle_iff)

variable {fs : FileSystem} {p q : FilePath} {place found : Place} {word : List Char}

/-- Whether a place is a file. -/
def Place.isFile (place : Place) : Bool :=
  match place.entry with
  | .file .. => true
  | .directory _ => false

theorem step_of_isIdle (idle : isIdle word = true) :
    fs.step place word = .ok found ↔ place.isFile = false ∧ place = found := by
  rw [isIdle_iff] at idle
  obtain ⟨names, ⟨content, fault⟩ | fault⟩ := place
  · simp [step, Place.isFile]
  · simp [step, idle, Place.isFile]

theorem isFile_of_step (stepped : fs.step place word = .ok found) : place.isFile = false := by
  obtain ⟨names, ⟨content, fault⟩ | fault⟩ := place
  · cases stepped
  · rfl

/-- Words that name nothing only keep a walk from ending at a file after them. -/
theorem walk_iff (words : List (List Char)) :
    fs.walk p words = .ok found ↔
      fs.walk p (words.filter (!isIdle ·)) = .ok found
        ∧ (words.getLast?.any isIdle = true → found.isFile = false) := by
  -- From the right, since only the last word decides whether a walk may end at a file.
  induction words using List.reverseRecOn generalizing found with
  | nil => simp
  | append_singleton words word ih =>
    have last : (words ++ [word]).getLast?.any isIdle = isIdle word := by simp
    rw [last, walk_concat_eq_ok_iff, List.filter_append]
    cases idle : isIdle word with
    | true =>
      rw [List.filter_cons_of_neg (by simp [idle]), List.filter_nil, List.append_nil]
      simp only [step_of_isIdle idle, ih]
      constructor
      · rintro ⟨_, ⟨walked, -⟩, notFile, rfl⟩
        exact ⟨walked, fun _ => notFile⟩
      · rintro ⟨walked, notFile⟩
        have notFile := notFile trivial
        exact ⟨found, ⟨walked, fun _ => notFile⟩, notFile, rfl⟩
    | false =>
      rw [List.filter_cons_of_pos (by simp [idle]), List.filter_nil, walk_concat_eq_ok_iff]
      simp only [ih]
      constructor
      · rintro ⟨before, ⟨walked, -⟩, stepped⟩
        exact ⟨⟨before, walked, stepped⟩, nofun⟩
      · rintro ⟨⟨before, walked, stepped⟩, -⟩
        exact ⟨before, ⟨walked, fun _ => isFile_of_step stepped⟩, stepped⟩

/-- What a path leads to, spelling aside. -/
def LeadsTo (fs : FileSystem) (p : FilePath) (place : Place) : Prop :=
  Char.ofNat 0 ∉ p.text.toList ∧ p.text ≠ "" ∧ fs.walk p p.named = .ok place

theorem leadsTo_congr (same : p.components = q.components) :
    fs.LeadsTo p place ↔ fs.LeadsTo q place := by
  obtain ⟨lead, named⟩ := FilePath.components_eq_iff.mp same
  have nul : Char.ofNat 0 ∈ p.text.toList ↔ Char.ofNat 0 ∈ q.text.toList := by
    rw [FilePath.mem_text_iff (by decide) (by decide), named,
      FilePath.mem_text_iff (by decide) (by decide)]
  have absolute : p.isAbsolute = q.isAbsolute := by
    rw [Bool.eq_iff_iff, FilePath.isAbsolute_iff, FilePath.isAbsolute_iff, lead]
  rw [LeadsTo, LeadsTo, nul, Ne, Ne, FilePath.text_eq_empty_congr same, named, walk, walk, origin,
    origin, absolute]

theorem LeadsTo.unique (leads : fs.LeadsTo p place) (other : fs.LeadsTo p found) :
    place = found :=
  Except.ok.inj (leads.2.2.symm.trans other.2.2)

/-- All that the spelling of a path adds to where it leads. -/
theorem locate_eq_ok_iff_leadsTo :
    fs.locate p = .ok place ↔
      fs.LeadsTo p place ∧ p.isShort = true ∧ (place.isFile = true → p.endsInName = true) := by
  have ends : p.endsInName = !p.spelled.getLast?.any isIdle := by
    obtain ⟨last, ends⟩ := Option.isSome_iff_exists.mp
      (List.getLast?_isSome.mpr (FilePath.splitSlashes_ne_nil [] p.text.toList))
    simp [FilePath.endsInName, FilePath.spelled, ends]
  have short : p.isShort = true ↔ p.text.utf8ByteSize < 4096 := decide_eq_true_iff
  rw [locate_eq_ok_iff, ← FilePath.spelled, walk_iff, LeadsTo, FilePath.named, short, ends]
  cases p.spelled.getLast?.any isIdle <;> cases place.isFile <;> simp <;> tauto

/-! ### Files -/

theorem read_eq_ok_iff_leadsTo {content : Bytes} :
    fs.read p = .ok content ↔
      (∃ names, fs.LeadsTo p ⟨names, .file content⟩) ∧ p.opensFile = true := by
  simp only [read_eq_ok_iff, locate_eq_ok_iff_leadsTo, exists_and_right, FilePath.opensFile,
    Bool.and_eq_true, Place.isFile, forall_const]

theorem opensFile_of_read {content : Bytes} (readable : fs.read p = .ok content) :
    p.opensFile = true :=
  (read_eq_ok_iff_leadsTo.mp readable).2

/-! ### Directories -/

/-- The names in a place, if it is a directory that can be listed. -/
def held? (fs : FileSystem) (place : Place) : Option (List String) :=
  match place.entry with
  | .directory none => some (fs.entries.filterMap fun e => childName? place.names e.1)
  | _ => none

theorem isFile_of_held? {names : List String} (holds : fs.held? place = some names) :
    place.isFile = false := by
  obtain ⟨_, ⟨_, _⟩ | _⟩ := place
  · cases holds
  · rfl

theorem list_eq_ok_iff_leadsTo {names : List String} :
    fs.list p = .ok names ↔
      (∃ place, fs.LeadsTo p place ∧ fs.held? place = some names) ∧ p.isShort = true := by
  have located : fs.list p = .ok names ↔
      ∃ place, fs.locate p = .ok place ∧ fs.held? place = some names := by
    unfold list
    rcases fs.locate p with _ | ⟨_, ⟨_, _⟩ | _ | _⟩ <;> simp [held?]
  rw [located]
  constructor
  · rintro ⟨place, leads, holds⟩
    obtain ⟨leads, short, -⟩ := locate_eq_ok_iff_leadsTo.mp leads
    exact ⟨⟨place, leads, holds⟩, short⟩
  · rintro ⟨⟨place, leads, holds⟩, short⟩
    refine ⟨place, locate_eq_ok_iff_leadsTo.mpr ⟨leads, short, ?_⟩, holds⟩
    simp [isFile_of_held? holds]

/-- A directory that is listed under one spelling is listed under those that are short. -/
theorem list_of_same {names : List String} (same : p.components = q.components)
    (listed : fs.list p = .ok names) : fs.list q = .ok names ↔ q.isShort = true := by
  obtain ⟨⟨place, leads, holds⟩, -⟩ := list_eq_ok_iff_leadsTo.mp listed
  rw [list_eq_ok_iff_leadsTo, and_iff_right ⟨place, (leadsTo_congr same).mp leads, holds⟩]

theorem isDirectory_iff_leadsTo :
    fs.isDirectory p = true ↔
      (∃ place, fs.LeadsTo p place ∧ place.isFile = false) ∧ p.isShort = true := by
  have located : fs.isDirectory p = true ↔
      ∃ place, fs.locate p = .ok place ∧ place.isFile = false := by
    unfold isDirectory
    rcases fs.locate p with _ | ⟨_, ⟨_, _⟩ | _⟩ <;> simp [Place.isFile]
  rw [located]
  constructor
  · rintro ⟨place, leads, notFile⟩
    obtain ⟨leads, short, -⟩ := locate_eq_ok_iff_leadsTo.mp leads
    exact ⟨⟨place, leads, notFile⟩, short⟩
  · rintro ⟨⟨place, leads, notFile⟩, short⟩
    exact ⟨place, locate_eq_ok_iff_leadsTo.mpr ⟨leads, short, by simp [notFile]⟩, notFile⟩

end FileSystem

end PeerTrust
