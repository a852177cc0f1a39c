import PeerTrust.FileSystem
import PeerTrust.Proofs.Steps

/-!
# Entries of a directory

The path of an entry leads one step further than that of its directory. So whatever is found under a
plain name below a directory is among the names that the directory holds.

## Main definitions

* `FileSystem.walk` — a walk along words, from where a path sets out
* `FileSystem.IsPlainName` — a name that leads one step down
* `FileSystem.file?` — the file that a path leads to

## Main results

* `FileSystem.locate_join_iff` — where the path of an entry leads
* `FileSystem.locate_of_lookup` — where a name leads in the working directory
* `FileSystem.mem_of_isFile_join` — files below a directory are among its names
* `FileSystem.read_join` — what stands in a directory is read
-/

namespace PeerTrust

/-- No character takes more than four bytes. -/
theorem utf8ByteSize_le (s : String) : s.utf8ByteSize ≤ 4 * s.toList.length := by
  suffices all : ∀ cs : List Char, (String.ofList cs).utf8ByteSize ≤ 4 * cs.length by
    simpa using all s.toList
  intro cs
  induction cs with
  | nil => exact Nat.le_refl 0
  | cons c cs ih =>
    have first := c.utf8Size_le_four
    rw [← List.singleton_append, String.ofList_append, String.utf8ByteSize_append,
      ← String.singleton_eq_ofList, String.utf8ByteSize_singleton, List.singleton_append,
      List.length_cons]
    omega

/-! ### Words of a path -/

namespace FilePath

theorem splitSlashes_of_not_mem {word cs : List Char} (plain : '/' ∉ cs) :
    splitSlashes word cs = [word.reverse ++ cs] := by
  induction cs generalizing word with
  | nil => rw [splitSlashes, List.append_nil]
  | cons c cs ih =>
    rw [List.mem_cons, not_or] at plain
    rw [splitSlashes, if_neg (Ne.symm plain.1), ih plain.2, List.reverse_cons, List.append_assoc,
      List.singleton_append]

theorem splitSlashes_append (word front back : List Char) :
    splitSlashes word (front ++ '/' :: back) = splitSlashes word front ++ splitSlashes [] back := by
  induction front generalizing word with
  | nil => exact if_pos rfl
  | cons c front ih =>
    rw [List.cons_append, splitSlashes, splitSlashes, ih, ih]
    split <;> rfl

theorem splitSlashes_ne_nil (word cs : List Char) : splitSlashes word cs ≠ [] := by
  cases cs with
  | nil => exact List.cons_ne_nil _ _
  | cons c cs =>
    rw [splitSlashes]
    split
    · exact List.cons_ne_nil _ _
    · exact splitSlashes_ne_nil _ cs

/-- The words of a name follow those of the directory, which may end in an empty one. -/
theorem exists_words_join_split {dir : FilePath} (nonempty : dir.text ≠ "") (name : String) :
    ∃ words, words ≠ []
      ∧ splitSlashes [] (dir.join name).text.toList = words ++ splitSlashes [] name.toList
      ∧ (splitSlashes [] dir.text.toList = words ∨
        splitSlashes [] dir.text.toList = words ++ [[]]) := by
  by_cases slash : dir.text.endsWith "/" = true
  · have ends := slash
    rw [← String.endsWith_toSlice, String.Slice.endsWith_string_iff] at ends
    obtain ⟨front, ends⟩ := ends
    have text : dir.text.toList = front ++ '/' :: [] := by simpa using ends.symm
    refine ⟨splitSlashes [] front, splitSlashes_ne_nil [] front, ?_, .inr ?_⟩
    · rw [join, if_pos (.inr slash), String.toList_append, text, List.append_assoc,
        List.cons_append, List.nil_append, splitSlashes_append]
    · rw [text, splitSlashes_append]
      rfl
  · refine ⟨splitSlashes [] dir.text.toList, splitSlashes_ne_nil _ _, ?_, .inl rfl⟩
    rw [join, if_neg (by simp [nonempty, slash])]
    simp [splitSlashes_append]

/-- The name of an entry is the last word of its path. -/
theorem exists_words_join {dir : FilePath} (nonempty : dir.text ≠ "") {name : String}
    (plain : '/' ∉ name.toList) :
    ∃ words, splitSlashes [] (dir.join name).text.toList = words ++ [name.toList]
      ∧ (splitSlashes [] dir.text.toList = words ∨
        splitSlashes [] dir.text.toList = words ++ [[]]) := by
  obtain ⟨words, -, joined, own⟩ := exists_words_join_split nonempty name
  rw [splitSlashes_of_not_mem plain] at joined
  exact ⟨words, joined, own⟩

/-- The path of an entry is that of the directory, perhaps a slash, and the name. -/
theorem toList_join (dir : FilePath) (name : String) :
    ∃ slash, (slash = [] ∨ slash = ['/'])
      ∧ (dir.join name).text.toList = dir.text.toList ++ slash ++ name.toList := by
  unfold join
  split
  · exact ⟨[], .inl rfl, by simp⟩
  · exact ⟨['/'], .inr rfl, by simp⟩

theorem isAbsolute_join {dir : FilePath} (nonempty : dir.text ≠ "") (name : String) :
    (dir.join name).isAbsolute = dir.isAbsolute := by
  obtain ⟨slash, -, chars⟩ := toList_join dir name
  obtain ⟨c, cs, text⟩ := List.exists_cons_of_ne_nil
    fun empty => nonempty (String.toList_eq_nil_iff.mp empty)
  rw [Bool.eq_iff_iff, isAbsolute, isAbsolute, String.startsWith_string_iff,
    String.startsWith_string_iff, chars, text]
  simp

end FilePath

namespace FileSystem

variable {fs : FileSystem} {dir p : FilePath} {name : String} {place found : Place}
  {names : List String}

/-! ### Where paths lead -/

theorem placeAt_eq_ok_iff :
    fs.placeAt names = .ok place ↔ place.names = names ∧ fs.entry? names = some place.entry := by
  unfold placeAt
  obtain ⟨others, entry⟩ := place
  cases fs.entry? names with
  | none => simp
  | some found => simp [eq_comm]

theorem entry?_of_ne_nil (nonempty : names ≠ []) : fs.entry? names = fs.entries.lookup names :=
  if_neg nonempty

/-- A walk along words, from where a path sets out. -/
def walk (fs : FileSystem) (p : FilePath) (words : List (List Char)) : Except IoError Place := do
  let start ← fs.placeAt (fs.origin p)
  words.foldlM fs.step start

theorem walk_append (words more : List (List Char)) :
    fs.walk p (words ++ more) = fs.walk p words >>= more.foldlM fs.step := by
  unfold walk
  rw [bind_assoc]
  exact congrArg _ (funext fun start => List.foldlM_append)

theorem walk_concat_eq_ok_iff {words : List (List Char)} {word : List Char} :
    fs.walk p (words ++ [word]) = .ok found ↔
      ∃ place, fs.walk p words = .ok place ∧ fs.step place word = .ok found := by
  rw [walk_append, bind_eq_ok_iff]
  simp

/-- What it takes for a path to lead somewhere. -/
theorem locate_eq_ok_iff :
    fs.locate p = .ok place ↔
      (Char.ofNat 0 ∉ p.text.toList ∧ p.text ≠ "" ∧ p.text.utf8ByteSize < 4096)
        ∧ fs.walk p (FilePath.splitSlashes [] p.text.toList) = .ok place := by
  unfold locate
  by_cases nul : Char.ofNat 0 ∈ p.text.toList
  · simp [nul]
  · by_cases nonempty : p.text = ""
    · simp [nonempty]
    · by_cases long : 4096 ≤ p.text.utf8ByteSize
      · simp [nul, nonempty, long, Nat.not_lt.mpr long]
      · simp [nul, nonempty, long, Nat.lt_of_not_le long, walk]

/-- An empty word leads nowhere else. -/
theorem eq_of_step_nil {other : Place} (h : fs.step place [] = .ok other) : place = other := by
  obtain ⟨names, ⟨content, fault⟩ | fault⟩ := place
  · cases h
  · exact Except.ok.inj h

/-- The path of an entry leads one step further than that of the directory. -/
theorem locate_join_iff (isDir : fs.locate dir = .ok place)
    (plain : '/' ∉ name.toList) :
    fs.locate (dir.join name) = .ok found ↔
      (Char.ofNat 0 ∉ name.toList ∧ (dir.join name).text.utf8ByteSize < 4096)
        ∧ fs.step place name.toList = .ok found := by
  obtain ⟨⟨noNul, nonempty, -⟩, walked⟩ := locate_eq_ok_iff.mp isDir
  obtain ⟨words, joined, own⟩ := FilePath.exists_words_join nonempty plain
  obtain ⟨slash, isSlash, chars⟩ := FilePath.toList_join dir name
  have walk_join (words : List (List Char)) : fs.walk (dir.join name) words = fs.walk dir words := by
    rw [walk, walk, origin, origin, FilePath.isAbsolute_join nonempty]
  have walked : fs.walk dir words = .ok place := by
    rcases own with own | own
    · rwa [own] at walked
    · rw [own, walk_concat_eq_ok_iff] at walked
      obtain ⟨before, walked, stepped⟩ := walked
      rw [walked, eq_of_step_nil stepped]
  have nonempty_join : (dir.join name).text ≠ "" := by
    intro empty
    rw [empty] at chars
    simp [nonempty] at chars
  have noNul_join : Char.ofNat 0 ∉ (dir.join name).text.toList ↔ Char.ofNat 0 ∉ name.toList := by
    have noNulSlash : Char.ofNat 0 ∉ slash := by
      rcases isSlash with rfl | rfl <;> decide
    simp [chars, noNul, noNulSlash]
  rw [locate_eq_ok_iff, joined, walk_join, walk_concat_eq_ok_iff, walked, noNul_join]
  simp [nonempty_join]

/-- A name that leads one step down, and neither nowhere nor back. -/
structure IsPlainName (name : String) : Prop where
  noSlash : '/' ∉ name.toList
  long : 2 < name.toList.length

/-- A plain name is none of the words that do not lead down. -/
theorem IsPlainName.ne_special (plain : IsPlainName name) :
    name.toList ≠ [] ∧ name.toList ≠ ['.'] ∧ name.toList ≠ ['.', '.'] := by
  have long := plain.long
  refine ⟨?_, ?_, ?_⟩ <;> intro special <;> rw [special] at long <;> exact absurd long (by decide)

theorem IsPlainName.follow_eq (plain : IsPlainName name) (names : List String) :
    follow names name.toList = names ++ [name] := by
  rw [follow, if_neg plain.ne_special.2.2, String.ofList_toList]

/-- A step down leads to what stands under the name. -/
theorem step_eq_ok_iff (plain : IsPlainName name) :
    fs.step place name.toList = .ok found ↔
      (∃ fault, place.entry = .directory fault) ∧ name.utf8ByteSize ≤ 255
        ∧ fs.entries.lookup (place.names ++ [name]) = some found.entry
        ∧ found.names = place.names ++ [name] := by
  obtain ⟨notEmpty, notDot, -⟩ := plain.ne_special
  obtain ⟨names, ⟨content, fault⟩ | fault⟩ := place
  · simp [step]
  · have special : ¬(name.toList = [] ∨ name.toList = ['.']) := not_or.mpr ⟨notEmpty, notDot⟩
    simp only [step, if_neg special, String.ofList_toList, plain.follow_eq]
    by_cases long : 255 < name.utf8ByteSize
    · simp [long, Nat.not_le.mpr long]
    · rw [if_neg long, placeAt_eq_ok_iff, entry?_of_ne_nil (by simp)]
      simp [Nat.le_of_not_lt long, and_comm]

/-- A plain name leads to what stands under it in the working directory. -/
theorem locate_of_lookup {entry : FileEntry} {fault : Option IoError} (plain : IsPlainName name)
    (noNul : Char.ofNat 0 ∉ name.toList) (short : name.utf8ByteSize ≤ 255)
    (isDir : fs.entry? fs.working = some (.directory fault))
    (under : fs.entries.lookup (fs.working ++ [name]) = some entry) :
    fs.locate ⟨name⟩ = .ok ⟨fs.working ++ [name], entry⟩ := by
  have nonempty : name ≠ "" := fun empty => plain.ne_special.1 (String.toList_eq_nil_iff.mpr empty)
  have relative : FilePath.isAbsolute ⟨name⟩ = false := by
    rw [Bool.eq_false_iff, FilePath.isAbsolute, Ne, String.startsWith_string_iff]
    exact fun isPrefix => plain.noSlash (isPrefix.subset (by simp))
  have start : fs.walk ⟨name⟩ [] = .ok ⟨fs.working, .directory fault⟩ := by
    have fromHere : fs.origin ⟨name⟩ = fs.working := by rw [origin, relative]; rfl
    rw [walk, fromHere]
    exact bind_eq_ok_iff.mpr ⟨_, placeAt_eq_ok_iff.mpr ⟨rfl, isDir⟩, rfl⟩
  refine locate_eq_ok_iff.mpr ⟨⟨noNul, nonempty, Nat.lt_of_le_of_lt short (by decide)⟩, ?_⟩
  have stepped : fs.step ⟨fs.working, .directory fault⟩ name.toList
      = .ok ⟨fs.working ++ [name], entry⟩ :=
    (step_eq_ok_iff plain).mpr ⟨⟨fault, rfl⟩, short, under, rfl⟩
  rw [FilePath.splitSlashes_of_not_mem plain.noSlash, ← List.nil_append [_], walk_concat_eq_ok_iff]
  exact ⟨_, start, stepped⟩

theorem mem_of_lookup_eq_some {entry : FileEntry}
    (under : fs.entries.lookup names = some entry) : (names, entry) ∈ fs.entries := by
  obtain ⟨front, back, entries, -⟩ := List.lookup_eq_some_iff.mp under
  rw [entries]
  exact List.mem_append_right front List.mem_cons_self

/-! ### What stands where paths lead -/

theorem read_eq_ok_iff {content : Bytes} :
    fs.read p = .ok content ↔ ∃ names, fs.locate p = .ok ⟨names, .file content⟩ := by
  unfold read
  rcases fs.locate p with e | ⟨names, ⟨content', _ | fault⟩ | fault⟩ <;> simp

theorem isFile_iff :
    fs.isFile p = true ↔ ∃ names content fault, fs.locate p = .ok ⟨names, .file content fault⟩ := by
  unfold isFile
  rcases fs.locate p with e | ⟨names, ⟨content, fault⟩ | fault⟩ <;> simp

/-- The file that a path leads to, if it leads to one: its content, or why that cannot be read. -/
def file? (fs : FileSystem) (p : FilePath) : Option (Except IoError Bytes) :=
  if fs.isFile p then some (fs.read p) else none

theorem file?_eq_some_iff {outcome : Except IoError Bytes} :
    fs.file? p = some outcome ↔ fs.isFile p = true ∧ fs.read p = outcome := by
  unfold file?
  split <;> simp_all

theorem isFile_eq_isSome_file? (fs : FileSystem) (p : FilePath) :
    fs.isFile p = (fs.file? p).isSome := by
  rw [Bool.eq_iff_iff, Option.isSome_iff_exists]
  simp [file?_eq_some_iff]

theorem isDirectory_of_list (listed : fs.list dir = .ok names) : fs.isDirectory dir = true := by
  unfold list at listed
  unfold isDirectory
  split at listed <;> simp_all

theorem childName?_append (names : List String) (name : String) :
    childName? names (names ++ [name]) = some name := by
  simp [childName?]

/-- A file that is found under a plain name below a directory is among the names it holds. -/
theorem mem_of_isFile_join (listed : fs.list dir = .ok names)
    (plain : IsPlainName name) (found : fs.isFile (dir.join name) = true) : name ∈ names := by
  obtain ⟨_, _, _, leads⟩ := isFile_iff.mp found
  unfold list at listed
  rcases isDir : fs.locate dir with e | ⟨way, entry⟩
  · simp [isDir] at listed
  · obtain ⟨-, stepped⟩ := (locate_join_iff isDir plain.noSlash).mp leads
    obtain ⟨⟨fault, rfl⟩, -, under, -⟩ := (step_eq_ok_iff plain).mp stepped
    cases fault with
    | some fault => simp [isDir] at listed
    | none =>
      simp only [isDir] at listed
      obtain rfl := Except.ok.inj listed
      exact List.mem_filterMap.mpr ⟨_, mem_of_lookup_eq_some under, childName?_append way name⟩

/-- What stands under a plain name in a directory is read under its path, if that is not too long. -/
theorem read_join {content : Bytes} {fault : Option IoError}
    (isDir : fs.locate dir = .ok ⟨names, .directory fault⟩) (plain : IsPlainName name)
    (under : fs.entries.lookup (names ++ [name]) = some (.file content))
    (noNul : Char.ofNat 0 ∉ name.toList) (short : name.utf8ByteSize ≤ 255)
    (fits : (dir.join name).text.utf8ByteSize < 4096) : fs.read (dir.join name) = .ok content := by
  have stepped : fs.step ⟨names, .directory fault⟩ name.toList
      = .ok ⟨names ++ [name], .file content⟩ :=
    (step_eq_ok_iff plain).mpr ⟨⟨fault, rfl⟩, short, under, rfl⟩
  exact read_eq_ok_iff.mpr
    ⟨_, (locate_join_iff isDir plain.noSlash).mpr ⟨⟨noNul, fits⟩, stepped⟩⟩

end FileSystem

end PeerTrust
