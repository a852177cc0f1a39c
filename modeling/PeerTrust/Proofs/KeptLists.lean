import PeerTrust.Proofs.ArmouredText
import PeerTrust.Proofs.Directories
import PeerTrust.Proofs.Elements
import PeerTrust.Proofs.HashedNames
import PeerTrust.Revocation.Store

/-!
# Where lists are kept

Revocation lists may be kept one after the other in a file of armoured text, or one by one in a
directory, where each stands in the file that is named by the hash of its issuer and counted among
those of the same hash.

## Main definitions

* `RevocationList.Encoded` — a list and the octets that it is read from
* `RevocationList.HoldsArmoured` — a file that holds lists in some order
* `RevocationList.HoldsHashed`, `RevocationList.filedUnder` — a directory that holds lists, and those
  under one hash

## Main results

* `RevocationList.HoldsArmoured.load_eq` — all lists of the file are loaded
* `RevocationList.HoldsHashed.load_hashedPath`, `RevocationList.HoldsHashed.isFile_hashedPath_eq_false`
  — the files under a hash hold its lists in order, and end with them
* `RevocationList.holdsArmoured_armouredFile`, `RevocationList.holdsHashed_directory` — any lists can
  be kept in either way
-/

namespace PeerTrust

namespace RevocationList

/-! ### Encoded lists -/

/-- A list and the octets that it is read from. -/
structure Encoded where
  der : Bytes
  list : RevocationList
  reads : ofDer der = .ok list

/-- The hash under which the list is filed. -/
def Encoded.hash (e : Encoded) : UInt32 := e.list.issuer.hash

theorem ofDer?_of_ofDer {bs : Bytes} {list : RevocationList} (isList : ofDer bs = .ok list) :
    ofDer? bs = some list := by
  unfold ofDer at isList
  split at isList
  case h_1 other found => rw [found, Except.ok.inj isList]
  case h_2 => cases isList

/-- Octets that are read as a list are not taken for armoured text. -/
theorem isArmoured_eq_false {bs : Bytes} {list : RevocationList} (isList : ofDer bs = .ok list) :
    isArmoured bs = false := by
  obtain ⟨⟨e, rest⟩, isSequence, -⟩ := Option.bind_eq_some_iff.mp (ofDer?_of_ofDer isList)
  obtain ⟨first, body, rfl, tag⟩ := Der.Element.exists_first_of_readNumbered? isSequence
  -- No first octet of a sequence is white space, or a dash.
  have notSpace : isLeadingSpace first = false := by
    rw [Bool.eq_false_iff]
    intro space
    simp only [isLeadingSpace, Bool.or_eq_true, decide_eq_true_eq] at space
    rcases space with (((rfl | rfl) | rfl) | rfl) | rfl <;> revert tag <;> decide
  have notDash : first ≠ 0x2d := by
    rintro rfl
    revert tag
    decide
  rw [isArmoured, List.dropWhile_cons_of_neg (by simp [notSpace]), Bool.eq_false_iff]
  intro isPrefix
  obtain ⟨more, same⟩ := List.isPrefixOf_iff_prefix.mp isPrefix
  exact notDash (List.cons.inj same).1.symm

theorem Encoded.parseAll_eq (e : Encoded) : parseAll e.der = .ok [e.list] := by
  rw [parseAll, isArmoured_eq_false e.reads, e.reads]
  rfl

/-! ### Files of armoured text -/

/-- A file of armoured text holds these lists in this order. -/
def HoldsArmoured (fs : FileSystem) (path : FilePath) (es : List Encoded) : Prop :=
  ∃ text, fs.read path = .ok text ∧ isArmoured text = true
    ∧ Pem.sections text = (es.map fun e => ⟨.crl, e.der⟩, none)

theorem ofSections_eq (es : List Encoded) :
    ofSections (es.map fun e => ⟨.crl, e.der⟩) none = .ok (es.map (·.list)) := by
  induction es with
  | nil => rfl
  | cons e es ih =>
    rw [List.map_cons, ofSections, if_pos rfl, e.reads, ih]
    rfl

theorem HoldsArmoured.load_eq {fs : FileSystem} {path : FilePath} {es : List Encoded}
    (holds : HoldsArmoured fs path es) (nonempty : es ≠ []) :
    load fs path = .ok (es.map (·.list)) := by
  obtain ⟨text, readable, armoured, sections⟩ := holds
  have parsed : parseAll text = .ok (es.map (·.list)) := by
    obtain ⟨e, rest, rfl⟩ := List.exists_cons_of_ne_nil nonempty
    rw [parseAll, armoured, sections, if_pos rfl]
    dsimp only
    rw [ofSections_eq]
    rfl
  rw [load, readable]
  dsimp only
  rw [parsed]
  rfl

/-! ### Hashed directories -/

/-- The name of the file for a list that comes after these. -/
def fileName (earlier : List Encoded) (e : Encoded) : String :=
  hashedFileName e.hash (UInt32.ofNat (earlier.countP (·.hash = e.hash)))

/-- A directory holds these lists, each in the file named by the hash of its issuer and the number of
lists of the same hash that come before it, and nothing else. -/
structure HoldsHashed (fs : FileSystem) (dir : FilePath) (es : List Encoded) : Prop where
  files : ∀ earlier e later, es = earlier ++ e :: later →
    fs.read (dir.join (fileName earlier e)) = .ok e.der
  nothingElse : ∃ names, fs.list dir = .ok names ∧ ∀ name ∈ names,
    ∃ earlier e later, es = earlier ++ e :: later ∧ name = fileName earlier e

/-- The lists that are filed under a hash. -/
def filedUnder (hash : UInt32) (es : List Encoded) : List Encoded := es.filter (·.hash = hash)

theorem isPlainName_hashedFileName (hash index : UInt32) :
    FileSystem.IsPlainName (hashedFileName hash index) where
  noSlash := not_mem_hashedFileName (by decide) (by decide)
  long := by
    rw [toList_hashedFileName, List.length_append, length_hashDigits]
    omega

/-- The name of a file tells the hash of its list, and how many lists under the same hash come before
it. -/
theorem filedUnder_of_fileName_eq {earlier : List Encoded} {e : Encoded} {hash : UInt32}
    {index : Nat} (few : earlier.length < UInt32.size) (fits : index < UInt32.size)
    (same : fileName earlier e = hashedFileName hash (UInt32.ofNat index)) :
    e.hash = hash ∧ (filedUnder hash earlier).length = index := by
  obtain ⟨rfl, sameIndex⟩ := hashedFileName_inj same
  refine ⟨rfl, ?_⟩
  have counted : earlier.countP (·.hash = e.hash) < UInt32.size :=
    Nat.lt_of_le_of_lt List.countP_le_length few
  have numbers := congrArg UInt32.toNat sameIndex
  rwa [UInt32.toNat_ofNat_of_lt' counted, UInt32.toNat_ofNat_of_lt' fits,
    List.countP_eq_length_filter] at numbers

namespace HoldsHashed

variable {fs : FileSystem} {dir : FilePath} {es done todo : List Encoded} {e : Encoded}
  {hash : UInt32}

/-- The file of each index under a hash holds the list that has this place among them. -/
theorem read_hashedPath (holds : HoldsHashed fs dir es)
    (filed : filedUnder hash es = done ++ e :: todo) :
    fs.read (CrlSource.hashedPath dir hash done.length) = .ok e.der := by
  obtain ⟨front, more, rfl, rfl, next⟩ := List.filter_eq_append_iff.mp filed
  obtain ⟨others, later, rfl, isOther, isHash, -⟩ := List.filter_eq_cons_iff.mp next
  obtain rfl : e.hash = hash := of_decide_eq_true isHash
  have file := holds.files (front ++ others) e later (by rw [List.append_assoc])
  have none : others.countP (·.hash = e.hash) = 0 := List.countP_eq_zero.mpr isOther
  rwa [fileName, List.countP_append, none, Nat.add_zero, List.countP_eq_length_filter] at file

/-- The files under a hash end where all lists of this hash are filed. -/
theorem isFile_hashedPath_eq_false (holds : HoldsHashed fs dir es)
    (few : es.length < UInt32.size) :
    fs.isFile (CrlSource.hashedPath dir hash (filedUnder hash es).length) = false := by
  rw [Bool.eq_false_iff]
  intro isFile
  obtain ⟨names, listed, known⟩ := holds.nothingElse
  have mem := FileSystem.mem_of_isFile_join listed (isPlainName_hashedFileName _ _) isFile
  obtain ⟨earlier, e, later, rfl, name⟩ := known _ mem
  rw [List.length_append] at few
  -- The last place is taken by no list, for that list would be one more.
  have fits : (filedUnder hash (earlier ++ e :: later)).length < UInt32.size :=
    Nat.lt_of_le_of_lt (List.length_filter_le _ _) (by rwa [List.length_append])
  obtain ⟨rfl, place⟩ := filedUnder_of_fileName_eq (by omega) fits name.symm
  rw [filedUnder, filedUnder, List.filter_append, List.length_append,
    List.filter_cons_of_pos (by simp)] at place
  simp at place

theorem isFile_hashedPath (holds : HoldsHashed fs dir es) {index : Nat}
    (filed : index < (filedUnder hash es).length) :
    fs.isFile (CrlSource.hashedPath dir hash index) = true := by
  have split := List.take_append_drop index (filedUnder hash es)
  rw [List.drop_eq_getElem_cons filed] at split
  have file := holds.read_hashedPath split.symm
  rw [List.length_take_of_le (Nat.le_of_lt filed)] at file
  exact FileSystem.isFile_of_read file

theorem load_hashedPath (holds : HoldsHashed fs dir es)
    (filed : filedUnder hash es = done ++ e :: todo) :
    load fs (CrlSource.hashedPath dir hash done.length) = .ok [e.list] := by
  rw [load, holds.read_hashedPath filed]
  dsimp only
  rw [e.parseAll_eq]
  rfl

theorem isDirectory (holds : HoldsHashed fs dir es) : fs.isDirectory dir = true := by
  obtain ⟨names, listed, -⟩ := holds.nothingElse
  exact FileSystem.isDirectory_of_list listed

end HoldsHashed

/-! ### Any lists can be kept -/

theorem locate_lists {fs : FileSystem} {entry : FileEntry} (atRoot : fs.working = [])
    (under : fs.entries.lookup ["lists"] = some entry) :
    fs.locate ⟨"lists"⟩ = .ok ⟨["lists"], entry⟩ := by
  obtain ⟨working, entries⟩ := fs
  obtain rfl : working = [] := atRoot
  exact FileSystem.locate_of_lookup ⟨by decide, by decide⟩ (by decide) (by decide +kernel) rfl under

/-- Nothing but a file with these lists, one after the other. -/
def armouredFile (es : List Encoded) : FileSystem :=
  ⟨[], [(["lists"], .file ((es.map (·.der)).flatMap (Pem.armour .crl)))]⟩

/-- Any lists can be kept in a file of armoured text. -/
theorem holdsArmoured_armouredFile {es : List Encoded} (nonempty : es ≠ []) :
    HoldsArmoured (armouredFile es) ⟨"lists"⟩ es := by
  refine ⟨_, FileSystem.read_eq_ok_iff.mpr ⟨_, locate_lists rfl rfl⟩, ?_, ?_⟩
  · obtain ⟨e, rest, rfl⟩ := List.exists_cons_of_ne_nil nonempty
    rfl
  · rw [Pem.sections_flatMap_armour, List.map_map]
    rfl

/-- The files in a directory of this name for lists that come after others. -/
def filesIn (dir : String) : (earlier es : List Encoded) → List (List String × FileEntry)
  | _, [] => []
  | earlier, e :: es =>
    ([dir, fileName earlier e], .file e.der) :: filesIn dir (earlier ++ [e]) es

/-- Nothing but a directory with the files for these lists. -/
def directory (es : List Encoded) : FileSystem :=
  ⟨[], (["lists"], .directory) :: filesIn "lists" [] es⟩

/-- No two lists share a file. -/
theorem fileName_ne {earlier between : List Encoded} {first later : Encoded}
    (few : (earlier ++ first :: between).length < UInt32.size) :
    fileName earlier first ≠ fileName (earlier ++ first :: between) later := by
  intro same
  rw [List.length_append, List.length_cons] at few
  have counted : (earlier ++ first :: between).countP (·.hash = later.hash) < UInt32.size :=
    Nat.lt_of_le_of_lt List.countP_le_length (by rwa [List.length_append, List.length_cons])
  obtain ⟨sameHash, place⟩ := filedUnder_of_fileName_eq (by omega) counted same
  rw [filedUnder, ← List.countP_eq_length_filter, List.countP_append,
    List.countP_cons_of_pos (by simpa using sameHash)] at place
  omega

theorem lookup_filesIn {dir : String} {earlier before later : List Encoded} {e : Encoded}
    (few : (earlier ++ before).length < UInt32.size) :
    (filesIn dir earlier (before ++ e :: later)).lookup [dir, fileName (earlier ++ before) e]
      = some (.file e.der) := by
  induction before generalizing earlier with
  | nil => simp [filesIn]
  | cons first before ih =>
    have other : [dir, fileName (earlier ++ first :: before) e] ≠ [dir, fileName earlier first] := by
      intro same
      exact fileName_ne few (by simpa using same.symm)
    have moved : earlier ++ first :: before = earlier ++ [first] ++ before := by simp
    rw [List.cons_append, filesIn, List.lookup_cons, beq_eq_false_iff_ne.mpr other, moved]
    exact ih (moved ▸ few)

theorem exists_of_mem_filesIn {dir : String} {earlier es : List Encoded}
    {entry : List String × FileEntry} (mem : entry ∈ filesIn dir earlier es) :
    ∃ before e later, es = before ++ e :: later
      ∧ entry = ([dir, fileName (earlier ++ before) e], .file e.der) := by
  induction es generalizing earlier with
  | nil => cases mem
  | cons e es ih =>
    rcases List.mem_cons.mp mem with rfl | mem
    · exact ⟨[], e, es, rfl, by rw [List.append_nil]⟩
    · obtain ⟨before, other, later, rfl, rfl⟩ := ih mem
      exact ⟨e :: before, other, later, rfl, by simp⟩

theorem read_directory {before later : List Encoded} {e : Encoded}
    (few : before.length < UInt32.size) :
    (directory (before ++ e :: later)).read (FilePath.join ⟨"lists"⟩ (fileName before e))
      = .ok e.der := by
  have under : (directory (before ++ e :: later)).entries.lookup (["lists"] ++ [fileName before e])
      = some (.file e.der) := by
    have filed : (filesIn "lists" [] (before ++ e :: later)).lookup
        ["lists", fileName ([] ++ before) e] = some (.file e.der) :=
      lookup_filesIn (by rwa [List.nil_append])
    have notDir : (["lists"] ++ [fileName before e] == ["lists"]) = false :=
      beq_eq_false_iff_ne.mpr (by simp)
    rw [directory, List.lookup_cons, notDir]
    exact filed
  have noNul : Char.ofNat 0 ∉ (fileName before e).toList :=
    not_mem_hashedFileName (by decide) (by decide)
  -- The name is short, and so is the path.
  have short := utf8ByteSize_le (fileName before e)
  have fits := utf8ByteSize_le (FilePath.join ⟨"lists"⟩ (fileName before e)).text
  have length : (fileName before e).toList.length ≤ 20 := length_hashedFileName_le _ _
  obtain ⟨slash, isSlash, chars⟩ := FilePath.toList_join ⟨"lists"⟩ (fileName before e)
  have slashLength : slash.length ≤ 1 := by
    rcases isSlash with rfl | rfl <;> decide
  have dirLength : "lists".toList.length = 5 := by decide
  rw [chars, List.length_append, List.length_append, dirLength] at fits
  exact FileSystem.read_join (locate_lists rfl rfl) (isPlainName_hashedFileName _ _) under noNul
    (by omega) (by omega)

/-- Any lists can be kept in a hashed directory, if they are not too many to be counted. -/
theorem holdsHashed_directory {es : List Encoded} (few : es.length < UInt32.size) :
    HoldsHashed (directory es) ⟨"lists"⟩ es := by
  constructor
  · rintro earlier e later rfl
    rw [List.length_append] at few
    exact read_directory (by omega)
  · refine ⟨_, by rw [FileSystem.list, locate_lists rfl rfl], fun name mem => ?_⟩
    obtain ⟨entry, isEntry, child⟩ := List.mem_filterMap.mp mem
    rcases List.mem_cons.mp isEntry with rfl | isFile
    · exact nomatch child
    · obtain ⟨earlier, e, later, rfl, rfl⟩ := exists_of_mem_filesIn isFile
      have name_eq := (FileSystem.childName?_append ["lists"] _).symm.trans child
      exact ⟨earlier, e, later, rfl, (Option.some.inj name_eq).symm⟩

end RevocationList

end PeerTrust
