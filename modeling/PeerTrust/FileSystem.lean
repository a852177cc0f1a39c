import PeerTrust.Error

/-!
# Files and directories

A tree of files and directories with a working directory in it, kept as a list of entries named by
the words on the way to them from the root. Absolute paths start from the root, all others from the
working directory. A file may refuse to be read and a directory to be listed, each with a reason of
its own. A symbolic link counts as what it leads to.

## Main definitions

* `FileSystem` — the entries and the working directory
* `FileSystem.locate` — what a path leads to
* `FileSystem.read`, `FileSystem.isFile`, `FileSystem.isDirectory`, `FileSystem.list` — its views
* `FileSystem.write`, `FileSystem.makeDirectory`, `FileSystem.remove` — changes

## Main results

* `FileSystem.isFile_of_read` — what can be read is a file
-/

namespace PeerTrust

/-- What stands under a name. -/
inductive FileEntry
  /-- A regular file, and why its content cannot be read, if it cannot. -/
  | file (content : Bytes) (fault : Option IoError := none)
  /-- A directory, and why it cannot be listed, if it cannot. -/
  | directory (fault : Option IoError := none)
  deriving DecidableEq, Repr

/-- Files and directories. -/
structure FileSystem where
  /-- The names on the way from the root to the working directory. -/
  working : List String
  /-- What stands where, by the names on the way to it from the root. -/
  entries : List (List String × FileEntry)
  deriving DecidableEq, Repr

namespace FileSystem

/-- Nothing but a working directory. -/
def empty : FileSystem := ⟨["work"], [(["work"], .directory)]⟩

/-- Where a walk along a path stands. -/
structure Place where
  names : List String
  entry : FileEntry
  deriving DecidableEq, Repr

/-- What stands at the end of these names. There is always a root. -/
def entry? (fs : FileSystem) (names : List String) : Option FileEntry :=
  if names = [] then some .directory else fs.entries.lookup names

/-- The place at the end of these names. -/
def placeAt (fs : FileSystem) (names : List String) : Except IoError Place :=
  match fs.entry? names with
  | some entry => .ok ⟨names, entry⟩
  | none => .error .notFound

/-- The names after one more word: two dots lead back, and at the root nowhere. -/
def follow (names : List String) (word : List Char) : List String :=
  if word = ['.', '.'] then names.dropLast else names ++ [String.ofList word]

/-- One step of a walk: a word between separators. -/
def step (fs : FileSystem) (place : Place) (word : List Char) : Except IoError Place :=
  match place.entry with
  | .file .. => .error .notADirectory
  | .directory _ =>
    if word = [] ∨ word = ['.'] then .ok place
    else if 255 < (String.ofList word).utf8ByteSize then .error .nameTooLong
    else fs.placeAt (follow place.names word)

/-- The names from which a walk along a path sets out. -/
def origin (fs : FileSystem) (p : FilePath) : List String := if p.isAbsolute then [] else fs.working

/-- What a path leads to. -/
def locate (fs : FileSystem) (p : FilePath) : Except IoError Place :=
  if p.text.toList.contains (Char.ofNat 0) then .error .embeddedNul
  else if p.text = "" then .error .notFound
  else if 4096 ≤ p.text.utf8ByteSize then .error .nameTooLong
  else do
    let start ← fs.placeAt (fs.origin p)
    (FilePath.splitSlashes [] p.text.toList).foldlM fs.step start

/-- The content of a file. -/
def read (fs : FileSystem) (p : FilePath) : Except IoError Bytes :=
  match fs.locate p with
  | .error e => .error e
  | .ok ⟨_, .file content none⟩ => .ok content
  | .ok ⟨_, .file _ (some fault)⟩ => .error fault
  | .ok ⟨_, .directory fault⟩ => .error (fault.getD .isADirectory)

/-- Whether a path leads to a file. -/
def isFile (fs : FileSystem) (p : FilePath) : Bool :=
  match fs.locate p with
  | .ok ⟨_, .file ..⟩ => true
  | _ => false

/-- Whether a path leads to a directory. -/
def isDirectory (fs : FileSystem) (p : FilePath) : Bool :=
  match fs.locate p with
  | .ok ⟨_, .directory _⟩ => true
  | _ => false

theorem isFile_of_read {fs : FileSystem} {p : FilePath} {content : Bytes}
    (readable : fs.read p = .ok content) : fs.isFile p = true := by
  unfold read at readable
  unfold isFile
  split at readable <;> simp_all

/-- The name of an entry directly below a directory. -/
def childName? (names entry : List String) : Option String :=
  match entry.getLast? with
  | some name => if entry.dropLast = names then some name else none
  | none => none

/-- The names in a directory. -/
def list (fs : FileSystem) (p : FilePath) : Except IoError (List String) :=
  match fs.locate p with
  | .error e => .error e
  | .ok ⟨_, .file ..⟩ => .error .notADirectory
  | .ok ⟨_, .directory (some fault)⟩ => .error fault
  | .ok ⟨names, .directory none⟩ => .ok (fs.entries.filterMap fun e => childName? names e.1)

/-- The names on the way from the root to where a path is written to; `.` and empty words do not
count. -/
def way (fs : FileSystem) (p : FilePath) : List String :=
  ((FilePath.splitSlashes [] p.text.toList).filter fun w => w ≠ [] && w ≠ ['.']).foldl follow
    (fs.origin p)

/-- The entry placed under a name, in place of what stood there. -/
def put (fs : FileSystem) (names : List String) (entry : FileEntry) : FileSystem :=
  match fs.entries.lookup names with
  | some _ => { fs with entries := fs.entries.map fun e => if e.1 = names then (names, entry) else e }
  | none => { fs with entries := fs.entries ++ [(names, entry)] }

/-- The directory at the end of these names and those on the way to it, created where missing. -/
def putDirectories (fs : FileSystem) (names : List String) : FileSystem :=
  ((List.range names.length).map fun i => names.take (i + 1)).foldl
    (fun fs way => if (fs.entries.lookup way).isSome then fs else fs.put way .directory) fs

/-- A directory created, with those on the way to it. -/
def makeDirectory (fs : FileSystem) (p : FilePath) : FileSystem := fs.putDirectories (fs.way p)

/-- A file written, with the directories on the way to it. -/
def write (fs : FileSystem) (p : FilePath) (content : Bytes) : FileSystem :=
  let names := fs.way p
  (fs.putDirectories names.dropLast).put names (.file content)

/-- A file, or a directory with all it holds, removed. -/
def remove (fs : FileSystem) (p : FilePath) : FileSystem :=
  { fs with entries := fs.entries.filter fun e => !(fs.way p).isPrefixOf e.1 }

end FileSystem

end PeerTrust
