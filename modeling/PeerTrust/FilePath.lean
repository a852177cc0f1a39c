import PeerTrust.Bytes

/-!
# File paths

A path keeps its spelling and is compared by its components: repeated and trailing slashes and
inner or trailing `.` do not count, while a leading `.`, `..`, case and a leading slash do.

## Main definitions

* `FilePath` — a path as it was spelled
* `FilePath.components` — what a path means
* `FilePath.same` — equality of paths
-/

namespace PeerTrust

/-- A path as it was spelled. -/
structure FilePath where
  text : String
  deriving DecidableEq, Repr

namespace FilePath

/-- A component of a path. -/
inductive Component
  | root
  | current
  | parent
  | entry (name : String)
  deriving DecidableEq, Repr

/-- The characters between separators. -/
def splitSlashes : (word : List Char) → List Char → List (List Char)
  | word, [] => [word.reverse]
  | word, c :: cs => if c = '/' then word.reverse :: splitSlashes [] cs else splitSlashes (c :: word) cs

/-- The components that words between separators name; empty words and `.` name none. -/
def ofWords (words : List (List Char)) : List Component :=
  words.filterMap fun w =>
    if w = [] ∨ w = ['.'] then none
    else if w = ['.', '.'] then some .parent
    else some (.entry (String.ofList w))

/-- The components of a path. Only a leading `.` is one of them. -/
def components (p : FilePath) : List Component :=
  let words := splitSlashes [] p.text.toList
  match words with
  | [] :: _ :: _ => .root :: ofWords words
  | ['.'] :: _ => .current :: ofWords words
  | _ => ofWords words

/-- Whether two paths have the same components. -/
def same (p q : FilePath) : Bool := p.components = q.components

theorem same_iff {p q : FilePath} : same p q = true ↔ p.components = q.components := by
  simp [same]

/-- Whether two optional paths are both absent or both present and the same. -/
def sameOption : Option FilePath → Option FilePath → Bool
  | none, none => true
  | some p, some q => same p q
  | _, _ => false

theorem sameOption_iff {p q : Option FilePath} :
    sameOption p q = true ↔ p.map components = q.map components := by
  cases p <;> cases q <;> simp [sameOption, same]

/-- The path of an entry of a directory. -/
def join (dir : FilePath) (name : String) : FilePath :=
  if dir.text = "" ∨ dir.text.endsWith "/" then ⟨dir.text ++ name⟩ else ⟨dir.text ++ "/" ++ name⟩

/-- A path is absolute when it starts at the root. -/
def isAbsolute (p : FilePath) : Bool := p.text.startsWith "/"

end FilePath

end PeerTrust
