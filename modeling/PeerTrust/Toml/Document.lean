import PeerTrust.Toml.Scalar

/-!
# TOML documents

A document is a sequence of lines: keys with values, headers that open tables, comments and blanks.

## Main definitions

* `Toml.value` — a value nested at most so deep
* `Toml.Line`, `Toml.line` — what a line holds
* `Toml.parse?` — the root table of a document
-/

namespace PeerTrust.Toml

open Reader

/-- How deep values may nest, and how many parts a key may have. -/
def depthLimit : Nat := 80

/-- A character of a key without quotes. -/
def isBareKey (c : Char) : Bool :=
  c.isAlphanum || c = '-' || c = '_'

/-- A part of a key. -/
def keyPart : Reader String :=
  basicString <|> literalString <|> (String.ofList <$> some1 (satisfy isBareKey))

/-- A key: parts with dots between them. -/
def key : Reader (List String) := do
  let parts ← separated1 (char '.') do
    blanks
    let part ← keyPart
    blanks
    return part
  require (parts.length < depthLimit)
  return parts

/-- Blanks, line ends and comments between the items of an array. -/
def spacing : Reader Unit := do
  let _ ← many ((do let _ ← satisfy isBlank) <|> newline <|> (do comment; newline))

/-- An array of values. -/
def array (value : Reader Value) : Reader Value := do
  char '['
  let items ← separated (char ',') do
    spacing
    let item ← value
    spacing
    return item
  -- A comma alone is no item.
  unless items.isEmpty do
    let _ ← optional? (char ',')
  spacing
  char ']'
  return .array items

/-- A table between braces. -/
def inlineTable (value : Reader Value) : Reader Value := do
  char (Char.ofNat 0x7B)
  let pairs ← separated (char ',') do
    let parts ← key
    char '='
    blanks
    let item ← value
    blanks
    return (parts, item)
  blanks
  char (Char.ofNat 0x7D)
  match pairs.foldlM (fun entries (parts, item) => add item parts entries) [] with
  | some entries => return .table .inline entries
  | none => failure

/-- A value in which arrays and tables nest less than `depth` deep. -/
def value : (depth : Nat) → Reader Value
  | 0 => scalar
  | depth + 1 => scalar <|> array (value depth) <|> inlineTable (value depth)

/-- What a line holds. -/
inductive Line
  | nothing
  | entry (keys : List String) (value : Value)
  | header (keys : List String)
  | element (keys : List String)

/-- The rest of a line: blanks, perhaps a comment, and the end of the line or of the text. -/
def lineRest : Reader Unit := do
  blanks
  let _ ← optional? comment
  newline <|> endOfText

/-- A line that holds something. -/
def content : Reader Line :=
  (do
    literal ['[', '[']
    let keys ← key
    literal [']', ']']
    return .element keys)
  <|> (do
    char '['
    let keys ← key
    char ']'
    return .header keys)
  <|> (do
    let keys ← key
    char '='
    blanks
    return .entry keys (← value (depthLimit - 1)))

/-- A line. -/
def line : Reader Line := do
  blanks
  let held ← content <|> pure .nothing
  lineRest
  return held

/-- The lines under one header: its keys, whether it is a repeated one, and the entries. -/
structure Block where
  keys : List String
  isElement : Bool
  entries : List (List String × Value)

/-- The entries before the first header, and the blocks after it. -/
def blocks : List Line → List (List String × Value) × List Block
  | [] => ([], [])
  | l :: lines =>
    let (entries, more) := blocks lines
    match l with
    | .nothing => (entries, more)
    | .entry keys value => ((keys, value) :: entries, more)
    | .header keys => ([], ⟨keys, false, entries⟩ :: more)
    | .element keys => ([], ⟨keys, true, entries⟩ :: more)

/-- Entries added to a table in order. -/
def fill (added : List (List String × Value)) (entries : Entries) : Option Entries :=
  added.foldlM (fun entries (keys, value) => add value keys entries) entries

/-- A block put into the root table. -/
def addBlock (root : Entries) (b : Block) : Option Entries :=
  match b.keys.getLast? with
  | none => none
  | some key =>
    let opening := if b.isElement then openElement else openTable
    within (opening (fill b.entries) key) b.keys.dropLast root

/-- The root table of a document. A byte order mark in front is passed over. -/
def parse? (text : List Char) : Option Entries := do
  let text := if text.head? = some (Char.ofNat 0xFEFF) then text.drop 1 else text
  let lines ← run? (many line) text
  let (first, more) := blocks lines
  let root ← fill first []
  more.foldlM addBlock root

end PeerTrust.Toml
