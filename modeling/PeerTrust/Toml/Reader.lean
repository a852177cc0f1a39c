/-!
# Readers of text

A reader takes characters from the front of a text and gives a value, or refuses.

## Main definitions

* `Toml.Reader` — readers
* `Toml.Reader.run?` — what a reader makes of a whole text
* `Toml.Reader.many`, `Toml.Reader.separated` — repetition
-/

namespace PeerTrust.Toml

/-- A reader: a value and the characters left, or a refusal. -/
abbrev Reader := StateT (List Char) Option

namespace Reader

variable {α β : Type}

/-- What a reader makes of a whole text. -/
def run? (r : Reader α) (cs : List Char) : Option α :=
  match r cs with
  | some (a, []) => some a
  | _ => none

/-- The next character, if it is of the class. -/
def satisfy (p : Char → Bool) : Reader Char
  | [] => none
  | c :: cs => if p c then some (c, cs) else none

/-- The next character, if it is this one. -/
def char (c : Char) : Reader Unit := do
  let _ ← satisfy (· = c)

/-- These characters, one after the other. -/
def literal : List Char → Reader Unit
  | [] => pure ()
  | c :: cs => do
    char c
    literal cs

/-- All characters of the class at the front. -/
def takeWhile (p : Char → Bool) : Reader (List Char) :=
  fun cs => some (cs.takeWhile p, cs.dropWhile p)

/-- What the reader gives, or nothing read. -/
def optional? (r : Reader α) : Reader (Option α) := fun cs =>
  match r cs with
  | some (a, rest) => some (some a, rest)
  | none => some (none, cs)

/-- Whether the reader would give something here. Nothing is read. -/
def ahead (r : Reader α) : Reader Bool := fun cs => some ((r cs).isSome, cs)

/-- Refuses unless the condition holds. -/
def require (p : Bool) : Reader Unit := if p then pure () else failure

/-- Refuses unless nothing is left. -/
def endOfText : Reader Unit := fun cs => if cs = [] then some ((), cs) else none

/-- What a reader gives again and again, each time taking at least one character. -/
def manyFrom (r : Reader α) (cs : List Char) : List α × List Char :=
  match r cs with
  | none => ([], cs)
  | some (a, rest) =>
    if rest.length < cs.length then
      let more := manyFrom r rest
      (a :: more.1, more.2)
    else ([], cs)
termination_by cs.length

/-- What a reader gives again and again. -/
def many (r : Reader α) : Reader (List α) := fun cs => some (manyFrom r cs)

/-- What a reader gives once and then again and again. -/
def some1 (r : Reader α) : Reader (List α) := do
  return (← r) :: (← many r)

/-- What a reader gives, with separators between. -/
def separated1 (separator : Reader β) (r : Reader α) : Reader (List α) := do
  let first ← r
  let rest ← many do
    let _ ← separator
    r
  return first :: rest

/-- What a reader gives, with separators between, or nothing read. -/
def separated (separator : Reader β) (r : Reader α) : Reader (List α) := do
  return (← optional? (separated1 separator r)).getD []

end Reader

end PeerTrust.Toml
