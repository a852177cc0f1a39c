/-!
# Values of a TOML document

## Main definitions

* `Toml.Value` — values, with how each table came about
* `Toml.Value.entries?`, `Toml.Value.items?` — a value as a table or as a sequence
* `Toml.add` — a key and its value added to a table
* `Toml.openTable`, `Toml.openElement` — the tables that headers open

A table may be extended later only as far as its kind allows: a table under a header once, a table
implied by a header below it, and a table made by dotted keys only by dotted keys.
-/

namespace PeerTrust.Toml

/-- How a table came about. -/
inductive TableKind
  /-- Written between braces; never extended. -/
  | inline
  /-- Under a header of its own. -/
  | header
  /-- On the way to a header. -/
  | implied
  /-- On the way to a key written with dots. -/
  | dotted
  deriving DecidableEq, Repr

/-- A value. Numbers that are no integers, and dates, are kept only as such. -/
inductive Value
  | string (text : String)
  | integer (n : Int)
  | float
  | boolean (b : Bool)
  | date
  | array (items : List Value)
  | table (kind : TableKind) (entries : List (String × Value))
  /-- Tables under repeated headers, the open one last. -/
  | tables (done : List Value) (last : List (String × Value))

/-- The entries of a table. -/
abbrev Entries := List (String × Value)

namespace Value

/-- A value read as a table. A date is a table without any known key. -/
def entries? : Value → Option Entries
  | table _ entries => some entries
  | date => some []
  | _ => none

/-- A value read as a sequence. -/
def items? : Value → Option (List Value)
  | array items => some items
  | tables done last => some (done ++ [table .header last])
  | _ => none

end Value

/-- The entries with the value under a key replaced. -/
def replace (key : String) (value : Value) (entries : Entries) : Entries :=
  entries.map fun e => if e.1 = key then (key, value) else e

/-- A value added under a key, which may be a way through tables made by dotted keys. Refused if the
key is taken, or if a table on the way is not made by dotted keys or is not the one that the way
ends in. -/
def add (value : Value) : (keys : List String) → Entries → Option Entries
  | [], _ => none
  | [key], entries =>
    if (entries.lookup key).isSome then none else some (entries ++ [(key, value)])
  | key :: next :: more, entries =>
    match entries.lookup key with
    | none => do
      return entries ++ [(key, .table .dotted (← add value (next :: more) []))]
    | some (.table .dotted sub) => do
      return replace key (.table .dotted (← add value (next :: more) sub)) entries
    -- An implied table may be passed through, but its own keys belong under its header.
    | some (.table .implied sub) =>
      if more = [] then none
      else do return replace key (.table .implied (← add value (next :: more) sub)) entries
    | some (.tables done last) =>
      if more = [] then none
      else do return replace key (.tables done (← add value (next :: more) last)) entries
    | some _ => none

/-- A change made in the table at the end of a way, whose missing tables are implied. -/
def within (change : Entries → Option Entries) : (way : List String) → Entries → Option Entries
  | [], entries => change entries
  | key :: way, entries =>
    match entries.lookup key with
    | none => do return entries ++ [(key, .table .implied (← within change way []))]
    | some (.table .inline _) => none
    | some (.table kind sub) => do
      return replace key (.table kind (← within change way sub)) entries
    | some (.tables done last) => do
      return replace key (.tables done (← within change way last)) entries
    | some _ => none

/-- A table under a header, filled by `fill`. Its key is free or holds a table that a header below
it implied. -/
def openTable (fill : Entries → Option Entries) (key : String) (entries : Entries) :
    Option Entries :=
  match entries.lookup key with
  | none => do return entries ++ [(key, .table .header (← fill []))]
  | some (.table .implied sub) => do return replace key (.table .header (← fill sub)) entries
  | some _ => none

/-- One more table under a repeated header, filled by `fill`. -/
def openElement (fill : Entries → Option Entries) (key : String) (entries : Entries) :
    Option Entries :=
  match entries.lookup key with
  | none => do return entries ++ [(key, .tables [] (← fill []))]
  | some (.tables done last) => do
    return replace key (.tables (done ++ [.table .header last]) (← fill [])) entries
  | some _ => none

end PeerTrust.Toml
