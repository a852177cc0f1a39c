import PeerTrust.Bytes

/-!
# Server names

A peer is known by the octets of an address or by a host name of labels.

## Main definitions

* `ServerName` — an address or a host name
* `HostName.isValid` — whether a text is a host name
* `Address.ofV4?`, `Address.ofV6?` — addresses by their text
* `ServerName.ofText?` — the name that a text denotes
-/

namespace PeerTrust

/-- What a peer is known by. -/
inductive ServerName
  /-- Four or sixteen octets. -/
  | address (octets : Bytes)
  | host (text : String)
  deriving DecidableEq, Repr

/-- The items between separators. -/
def splitAt {α : Type} [DecidableEq α] (separator : α) : List α → List (List α)
  | [] => [[]]
  | x :: xs =>
    if x = separator then [] :: splitAt separator xs
    else match splitAt separator xs with
      | [] => [[x]]
      | first :: rest => (x :: first) :: rest

namespace HostName

/-- A decimal digit. -/
def isDigit (b : UInt8) : Bool := 0x30 ≤ b && b ≤ 0x39

/-- A character of a label that may stand anywhere in it. -/
def isInner (b : UInt8) : Bool :=
  isDigit b || (0x61 ≤ b && b ≤ 0x7A) || (0x41 ≤ b && b ≤ 0x5A) || b = 0x5F

/-- A label has 1 to 63 characters; hyphens stand neither first nor last. -/
def isLabel (label : Bytes) : Bool :=
  label ≠ [] && label.length ≤ 63 && label.all (fun b => isInner b || b = 0x2D)
    && label.head? ≠ some 0x2D && label.getLast? ≠ some 0x2D

/-- Whether labels make a host name: the last one is not a number. -/
def areLabels (labels : List Bytes) : Bool :=
  labels.all isLabel && labels.getLast?.any fun last => !last.all isDigit

/-- The labels without the empty one that a final dot leaves. -/
def withoutFinalDot (labels : List Bytes) : List Bytes :=
  if labels.length ≠ 1 ∧ labels.getLast? = some [] then labels.dropLast else labels

/-- Whether a text is a host name: at most 253 bytes of labels with dots between them, and perhaps
a final dot. -/
def isValid (text : Bytes) : Bool :=
  text.length ≤ 253 && areLabels (withoutFinalDot (splitAt 0x2E text))

end HostName

namespace Address

/-- A number of one to three digits below 256, without leading zeros. -/
def decimal? (cs : List Char) : Option UInt8 :=
  let n := cs.foldl (fun n c => 10 * n + (c.toNat - 0x30)) 0
  if cs.all Char.isDigit ∧ 1 ≤ cs.length ∧ cs.length ≤ 3 ∧ n < 256
      ∧ (cs.head? = some '0' → cs.length = 1) then
    some (UInt8.ofNat n)
  else none

/-- The four octets of an address written with dots. -/
def ofV4? (cs : List Char) : Option Bytes := do
  let octets ← (splitAt '.' cs).mapM decimal?
  if octets.length = 4 then some octets else none

/-- The two octets of a group of one to four hexadecimal digits. -/
def group? (cs : List Char) : Option Bytes := do
  let digits ← cs.mapM Bytes.hexDigit?
  let n := digits.foldl (fun n d => 16 * n + d) 0
  if 1 ≤ digits.length ∧ digits.length ≤ 4 then some [UInt8.ofNat (n / 256), UInt8.ofNat n]
  else none

/-- The octets of groups, the last of which may be an address written with dots. -/
def groups? (words : List (List Char)) : Option Bytes :=
  match words.getLast?.bind ofV4? with
  | some last => do return (← words.dropLast.mapM group?).flatten ++ last
  | none => do return (← words.mapM group?).flatten

/-- The words between colons; an empty text has none. -/
def words (cs : List Char) : List (List Char) := if cs = [] then [] else splitAt ':' cs

/-- What stands before and after the first double colon. -/
def splitGap : List Char → Option (List Char × List Char)
  | ':' :: ':' :: rest => some ([], rest)
  | c :: cs => (splitGap cs).map fun (before, rest) => (c :: before, rest)
  | [] => none

/-- The sixteen octets of an address written with colons. A double colon stands for at least two
octets of zero, in multiples of two. -/
def ofV6? (cs : List Char) : Option Bytes :=
  match splitGap cs with
  | none => do
    let octets ← groups? (words cs)
    if octets.length = 16 then some octets else none
  | some (before, rest) => do
    let front ← (← (words before).mapM group?).flatten
    let back ← groups? (words rest)
    -- The double colon must stand for something.
    if front.length + back.length ≤ 14 then
      some (front ++ List.replicate (16 - front.length - back.length) 0 ++ back)
    else none

end Address

namespace ServerName

/-- The name that a text denotes: a host name if it is one, or else an address. -/
def ofText? (text : String) : Option ServerName :=
  if text.toList.all (·.toNat < 0x80) ∧ HostName.isValid (Bytes.ofAscii text) then some (.host text)
  else (Address.ofV4? text.toList <|> Address.ofV6? text.toList).map .address

end ServerName

end PeerTrust
