import PeerTrust.Toml.Reader
import PeerTrust.Toml.Value

/-!
# Strings, numbers and dates of a TOML document

## Main definitions

* `Toml.stringValue` — the four kinds of strings
* `Toml.integer`, `Toml.float`, `Toml.date` — numbers and dates
* `Toml.scalar` — any value that holds no others
-/

namespace PeerTrust.Toml

open Reader

/-- A space or a tab. -/
def isBlank (c : Char) : Bool := c = ' ' || c = '\t'

/-- Blanks. -/
def blanks : Reader Unit := do
  let _ ← takeWhile isBlank

/-- The end of a line. -/
def newline : Reader Unit := char '\n' <|> literal ['\r', '\n']

/-- A character that may stand in comments: a tab, or no control character. -/
def isPrintable (c : Char) : Bool := c = '\t' || (0x20 ≤ c.toNat && c.toNat ≠ 0x7F)

/-- A comment up to the end of its line. -/
def comment : Reader Unit := do
  char '#'
  let _ ← takeWhile isPrintable

/-- The quotation mark. -/
def quote : Char := Char.ofNat 0x22

/-- The apostrophe. -/
def apostrophe : Char := Char.ofNat 0x27

/-- The backslash. -/
def backslash : Char := Char.ofNat 0x5C

/-- A character that stands for itself between quotation marks. -/
def isBasic (c : Char) : Bool := isPrintable c && c ≠ quote && c ≠ backslash

/-- A character that stands for itself between apostrophes. -/
def isLiteral (c : Char) : Bool := isPrintable c && c ≠ apostrophe

/-- The value of a digit in a base up to 16. -/
def digitOf? (base : Nat) (c : Char) : Option Nat :=
  let n := c.toNat
  let value :=
    if 0x30 ≤ n ∧ n ≤ 0x39 then some (n - 0x30)
    else if 0x61 ≤ n ∧ n ≤ 0x66 then some (n - 0x61 + 10)
    else if 0x41 ≤ n ∧ n ≤ 0x46 then some (n - 0x41 + 10)
    else none
  value.filter (· < base)

/-- One digit in a base. -/
def digit (base : Nat) : Reader Nat := fun cs =>
  match cs with
  | [] => none
  | c :: rest => (digitOf? base c).map (·, rest)

/-- The number that digits write in a base. -/
def ofDigits (base : Nat) (digits : List Nat) : Nat := digits.foldl (fun n d => base * n + d) 0

/-- Exactly so many digits in a base. -/
def digits (base : Nat) : (count : Nat) → Reader (List Nat)
  | 0 => pure []
  | count + 1 => do return (← digit base) :: (← digits base count)

/-- A character by its number. -/
def scalarNumber (count : Nat) : Reader Char := do
  let n := ofDigits 16 (← digits 16 count)
  require n.isValidChar
  return Char.ofNat n

/-- An escaped character. -/
def escape : Reader Char := do
  char backslash
  match ← satisfy fun _ => true with
  | 'b' => return Char.ofNat 8
  | 'f' => return Char.ofNat 12
  | 'n' => return '\n'
  | 'r' => return '\r'
  | 't' => return '\t'
  | 'u' => scalarNumber 4
  | 'U' => scalarNumber 8
  | c => do
    require (c = quote || c = backslash)
    return c

/-- A string between quotation marks. -/
def basicString : Reader String := do
  char quote
  let cs ← many (satisfy isBasic <|> escape)
  char quote
  return String.ofList cs

/-- A string between apostrophes. -/
def literalString : Reader String := do
  char apostrophe
  let cs ← takeWhile isLiteral
  char apostrophe
  return String.ofList cs

/-- A backslash at the end of a line, with all the blanks and line ends after it. -/
def lineContinuation : Reader Unit := do
  char backslash
  blanks
  newline
  let _ ← many ((do let _ ← satisfy isBlank) <|> newline)

/-- One or two quotes that a character other than a quote follows. -/
def innerQuotes (mark : Char) : Reader (List Char) := do
  let quotes ← some1 (satisfy (· = mark))
  require (quotes.length ≤ 2)
  let _ ← do
    let more ← ahead (satisfy fun _ => true)
    require more
  return quotes

/-- The closing of a string over lines: three quotes, and up to two more that belong to it. -/
def closingQuotes (mark : Char) : Reader (List Char) := do
  let quotes ← takeWhile (· = mark)
  require (3 ≤ quotes.length && quotes.length ≤ 5)
  return quotes.drop 3

/-- A string over lines between triple quotes, of pieces that are no quotes. A line end right after
the opening does not belong to it. -/
def multilineString (mark : Char) (piece : Reader (List Char)) : Reader String := do
  literal [mark, mark, mark]
  let _ ← optional? newline
  let pieces ← many (piece <|> innerQuotes mark)
  let last ← closingQuotes mark
  return String.ofList (pieces.flatten ++ last)

/-- A line end inside a string. -/
def lineEnd : Reader (List Char) := do
  newline
  return ['\n']

/-- A piece of a string over lines between quotation marks. -/
def basicPiece : Reader (List Char) :=
  (do return [← satisfy isBasic]) <|> (do lineContinuation; return [])
    <|> (do return [← escape]) <|> lineEnd

/-- A piece of a string over lines between apostrophes. -/
def literalPiece : Reader (List Char) := (do return [← satisfy isLiteral]) <|> lineEnd

/-- A string of any kind. -/
def stringValue : Reader String :=
  multilineString quote basicPiece <|> basicString
    <|> multilineString apostrophe literalPiece <|> literalString

/-- Digits in a base, single underscores allowed between them. -/
def groupedDigits (base : Nat) : Reader (List Nat) := do
  let first ← digit base
  let rest ← many do
    let _ ← optional? (char '_')
    digit base
  return first :: rest

/-- A sign: whether it is minus. -/
def sign : Reader Bool := do
  match ← optional? (satisfy fun c => c = '+' || c = '-') with
  | some c => return c = '-'
  | none => return false

/-- Decimal digits without a leading zero. -/
def plainDigits : Reader (List Nat) := do
  let digits ← groupedDigits 10
  require (digits.length = 1 || digits.head? ≠ some 0)
  return digits

/-- A sign and decimal digits. A zero in front ends the number. -/
def decimal : Reader (Bool × List Nat) := do
  let minus ← sign
  let digits ← plainDigits <|> (do char '0'; return [0])
  return (minus, digits)

/-- An integer of 64 bits with a sign. -/
def inRange (n : Int) : Bool := -0x8000000000000000 ≤ n && n < 0x8000000000000000

/-- Digits in a base after its mark. -/
def basedInteger (mark : Char) (base : Nat) : Reader Int := do
  literal ['0', mark]
  return (ofDigits base (← groupedDigits base) : Int)

/-- An integer. -/
def integer : Reader Int := do
  -- Bases other than ten take no sign.
  let n ← basedInteger 'x' 16 <|> basedInteger 'o' 8 <|> basedInteger 'b' 2 <|> do
    let (minus, digits) ← decimal
    let n : Int := ofDigits 10 digits
    return if minus then -n else n
  require (inRange n)
  return n

/-- A power of ten after its mark. -/
def exponent : Reader Int := do
  let _ ← satisfy fun c => c = 'e' || c = 'E'
  let minus ← sign
  let n : Int := ofDigits 10 (← groupedDigits 10)
  return if minus then -n else n

/-- What a number must stay below in order not to round beyond the largest finite number of double
precision. -/
def doubleBound : Nat := Nat.pow 2 1024 - Nat.pow 2 970

/-- Whether `digits · 10 ^ power` rounds beyond the largest finite number of double precision. -/
def overflows (digits : Nat) (count : Nat) (power : Int) : Bool :=
  if digits = 0 ∨ power + count < 300 then false
  else if 400 < power + count then (toString digits).length + power > 310
  else if 0 ≤ power then doubleBound ≤ digits * Nat.pow 10 power.toNat
  else doubleBound * Nat.pow 10 (-power).toNat ≤ digits

/-- A number with a fraction or a power of ten, or one of the special ones. A positive number too
large for double precision is refused. -/
def float : Reader Unit := (do
    let (minus, whole) ← decimal
    let fraction ← optional? (do char '.'; groupedDigits 10)
    let power ← if fraction.isSome then optional? exponent else some <$> exponent
    let digits := whole ++ fraction.getD []
    require (minus || !overflows (ofDigits 10 digits) digits.length
      (power.getD 0 - (fraction.getD []).length)))
  <|> (do
    let _ ← sign
    literal ['i', 'n', 'f'] <|> literal ['n', 'a', 'n'])

/-- A number of so many decimal digits between bounds. -/
def bounded (count low high : Nat) : Reader Nat := do
  let n := ofDigits 10 (← digits 10 count)
  require (low ≤ n && n ≤ high)
  return n

/-- A time of day. -/
def timeOfDay : Reader Unit := do
  let _ ← bounded 2 0 23
  char ':'
  let _ ← bounded 2 0 59
  char ':'
  let _ ← bounded 2 0 60
  let _ ← optional? (do char '.'; some1 (digit 10))

/-- The distance from the zero zone. -/
def zoneOffset : Reader Unit :=
  (do let _ ← satisfy fun c => c = 'Z' || c = 'z') <|> do
    let _ ← satisfy fun c => c = '+' || c = '-'
    let _ ← bounded 2 0 23
    char ':'
    let _ ← bounded 2 0 59

/-- The days of a month. -/
def daysIn (year month : Nat) : Nat :=
  if month = 2 then if year % 4 = 0 && (year % 100 ≠ 0 || year % 400 = 0) then 29 else 28
  else if month ∈ [4, 6, 9, 11] then 30 else 31

/-- A date, perhaps with a time of day and a zone, or a time of day alone. -/
def date : Reader Unit := (do
    let year ← bounded 4 0 9999
    char '-'
    let month ← bounded 2 1 12
    char '-'
    let _ ← bounded 2 1 (daysIn year month)
    let _ ← optional? do
      let _ ← satisfy fun c => c = 'T' || c = 't' || c = ' '
      timeOfDay
      let _ ← optional? zoneOffset)
  <|> timeOfDay

/-- A value that holds no others. -/
def scalar : Reader Value :=
  -- Dates before numbers and fractions before integers: the longer form wins.
  (.string <$> stringValue)
    <|> (do date; return .date)
    <|> (do float; return .float)
    <|> (.integer <$> integer)
    <|> (do literal ['t', 'r', 'u', 'e']; return .boolean true)
    <|> (do literal ['f', 'a', 'l', 's', 'e']; return .boolean false)

end PeerTrust.Toml
