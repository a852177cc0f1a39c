import PeerTrust.Der.Element

/-!
# Moments

Moments are whole seconds since 1970 in the proleptic Gregorian calendar, possibly negative. They
are written in two forms, one with a two-digit year and one with a four-digit year.

## Main definitions

* `Moment` — seconds since 1970
* `Moment.ofCivil?` — the moment of a date and time of day
* `Moment.ofUtcTime?`, `Moment.ofGeneralizedTime?` — the two written forms
* `Moment.read?` — a moment at the head of a byte string
-/

namespace PeerTrust

/-- A moment in whole seconds since the start of 1970. -/
abbrev Moment := Int

namespace Moment

/-- Whether a year of the Gregorian calendar has a leap day. -/
def isLeapYear (year : Nat) : Bool := year % 4 = 0 && (year % 100 ≠ 0 || year % 400 = 0)

/-- How many days a month has. -/
def daysInMonth (year : Nat) : (month : Nat) → Nat
  | 1 | 3 | 5 | 7 | 8 | 10 | 12 => 31
  | 4 | 6 | 9 | 11 => 30
  | 2 => if isLeapYear year then 29 else 28
  | _ => 0

/-- Days from the start of year 0 to the start of a year. -/
def daysBeforeYear (year : Nat) : Nat :=
  if year = 0 then 0
  -- Year 0 is itself a leap year, hence the ones.
  else 365 * year + ((year - 1) / 4 + 1) - ((year - 1) / 100 + 1) + ((year - 1) / 400 + 1)

/-- Days from the start of a year to the start of one of its months. -/
def daysBeforeMonth (year month : Nat) : Nat :=
  (List.range month).foldl (fun days m => days + daysInMonth year m) 0

/-- The days from the start of year 0 to the start of 1970. -/
def epochDays : Nat := daysBeforeYear 1970

/-- A date and time of day as they were written. -/
structure Civil where
  year : Nat
  month : Nat
  day : Nat
  hour : Nat
  minute : Nat
  second : Nat
  deriving DecidableEq, Repr

/-- Whether the date is in the calendar and the time of day on the clock; no second is a leap
second. -/
def Civil.isValid (c : Civil) : Bool :=
  1 ≤ c.day && c.day ≤ daysInMonth c.year c.month && c.hour < 24 && c.minute < 60 && c.second < 60

/-- The moment of a date and time of day, in the zone of zero offset. -/
def ofCivil? (c : Civil) : Option Moment :=
  if c.isValid then
    let days := daysBeforeYear c.year + daysBeforeMonth c.year c.month + (c.day - 1)
    some (86400 * ((days : Int) - epochDays) + 3600 * c.hour + 60 * c.minute + c.second)
  else none

/-- The value of a decimal digit. -/
def digit? (b : UInt8) : Option Nat :=
  if 0x30 ≤ b ∧ b ≤ 0x39 then some (b.toNat - 0x30) else none

/-- Two decimal digits at the head of a byte string. -/
def pair? : Bytes → Option (Nat × Bytes)
  | a :: b :: rest => do return (10 * (← digit? a) + (← digit? b), rest)
  | _ => none

/-- Two decimal digits at the head of a byte string, or 0 if there are none. -/
def optionalPair (bs : Bytes) : Nat × Bytes := (pair? bs).getD (0, bs)

/-- A month, a day, an hour, a minute and perhaps a second. -/
def afterYear? (year : Nat) (bs : Bytes) : Option (Civil × Bytes) := do
  let (month, bs) ← pair? bs
  let (day, bs) ← pair? bs
  let (hour, bs) ← pair? bs
  let (minute, bs) ← pair? bs
  let (second, bs) := optionalPair bs
  return (⟨year, month, day, hour, minute, second⟩, bs)

/-- A distance from the zero zone in minutes, eastward if written with a plus sign. The sign of the
hours decides that of the minutes; without hours, minutes count eastward. -/
def offsetMinutes? (west : Bool) (bs : Bytes) : Option Int := do
  let (hours, bs) ← pair? bs
  let (minutes, bs) ← pair? bs
  if bs ≠ [] ∨ 25 < hours ∨ 59 < minutes then none
  else if west ∧ 0 < hours then some (-(60 * hours + minutes : Nat))
  else some (60 * hours + minutes : Nat)

/-- The distance of a time zone from the zero zone: `Z`, or hours and minutes with a sign. -/
def zone? : Bytes → Option Int
  | [0x5A] => some 0
  | 0x2B :: rest => offsetMinutes? false rest
  | 0x2D :: rest => offsetMinutes? true rest
  | _ => none

/-- The moment that the content of a UTCTime writes: two digits of a year from 1950 on. -/
def ofUtcTime? (bs : Bytes) : Option Moment := do
  let (year, bs) ← pair? bs
  let (civil, bs) ← afterYear? (if 50 ≤ year then 1900 + year else 2000 + year) bs
  let zone ← zone? bs
  return (← ofCivil? civil) - 60 * zone

/-- What follows a fraction of one to three digits, if one stands at the head. -/
def skipFraction? : Bytes → Option Bytes
  | 0x2E :: rest =>
    let digits := rest.takeWhile (digit? · |>.isSome)
    if 1 ≤ digits.length ∧ digits.length ≤ 3 then some (rest.drop digits.length) else none
  | bs => some bs

/-- The moment that the content of a GeneralizedTime writes, less any fraction of a second. -/
def ofGeneralizedTime? (bs : Bytes) : Option Moment := do
  let (century, bs) ← pair? bs
  let (year, bs) ← pair? bs
  let (civil, bs) ← afterYear? (100 * century + year) bs
  if (← skipFraction? bs) = [0x5A] then ofCivil? civil else none

/-- A moment at the head of a byte string, in either form. -/
def read? (bs : Bytes) : Option (Moment × Bytes) := do
  let (e, rest) ← Der.Element.read? bs
  if e.number = Der.Tag.utcTime then return (← ofUtcTime? e.content, rest)
  else if e.number = Der.Tag.generalizedTime then return (← ofGeneralizedTime? e.content, rest)
  else none

end Moment

end PeerTrust
