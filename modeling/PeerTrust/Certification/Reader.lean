import PeerTrust.Certification.Problem
import PeerTrust.Der.Strict

/-!
# Reading strictly, with reasons

A reader takes bytes from the front of a byte string, or tells why it cannot.

## Main definitions

* `Certification.Reader` — readers
* `Certification.whole` — a reader that must take everything
* `Certification.expect`, `Certification.nested` — elements by their tag byte
* `Certification.octetsOf` — what a reader gives, with the octets that it took
-/

namespace PeerTrust.Certification

/-- A reader: a value and the bytes left, or a reason. -/
abbrev Reader := StateT Bytes (Except Problem)

variable {α β : Type}

/-- What a reader makes of a whole byte string. Bytes left over are refused for the given reason. -/
def whole (leftover : Problem) (r : Reader α) (bs : Bytes) : Except Problem α :=
  match r bs with
  | .ok (a, []) => .ok a
  | .ok (_, _ :: _) => .error leftover
  | .error p => .error p

/-- Whether nothing is left. -/
def atEnd : Reader Bool := return (← get).isEmpty

/-- Whether the next element has this tag byte. -/
def isNext (tag : UInt8) : Reader Bool := return (← get).head? = some tag

/-- The longest content that an element may have. -/
def contentLimit : Nat := 0xFFFE

/-- The tag byte and the content of the next element. -/
def element : Reader (UInt8 × Bytes) := fun bs =>
  match Der.Strict.read? bs with
  | some (tag, content, rest) =>
    if content.length ≤ contentLimit then .ok ((tag, content), rest) else .error .badEncoding
  | none => .error .badEncoding

/-- The content of the next element, which must have this tag byte. -/
def expect (tag : UInt8) : Reader Bytes := do
  let (found, content) ← element
  if found = tag then return content else throw .badEncoding

/-- What `inner` makes of the content of the next element. The same reason covers a different
element and bytes left over inside it. -/
def nested (tag : UInt8) (reason : Problem) (inner : Reader α) : Reader α := fun bs =>
  match expect tag bs with
  | .error _ => .error reason
  | .ok (content, rest) => (whole reason inner content).map (·, rest)

/-- What a reader gives, with the octets that it took. -/
def octetsOf (r : Reader α) : Reader (Bytes × α) := fun bs =>
  match r bs with
  | .ok (a, rest) => .ok ((bs.take (bs.length - rest.length), a), rest)
  | .error p => .error p

/-- What comes of `step` again and again until nothing is left, each time taking something. -/
def iterate (step : β → Reader β) (b : β) (bs : Bytes) : Except Problem β :=
  if bs = [] then .ok b
  else match step b bs with
    | .error p => .error p
    | .ok (b, rest) =>
      if rest.length < bs.length then iterate step b rest else .error .badEncoding
termination_by bs.length

/-- Takes everything that is left through `step`, piece by piece. -/
def untilEnd (step : β → Reader β) (b : β) : Reader β := fun bs =>
  (iterate step b bs).map (·, [])

/-- A truth value that may be left out and is then false. -/
def flag : Reader Bool := do
  if ← isNext 0x01 then
    nested 0x01 .trailingData fun bs => match bs with
      | 0xFF :: rest => .ok (true, rest)
      | 0x00 :: rest => .ok (false, rest)
      | _ => .error .badEncoding
  else return false

/-- A number of one byte. -/
def smallNumber : Reader Nat := do
  match Der.Strict.magnitude? (← expect 0x02) with
  | some [b] => return b.toNat
  | _ => throw .badEncoding

/-- A bit string of whole bytes. -/
def bitString : Reader Bytes :=
  nested 0x03 .trailingData fun bs => match Der.Strict.wholeBits? bs with
    | some bits => .ok (bits, [])
    | none => .error .badEncoding

end PeerTrust.Certification
