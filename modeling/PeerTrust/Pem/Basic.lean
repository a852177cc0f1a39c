import PeerTrust.Bytes

/-!
# Sections of armoured text

Armoured text holds sections between a line `-----BEGIN label-----` and a line that starts with
`-----END label-----`; whatever stands outside is ignored. A section of a known label is decoded
from base 64, others are skipped. A new opening line inside a section starts over under the new
label but keeps the text gathered so far.

## Main definitions

* `Pem.Kind` — the known labels
* `Pem.Section` — a decoded section
* `Pem.Base64.decode?` — base 64 with white space
* `Pem.sections` — the sections of a text in order, and the fault that ended reading, if any
* `Pem.contents?` — the contents of all sections of one kind, unless there is a fault
-/

namespace PeerTrust.Pem

/-- The known kinds of sections. -/
inductive Kind
  | certificate
  | crl
  | privateKey
  | ecPrivateKey
  | rsaPrivateKey
  | publicKey
  | certificateRequest
  deriving DecidableEq, Repr

/-- The label of a kind. -/
def Kind.label : Kind → String
  | certificate => "CERTIFICATE"
  | crl => "X509 CRL"
  | privateKey => "PRIVATE KEY"
  | ecPrivateKey => "EC PRIVATE KEY"
  | rsaPrivateKey => "RSA PRIVATE KEY"
  | publicKey => "PUBLIC KEY"
  | certificateRequest => "CERTIFICATE REQUEST"

/-- All known kinds. -/
def Kind.all : List Kind :=
  [certificate, crl, privateKey, ecPrivateKey, rsaPrivateKey, publicKey, certificateRequest]

/-- The kind with this label. -/
def Kind.ofLabel? (label : Bytes) : Option Kind :=
  Kind.all.find? fun kind => Bytes.ofAscii kind.label = label

/-- A decoded section. -/
structure Section where
  kind : Kind
  content : Bytes
  deriving DecidableEq, Repr

/-- What ends the reading of armoured text. -/
inductive Fault
  | missingEnd
  | badBegin
  | badBase64
  deriving DecidableEq, Repr

/-- The wording of a fault. -/
def Fault.message : Fault → String
  | missingEnd => "a section does not end"
  | badBegin => "an opening line does not end in five dashes"
  | badBase64 => "a section is not in base 64"

namespace Base64

/-- White space inside base 64. -/
def isSpace (b : UInt8) : Bool := b = 0x20 || b = 0x09 || b = 0x0a || b = 0x0d

/-- The value of a base-64 digit. -/
def digit? (b : UInt8) : Option Nat :=
  let n := b.toNat
  if 65 ≤ n ∧ n ≤ 90 then some (n - 65)
  else if 97 ≤ n ∧ n ≤ 122 then some (n - 97 + 26)
  else if 48 ≤ n ∧ n ≤ 57 then some (n - 48 + 52)
  else if n = 43 then some 62
  else if n = 47 then some 63
  else none

/-- The bytes of a sequence of digits, four digits to three bytes; bits left over are dropped. -/
def bytesOf : List Nat → Bytes
  | a :: b :: c :: d :: rest =>
    UInt8.ofNat (a * 4 + b / 16) :: UInt8.ofNat (b * 16 + c / 4) :: UInt8.ofNat (c * 64 + d)
      :: bytesOf rest
  | [a, b, c] => [UInt8.ofNat (a * 4 + b / 16), UInt8.ofNat (b * 16 + c / 4)]
  | [a, b] => [UInt8.ofNat (a * 4 + b / 16)]
  | _ => []

/-- Whether so many padding signs may follow so many digits. They may be left out. -/
def isPadding (digits pads : Nat) : Bool :=
  match digits % 4 with
  | 0 => pads = 0
  | 2 => pads ≤ 2
  | 3 => pads ≤ 1
  | _ => false

/-- The bytes that base 64 encodes. -/
def decode? (text : Bytes) : Option Bytes := do
  let signs := text.filter (!isSpace ·)
  let digits ← (signs.takeWhile (· ≠ 0x3d)).mapM digit?
  let pads := signs.dropWhile (· ≠ 0x3d)
  if pads.all (· = 0x3d) ∧ isPadding digits.length pads.length then some (bytesOf digits) else none

end Base64

/-- The lines of a text. Each ends with a line feed or a carriage return, or with the text. -/
def lines : (line : Bytes) → Bytes → List Bytes
  | [], [] => []
  | line, [] => [line.reverse]
  | line, b :: bs =>
    if b = 0x0a ∨ b = 0x0d then (b :: line).reverse :: lines [] bs else lines (b :: line) bs

/-- The opening of a section. -/
def opening : Bytes := Bytes.ofAscii "-----BEGIN "

/-- The closing of a section. -/
def closing : Bytes := Bytes.ofAscii "-----END "

/-- The five dashes at the end of an opening. -/
def dashes : Bytes := Bytes.ofAscii "-----"

/-- The label of an opening line: what stands before the five dashes that, spaces and line ends
aside, end the line. -/
def openingLabel? (line : Bytes) : Option Bytes :=
  let isTail (b : UInt8) : Bool := b = 0x2d || b = 0x20 || b = 0x0a || b = 0x0d
  let tail := (line.reverse.takeWhile isTail).reverse
  if tail.count 0x2d = 5 then
    let label := line.take (line.length - (tail.dropWhile (· ≠ 0x2d)).length)
    some (label.drop opening.length)
  else none

/-- Whether a line closes the section with this label. -/
def isClosing (label line : Bytes) : Bool := (closing ++ label ++ dashes).isPrefixOf line

/-- Reads the lines after those of the sections before. `label` is that of the open section, and
`text` what it holds so far, line by line, last line first. -/
def readLines : (label : Option Bytes) → (text : List Bytes) → List Bytes →
    List Section × Option Fault
  | none, _, [] => ([], none)
  | some _, _, [] => ([], some .missingEnd)
  | label, text, line :: rest =>
    if opening.isPrefixOf line then
      -- The text gathered so far stays, whatever label it was gathered under.
      match openingLabel? line with
      | none => ([], some .badBegin)
      | some found => readLines (some found) text rest
    else match label with
      | none => readLines none text rest
      | some current =>
        if isClosing current line then
          match Kind.ofLabel? current with
          -- Nobody looks into a section of an unknown label.
          | none => readLines none [] rest
          | some kind =>
            match Base64.decode? text.reverse.flatten with
            | none => ([], some .badBase64)
            | some content =>
              let more := readLines none [] rest
              (⟨kind, content⟩ :: more.1, more.2)
        else readLines (some current) (line :: text) rest

/-- The sections of a text in order, and the fault that ended reading, if any. -/
def sections (text : Bytes) : List Section × Option Fault := readLines none [] (lines [] text)

/-- The contents of the sections of one kind, in order. -/
def ofKind (kind : Kind) (found : List Section) : List Bytes :=
  found.filterMap fun s => if s.kind = kind then some s.content else none

/-- The contents of all sections of one kind in a text without a fault. -/
def contents? (kind : Kind) (text : Bytes) : Except Fault (List Bytes) :=
  match sections text with
  | (_, some fault) => .error fault
  | (found, none) => .ok (ofKind kind found)

end PeerTrust.Pem
