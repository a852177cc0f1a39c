import PeerTrust.Bytes

/-!
# Reading strictly encoded elements

The strict reader: single-byte tags, definite lengths in their shortest form of at most two length
bytes, numbers without padding. Keys, signatures and certificate paths are read with it.

## Main definitions

* `Der.Strict.read?` — tag byte, content and rest
* `Der.Strict.expect?` — the content of an element with the expected tag byte
* `Der.Strict.nested?` — the content of an element that is the whole byte string
* `Der.Strict.natural?`, `Der.Strict.positive?` — unsigned numbers
* `Der.Strict.bitString?` — a bit string of whole bytes
-/

namespace PeerTrust.Der.Strict

/-- A length in its shortest form, below 65536. -/
def readLength : Bytes → Option (Nat × Bytes)
  | 0x81 :: a :: rest => if 0x80 ≤ a.toNat then some (a.toNat, rest) else none
  | 0x82 :: a :: b :: rest => if a = 0 then none else some (256 * a.toNat + b.toNat, rest)
  | a :: rest => if a.toNat < 0x80 then some (a.toNat, rest) else none
  | [] => none

/-- The tag byte, the content and the rest of the first element. -/
def read? : Bytes → Option (UInt8 × Bytes × Bytes)
  | [] => none
  | tag :: rest => do
    if tag.toNat % 32 = 31 then none
    else
      let (length, rest) ← readLength rest
      let (content, rest) ← Bytes.split? length rest
      return (tag, content, rest)

/-- The content and the rest of the first element, if its tag byte is the expected one. -/
def expect? (tag : UInt8) (bs : Bytes) : Option (Bytes × Bytes) := do
  let (found, content, rest) ← read? bs
  if found = tag then some (content, rest) else none

/-- The content of the only element of a byte string, if its tag byte is the expected one. -/
def nested? (tag : UInt8) (bs : Bytes) : Option Bytes := do
  match ← expect? tag bs with
  | (content, []) => some content
  | _ => none

/-- The content of an optional element with this tag byte, and the rest. -/
def optional? (tag : UInt8) (bs : Bytes) : Option (Option Bytes × Bytes) :=
  if bs.head? = some tag then (expect? tag bs).map fun (content, rest) => (some content, rest)
  else some (none, bs)

/-- The bytes of an unsigned number: no padding, and no sign bit. -/
def magnitude? : Bytes → Option Bytes
  | [] => none
  | [0] => some [0]
  | 0 :: b :: rest => if 0x80 ≤ b.toNat then some (b :: rest) else none
  | b :: rest => if b.toNat < 0x80 then some (b :: rest) else none

/-- An unsigned number and the rest. -/
def natural? (bs : Bytes) : Option (Nat × Bytes) := do
  let (content, rest) ← expect? 0x02 bs
  return (Bytes.toNat (← magnitude? content), rest)

/-- An unsigned number other than zero and the rest. -/
def positive? (bs : Bytes) : Option (Nat × Bytes) := do
  let (n, rest) ← natural? bs
  if n = 0 then none else some (n, rest)

/-- The bytes of a bit string without unused bits. -/
def wholeBits? : Bytes → Option Bytes
  | 0 :: bits => some bits
  | _ => none

/-- A bit string of whole bytes and the rest. -/
def bitString? (bs : Bytes) : Option (Bytes × Bytes) := do
  let (content, rest) ← expect? 0x03 bs
  return (← wholeBits? content, rest)

end PeerTrust.Der.Strict
