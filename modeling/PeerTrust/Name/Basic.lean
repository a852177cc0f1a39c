import PeerTrust.Oid

/-!
# Distinguished names

A name is a sequence of relative names, each a set of typed values. Reading is lenient: relative
names are taken until one does not parse, and attributes of a relative name likewise.

## Main definitions

* `Name.Attribute`, `Name.Relative`, `Name` — a typed value, a relative name, a name
* `Name.read?` — the name at the head of a byte string and what follows it
-/

namespace PeerTrust

/-- A typed value of a name. -/
structure Name.Attribute where
  kind : Oid
  value : Der.Element
  deriving DecidableEq, Repr

/-- A relative name: the attributes in the order in which they were written. -/
abbrev Name.Relative := List Name.Attribute

/-- A distinguished name. -/
structure Name where
  /-- The octets up to the end of the last relative name that parsed. -/
  raw : Bytes
  relatives : List Name.Relative
  deriving DecidableEq, Repr

namespace Name

/-- An attribute: a sequence of a type and a value, whatever follows the value. -/
def Attribute.read? (bs : Bytes) : Option (Attribute × Bytes) := do
  let (e, rest) ← Der.Element.readNumbered? Der.Tag.sequence bs
  let (kind, body) ← Oid.read? e.content
  let (value, _) ← Der.Element.read? body
  return (⟨kind, value⟩, rest)

/-- A relative name: a set of at least one attribute. -/
def Relative.read? (bs : Bytes) : Option (Relative × Bytes) := do
  let (e, rest) ← Der.Element.readNumbered? Der.Tag.set bs
  match (Der.readMany Attribute.read? e.content).1 with
  | [] => none
  | attributes => some (attributes, rest)

/-- The name at the head of a byte string and what follows it. -/
def read? (bs : Bytes) : Option (Name × Bytes) := do
  let (e, rest) ← Der.Element.readNumbered? Der.Tag.sequence bs
  let (relatives, unread) := Der.readMany Relative.read? e.content
  return (⟨bs.take (bs.length - rest.length - unread.length), relatives⟩, rest)

end Name

end PeerTrust
