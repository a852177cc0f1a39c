import PeerTrust.Der.Element

/-!
# Object identifiers

An object identifier is kept as its encoded bytes, and identifiers are the same when their bytes
are: a padded encoding of a known identifier is another identifier, though it prints alike.

## Main definitions

* `Oid.arcs` / `Oid.dotted` — the numbers of an identifier and their dotted text
* `Oid.ofArcs` — the identifier of a list of numbers
* `Oid.read?` — an identifier at the head of a byte string
* `Oid.shortName?` — the short name of a registered identifier
-/

namespace PeerTrust

/-- An object identifier, as the content octets of its encoding. -/
structure Oid where
  content : Bytes
  deriving DecidableEq, Repr

namespace Oid

/-- The base-128 numbers of a byte string; a number cut off by its end counts. -/
def base128 : (number : Option Nat) → Bytes → List Nat
  | none, [] => []
  | some n, [] => [n]
  | number, b :: rest =>
    let n := 128 * number.getD 0 + b.toNat % 128
    if b.toNat < 128 then n :: base128 none rest else base128 (some n) rest

/-- The numbers of an identifier. The first byte holds the first two. -/
def arcs (oid : Oid) : List Nat :=
  match oid.content with
  | [] => []
  | [0] => [0]
  | first :: rest => first.toNat / 40 :: first.toNat % 40 :: base128 none rest

/-- The numbers of an identifier, joined by dots. -/
def dotted (oid : Oid) : String := ".".intercalate (oid.arcs.map toString)

/-- The base-128 writing of `n` in front of `low`, whose bytes but the last carry the high bit. -/
def base128Onto (n : Nat) (low : Bytes) : Bytes :=
  if n < 128 then UInt8.ofNat (n + (if low.isEmpty then 0 else 128)) :: low
  else base128Onto (n / 128) (UInt8.ofNat (n % 128 + (if low.isEmpty then 0 else 128)) :: low)
termination_by n

/-- The identifier with these numbers. -/
def ofArcs : List Nat → Oid
  | first :: second :: rest => ⟨UInt8.ofNat (40 * first + second) :: rest.flatMap (base128Onto · [])⟩
  | _ => ⟨[]⟩

/-- An identifier at the head of a byte string: any primitive element. -/
def read? (bs : Bytes) : Option (Oid × Bytes) := do
  let (e, rest) ← Der.Element.read? bs
  if e.isPrimitive then some (⟨e.content⟩, rest) else none

theorem read?_length_lt {bs rest : Bytes} {oid : Oid}
    (h : read? bs = some (oid, rest)) : rest.length < bs.length := by
  simp only [read?, Option.bind_eq_bind, Option.bind_eq_some_iff] at h
  obtain ⟨⟨e, r⟩, h₁, h⟩ := h
  dsimp only at h
  split at h
  · simp at h
    exact h.2 ▸ Der.Element.read?_length_lt h₁
  · simp at h

/-- The abbreviations of the usual attribute types of names. -/
def abbreviations : List (Oid × String) :=
  [(ofArcs [2, 5, 4, 3], "CN"), (ofArcs [2, 5, 4, 6], "C"), (ofArcs [2, 5, 4, 7], "L"),
   (ofArcs [2, 5, 4, 8], "ST"), (ofArcs [2, 5, 4, 10], "O"), (ofArcs [2, 5, 4, 11], "OU"),
   (ofArcs [0, 9, 2342, 19200300, 100, 1, 25], "DC"), (ofArcs [1, 2, 840, 113549, 1, 9, 1], "Email")]

/-- The short names of further registered identifiers. -/
def registered : List (Oid × String) :=
  [(ofArcs [2, 5, 4, 0], "objectClass"), (ofArcs [2, 5, 4, 4], "surname"),
   (ofArcs [2, 5, 4, 5], "serialNumber"), (ofArcs [2, 5, 4, 9], "streetAddress"),
   (ofArcs [2, 5, 4, 12], "title"), (ofArcs [2, 5, 4, 13], "description"),
   (ofArcs [2, 5, 4, 15], "businessCategory"), (ofArcs [2, 5, 4, 17], "postalCode"),
   (ofArcs [2, 5, 4, 42], "givenName"), (ofArcs [2, 5, 4, 45], "uniqueIdentifier"),
   (ofArcs [2, 5, 4, 46], "dnQualifier"),
   (ofArcs [0, 9, 2342, 19200300, 100, 1, 1], "uid"),
   (ofArcs [1, 2, 840, 113549, 1, 9, 2], "unstructuredName"),
   (ofArcs [2, 5, 29, 19], "basicConstraints"),
   (ofArcs [1, 2, 840, 113549, 1, 1, 11], "sha256WithRSAEncryption"),
   (ofArcs [1, 3, 6, 1, 4, 1, 311, 60, 2, 1, 3], "msJurisdictionCountry")]

/-- The short name of a registered identifier. -/
def shortName? (oid : Oid) : Option String :=
  ((abbreviations ++ registered).find? (·.1 == oid)).map (·.2)

end Oid

end PeerTrust
