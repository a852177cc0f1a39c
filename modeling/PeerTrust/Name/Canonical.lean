import PeerTrust.Der.Encode
import PeerTrust.Digest.Sha1
import PeerTrust.Name.Basic
import PeerTrust.Text.Wide

/-!
# Canonical names

Two spellings of a name are the same name when their canonical encodings agree. The canonical
encoding rewrites every string value as trimmed, whitespace-collapsed, case-folded UTF-8 and sorts
the attributes inside each relative name. Revocation lists in a hashed directory are filed under a
digest of it.

## Main definitions

* `Name.canonicalText` — a text trimmed, collapsed and folded
* `Name.canonical` — the canonical encoding of a name
* `Name.hash` — the number under which a name is filed
* `Name.same` — whether two names match
* `hashedFileName` — the file of the `index`-th list filed under a hash

## Main results

* `Name.same_iff` — names match exactly when their canonical encodings agree, given that equal
  octets mean equal relative names
-/

namespace PeerTrust

namespace Name

/-- The six blank characters of ASCII. -/
def isBlank (c : Char) : Bool :=
  c = ' ' || (9 ≤ c.toNat && c.toNat ≤ 13)

/-- The rest of a text in canonical form, with `pending` telling that blanks came before it. -/
def collapse : (pending : Bool) → List Char → List Char
  | _, [] => []
  | pending, c :: cs =>
    -- Blanks at the end are never written.
    if isBlank c then collapse true cs
    else if pending then ' ' :: c.toLower :: collapse false cs
    else c.toLower :: collapse false cs

/-- A text without blanks at its ends, with every inner run of blanks made one space, and with
ASCII letters in lower case. -/
def canonicalText (cs : List Char) : List Char :=
  collapse false (cs.dropWhile isBlank)

/-- The text of a string value: the tag number chooses the encoding, and bytes that are no text
count as replacement characters. Values of other tag numbers have no text. -/
def stringText? (value : Der.Element) : Option (List Char) :=
  match value.number with
  | Der.Tag.utf8String | Der.Tag.printableString | Der.Tag.ia5String | Der.Tag.visibleString =>
    some (Text.Utf8.decodeLossy value.content)
  | Der.Tag.teletexString => some (Text.Latin1.decode value.content)
  | Der.Tag.bmpString => some (Text.Utf16.decodeLossy (Text.Utf16.units value.content))
  | Der.Tag.universalString => some (Text.Utf32.decodeLossy value.content)
  | _ => none

namespace Attribute

/-- The tag byte and content that stand for a value: a UTF-8 string of its canonical text, or the
low byte of the tag number with the content unchanged. -/
def canonicalValue (value : Der.Element) : UInt8 × Bytes :=
  match stringText? value with
  | some text => (0x0c, Text.Utf8.encode (canonicalText text))
  | none => (UInt8.ofNat value.number, value.content)

/-- The canonical encoding of an attribute. -/
def canonical (a : Attribute) : Bytes :=
  let value := canonicalValue a.value
  Der.encode 0x30 (Der.encode 0x06 a.kind.content ++ Der.encode value.1 value.2)

end Attribute

/-- Lexicographic order of byte strings. -/
def bytesLe : Bytes → Bytes → Bool
  | [], _ => true
  | _ :: _, [] => false
  | a :: as, b :: bs => if a = b then bytesLe as bs else a < b

/-- The canonical encoding of a relative name: a set of its attributes, sorted as byte strings. -/
def Relative.canonical (r : Relative) : Bytes :=
  Der.encode 0x31 ((r.map Attribute.canonical).mergeSort bytesLe).flatten

/-- The canonical encoding of a name: its relative names one after the other. -/
def canonical (n : Name) : Bytes := n.relatives.flatMap Relative.canonical

/-- The number under which a name is filed: the first four bytes of the SHA-1 digest of its
canonical encoding, least significant byte first. -/
def hash (n : Name) : UInt32 :=
  UInt32.ofNat (Bytes.toNatLittle ((Digest.sha1 n.canonical).take 4))

/-- Whether two names match: equal octets, or equal canonical encodings. -/
def same (a b : Name) : Bool := a.raw = b.raw || a.canonical = b.canonical

theorem same_iff {a b : Name} (h : a.raw = b.raw → a.relatives = b.relatives) :
    same a b = true ↔ a.canonical = b.canonical := by
  simp only [same, Bool.or_eq_true, decide_eq_true_eq]
  refine ⟨fun hab => hab.elim (fun hr => ?_) id, .inr⟩
  simp [canonical, h hr]

end Name

/-- The eight hexadecimal digits of a hash. -/
def hashDigits (hash : UInt32) : List Char :=
  (Bytes.ofNatPadded 4 hash.toNat).flatMap (Bytes.hexPair Nat.digitChar)

/-- The file name of the `index`-th list filed under `hash`. -/
def hashedFileName (hash index : UInt32) : String :=
  String.ofList (hashDigits hash) ++ ".r" ++ toString index.toNat

end PeerTrust
