import PeerTrust.Bytes

/-!
# Reading tagged elements

The lenient reader: lengths are definite but need not be in their shortest form, tag numbers may
span several bytes, and whatever follows an element is left to the caller. Structures check only
the tag *number* of what they expect.

## Main definitions

* `Der.Element` — class, constructed bit, number, content and all octets of an element
* `Der.Element.read?` — the first element of a byte string and what follows it
* `Der.Element.readNumbered?` — the same, for an expected tag number
* `Der.Element.readAll` — the elements of a byte string up to the first that does not parse
-/

namespace PeerTrust.Der

/-- Universal tag numbers. -/
@[match_pattern] abbrev Tag.boolean : Nat := 1
@[inherit_doc Tag.boolean, match_pattern] abbrev Tag.integer : Nat := 2
@[inherit_doc Tag.boolean, match_pattern] abbrev Tag.bitString : Nat := 3
@[inherit_doc Tag.boolean, match_pattern] abbrev Tag.octetString : Nat := 4
@[inherit_doc Tag.boolean, match_pattern] abbrev Tag.oid : Nat := 6
@[inherit_doc Tag.boolean, match_pattern] abbrev Tag.utf8String : Nat := 12
@[inherit_doc Tag.boolean, match_pattern] abbrev Tag.sequence : Nat := 16
@[inherit_doc Tag.boolean, match_pattern] abbrev Tag.set : Nat := 17
@[inherit_doc Tag.boolean, match_pattern] abbrev Tag.printableString : Nat := 19
@[inherit_doc Tag.boolean, match_pattern] abbrev Tag.teletexString : Nat := 20
@[inherit_doc Tag.boolean, match_pattern] abbrev Tag.ia5String : Nat := 22
@[inherit_doc Tag.boolean, match_pattern] abbrev Tag.utcTime : Nat := 23
@[inherit_doc Tag.boolean, match_pattern] abbrev Tag.generalizedTime : Nat := 24
@[inherit_doc Tag.boolean, match_pattern] abbrev Tag.visibleString : Nat := 26
@[inherit_doc Tag.boolean, match_pattern] abbrev Tag.universalString : Nat := 28
@[inherit_doc Tag.boolean, match_pattern] abbrev Tag.bmpString : Nat := 30

/-- The class of a tag. -/
inductive TagClass
  | universal
  | application
  | contextSpecific
  | privateUse
  deriving DecidableEq, Repr

/-- The class that the two high bits of an identifier octet name. -/
def TagClass.ofOctet (b : UInt8) : TagClass :=
  match b.toNat / 64 with
  | 0 => .universal
  | 1 => .application
  | 2 => .contextSpecific
  | _ => .privateUse

/-- One tagged element. -/
structure Element where
  tagClass : TagClass
  constructed : Bool
  number : Nat
  content : Bytes
  /-- All octets of the element: identifier, length and content. -/
  octets : Bytes
  deriving DecidableEq, Repr

/-- A tag number in base 128, at most `left` bytes long, kept to 32 bits. -/
def readHighNumber : (left : Nat) → (number : Nat) → Bytes → Option (Nat × Bytes)
  | 0, _, _ => none
  | _ + 1, _, [] => none
  | left + 1, number, b :: rest =>
    let number := (128 * number + b.toNat % 128) % 0x100000000
    if b.toNat < 128 then some (number, rest) else readHighNumber left number rest

/-- The tag number that an identifier octet gives or announces. -/
def readNumber (first : UInt8) (rest : Bytes) : Option (Nat × Bytes) :=
  if first.toNat % 32 = 31 then readHighNumber 5 0 rest else some (first.toNat % 32, rest)

/-- A definite length. The indefinite form, the reserved byte `0xff` and lengths of more than 64
bits are refused; leading zero bytes are not. -/
def readLength : Bytes → Option (Nat × Bytes)
  | [] => none
  | b :: rest =>
    if b.toNat < 128 then some (b.toNat, rest)
    else if b = 0x80 ∨ b = 0xff then none
    else do
      let (digits, rest) ← Bytes.split? (b.toNat - 128) rest
      -- Zeros in front do not count towards the 64 bits.
      if (Bytes.significant digits).length ≤ 8 then some (Bytes.toNat digits, rest) else none

namespace Element

/-- The first element of a byte string and what follows it. -/
def read? : Bytes → Option (Element × Bytes)
  | [] => none
  | first :: body => do
    let (number, rest) ← readNumber first body
    let (length, rest) ← readLength rest
    let (content, rest) ← Bytes.split? length rest
    return ({ tagClass := .ofOctet first
              constructed := first.toNat / 32 % 2 = 1
              number
              content
              octets := (first :: body).take (body.length + 1 - rest.length) }, rest)

/-- The first element, if its tag number is the expected one. -/
def readNumbered? (number : Nat) (bs : Bytes) : Option (Element × Bytes) := do
  let (e, rest) ← read? bs
  if e.number = number then some (e, rest) else none

theorem readHighNumber_length_lt {left number n : Nat} {bs rest : Bytes}
    (h : readHighNumber left number bs = some (n, rest)) : rest.length < bs.length := by
  fun_induction readHighNumber left number bs <;> simp_all
  omega

theorem readNumber_length_le {first : UInt8} {bs rest : Bytes} {n : Nat}
    (h : readNumber first bs = some (n, rest)) : rest.length ≤ bs.length := by
  unfold readNumber at h
  split at h
  · exact Nat.le_of_lt (readHighNumber_length_lt h)
  · simp at h
    simp [h.2]

theorem readLength_length_lt {bs rest : Bytes} {n : Nat}
    (h : readLength bs = some (n, rest)) : rest.length < bs.length := by
  unfold readLength at h
  split at h
  · simp at h
  · split at h
    · simp at h
      simp [h.2]
    · split at h
      · simp at h
      · simp only [Option.bind_eq_bind, Option.bind_eq_some_iff] at h
        obtain ⟨⟨digits, tail⟩, hs, h⟩ := h
        have := Bytes.length_le_of_split? hs
        dsimp only at h
        split at h
        · simp at h
          simp [← h.2]
          omega
        · simp at h

/-- Reading an element consumes at least one byte. -/
theorem read?_length_lt {bs rest : Bytes} {e : Element}
    (h : read? bs = some (e, rest)) : rest.length < bs.length := by
  cases bs with
  | nil => simp [read?] at h
  | cons first body =>
    simp only [read?, Option.bind_eq_bind, Option.bind_eq_some_iff] at h
    obtain ⟨⟨number, r₁⟩, h₁, ⟨length, r₂⟩, h₂, ⟨content, r₃⟩, h₃, h⟩ := h
    have l₁ := readNumber_length_le h₁
    have l₂ := readLength_length_lt h₂
    have l₃ := Bytes.length_le_of_split? h₃
    dsimp only at l₁ l₂ l₃
    simp at h
    obtain ⟨_, rfl⟩ := h
    simp
    omega

/-- Whether the element stands for itself and not for a sequence of others. -/
def isPrimitive (e : Element) : Bool := !e.constructed

end Element

/-- Reads with `step` until it fails; the results, and what is left at the first failure. The step
must consume something, else reading ends. -/
def readMany {α : Type} (step : Bytes → Option (α × Bytes)) (bs : Bytes) : List α × Bytes :=
  match step bs with
  | none => ([], bs)
  | some (a, rest) =>
    if rest.length < bs.length then
      let more := readMany step rest
      (a :: more.1, more.2)
    else ([], bs)
termination_by bs.length

/-- Reads with `step` to the very end of the byte string. -/
def readAll? {α : Type} (step : Bytes → Option (α × Bytes)) (bs : Bytes) : Option (List α) :=
  match readMany step bs with
  | (as, []) => some as
  | _ => none

end PeerTrust.Der
