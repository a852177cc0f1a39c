import PeerTrust.Bytes

/-!
# Writing tagged elements

An element is written as its tag byte, the length of its content in the shortest form, and the
content.

## Main definitions

* `Der.lengthOctets` — the shortest length form
* `Der.encode` — a tagged element

## Main results

* `Der.encode_eq` — the three parts of a written element
-/

namespace PeerTrust.Der

/-- The length `n` in its shortest form: one byte below 128; otherwise a byte that counts the
length bytes, and the length itself without leading zero bytes. -/
def lengthOctets (n : Nat) : Bytes :=
  if n < 0x80 then [UInt8.ofNat n]
  else UInt8.ofNat (0x80 + (Bytes.ofNat n).length) :: Bytes.ofNat n

/-- The element with this tag byte and content. -/
def encode (tag : UInt8) (content : Bytes) : Bytes :=
  tag :: lengthOctets content.length ++ content

theorem encode_eq (tag : UInt8) (content : Bytes) :
    encode tag content = [tag] ++ lengthOctets content.length ++ content := rfl

theorem lengthOctets_of_lt {n : Nat} (h : n < 0x80) : lengthOctets n = [UInt8.ofNat n] := by
  simp [lengthOctets, h]

end PeerTrust.Der
