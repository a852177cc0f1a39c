import PeerTrust.Bytes

/-!
# Message padding and SHA-1

Every digest of this family pads the message to whole blocks: a one bit, zero bits, and the length
in bits. SHA-1 then mixes the blocks into five 32-bit words.

## Main definitions

* `Digest.pad` — the padded message
* `Digest.sha1` — the 20-byte digest
-/

namespace PeerTrust.Digest

/-- The message followed by the byte `0x80`, zero bytes, and its length in bits in the last
`lengthSize` bytes of a whole number of blocks. -/
def pad (blockSize lengthSize : Nat) (message : Bytes) : Bytes :=
  let used := message.length + 1 + lengthSize
  let zeros := (blockSize - used % blockSize) % blockSize
  message ++ 0x80 :: List.replicate zeros 0 ++ Bytes.ofNatPadded lengthSize (8 * message.length)

/-- The 32-bit words of a byte string. -/
def words32 (bs : Bytes) : List UInt32 :=
  (Bytes.chunks 4 bs).map fun w => UInt32.ofNat (Bytes.toNat w)

/-- The bits of `w` turned left by `n` places, for `0 < n < 32`. -/
def rotateLeft (w n : UInt32) : UInt32 := (w <<< n) ||| (w >>> (32 - n))

namespace Sha1

/-- The five words of the running digest. -/
structure State where
  a : UInt32
  b : UInt32
  c : UInt32
  d : UInt32
  e : UInt32

/-- The digest before the first block. -/
def initial : State := ⟨0x67452301, 0xEFCDAB89, 0x98BADCFE, 0x10325476, 0xC3D2E1F0⟩

/-- The mixing function and constant of round `t`. -/
def mix (t : Nat) (b c d : UInt32) : UInt32 :=
  if t < 20 then ((b &&& c) ||| (~~~b &&& d)) + 0x5A827999
  else if t < 40 then (b ^^^ c ^^^ d) + 0x6ED9EBA1
  else if t < 60 then ((b &&& c) ||| (b &&& d) ||| (c &&& d)) + 0x8F1BBCDC
  else (b ^^^ c ^^^ d) + 0xCA62C1D6

/-- One round with the schedule word `w`. -/
def round (t : Nat) (w : UInt32) (s : State) : State :=
  ⟨rotateLeft s.a 5 + mix t s.b s.c s.d + s.e + w, s.a, rotateLeft s.b 30, s.c, s.d⟩

/-- Runs the rounds `t`, `t + 1`, …, keeping the last sixteen schedule words in `window`. -/
def rounds : (left t : Nat) → (window : List UInt32) → State → State
  | 0, _, _, s => s
  | left + 1, t, window, s =>
    match window with
    | [] => s
    | w :: later =>
      let next := rotateLeft (w ^^^ window.getD 2 0 ^^^ window.getD 8 0 ^^^ window.getD 13 0) 1
      rounds left (t + 1) (later ++ [next]) (round t w s)

/-- The digest after one more block. -/
def absorb (s : State) (block : Bytes) : State :=
  let r := rounds 80 0 (words32 block) s
  ⟨s.a + r.a, s.b + r.b, s.c + r.c, s.d + r.d, s.e + r.e⟩

end Sha1

/-- The SHA-1 digest of a message. -/
def sha1 (message : Bytes) : Bytes :=
  let s := (Bytes.chunks 64 (pad 64 8 message)).foldl Sha1.absorb Sha1.initial
  [s.a, s.b, s.c, s.d, s.e].flatMap fun w => Bytes.ofNatPadded 4 w.toNat

end PeerTrust.Digest
