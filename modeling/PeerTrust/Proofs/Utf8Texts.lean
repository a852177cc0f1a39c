import PeerTrust.Text.Utf8

/-!
# Texts in UTF-8

What is written of a text is read back as this text, so that texts that are written alike are the
same.

## Main results

* `Text.Utf8.scan_encodeChar_append` — a character is read back, whatever follows it
* `Text.Utf8.decode?_encode` — a text is read back
* `Text.Utf8.encode_inj` — texts that are written alike
-/

namespace PeerTrust.Text.Utf8

/-! ### One character -/

/-- A continuation byte that holds six bits is read, if it is in the range for its place. -/
theorem continuation_cons {low high : UInt8} {six : Nat} (left bits : Nat) (rest : Bytes)
    (small : six < 64) (above : low.toNat ≤ 0x80 + six) (below : 0x80 + six ≤ high.toNat) :
    continuation (left + 1) low high bits (UInt8.ofNat (0x80 + six) :: rest)
      = continuation left 0x80 0xBF (64 * bits + six) rest := by
  have byte : (UInt8.ofNat (0x80 + six)).toNat = 0x80 + six := by
    rw [UInt8.toNat_ofNat']
    omega
  have inRange : low ≤ UInt8.ofNat (0x80 + six) ∧ UInt8.ofNat (0x80 + six) ≤ high := by
    rw [UInt8.le_iff_toNat_le, UInt8.le_iff_toNat_le, byte]
    exact ⟨above, below⟩
  rw [continuation, if_pos inRange, byte, Nat.add_sub_cancel_left]

/-- A continuation byte for which there is no smaller range is read. -/
theorem continuation_cons_of_full {six : Nat} (left bits : Nat) (rest : Bytes) (small : six < 64) :
    continuation (left + 1) 0x80 0xBF bits (UInt8.ofNat (0x80 + six) :: rest)
      = continuation left 0x80 0xBF (64 * bits + six) rest := by
  have high : (0xBF : UInt8).toNat = 0x80 + 63 := rfl
  exact continuation_cons left bits rest small (Nat.le_add_right 0x80 six) (by omega)

/-- A lead byte and the continuation bytes that it announces are read as one character. -/
theorem scan_cons_of_continuation {b : UInt8} {lead : Lead} {bs rest : Bytes} {c : Char}
    (isLead : Lead.of? b = some lead)
    (follows : continuation lead.following lead.low lead.high lead.bits bs = (some c.toNat, rest)) :
    scan (b :: bs) = some c :: scan rest := by
  rw [scan, isLead]
  dsimp only
  rw [follows, Option.map_some, Char.ofNat_toNat]

variable {n : Nat}

theorem lead_one (small : n < 0x80) : Lead.of? (UInt8.ofNat n) = some ⟨0, 0x80, 0xBF, n⟩ := by
  have byte : (UInt8.ofNat n).toNat = n := by
    rw [UInt8.toNat_ofNat']
    omega
  simp only [Lead.of?, byte, if_pos small]

theorem lead_two (large : 2 ≤ n) (small : n < 0x20) :
    Lead.of? (UInt8.ofNat (0xC0 + n)) = some ⟨1, 0x80, 0xBF, n⟩ := by
  have byte : (UInt8.ofNat (0xC0 + n)).toNat = 0xC0 + n := by
    rw [UInt8.toNat_ofNat']
    omega
  simp only [Lead.of?, byte]
  rw [if_neg (by omega), if_neg (by omega), if_pos (by omega), Nat.add_sub_cancel_left]

/-- The range of the second byte leaves out overlong forms and surrogates. -/
theorem lead_three (small : n < 0x10) :
    Lead.of? (UInt8.ofNat (0xE0 + n))
      = some ⟨2, if n = 0 then 0xA0 else 0x80, if n = 0xD then 0x9F else 0xBF, n⟩ := by
  have byte : (UInt8.ofNat (0xE0 + n)).toNat = 0xE0 + n := by
    rw [UInt8.toNat_ofNat']
    omega
  simp only [Lead.of?, byte]
  rw [if_neg (by omega), if_neg (by omega), if_neg (by omega)]
  by_cases first : n = 0
  · subst first
    rfl
  by_cases surrogates : n = 0xD
  · subst surrogates
    rfl
  rw [if_neg (by omega), if_neg (by omega), if_pos (by omega), if_neg first, if_neg surrogates,
    Nat.add_sub_cancel_left]

/-- The range of the second byte leaves out overlong forms and what is beyond the last character. -/
theorem lead_four (small : n < 5) :
    Lead.of? (UInt8.ofNat (0xF0 + n))
      = some ⟨3, if n = 0 then 0x90 else 0x80, if n = 4 then 0x8F else 0xBF, n⟩ := by
  match n, small with
  | 0, _ | 1, _ | 2, _ | 3, _ | 4, _ => rfl

/-- What is written of a character is read back, whatever follows it. -/
theorem scan_encodeChar_append (c : Char) (rest : Bytes) :
    scan (encodeChar c ++ rest) = some c :: scan rest := by
  have valid : c.toNat < 0xD800 ∨ 0xDFFF < c.toNat ∧ c.toNat < 0x110000 := c.valid
  -- The bytes of a character hold its number in base 64, the first of them what is left of it.
  by_cases one : c.toNat < 0x80
  · have written : encodeChar c = [UInt8.ofNat c.toNat] := by simp [encodeChar, one]
    rw [written, List.singleton_append]
    exact scan_cons_of_continuation (lead_one one) rfl
  by_cases two : c.toNat < 0x800
  · have written : encodeChar c
        = [UInt8.ofNat (0xC0 + c.toNat / 64), UInt8.ofNat (0x80 + c.toNat % 64)] := by
      simp [encodeChar, one, two]
    rw [written, List.cons_append, List.singleton_append]
    refine scan_cons_of_continuation (lead_two (by omega) (by omega)) ?_
    rw [continuation_cons_of_full _ _ _ (by omega), continuation, Nat.div_add_mod]
  by_cases three : c.toNat < 0x10000
  · have written : encodeChar c = [UInt8.ofNat (0xE0 + c.toNat / 4096),
        UInt8.ofNat (0x80 + c.toNat / 64 % 64), UInt8.ofNat (0x80 + c.toNat % 64)] := by
      simp [encodeChar, one, two, three]
    have number : 64 * (64 * (c.toNat / 4096) + c.toNat / 64 % 64) + c.toNat % 64 = c.toNat := by
      omega
    rw [written, List.cons_append, List.cons_append, List.singleton_append]
    refine scan_cons_of_continuation (lead_three (by omega)) ?_
    dsimp only
    rw [continuation_cons _ _ _ (by omega), continuation_cons_of_full _ _ _ (by omega),
      continuation, number]
    · split
      · show 0xA0 ≤ _
        omega
      · show 0x80 ≤ _
        omega
    · split
      · show _ ≤ 0x9F
        omega
      · show _ ≤ 0xBF
        omega
  · have written : encodeChar c = [UInt8.ofNat (0xF0 + c.toNat / 262144),
        UInt8.ofNat (0x80 + c.toNat / 4096 % 64), UInt8.ofNat (0x80 + c.toNat / 64 % 64),
        UInt8.ofNat (0x80 + c.toNat % 64)] := by
      simp [encodeChar, one, two, three]
    have number : 64 * (64 * (64 * (c.toNat / 262144) + c.toNat / 4096 % 64) + c.toNat / 64 % 64)
        + c.toNat % 64 = c.toNat := by
      omega
    rw [written, List.cons_append, List.cons_append, List.cons_append, List.singleton_append]
    refine scan_cons_of_continuation (lead_four (by omega)) ?_
    dsimp only
    rw [continuation_cons _ _ _ (by omega), continuation_cons_of_full _ _ _ (by omega),
      continuation_cons_of_full _ _ _ (by omega), continuation, number]
    · split
      · show 0x90 ≤ _
        omega
      · show 0x80 ≤ _
        omega
    · split
      · show _ ≤ 0x8F
        omega
      · show _ ≤ 0xBF
        omega

/-! ### Texts -/

/-- A text is read back from what is written of it. -/
theorem scan_encode (cs : List Char) : scan (encode cs) = cs.map some := by
  induction cs with
  | nil => rw [encode, List.flatMap_nil, scan, List.map_nil]
  | cons c cs ih =>
    rw [encode, List.flatMap_cons, scan_encodeChar_append, ← encode, ih, List.map_cons]

theorem decode?_encode (cs : List Char) : decode? (encode cs) = some cs := by
  rw [decode?, scan_encode]
  induction cs with
  | nil => rfl
  | cons c cs ih => simp [List.mapM_cons, ih]

/-- Texts that are written alike are the same. -/
theorem encode_inj {cs ds : List Char} : encode cs = encode ds ↔ cs = ds := by
  refine ⟨fun same => ?_, congrArg encode⟩
  have read := decode?_encode cs
  rw [same, decode?_encode] at read
  exact (Option.some.inj read).symm

end PeerTrust.Text.Utf8
