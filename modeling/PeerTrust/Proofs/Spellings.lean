import PeerTrust.Proofs.Checks
import PeerTrust.Proofs.Elements

/-!
# Spellings of a name

The octets that a parsed name keeps tell its relative names. So names of the same octets have the
same canonical encoding, and comparing octets first never changes an answer: names match exactly if
their canonical encodings agree. Revocation lists are compared with a name by that encoding, and are
looked up by a hash of it, and thus neither depends on how the name is spelled.

## Main definitions

* `Name.Parsed` — a name that was read from octets

## Main results

* `Name.relatives_eq_of_raw_eq` — the octets of a name tell its relative names
* `RevocationList.isIssuedBy_eq_same` — a list was issued under the names that match its issuer's
* `RevocationStore.value_check_congr` — matching names in a certificate make no difference
* `Name.spelling_does_not_count` — all of this for three parsed names
-/

namespace PeerTrust

namespace Name

/-! ### The octets of a name -/

/-- A name that was read from octets. -/
def Parsed (n : Name) : Prop := ∃ bs rest, read? bs = some (n, rest)

theorem Relative.selfDelimiting_read? : Der.SelfDelimiting Relative.read? := by
  intro bs r rest h
  obtain ⟨⟨e, after⟩, isSet, kept⟩ := Option.bind_eq_some_iff.mp h
  obtain ⟨front, rfl, again⟩ := Der.Element.selfDelimiting_readNumbered? _ isSet
  -- What is made of the element is the same, since it is the same element.
  dsimp only at kept
  split at kept
  case h_1 => cases kept
  case h_2 attributes nonempty =>
    obtain ⟨rfl, rfl⟩ := Prod.mk.inj (Option.some.inj kept)
    refine ⟨front, rfl, fun other => ?_⟩
    rw [Relative.read?, again]
    simp only [Option.bind_eq_bind, Option.bind_some]

/-- The octets of a parsed name are the head of a sequence and those of the relative names. -/
theorem Parsed.exists_head {n : Name} (parsed : n.Parsed) :
    ∃ header head consumed unread, n.raw = header ++ consumed
      ∧ (∀ other, Der.readHead (header ++ other) = some (head, other))
      ∧ Der.readMany Relative.read? (consumed ++ unread) = (n.relatives, unread) := by
  obtain ⟨bs, rest, h⟩ := parsed
  obtain ⟨⟨e, after⟩, isSequence, kept⟩ := Option.bind_eq_some_iff.mp h
  obtain ⟨rfl, rfl⟩ := Prod.mk.inj (Option.some.inj kept)
  obtain ⟨⟨found, after'⟩, isElement, kept'⟩ := Option.bind_eq_some_iff.mp isSequence
  dsimp only at kept'
  split at kept'
  case isFalse => cases kept'
  case isTrue =>
    obtain ⟨rfl, rfl⟩ := Prod.mk.inj (Option.some.inj kept')
    obtain ⟨header, head, rfl, -, reads⟩ := Der.Element.exists_head_of_read? isElement
    obtain ⟨consumed, content, -⟩ :=
      Der.readMany_append Relative.selfDelimiting_read? found.content
    refine ⟨header, head, consumed, (Der.readMany Relative.read? found.content).2, ?_, reads, ?_⟩
    · generalize (Der.readMany Relative.read? found.content).2 = unread at content ⊢
      have whole : header ++ (found.content ++ after') = header ++ consumed ++ (unread ++ after') := by
        simp [content]
      dsimp only
      rw [whole]
      exact List.take_left' (by simp; omega)
    · rw [← content]

/-- The octets of a parsed name tell its relative names. -/
theorem relatives_eq_of_raw_eq {a b : Name} (parsedA : a.Parsed) (parsedB : b.Parsed)
    (same : a.raw = b.raw) : a.relatives = b.relatives := by
  obtain ⟨header, head, consumed, unread, rawA, readsA, relativesA⟩ := parsedA.exists_head
  obtain ⟨header', head', consumed', unread', rawB, readsB, relativesB⟩ := parsedB.exists_head
  -- Both heads are read off the same octets.
  have sameHead := readsA consumed
  rw [← rawA, same, rawB, readsB] at sameHead
  obtain rfl : consumed' = consumed := congrArg Prod.snd (Option.some.inj sameHead)
  have unreadA : (Der.readMany Relative.read? (consumed' ++ unread)).2 = unread := by
    rw [relativesA]
  have unreadB : (Der.readMany Relative.read? (consumed' ++ unread')).2 = unread' := by
    rw [relativesB]
  have sameRelatives := Der.readMany_fst_eq Relative.selfDelimiting_read? unreadA unreadB
  rwa [relativesA, relativesB] at sameRelatives

/-- Parsed names match exactly if their canonical encodings agree. -/
theorem Parsed.same_iff {a b : Name} (parsedA : a.Parsed) (parsedB : b.Parsed) :
    same a b = true ↔ a.canonical = b.canonical :=
  Name.same_iff (relatives_eq_of_raw_eq parsedA parsedB)

end Name

/-! ### Lists and certificates -/

namespace RevocationList

theorem parsed_issuer {bs : Bytes} {list : RevocationList} (isList : ofDer? bs = some list) :
    list.issuer.Parsed := by
  obtain ⟨⟨e, after⟩, -, isList⟩ := Option.bind_eq_some_iff.mp isList
  obtain ⟨⟨signed, body⟩, -, isList⟩ := Option.bind_eq_some_iff.mp isList
  obtain ⟨⟨_, tbs⟩, -, isList⟩ := Option.bind_eq_some_iff.mp isList
  obtain ⟨⟨issuer, rest⟩, named, isList⟩ := Option.bind_eq_some_iff.mp isList
  obtain ⟨⟨thisUpdate, more⟩, -, isList⟩ := Option.bind_eq_some_iff.mp isList
  obtain ⟨_, -, isList⟩ := Option.bind_eq_some_iff.mp isList
  obtain ⟨⟨algorithm, body⟩, -, isList⟩ := Option.bind_eq_some_iff.mp isList
  obtain ⟨⟨signature, _⟩, -, isList⟩ := Option.bind_eq_some_iff.mp isList
  rw [← Option.some.inj isList]
  exact ⟨tbs, rest, named⟩

/-- A parsed list was issued under the names that match that of its issuer. -/
theorem isIssuedBy_eq_same {bs : Bytes} {list : RevocationList} {a : Name}
    (isList : ofDer? bs = some list) (parsed : a.Parsed) :
    list.isIssuedBy a = list.issuer.same a := by
  rw [Bool.eq_iff_iff, (parsed_issuer isList).same_iff parsed, isIssuedBy, decide_eq_true_iff]

end RevocationList

namespace RevocationStore

variable {a b : Name}

theorem value_checkFound_congr (same : a.canonical = b.canonical) (fs : FileSystem)
    (store : RevocationStore) {check check' : RevocationList → Logged Revocation.Verdict}
    (alike : ∀ list, (check list).value = (check' list).value) :
    (checkFound fs store a check).value = (checkFound fs store b check').value := by
  rw [checkFound, checkFound, Logged.value_bind, Logged.value_bind, find_congr same]
  cases (store.find fs b).value with
  | none => rfl
  | some list => exact alike list

theorem value_checkListed_congr {cert other : Certificate} (same : cert.serial = other.serial)
    (list : RevocationList) :
    (checkListed list cert).value = (checkListed list other).value := by
  rw [checkListed, checkListed, same]
  cases list.revokes other.serial <;> rfl

/-- Certificates that differ in the spelling of their names only get the same verdict. -/
theorem value_check_congr (cert other : Certificate)
    (subject : cert.subject.canonical = other.subject.canonical)
    (issuer : cert.issuer.canonical = other.issuer.canonical)
    (key : cert.publicKey = other.publicKey) (serial : cert.serial = other.serial)
    (fs : FileSystem) (store : RevocationStore) (now : Moment) :
    (store.check fs cert now).value = (store.check fs other now).value := by
  have own : (checkFound fs store cert.subject (checkOwn · cert now)).value
      = (checkFound fs store other.subject (checkOwn · other now)).value :=
    value_checkFound_congr subject fs store fun list => by rw [checkOwn, checkOwn, key]
  have above : (checkFound fs store cert.issuer (checkListed · cert)).value
      = (checkFound fs store other.issuer (checkListed · other)).value :=
    value_checkFound_congr issuer fs store (value_checkListed_congr serial)
  rw [check, check, Logged.value_bind, Logged.value_bind, own]
  cases (checkFound fs store other.subject (checkOwn · other now)).value with
  | reject reason => rfl
  | accept => exact above

end RevocationStore

/-! ### Parsed names -/

namespace Name

/-- How a name is spelled does not count. Parsed names match exactly if their canonical encodings
agree, and matching is an equivalence; names that match have the same hash; a list was issued under
the names that match its issuer's; and a store finds the same list under names that match, and comes
to the same verdict if one takes the place of the other in a certificate. -/
theorem spelling_does_not_count {a b c : Name} (parsedA : a.Parsed) (parsedB : b.Parsed)
    (parsedC : c.Parsed) :
    (same a b = true ↔ a.canonical = b.canonical)
      ∧ same a a = true
      ∧ (same a b = true → same b a = true)
      ∧ (same a b = true → same b c = true → same a c = true)
      ∧ (same a b = true → a.hash = b.hash)
      ∧ (∀ bs list, RevocationList.ofDer? bs = some list →
          list.isIssuedBy a = same list.issuer a)
      ∧ (same a b = true → ∀ (store : RevocationStore) (fs : FileSystem),
          store.find fs a = store.find fs b
            ∧ ∀ (cert : Certificate) (now : Moment),
              (store.check fs { cert with subject := a } now).value
                  = (store.check fs { cert with subject := b } now).value
                ∧ (store.check fs { cert with issuer := a } now).value
                  = (store.check fs { cert with issuer := b } now).value) := by
  have matching := parsedA.same_iff parsedB
  refine ⟨matching, (parsedA.same_iff parsedA).mpr rfl, fun h => ?_, fun h h' => ?_, fun h => ?_,
    fun bs list isList => RevocationList.isIssuedBy_eq_same isList parsedA, fun h store fs => ?_⟩
  · exact (parsedB.same_iff parsedA).mpr (matching.mp h).symm
  · exact (parsedA.same_iff parsedC).mpr
      ((matching.mp h).trans ((parsedB.same_iff parsedC).mp h'))
  · rw [hash, hash, matching.mp h]
  · have sameCanonical := matching.mp h
    refine ⟨RevocationStore.find_congr sameCanonical store, fun cert now => ⟨?_, ?_⟩⟩
    · exact RevocationStore.value_check_congr { cert with subject := a } { cert with subject := b }
        sameCanonical rfl rfl rfl fs store now
    · exact RevocationStore.value_check_congr { cert with issuer := a } { cert with issuer := b }
        rfl sameCanonical rfl rfl fs store now

/-! ### Three spellings of a name -/

namespace Spelled

/-- The octets of a name that is one common name, a string of this kind. -/
def octets (tag : UInt8) (content : Bytes) : Bytes :=
  Der.encode 0x30 (Der.encode 0x31 (Der.encode 0x30
    (Der.encode 0x06 [0x55, 0x04, 0x03] ++ Der.encode tag content)))

/-- The name that is read from them. -/
def name (tag : UInt8) (content : Bytes) : Name := ((read? (octets tag content)).getD (⟨[], []⟩, [])).1

/-- A string in UTF-8. -/
def plain : Name := name 0x0c (Bytes.ofAscii "Test CA")

/-- A printable string in other letters and with other blanks. -/
def spaced : Name := name 0x13 (Bytes.ofAscii "  TEST   ca ")

/-- A string of two bytes a character. -/
def wide : Name := name 0x1e ((Bytes.ofAscii "test ca").flatMap ([0, ·]))

end Spelled

open Spelled in
/-- A name in three spellings is one name for look-ups. -/
theorem spelling_does_not_count_of_three :
    (plain.Parsed ∧ spaced.Parsed ∧ wide.Parsed)
      ∧ [plain.raw, spaced.raw, wide.raw].Nodup
      ∧ same plain spaced = true ∧ same plain wide = true ∧ plain.hash = spaced.hash
      ∧ ∀ (store : RevocationStore) (fs : FileSystem), store.find fs plain = store.find fs spaced := by
  have parsed : plain.Parsed ∧ spaced.Parsed ∧ wide.Parsed := by
    have reads : (read? (octets 0x0c (Bytes.ofAscii "Test CA")) = some (plain, []))
        ∧ read? (octets 0x13 (Bytes.ofAscii "  TEST   ca ")) = some (spaced, [])
        ∧ read? (octets 0x1e ((Bytes.ofAscii "test ca").flatMap ([0, ·]))) = some (wide, []) := by
      decide +kernel
    exact ⟨⟨_, _, reads.1⟩, ⟨_, _, reads.2.1⟩, ⟨_, _, reads.2.2⟩⟩
  obtain ⟨matching, -, -, transitive, sameHash, -, sameList⟩ :=
    spelling_does_not_count parsed.1 parsed.2.1 parsed.2.2
  have first : same plain spaced = true := matching.mpr (by decide +kernel)
  have second : same spaced wide = true := by decide +kernel
  exact ⟨parsed, by decide +kernel, first, transitive first second, sameHash first,
    fun store fs => (sameList first store fs).1⟩

end Name

end PeerTrust
