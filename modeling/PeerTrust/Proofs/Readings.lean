import PeerTrust.Certificate.Basic
import PeerTrust.Proofs.ShortestForms
import PeerTrust.Proofs.Steps

/-!
# Two readings of a certificate

Paths are built from the strict reading of certificates, which compares names by their bytes, while
revocation looks at the lenient one, which compares them by what is written. Here it is shown that
the lenient reader finds the names of a certificate where the strict one found them, so that names
of the same bytes are the same name to it.

## Main definitions

* `Name.relativesIn` — the relative names that the content of a name holds

## Main results

* `Der.Element.read?_of_strict` — what is read strictly is read leniently
* `Certification.Certificate.ofDer_eq_ok`, `Certificate.ofBytes?_eq_some` — where either reading
  finds the names
* `Certification.Certificate.names_agree` — they are the same places
-/

namespace PeerTrust

namespace Der

/-- An element that is read strictly is read leniently, with the same content and rest. -/
theorem Element.read?_of_strict {bs content rest : Bytes} {tag : UInt8}
    (h : Strict.read? bs = some (tag, content, rest)) :
    ∃ e : Element, Element.read? bs = some (e, rest) ∧ e.number = tag.toNat % 32
      ∧ e.content = content := by
  obtain ⟨low, fits, rfl⟩ := Strict.read?_eq_some_iff.mp h
  have small : content.length < 2 ^ 64 := Nat.lt_trans fits (by decide)
  exact ⟨_, Element.read?_encode low small rest, rfl, rfl⟩

end Der

/-! ### What strict readers accept -/

namespace Certification

variable {α : Type} {tag : UInt8} {bs content rest : Bytes}

theorem expect_eq_ok (h : expect tag bs = .ok (content, rest)) :
    Der.Strict.read? bs = some (tag, content, rest) := by
  obtain ⟨⟨found, inside⟩, mid, read, h⟩ := bind_reader_eq_ok_iff.mp h
  have element : Der.Strict.read? bs = some (found, inside, mid) := by
    unfold element at read
    split at read
    case h_1 other otherInside otherRest isRead =>
      split at read
      · obtain ⟨⟨rfl, rfl⟩, rfl⟩ : (other = found ∧ otherInside = inside) ∧ otherRest = mid := by
          simpa using read
        exact isRead
      · cases read
    case h_2 => cases read
  dsimp only at h
  split at h
  case isTrue isTag =>
    obtain ⟨rfl, rfl⟩ := Prod.mk.inj (Except.ok.inj h)
    rw [element, isTag]
  case isFalse => cases h

theorem whole_eq_ok_iff {leftover : Problem} {r : Reader α} {a : α} :
    whole leftover r bs = .ok a ↔ r bs = .ok (a, []) := by
  unfold whole
  split <;> simp_all

theorem nested_eq_ok_iff {reason : Problem} {inner : Reader α} {a : α} :
    nested tag reason inner bs = .ok (a, rest) ↔
      ∃ content, expect tag bs = .ok (content, rest) ∧ inner content = .ok (a, []) := by
  unfold nested
  split
  case h_1 e refused => simp [refused]
  case h_2 content after found =>
    simp only [map_eq_ok_iff, whole_eq_ok_iff, found]
    constructor
    · rintro ⟨made, read, same⟩
      obtain ⟨rfl, rfl⟩ := Prod.mk.inj same
      exact ⟨content, rfl, read⟩
    · rintro ⟨_, ⟨⟩, read⟩
      exact ⟨a, read, rfl⟩

theorem octetsOf_eq_ok {r : Reader α} {octets : Bytes} {a : α}
    (h : octetsOf r bs = .ok ((octets, a), rest)) : r bs = .ok (a, rest) := by
  unfold octetsOf at h
  split at h
  case h_1 found after read =>
    obtain ⟨same, rfl⟩ := Prod.mk.inj (Except.ok.inj h)
    obtain ⟨-, rfl⟩ := Prod.mk.inj same
    exact read
  case h_2 => cases h

/-- The strict reading of a certificate finds the names after the version, the serial number and the
algorithm. -/
theorem Certificate.ofDer_eq_ok {der : Bytes} {c : Certificate} (h : ofDer der = .ok c) :
    c.der = der ∧ ∃ outer body unsigned version afterVersion serial afterSerial algorithm
        afterAlgorithm afterIssuer afterValidity afterSubject,
      expect 0x30 der = .ok (outer, []) ∧ expect 0x30 outer = .ok (body, unsigned)
        ∧ expect 0xA0 body = .ok (version, afterVersion)
        ∧ expect 0x02 afterVersion = .ok (serial, afterSerial)
        ∧ expect 0x30 afterSerial = .ok (algorithm, afterAlgorithm)
        ∧ expect 0x30 afterAlgorithm = .ok (c.issuer, afterIssuer)
        ∧ expect 0x30 afterIssuer = .ok (c.validity, afterValidity)
        ∧ expect 0x30 afterValidity = .ok (c.subject, afterSubject) := by
  unfold ofDer at h
  obtain ⟨⟨body, signed⟩, parts, h⟩ := bind_eq_ok_iff.mp h
  obtain ⟨outer, isOuter, parts⟩ := nested_eq_ok_iff.mp (whole_eq_ok_iff.mp parts)
  unfold signedParts at parts
  obtain ⟨⟨octets, inside⟩, unsigned, isBody, parts⟩ := bind_reader_eq_ok_iff.mp parts
  obtain ⟨_, _, -, parts⟩ := bind_reader_eq_ok_iff.mp parts
  obtain ⟨_, _, -, parts⟩ := bind_reader_eq_ok_iff.mp parts
  -- Algorithm and signature are read behind the body, and do not matter here.
  obtain ⟨same, -⟩ := Prod.mk.inj (Except.ok.inj parts)
  obtain ⟨rfl, rfl⟩ := Prod.mk.inj same
  have isBody := octetsOf_eq_ok isBody
  have h := whole_eq_ok_iff.mp h
  unfold Certificate.body at h
  obtain ⟨_, afterVersion, isVersion, h⟩ := bind_reader_eq_ok_iff.mp h
  obtain ⟨version, isVersion, -⟩ := nested_eq_ok_iff.mp isVersion
  obtain ⟨serial, afterSerial, isSerial, h⟩ := bind_reader_eq_ok_iff.mp h
  obtain ⟨algorithm, afterAlgorithm, isAlgorithm, h⟩ := bind_reader_eq_ok_iff.mp h
  dsimp only at h
  split at h
  · cases h
  · obtain ⟨issuer, afterIssuer, isIssuer, h⟩ := bind_reader_eq_ok_iff.mp h
    obtain ⟨validity, afterValidity, isValidity, h⟩ := bind_reader_eq_ok_iff.mp h
    obtain ⟨subject, afterSubject, isSubject, h⟩ := bind_reader_eq_ok_iff.mp h
    obtain ⟨_, _, -, h⟩ := bind_reader_eq_ok_iff.mp h
    obtain ⟨_, _, -, h⟩ := bind_reader_eq_ok_iff.mp h
    obtain ⟨rfl, -⟩ := Prod.mk.inj (Except.ok.inj h)
    exact ⟨rfl, outer, _, _, version, _, serial, _, algorithm, _, _, _, _, isOuter, isBody,
      isVersion, isSerial, isAlgorithm, isIssuer, isValidity, isSubject⟩

end Certification

/-! ### What the lenient readers make of it -/

/-- The relative names that the content of a name holds. -/
def Name.relativesIn (content : Bytes) : List Name.Relative :=
  (Der.readMany Name.Relative.read? content).1

section Lenient

open Certification (expect expect_eq_ok)

variable {tag : UInt8} {bs content rest after : Bytes} {number : Nat}

theorem Der.Element.readNumbered?_agrees {e : Der.Element}
    (strict : expect tag bs = .ok (content, rest))
    (lenient : Der.Element.readNumbered? number bs = some (e, after)) :
    e.content = content ∧ after = rest := by
  obtain ⟨found, read, -, sameContent⟩ := Der.Element.read?_of_strict (expect_eq_ok strict)
  obtain ⟨isElement, -⟩ := Der.Element.readNumbered?_eq_some_iff.mp lenient
  obtain ⟨rfl, rfl⟩ := Prod.mk.inj (Option.some.inj (read.symm.trans isElement))
  exact ⟨sameContent, rfl⟩

theorem Certificate.skipVersion?_agrees (strict : expect 0xA0 bs = .ok (content, rest))
    (lenient : Certificate.skipVersion? bs = some after) : after = rest := by
  obtain ⟨found, read, isZero, -⟩ := Der.Element.read?_of_strict (expect_eq_ok strict)
  have isZero : found.number = 0 := isZero
  simp only [skipVersion?, read, isZero, Option.bind_eq_bind, Option.bind_some] at lenient
  -- The strict reader found an element of number 0, so that there is a version to pass over.
  split at lenient
  · exact absurd rfl ‹_›
  · split at lenient
    · cases lenient
    · obtain ⟨_, -, same⟩ := Option.bind_eq_some_iff.mp lenient
      exact (Option.some.inj same).symm

theorem Serial.read?_agrees {serial : Bytes} (strict : expect tag bs = .ok (content, rest))
    (lenient : Serial.read? bs = some (serial, after)) : after = rest := by
  obtain ⟨⟨e, _⟩, read, same⟩ := Option.bind_eq_some_iff.mp lenient
  obtain ⟨-, rfl⟩ := Prod.mk.inj (Option.some.inj same)
  exact (Der.Element.readNumbered?_agrees strict read).2

theorem AlgorithmIdentifier.read?_agrees {algorithm : AlgorithmIdentifier}
    (strict : expect tag bs = .ok (content, rest))
    (lenient : AlgorithmIdentifier.read? bs = some (algorithm, after)) : after = rest := by
  obtain ⟨⟨e, _⟩, read, lenient⟩ := Option.bind_eq_some_iff.mp lenient
  obtain ⟨-, rfl⟩ := Der.Element.readNumbered?_agrees strict read
  obtain ⟨⟨_, body⟩, -, lenient⟩ := Option.bind_eq_some_iff.mp lenient
  -- With parameters or without, the reader goes on behind the whole element.
  dsimp only at lenient
  split at lenient
  · exact (Prod.mk.inj (Option.some.inj lenient)).2.symm
  · obtain ⟨⟨_, _⟩, -, same⟩ := Option.bind_eq_some_iff.mp lenient
    exact (Prod.mk.inj (Option.some.inj same)).2.symm

theorem Name.read?_agrees {name : Name} (strict : expect tag bs = .ok (content, rest))
    (lenient : Name.read? bs = some (name, after)) :
    after = rest ∧ name.relatives = relativesIn content := by
  obtain ⟨⟨e, _⟩, read, same⟩ := Option.bind_eq_some_iff.mp lenient
  obtain ⟨rfl, rfl⟩ := Der.Element.readNumbered?_agrees strict read
  obtain ⟨rfl, rfl⟩ := Prod.mk.inj (Option.some.inj same)
  exact ⟨rfl, rfl⟩

/-- The lenient reading finds the names after a version, a serial number and an algorithm, too. -/
theorem Certificate.ofBytes?_eq_some {der : Bytes} {d : Certificate} (h : ofBytes? der = some d) :
    ∃ whole unread signed unsigned afterVersion serial afterSerial algorithm afterAlgorithm
        afterIssuer validity afterValidity afterSubject,
      Der.Element.readNumbered? Der.Tag.sequence der = some (whole, unread)
        ∧ Der.Element.readNumbered? Der.Tag.sequence whole.content = some (signed, unsigned)
        ∧ skipVersion? signed.content = some afterVersion
        ∧ Serial.read? afterVersion = some (serial, afterSerial)
        ∧ AlgorithmIdentifier.read? afterSerial = some (algorithm, afterAlgorithm)
        ∧ Name.read? afterAlgorithm = some (d.issuer, afterIssuer)
        ∧ Der.Element.readNumbered? Der.Tag.sequence afterIssuer = some (validity, afterValidity)
        ∧ Name.read? afterValidity = some (d.subject, afterSubject) := by
  unfold ofBytes? at h
  obtain ⟨⟨_, _⟩, parsed, rfl⟩ := Option.map_eq_some_iff.mp h
  unfold read? at parsed
  obtain ⟨⟨whole, unread⟩, readWhole, parsed⟩ := Option.bind_eq_some_iff.mp parsed
  obtain ⟨⟨signed, unsigned⟩, readSigned, parsed⟩ := Option.bind_eq_some_iff.mp parsed
  obtain ⟨_, readVersion, parsed⟩ := Option.bind_eq_some_iff.mp parsed
  obtain ⟨⟨_, _⟩, readSerial, parsed⟩ := Option.bind_eq_some_iff.mp parsed
  obtain ⟨⟨_, _⟩, readAlgorithm, parsed⟩ := Option.bind_eq_some_iff.mp parsed
  obtain ⟨⟨issuer, _⟩, readIssuer, parsed⟩ := Option.bind_eq_some_iff.mp parsed
  obtain ⟨⟨validity, _⟩, readValidity, parsed⟩ := Option.bind_eq_some_iff.mp parsed
  obtain ⟨⟨_, _⟩, -, parsed⟩ := Option.bind_eq_some_iff.mp parsed
  obtain ⟨⟨_, _⟩, -, parsed⟩ := Option.bind_eq_some_iff.mp parsed
  obtain ⟨⟨subject, _⟩, readSubject, parsed⟩ := Option.bind_eq_some_iff.mp parsed
  -- What follows the subject is read, and does not matter here.
  obtain ⟨⟨_, _⟩, -, parsed⟩ := Option.bind_eq_some_iff.mp parsed
  obtain ⟨_, -, parsed⟩ := Option.bind_eq_some_iff.mp parsed
  obtain ⟨_, -, parsed⟩ := Option.bind_eq_some_iff.mp parsed
  obtain ⟨_, -, parsed⟩ := Option.bind_eq_some_iff.mp parsed
  obtain ⟨⟨_, _⟩, -, parsed⟩ := Option.bind_eq_some_iff.mp parsed
  obtain ⟨⟨_, _⟩, -, parsed⟩ := Option.bind_eq_some_iff.mp parsed
  obtain ⟨rfl, -⟩ := Prod.mk.inj (Option.some.inj parsed)
  exact ⟨whole, unread, signed, unsigned, _, _, _, _, _, _, validity, _, _, readWhole, readSigned,
    readVersion, readSerial, readAlgorithm, readIssuer, readValidity, readSubject⟩

/-- The lenient reading finds the names of a certificate where the strict one found them. -/
theorem Certification.Certificate.names_agree {der : Bytes} {c : Certification.Certificate}
    {d : PeerTrust.Certificate} (strict : Certificate.ofDer der = .ok c)
    (lenient : PeerTrust.Certificate.ofBytes? der = some d) :
    d.issuer.relatives = Name.relativesIn c.issuer
      ∧ d.subject.relatives = Name.relativesIn c.subject := by
  obtain ⟨-, _, _, _, _, _, _, _, _, _, _, _, _, isOuter, isBody, isVersion, isSerial, isAlgorithm,
    isIssuer, isValidity, isSubject⟩ := Certificate.ofDer_eq_ok strict
  obtain ⟨_, _, _, _, _, _, _, _, _, _, _, _, _, readWhole, readSigned, readVersion, readSerial,
    readAlgorithm, readIssuer, readValidity, readSubject⟩ :=
    PeerTrust.Certificate.ofBytes?_eq_some lenient
  -- Element by element, both readers leave the same bytes to what comes next.
  obtain ⟨rfl, rfl⟩ := Der.Element.readNumbered?_agrees isOuter readWhole
  obtain ⟨rfl, rfl⟩ := Der.Element.readNumbered?_agrees isBody readSigned
  obtain rfl := Certificate.skipVersion?_agrees isVersion readVersion
  obtain rfl := Serial.read?_agrees isSerial readSerial
  obtain rfl := AlgorithmIdentifier.read?_agrees isAlgorithm readAlgorithm
  obtain ⟨rfl, sameIssuer⟩ := Name.read?_agrees isIssuer readIssuer
  obtain ⟨-, rfl⟩ := Der.Element.readNumbered?_agrees isValidity readValidity
  obtain ⟨-, sameSubject⟩ := Name.read?_agrees isSubject readSubject
  exact ⟨sameIssuer, sameSubject⟩

end Lenient

end PeerTrust
