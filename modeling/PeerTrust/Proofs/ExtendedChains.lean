import PeerTrust.Proofs.ListsOnPath
import PeerTrust.Proofs.Outcomes

/-!
# Peers that present more certificates

A certificate that was presented stays so when the peer adds others behind it, and whatever store
rejected it rejects it again. The anchor behind the certificate presented last does not stay: behind
another last certificate there is another anchor, or none. A rejection of the anchor is then upheld
only by what else is put to the store.

## Main definitions

* `Certificate.AnsweredBy` — others make up for a certificate in every store
* `Presented.extend` — what a peer presents that adds certificates
* `Verifier.RejectionSurvives` — whatever store rejects a peer does so with the added certificates
* `Verifier.AnchorAnswered` — the others make up for the anchor that was behind the last certificate

## Main results

* `Certificate.answeredBy_iff` — the others make up for a certificate exactly if no store that
  accepts them all rejects it
* `Verifier.rejection_survives_iff` — a rejection survives exactly if the anchor is answered for
-/

namespace PeerTrust

/-! ### Certificates that others make up for -/

/-- All certificates of a list that bear a name have keys that signed the revocation list. -/
def RevocationList.SignedByAll (list : RevocationList) (certs : List Certificate) (name : Name) :
    Prop :=
  ∀ cert ∈ certs, cert.subject.canonical = name.canonical →
    list.signatureResult cert.publicKey = .valid

/-- Others make up for a certificate: one bears its name, its key signed whatever all those keys
signed, and unless no list can satisfy the keys of its issuer, one stands for its serial number. -/
structure Certificate.AnsweredBy (cert : Certificate) (others : List Certificate) : Prop where
  named : ∃ other ∈ others, other.subject.canonical = cert.subject.canonical
  signed : ∀ list : RevocationList, list.SignedByAll others cert.subject →
    list.signatureResult cert.publicKey = .valid
  listed : ∀ list : RevocationList, list.SignedByAll others cert.issuer →
    ∃ other ∈ others, other.issuer.canonical = cert.issuer.canonical
      ∧ Bytes.significant other.serial = Bytes.significant cert.serial

/-- The signature of a list on one of another issuer that names a serial number and is due now. -/
def RevocationList.naming (list : RevocationList) (issuer : Name) (serial : Bytes) (now : Moment) :
    RevocationList :=
  { list.reissued issuer now with serials := [serial] }

theorem RevocationList.revokes_naming_iff {list : RevocationList} {issuer : Name} {now : Moment}
    {named serial : Bytes} :
    (list.naming issuer named now).revokes serial = true ↔
      Bytes.significant named = Bytes.significant serial := by
  simp [revokes_iff, naming]

theorem RevocationList.revokes_congr {list : RevocationList} {serial other : Bytes}
    (same : Bytes.significant serial = Bytes.significant other) :
    list.revokes serial = list.revokes other := by
  rw [revokes, revokes, same]

namespace Certificate

open RevocationStore (ofList check_eq_accept_iff check_ofList_eq_accept_iff inOrder_of_check_accept
  find_congr)

variable {fs : FileSystem} {store : RevocationStore} {now : Moment} {cert : Certificate}
  {others : List Certificate}

/-- A store that accepts the others accepts a certificate that they make up for. -/
theorem AnsweredBy.check_accept (answered : cert.AnsweredBy others)
    (accepted : ∀ other ∈ others, (store.check fs other now).value = .accept) :
    (store.check fs cert now).value = .accept := by
  -- Whoever bears a name answers for the list under it.
  have inOrder {name : Name} {list : RevocationList}
      (isList : (store.find fs name).value = some list) (other : Certificate) (mem : other ∈ others)
      (named : other.subject.canonical = name.canonical) : list.InOrder other.publicKey now :=
    inOrder_of_check_accept (accepted other mem) named isList
  refine check_eq_accept_iff.mpr ⟨?_, ?_⟩
  · intro list isList
    obtain ⟨other, mem, named⟩ := answered.named
    have valid := answered.signed list fun other mem named => (inOrder isList other mem named).1
    exact ⟨valid, (inOrder isList other mem named).2⟩
  · intro list isList
    obtain ⟨other, mem, sameIssuer, sameSerial⟩ :=
      answered.listed list fun other mem named => (inOrder isList other mem named).1
    obtain ⟨-, unlisted⟩ := check_eq_accept_iff.mp (accepted other mem)
    rw [← RevocationList.revokes_congr sameSerial]
    apply unlisted
    rw [find_congr sameIssuer]
    exact isList

/-- If no store accepts the others and rejects the certificate, then they make up for it. -/
theorem answeredBy_of_check_accept
    (upheld : ∀ store : RevocationStore,
      (∀ other ∈ others, (store.check .empty other now).value = .accept) →
        (store.check .empty cert now).value = .accept) : cert.AnsweredBy others where
  named := by
    by_contra unnamed
    -- A list that does not say when the next one is due gets past all who bear another name.
    have accepted := upheld (ofList (.bare cert.subject cert.algorithm now)) fun other mem =>
      RevocationStore.check_ofList_accept rfl fun same => absurd ⟨other, mem, same.symm⟩ unnamed
    obtain ⟨own, -⟩ := check_ofList_eq_accept_iff.mp accepted
    obtain ⟨-, next, due, -⟩ := own rfl
    exact nomatch due
  signed := by
    intro list signed
    have accepted := upheld (ofList (list.reissued cert.subject now)) fun other mem =>
      RevocationStore.check_ofList_accept rfl fun same =>
        ⟨signed other mem same.symm, now, rfl, Int.le_refl now⟩
    obtain ⟨own, -⟩ := check_ofList_eq_accept_iff.mp accepted
    exact (own rfl).1
  listed := by
    intro list signed
    by_contra unlisted
    -- A list that names this serial number only gets past all others.
    have passed (other : Certificate) (mem : other ∈ others) :
        ((ofList (list.naming cert.issuer cert.serial now)).check .empty other now).value
          = .accept := by
      refine check_ofList_eq_accept_iff.mpr ⟨fun same => ?_, fun same => ?_⟩
      · exact ⟨signed other mem same.symm, now, rfl, Int.le_refl now⟩
      · rw [← Bool.not_eq_true, RevocationList.revokes_naming_iff]
        exact fun sameSerial => unlisted ⟨other, mem, same.symm, sameSerial.symm⟩
    obtain ⟨-, clear⟩ := check_ofList_eq_accept_iff.mp (upheld _ passed)
    have named : (list.naming cert.issuer cert.serial now).revokes cert.serial = true :=
      RevocationList.revokes_naming_iff.mpr rfl
    exact Bool.false_ne_true ((clear rfl).symm.trans named)

/-- The others make up for a certificate exactly if no store that accepts them all rejects it. -/
theorem answeredBy_iff (now : Moment) :
    cert.AnsweredBy others ↔
      ∀ (fs : FileSystem) (store : RevocationStore),
        (∀ other ∈ others, (store.check fs other now).value = .accept) →
          (store.check fs cert now).value = .accept :=
  ⟨fun answered _ _ accepted => answered.check_accept accepted,
    fun upheld => answeredBy_of_check_accept fun store => upheld .empty store⟩

end Certificate

/-! ### Added certificates -/

/-- What a peer presents that adds certificates at the end. -/
def Presented.extend (p : Presented) (extra : List Bytes) : Presented :=
  { p with others := p.others ++ extra }

namespace Verifier

variable {v : Verifier} {fs : FileSystem} {store : RevocationStore} {report : Option Report}
  {p : Presented} {extra : List Bytes} {server : ServerName} {now : Moment} {path : CertPath}
  {cert : Certificate} {reason : RejectReason} {chain : List Certificate}

/-- Whatever store rejects a certificate of the peer turns the peer away with the added certificates
too. -/
def RejectionSurvives (v : Verifier) (p : Presented) (extra : List Bytes) (server : ServerName)
    (now : Moment) : Prop :=
  ∀ fs store report cert reason, v.Rejects fs (some store) p server now cert reason →
    ∃ failure, (v.verify fs (some store) report (p.extend extra) server now).value.1
      = .error failure

/-- If the added certificates can be read, then what is put to a store with them makes up for the
anchor that was put to it without them. -/
def AnchorAnswered (v : Verifier) (p : Presented) (extra : List Bytes) : Prop :=
  ∀ chain extras last anchor, p.all.mapM Certificate.ofBytes? = some chain →
    extra.mapM Certificate.ofBytes? = some extras → chain.getLast? = some last →
      v.IsAnchorBehind last anchor → anchor.AnsweredBy (v.visited (chain ++ extras))

theorem readings_extend_eq_some_iff {whole : List Certificate} :
    (p.extend extra).all.mapM Certificate.ofBytes? = some whole ↔
      ∃ chain extras, p.all.mapM Certificate.ofBytes? = some chain
        ∧ extra.mapM Certificate.ofBytes? = some extras ∧ whole = chain ++ extras := by
  have all : (p.extend extra).all = p.all ++ extra := rfl
  rw [all, List.mapM_append]
  cases p.all.mapM Certificate.ofBytes? <;> cases extra.mapM Certificate.ofBytes? <;>
    simp [eq_comm]

/-- A peer that is not turned away with the added certificates had them all accepted. -/
theorem checked_of_verify_extend_ne_error
    (passed : ¬∃ failure, (v.verify fs (some store) report (p.extend extra) server now).value.1
      = .error failure) :
    ∃ chain extras, p.all.mapM Certificate.ofBytes? = some chain
      ∧ extra.mapM Certificate.ofBytes? = some extras
      ∧ ∀ cert ∈ v.visited (chain ++ extras), (store.check fs cert now).value = .accept := by
  cases result : (v.verify fs (some store) report (p.extend extra) server now).value.1 with
  | error failure => exact absurd ⟨failure, result⟩ passed
  | ok path =>
    obtain ⟨-, whole, readable, checked⟩ := verify_eq_ok_iff.mp result
    obtain ⟨chain, extras, isChain, areExtras, rfl⟩ := readings_extend_eq_some_iff.mp readable
    exact ⟨chain, extras, isChain, areExtras, checked⟩

/-- What was presented before is put to the store with the added certificates. -/
theorem mem_visited_append {extras : List Certificate} (presented : cert ∈ chain) :
    cert ∈ v.visited (chain ++ extras) :=
  List.mem_append_left _ (List.mem_append_left _ presented)

/-- A presented certificate that is rejected is rejected again. -/
theorem presented_rejection_survives
    (rejects : v.Rejects fs (some store) p server now cert reason)
    (readable : p.all.mapM Certificate.ofBytes? = some chain) (presented : cert ∈ chain) :
    ∃ failure, (v.verify fs (some store) report (p.extend extra) server now).value.1
      = .error failure := by
  by_contra passed
  obtain ⟨_, extras, sameChain, -, checked⟩ := checked_of_verify_extend_ne_error passed
  obtain rfl := Option.some.inj (readable.symm.trans sameChain)
  obtain ⟨-, _, _, ⟨⟩, -, _, -, rejected, -⟩ := rejects
  have accepted := checked cert (mem_visited_append presented)
  exact nomatch rejected.symm.trans accepted

/-- If the anchor is answered for, then its rejection is upheld. -/
theorem rejectionSurvives_of_anchorAnswered (answered : v.AnchorAnswered p extra) :
    v.RejectionSurvives p extra server now := by
  intro fs store report cert reason rejects
  obtain ⟨-, _, chain, ⟨⟩, readable, depth, visits, rejected, -⟩ := id rejects
  rcases visits with presented | ⟨-, last, isLast, behind⟩
  · exact presented_rejection_survives rejects readable (List.mem_of_getElem? presented)
  · by_contra passed
    obtain ⟨_, extras, sameChain, areExtras, checked⟩ := checked_of_verify_extend_ne_error passed
    obtain rfl := Option.some.inj (readable.symm.trans sameChain)
    have accepted :=
      (answered chain extras last cert readable areExtras isLast behind).check_accept checked
    exact nomatch rejected.symm.trans accepted

/-- If every rejection is upheld, then the anchor is answered for. -/
theorem anchorAnswered_of_rejectionSurvives {longer : CertPath}
    (survives : v.RejectionSurvives p extra server now)
    (found : v.preVerify p.endEntity p.others server now = .ok path)
    (foundLonger : v.preVerify p.endEntity (p.others ++ extra) server now = .ok longer) :
    v.AnchorAnswered p extra := by
  intro chain extras last anchor readable areExtras isLast behind
  refine (Certificate.answeredBy_iff now).mpr fun fs store checked => ?_
  by_contra refused
  -- A store that rejects the anchor rejects some certificate without the added ones, …
  have visits : v.Visits chain chain.length anchor := .inr ⟨rfl, last, isLast, behind⟩
  obtain ⟨depth, cert, reason, visited, rejected, least, -⟩ :=
    exists_least_reject ⟨_, anchor, visits, refused⟩
  obtain ⟨failure, failed⟩ := survives fs store none cert reason
    ⟨⟨path, found⟩, store, chain, rfl, readable, depth, visited, rejected, least⟩
  -- … but accepts the peer with them.
  have accepted : (v.verify fs (some store) none (p.extend extra) server now).value.1
      = .ok longer := by
    refine verify_eq_ok_iff.mpr ⟨foundLonger, chain ++ extras, ?_, checked⟩
    exact readings_extend_eq_some_iff.mpr ⟨chain, extras, readable, areExtras, rfl⟩
  exact nomatch failed.symm.trans accepted

/-- A peer of which a presented certificate is rejected is turned away whatever it adds. Where there
are paths without and with the added certificates, any rejection survives in every store exactly if
the anchor behind the last certificate is answered for by what is put to the store with them. -/
theorem rejection_survives_iff (v : Verifier) (p : Presented) (extra : List Bytes)
    (server : ServerName) (now : Moment) :
    (∀ fs store report cert reason chain, v.Rejects fs (some store) p server now cert reason →
        p.all.mapM Certificate.ofBytes? = some chain → cert ∈ chain →
          ∃ failure, (v.verify fs (some store) report (p.extend extra) server now).value.1
            = .error failure)
      ∧ ∀ path longer, v.preVerify p.endEntity p.others server now = .ok path →
          v.preVerify p.endEntity (p.others ++ extra) server now = .ok longer →
            (v.RejectionSurvives p extra server now ↔ v.AnchorAnswered p extra) := by
  constructor
  · intro fs store report cert reason chain rejects readable presented
    exact presented_rejection_survives rejects readable presented
  · intro path longer found foundLonger
    constructor
    · intro survives
      exact anchorAnswered_of_rejectionSurvives survives found foundLonger
    · exact rejectionSurvives_of_anchorAnswered

end Verifier

open TestAuthority StrayCertificate in
/-- The list of Test CA has expired, so that its certificate is rejected behind the leaf. With the
stray certificate at the end nobody asks for it, and the peer is accepted. -/
theorem stray_certificate_undoes_rejection :
    ∃ v store server cert reason path, Verifier.ofAnchors .client [root] = .ok v
      ∧ RevocationStore.build files (some ⟨"c"⟩) none = .ok store
      ∧ ServerName.ofText? "localhost" = some server
      ∧ v.Rejects files (some store) ⟨leaf, []⟩ server now cert reason
      ∧ (v.verify files (some store) none (Presented.extend ⟨leaf, []⟩ [stray]) server
          now).value.1 = .ok path := by
  have undone : ((Verifier.ofAnchors .client [root]).toOption.any fun v =>
      (RevocationStore.build files (some ⟨"c"⟩) none).toOption.any fun store =>
        (ServerName.ofText? "localhost").any fun server =>
          (v.outcome files (some store) ⟨leaf, []⟩ server now).value.record.any (·.subject.isSome)
            && (v.verify files (some store) none (Presented.extend ⟨leaf, []⟩ [stray]) server
              now).value.1.toOption.any fun _ => true) = true := by
    decide +kernel
  obtain ⟨v, made, undone⟩ := toOption_any_eq_true_iff.mp undone
  obtain ⟨store, built, undone⟩ := toOption_any_eq_true_iff.mp undone
  obtain ⟨server, named, undone⟩ := (Option.any_eq_true _ _).mp undone
  obtain ⟨rejected, accepted⟩ := Bool.and_eq_true_iff.mp undone
  obtain ⟨report, recorded, hasSubject⟩ := (Option.any_eq_true _ _).mp rejected
  obtain ⟨subject, isSubject⟩ := Option.isSome_iff_exists.mp hasSubject
  obtain ⟨cert, reason, rejects, -⟩ := Verifier.exists_rejects_of_subject recorded isSubject
  obtain ⟨path, result, -⟩ := toOption_any_eq_true_iff.mp accepted
  exact ⟨v, store, server, cert, reason, path, made, built, named, rejects, result⟩

end PeerTrust
