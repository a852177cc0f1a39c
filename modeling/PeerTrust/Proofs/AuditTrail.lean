import PeerTrust.Proofs.Outcomes

/-!
# The trail that a verification leaves

A store tells of a rejection once, with an event of its own, and the verifier tells once of the
certificate that it stops at. Nothing that is told while lists are looked for, and nothing that is
told of accepted certificates, can be mistaken for either. So the trail of a verification shows
whether a certificate was rejected, which one, and why.

## Main definitions

* `Event.isRevocationEntry`, `Event.isRejectionWarning` — what an audit looks for
* `Event.isRemark` — what may be told along the way
* `RevocationStore.Tells` — what a store tells of a rejection
* `RevocationStore.Judged` — a verdict with all that is told on the way to it
* `Verifier.RejectsAt` — the rejection that a verification stops at, with its depth

## Main results

* `RevocationStore.judged_check` — what is told by a check
* `Verifier.events_firstReject_of_reject`, `Verifier.isRemark_of_firstReject` — what is told of
  certificates in a row
* `Verifier.audit_trail_exact` — what this says of verifications
-/

namespace PeerTrust

/-! ### Kinds of events -/

namespace Event

/-- An entry of the security record that a certificate was revoked. -/
def isRevocationEntry (e : Event) : Bool :=
  e.isSecurity && e.level = .error && e.message = "Certificate revoked"

/-- A warning that a certificate of the peer was rejected, whatever the reason. -/
def isRejectionWarning (e : Event) : Bool :=
  e.level = .warn && "Peer certificate rejected".toList.isPrefixOf e.message.toList

/-- What is told while lists are looked for and their signatures are verified, whatever comes of
it. -/
def isRemark : Event → Bool
  | crlUnreadable .. | crlAlgorithmUnsupported _ => true
  | _ => false

/-- Neither of the events that an audit looks for is told. -/
def Silent (told : List Event) : Prop :=
  ∀ e ∈ told, e.isRevocationEntry = false ∧ e.isRejectionWarning = false

theorem isRejectionWarning_of_message {e : Event} (text : String) (wording : e.message = text) :
    e.isRejectionWarning
      = (e.level = .warn && "Peer certificate rejected".toList.isPrefixOf text.toList) := by
  rw [isRejectionWarning, wording]

theorem isRejectionWarning_peerRejected (role : Role) (depth : Nat) (subject : String)
    (code : VerifyCode) : (peerRejected role depth subject code).isRejectionWarning = true := by
  rw [isRejectionWarning_of_message ("Peer certificate rejected: " ++ code.text) rfl,
    String.toList_append]
  rfl

/-- A remark is none of the events that an audit looks for. -/
theorem silent_of_isRemark {told : List Event} (remarks : ∀ e ∈ told, e.isRemark = true) :
    Silent told := by
  intro e mem
  have remark := remarks e mem
  cases e with
  | crlUnreadable path problem =>
    exact ⟨rfl, isRejectionWarning_of_message "Skipping unreadable CRL" rfl⟩
  | crlAlgorithmUnsupported issuer =>
    exact ⟨rfl, isRejectionWarning_of_message "Unsupported CRL signature algorithm" rfl⟩
  | _ => exact nomatch remark

theorem Silent.filter_eq {told : List Event} (silent : Silent told) :
    told.filter isRevocationEntry = [] ∧ told.filter isRejectionWarning = [] := by
  constructor
  · exact List.filter_eq_nil_iff.mpr fun e mem => ne_true_of_eq_false (silent e mem).1
  · exact List.filter_eq_nil_iff.mpr fun e mem => ne_true_of_eq_false (silent e mem).2

end Event

/-! ### What a store tells -/

namespace RevocationStore

variable {fs : FileSystem} {store : RevocationStore} {cert : Certificate} {now : Moment}
  {judged : Logged Revocation.Verdict} {reason : RejectReason}

/-- What a store tells of a certificate that it rejects: which list is at fault, or which
certificate is listed. -/
inductive Tells (fs : FileSystem) (store : RevocationStore) (cert : Certificate) :
    RejectReason → Event → Prop
  | signatureInvalid {list : RevocationList}
      (own : (store.find fs cert.subject).value = some list) :
      Tells fs store cert .crlSignatureInvalid (.crlSignatureInvalid list.issuer.display)
  | fieldMissing {list : RevocationList}
      (own : (store.find fs cert.subject).value = some list) :
      Tells fs store cert .crlFieldMissing (.crlFieldMissing list.issuer.display)
  | expired {list : RevocationList} (own : (store.find fs cert.subject).value = some list) :
      Tells fs store cert .crlExpired (.crlExpired list.issuer.display)
  | revoked {list : RevocationList} (issued : (store.find fs cert.issuer).value = some list)
      (listed : list.revokes cert.serial = true) :
      Tells fs store cert .certificateRevoked
        (.certificateRevoked (Bytes.toColonHex cert.serial) cert.subject.display
          cert.issuer.display)

/-- A verdict with what is told on the way to it: remarks, and of a rejection one event more. -/
inductive Judged (fs : FileSystem) (store : RevocationStore) (cert : Certificate) :
    Logged Revocation.Verdict → Prop
  | accepted {remarks : List Event} (each : ∀ e ∈ remarks, e.isRemark = true) :
      Judged fs store cert ⟨.accept, remarks⟩
  | rejected {remarks : List Event} {reason : RejectReason} {own : Event}
      (each : ∀ e ∈ remarks, e.isRemark = true) (tells : store.Tells fs cert reason own) :
      Judged fs store cert ⟨.reject reason, remarks ++ [own]⟩

/-- Remarks may come first. -/
theorem Judged.after {remarks : List Event} (each : ∀ e ∈ remarks, e.isRemark = true)
    (h : store.Judged fs cert judged) :
    store.Judged fs cert ⟨judged.value, remarks ++ judged.events⟩ := by
  cases h with
  | accepted others => exact .accepted (List.forall_mem_append.mpr ⟨each, others⟩)
  | rejected others tells =>
    rw [← List.append_assoc]
    exact .rejected (List.forall_mem_append.mpr ⟨each, others⟩) tells

theorem isRemark_of_walk {name : Name} (paths : List FilePath) :
    ∀ e ∈ (CrlSource.walk fs name paths).events, e.isRemark = true := by
  induction paths with
  | nil => exact List.forall_mem_nil _
  | cons path rest ih =>
    rw [CrlSource.walk]
    split
    case h_1 problem _ => exact List.forall_mem_cons.mpr ⟨rfl, ih⟩
    case h_2 lists _ =>
      split
      · exact List.forall_mem_nil _
      · exact ih

theorem isRemark_of_find {name : Name} :
    ∀ e ∈ (store.find fs name).events, e.isRemark = true := by
  unfold find
  induction store.sources with
  | nil => exact List.forall_mem_nil _
  | cons source rest ih =>
    have first : ∀ e ∈ (source.find fs name).events, e.isRemark = true := by
      cases source with
      | file path lists => exact List.forall_mem_nil _
      | hashedDir dir => exact isRemark_of_walk _
    rw [findIn, Logged.events_bind]
    refine List.forall_mem_append.mpr ⟨first, ?_⟩
    cases (source.find fs name).value with
    | some list => exact List.forall_mem_nil _
    | none => exact ih

theorem judged_checkFound {name : Name} {check : RevocationList → Logged Revocation.Verdict}
    (each : ∀ list, (store.find fs name).value = some list → store.Judged fs cert (check list)) :
    store.Judged fs cert (checkFound fs store name check) := by
  show store.Judged fs cert ⟨_, (store.find fs name).events ++ _⟩
  cases found : (store.find fs name).value with
  | none => exact Judged.after isRemark_of_find (.accepted (List.forall_mem_nil _))
  | some list => exact (each list found).after isRemark_of_find

theorem judged_checkOwn {list : RevocationList}
    (own : (store.find fs cert.subject).value = some list) :
    store.Judged fs cert (checkOwn list cert now) := by
  have signed : ∀ e ∈ (list.isSignedBy cert.publicKey).events, e.isRemark = true := by
    unfold RevocationList.isSignedBy
    cases list.signatureResult cert.publicKey with
    | valid | invalid => exact List.forall_mem_nil _
    | unsupported => exact List.forall_mem_singleton.mpr rfl
  show store.Judged fs cert ⟨_, (list.isSignedBy cert.publicKey).events ++ _⟩
  cases (list.isSignedBy cert.publicKey).value with
  | false => exact .rejected signed (.signatureInvalid own)
  | true =>
    cases list.nextUpdate with
    | none => exact .rejected signed (.fieldMissing own)
    | some next =>
      by_cases past : next < now
      · simp only [if_true, if_pos past]
        exact .rejected signed (.expired own)
      · simp only [if_true, if_neg past]
        exact Judged.after signed (.accepted (List.forall_mem_nil _))

theorem judged_checkListed {list : RevocationList}
    (issued : (store.find fs cert.issuer).value = some list) :
    store.Judged fs cert (checkListed list cert) := by
  unfold checkListed
  split
  case isTrue listed => exact Judged.rejected (List.forall_mem_nil _) (.revoked issued listed)
  case isFalse => exact .accepted (List.forall_mem_nil _)

/-- A check remarks on what it comes across, and tells of a rejection at its end. -/
theorem judged_check (fs : FileSystem) (store : RevocationStore) (cert : Certificate)
    (now : Moment) : store.Judged fs cert (store.check fs cert now) := by
  have own : store.Judged fs cert (checkFound fs store cert.subject (checkOwn · cert now)) :=
    judged_checkFound fun _ => judged_checkOwn
  have issued : store.Judged fs cert (checkFound fs store cert.issuer (checkListed · cert)) :=
    judged_checkFound fun _ => judged_checkListed
  unfold check
  generalize checkFound fs store cert.subject (checkOwn · cert now) = first at own
  cases own with
  | accepted each => exact issued.after each
  | @rejected remarks reason told each tells =>
    -- The issuer's list is not looked for any more.
    show store.Judged fs cert ⟨.reject reason, (remarks ++ [told]) ++ []⟩
    rw [List.append_nil]
    exact .rejected each tells

theorem Judged.isRemark_of_accept (h : store.Judged fs cert judged)
    (accepted : judged.value = .accept) : ∀ e ∈ judged.events, e.isRemark = true := by
  cases h with
  | accepted each => exact each
  | rejected => cases accepted

theorem Judged.exists_of_reject (h : store.Judged fs cert judged)
    (rejected : judged.value = .reject reason) :
    ∃ remarks own, judged.events = remarks ++ [own] ∧ (∀ e ∈ remarks, e.isRemark = true)
      ∧ store.Tells fs cert reason own := by
  cases h with
  | accepted => cases rejected
  | rejected each tells =>
    cases rejected
    exact ⟨_, _, rfl, each, tells⟩

/-- What a store tells of a rejection never warns of the peer. -/
theorem Tells.isRejectionWarning_eq {own : Event} (tells : store.Tells fs cert reason own) :
    own.isRejectionWarning = false := by
  cases tells with
  | signatureInvalid => exact Event.isRejectionWarning_of_message "Invalid signature on CRL" rfl
  | fieldMissing =>
    exact Event.isRejectionWarning_of_message "CRL is missing the nextUpdate field" rfl
  | expired => exact Event.isRejectionWarning_of_message "CRL has expired" rfl
  | revoked => rfl

end RevocationStore

/-! ### What is told of certificates in a row -/

namespace Verifier

section Row

variable {role : Role} {fs : FileSystem} {store : RevocationStore} {now : Moment}
  {list before : List Certificate} {cert : Certificate} {reason : RejectReason}

theorem isRemark_of_firstReject
    (accepted : ∀ cert ∈ list, (store.check fs cert now).value = .accept) (depth : Nat) :
    ∀ e ∈ (firstReject role fs store now depth list).events, e.isRemark = true := by
  induction list generalizing depth with
  | nil => exact List.forall_mem_nil _
  | cons first rest ih =>
    obtain ⟨verdict, accepted⟩ := List.forall_mem_cons.mp accepted
    rw [firstReject, Logged.events_bind, verdict]
    have told := (store.judged_check fs first now).isRemark_of_accept verdict
    exact List.forall_mem_append.mpr ⟨told, ih accepted (depth + 1)⟩

/-- What is told of a rejection ends with the store's own event and the warning of the verifier. -/
theorem events_firstReject_of_reject (role : Role) (after : List Certificate)
    (accepted : ∀ earlier ∈ before, (store.check fs earlier now).value = .accept)
    (rejected : (store.check fs cert now).value = .reject reason) (depth : Nat) :
    ∃ remarks own,
      (firstReject role fs store now depth (before ++ cert :: after)).events
          = remarks ++ [own, .peerRejected role (depth + before.length) cert.subject.display
              (.ofReject reason)]
        ∧ (∀ e ∈ remarks, e.isRemark = true) ∧ store.Tells fs cert reason own := by
  induction before generalizing depth with
  | nil =>
    obtain ⟨remarks, own, told, each, tells⟩ :=
      (store.judged_check fs cert now).exists_of_reject rejected
    refine ⟨remarks, own, ?_, each, tells⟩
    rw [List.nil_append, firstReject, Logged.events_bind, rejected, told, List.append_assoc]
    rfl
  | cons first before ih =>
    -- Whatever is told of an accepted certificate are remarks, which come before the others.
    obtain ⟨verdict, accepted⟩ := List.forall_mem_cons.mp accepted
    have first_told := (store.judged_check fs first now).isRemark_of_accept verdict
    obtain ⟨remarks, own, told, each, tells⟩ := ih accepted (depth + 1)
    refine ⟨_, own, ?_, List.forall_mem_append.mpr ⟨first_told, each⟩, tells⟩
    rw [List.cons_append, firstReject, Logged.events_bind, verdict, List.append_assoc,
      List.length_cons, Nat.add_comm before.length 1, ← Nat.add_assoc, ← told]

end Row

section Verify

variable {v : Verifier} {fs : FileSystem} {slot : Option RevocationStore} {store : RevocationStore}
  {report : Option Report} {p : Presented} {server : ServerName} {now : Moment} {path : CertPath}
  {chain : List Certificate} {depth : Nat} {cert : Certificate} {reason : RejectReason}

/-- There is a path for what a peer presents, and of what is put to the store the certificate at
this depth is the first that the store rejects. -/
def RejectsAt (v : Verifier) (fs : FileSystem) (slot : Option RevocationStore) (p : Presented)
    (server : ServerName) (now : Moment) (depth : Nat) (cert : Certificate)
    (reason : RejectReason) : Prop :=
  (∃ path, v.preVerify p.endEntity p.others server now = .ok path)
    ∧ ∃ store chain, slot = some store ∧ p.all.mapM Certificate.ofBytes? = some chain
      ∧ v.Visits chain depth cert ∧ (store.check fs cert now).value = .reject reason
      ∧ ∀ lower other, lower < depth → v.Visits chain lower other →
          (store.check fs other now).value = .accept

theorem RejectsAt.rejects (rejects : v.RejectsAt fs slot p server now depth cert reason) :
    v.Rejects fs slot p server now cert reason := by
  obtain ⟨found, store, chain, isStore, readable, first⟩ := rejects
  exact ⟨found, store, chain, isStore, readable, depth, first⟩

/-- What stands at a depth splits what is put to the store there. -/
theorem exists_visited_split {P : Certificate → Prop} (visits : v.Visits chain depth cert)
    (lower : ∀ lower other, lower < depth → v.Visits chain lower other → P other) :
    ∃ before after, v.visited chain = before ++ cert :: after ∧ before.length = depth
      ∧ ∀ earlier ∈ before, P earlier := by
  obtain ⟨inside, rfl⟩ := List.getElem?_eq_some_iff.mp (visited_getElem?_eq_some_iff.mpr visits)
  refine ⟨(v.visited chain).take depth, (v.visited chain).drop (depth + 1), ?_, ?_, ?_⟩
  · rw [List.getElem_cons_drop, List.take_append_drop]
  · exact List.length_take_of_le (Nat.le_of_lt inside)
  · intro earlier mem
    obtain ⟨place, below, rfl⟩ := List.mem_take_iff_getElem.mp mem
    have below := Nat.lt_min.mp below
    exact lower place _ below.1 (visited_getElem?_eq_some_iff.mp (List.getElem?_eq_getElem below.2))

theorem events_verify_of_readable (found : v.preVerify p.endEntity p.others server now = .ok path)
    (readable : p.all.mapM Certificate.ofBytes? = some chain) :
    (v.verify fs (some store) report p server now).events
      = (firstReject v.role fs store now 0 (v.visited chain)).events := by
  rw [events_verify]
  simp only [outcome, found, checkRevocation, readable, Logged.events_bind]
  cases (firstReject v.role fs store now 0 (v.visited chain)).value <;>
    exact List.append_nil _

theorem RejectsAt.events_verify (rejects : v.RejectsAt fs slot p server now depth cert reason)
    (report : Option Report) :
    ∃ store remarks own, slot = some store
      ∧ (v.verify fs slot report p server now).events
          = remarks ++ [own, .peerRejected v.role depth cert.subject.display (.ofReject reason)]
      ∧ (∀ e ∈ remarks, e.isRemark = true) ∧ store.Tells fs cert reason own := by
  obtain ⟨⟨path, found⟩, store, chain, rfl, readable, visits, rejected, least⟩ := rejects
  obtain ⟨before, after, split, rfl, accepted⟩ := exists_visited_split visits least
  obtain ⟨remarks, own, told, each, tells⟩ :=
    events_firstReject_of_reject v.role after accepted rejected 0
  refine ⟨store, remarks, own, rfl, ?_, each, tells⟩
  rw [events_verify_of_readable found readable, split, told, Nat.zero_add]

/-- Without a rejection nothing is told that an audit looks for. -/
theorem silent_of_not_rejectsAt
    (none_rejected : ∀ depth cert reason, ¬v.RejectsAt fs slot p server now depth cert reason) :
    Event.Silent (v.verify fs slot report p server now).events := by
  cases found : v.preVerify p.endEntity p.others server now with
  | error failure =>
    rw [verify_of_preVerify_error found]
    exact List.forall_mem_singleton.mpr ⟨rfl, rfl⟩
  | ok path =>
    cases slot with
    | none =>
      rw [Verifier.events_verify, outcome, found]
      exact List.forall_mem_nil _
    | some store =>
      cases readable : p.all.mapM Certificate.ofBytes? with
      | none =>
        simp only [Verifier.events_verify, outcome, found, checkRevocation, readable]
        exact List.forall_mem_nil _
      | some chain =>
        rw [events_verify_of_readable found readable]
        by_cases clear : ∀ cert ∈ v.visited chain, (store.check fs cert now).value = .accept
        -- Checks that accept tell of nothing but remarks.
        · exact Event.silent_of_isRemark (isRemark_of_firstReject clear 0)
        · obtain ⟨depth, cert, reason, visits, rejected, least, -⟩ :=
            exists_least_reject (exists_visits_of_not_forall clear)
          exact absurd ⟨⟨path, found⟩, store, chain, rfl, readable, visits, rejected, least⟩
            (none_rejected depth cert reason)

end Verify

/-- The trail of a verification is exact, with a report or without one. If the store rejects what is
put to it, the verification fails by the first rejection. The trail then ends with what the store
tells of it and after that one warning, with its depth, its subject and the code of its reason. The
security record gets one entry, with the serial, subject and issuer of this certificate, exactly
if the reason is that it was revoked. If nothing is rejected there is neither entry nor warning, and
nothing is rejected without a path or without a store. -/
theorem audit_trail_exact (v : Verifier) (fs : FileSystem) (slot : Option RevocationStore)
    (report : Option Report) (p : Presented) (server : ServerName) (now : Moment) :
    let verified := v.verify fs slot report p server now
    (∀ depth cert reason, v.RejectsAt fs slot p server now depth cert reason →
        let warning : Event :=
          .peerRejected v.role depth cert.subject.display (.ofReject reason)
        let entry : Event :=
          .certificateRevoked (Bytes.toColonHex cert.serial) cert.subject.display
            cert.issuer.display
        verified.value.1 = .error (VerifyCode.ofReject reason).toFailure
          ∧ (∃ store remarks own, slot = some store ∧ verified.events = remarks ++ [own, warning]
              ∧ (∀ e ∈ remarks, e.isRemark = true) ∧ store.Tells fs cert reason own)
          ∧ verified.events.filter Event.isRejectionWarning = [warning]
          ∧ verified.events.filter Event.isRevocationEntry
              = if reason = .certificateRevoked then [entry] else [])
      ∧ ((∀ depth cert reason, ¬v.RejectsAt fs slot p server now depth cert reason) →
          Event.Silent verified.events)
      ∧ (∀ failure, v.preVerify p.endEntity p.others server now = .error failure →
          Event.Silent verified.events)
      ∧ (slot = none → Event.Silent verified.events) := by
  refine ⟨fun depth cert reason rejects => ?_, silent_of_not_rejectsAt, ?_, ?_⟩
  · obtain ⟨store, remarks, own, isStore, told, each, tells⟩ := rejects.events_verify report
    have silent := (Event.silent_of_isRemark each).filter_eq
    refine ⟨?_, ⟨store, remarks, own, isStore, told, each, tells⟩, ?_, ?_⟩
    · rw [verify_fst_eq, rejects.rejects.outcome_eq]
    · rw [told, List.filter_append, silent.2, List.nil_append,
        List.filter_cons_of_neg (ne_true_of_eq_false tells.isRejectionWarning_eq),
        List.filter_cons_of_pos (Event.isRejectionWarning_peerRejected _ _ _ _), List.filter_nil]
    · rw [told, List.filter_append, silent.1, List.nil_append]
      cases tells <;> rfl
  · intro failure refused
    exact silent_of_not_rejectsAt fun _ _ _ rejects => rejects.rejects.not_refused refused
  · rintro rfl
    exact silent_of_not_rejectsAt fun _ _ _ ⟨_, _, _, empty, _⟩ => nomatch empty

end Verifier

end PeerTrust
