import PeerTrust.Proofs.Verification

/-!
# What a verification can come to

A verification finds no path, stops at a certificate that cannot be read, stops at one that the
store rejects, or accepts. These are all the ways in which it can end, and no two of them happen at
once. Whatever is claimed of reports and of failed handshakes is proved by going through them.

## Main definitions

* `Verifier.Rejects` — the certificate that the store rejects, and why
* `Verifier.StopsUnread`, `Verifier.Accepts` — the other ways to go on from a path
* `Verifier.Ending` — the outcomes that these lead to

## Main results

* `Verifier.ending` — there are no other outcomes
* `Verifier.Rejects.unique` — one certificate at most is rejected
* `Verifier.exists_rejects_of_subject` — whoever is named in a record was rejected
-/

namespace PeerTrust.Verifier

variable {v : Verifier} {fs : FileSystem} {slot : Option RevocationStore} {p : Presented}
  {server : ServerName} {now : Moment} {path : CertPath} {cert other : Certificate}
  {reason otherReason : RejectReason} {failure : TlsFailure} {outcome : Outcome}

/-- Among the certificates of a chain that are put to the store, this one is the first that is
rejected. -/
def FirstRejected (v : Verifier) (fs : FileSystem) (store : RevocationStore) (now : Moment)
    (chain : List Certificate) (cert : Certificate) (reason : RejectReason) : Prop :=
  ∃ depth, v.Visits chain depth cert ∧ (store.check fs cert now).value = .reject reason
    ∧ ∀ lower other, lower < depth → v.Visits chain lower other →
        (store.check fs other now).value = .accept

/-- There is a path for what a peer presents, and of what is put to the store this certificate is
the first that the store rejects. -/
def Rejects (v : Verifier) (fs : FileSystem) (slot : Option RevocationStore) (p : Presented)
    (server : ServerName) (now : Moment) (cert : Certificate) (reason : RejectReason) : Prop :=
  (∃ path, v.preVerify p.endEntity p.others server now = .ok path)
    ∧ ∃ store chain, slot = some store ∧ p.all.mapM Certificate.ofBytes? = some chain
      ∧ v.FirstRejected fs store now chain cert reason

/-- There is a path for what a peer presents, but a certificate beside it cannot be read for the
store. -/
def StopsUnread (v : Verifier) (slot : Option RevocationStore) (p : Presented)
    (server : ServerName) (now : Moment) : Prop :=
  (∃ path, v.preVerify p.endEntity p.others server now = .ok path)
    ∧ (∃ store, slot = some store) ∧ p.all.mapM Certificate.ofBytes? = none

/-- There is a path for what a peer presents, and the store, if there is one, accepts whatever is
put to it. -/
def Accepts (v : Verifier) (fs : FileSystem) (slot : Option RevocationStore) (p : Presented)
    (server : ServerName) (now : Moment) (path : CertPath) : Prop :=
  v.preVerify p.endEntity p.others server now = .ok path
    ∧ (slot = none ∨ ∃ store chain, slot = some store
      ∧ p.all.mapM Certificate.ofBytes? = some chain
      ∧ ∀ cert ∈ v.visited chain, (store.check fs cert now).value = .accept)

/-- What a verification can come to. -/
inductive Ending (v : Verifier) (fs : FileSystem) (slot : Option RevocationStore) (p : Presented)
    (server : ServerName) (now : Moment) : Outcome → Prop
  | refused {failure : TlsFailure}
      (noPath : v.preVerify p.endEntity p.others server now = .error failure) :
      Ending v fs slot p server now ⟨.error failure, some ⟨.failed (.ofFailure failure), none⟩⟩
  /-- Nothing is recorded here. -/
  | unread (stops : v.StopsUnread slot p server now) :
      Ending v fs slot p server now ⟨.error (.certificate .badEncoding), none⟩
  | rejected {cert : Certificate} {reason : RejectReason}
      (rejects : v.Rejects fs slot p server now cert reason) :
      Ending v fs slot p server now
        ⟨.error (VerifyCode.ofReject reason).toFailure,
          some ⟨.failed (.ofReject reason), some cert.subject.display⟩⟩
  | accepted {path : CertPath} (accepts : v.Accepts fs slot p server now path) :
      Ending v fs slot p server now ⟨.ok path, some ⟨.verified, none⟩⟩

/-- A verification ends in one of these ways. -/
theorem ending (v : Verifier) (fs : FileSystem) (slot : Option RevocationStore) (p : Presented)
    (server : ServerName) (now : Moment) :
    v.Ending fs slot p server now (v.outcome fs slot p server now).value := by
  unfold outcome
  cases found : v.preVerify p.endEntity p.others server now with
  | error failure => exact .refused found
  | ok path =>
    cases slot with
    | none => exact .accepted ⟨found, .inl rfl⟩
    | some store =>
      cases readable : p.all.mapM Certificate.ofBytes? with
      | none =>
        simp only [checkRevocation, readable]
        exact .unread ⟨⟨path, found⟩, ⟨store, rfl⟩, readable⟩
      | some chain =>
        by_cases clear : ∀ cert ∈ v.visited chain, (store.check fs cert now).value = .accept
        · have unrejected : (firstReject v.role fs store now 0 (v.visited chain)).value = none :=
            (firstReject_eq_none_iff 0).mpr clear
          simp only [checkRevocation, readable, Logged.value_bind, unrejected]
          exact .accepted ⟨found, .inr ⟨store, chain, rfl, readable, clear⟩⟩
        -- The first certificate that is not accepted ends the check.
        · obtain ⟨depth, cert, reason, visits, rejects, least, first⟩ :=
            exists_least_reject (exists_visits_of_not_forall clear)
          simp only [checkRevocation_rejected readable first]
          exact .rejected
            ⟨⟨path, found⟩, store, chain, rfl, readable, depth, visits, rejects, least⟩

/-! ### No two endings at once -/

/-- The store stops at one certificate at most. -/
theorem FirstRejected.unique {store : RevocationStore} {chain : List Certificate}
    (first : v.FirstRejected fs store now chain cert reason)
    (second : v.FirstRejected fs store now chain other otherReason) :
    cert = other ∧ reason = otherReason := by
  obtain ⟨depth, visits, rejects, least⟩ := first
  obtain ⟨otherDepth, otherVisits, otherRejects, otherLeast⟩ := second
  -- Whatever stands below one of them was accepted, and so neither stands below the other.
  have notBelow : ¬depth < otherDepth := by
    intro below
    have accepted := otherLeast depth cert below visits
    exact nomatch rejects.symm.trans accepted
  have notAbove : ¬otherDepth < depth := by
    intro below
    have accepted := least otherDepth other below otherVisits
    exact nomatch otherRejects.symm.trans accepted
  obtain rfl : depth = otherDepth := by omega
  rw [← visited_getElem?_eq_some_iff] at visits otherVisits
  obtain rfl : cert = other := Option.some.inj (visits.symm.trans otherVisits)
  exact ⟨rfl, Revocation.Verdict.reject.inj (rejects.symm.trans otherRejects)⟩

theorem Rejects.unique (first : v.Rejects fs slot p server now cert reason)
    (second : v.Rejects fs slot p server now other otherReason) :
    cert = other ∧ reason = otherReason := by
  obtain ⟨-, store, chain, rfl, readable, rejected⟩ := first
  obtain ⟨-, _, _, ⟨⟩, sameChain, otherRejected⟩ := second
  obtain rfl := Option.some.inj (readable.symm.trans sameChain)
  exact rejected.unique otherRejected

theorem Rejects.not_refused (rejects : v.Rejects fs slot p server now cert reason) :
    v.preVerify p.endEntity p.others server now ≠ .error failure := by
  obtain ⟨⟨path, found⟩, -⟩ := rejects
  rw [found]
  exact fun h => nomatch h

theorem Rejects.not_stopsUnread (rejects : v.Rejects fs slot p server now cert reason) :
    ¬v.StopsUnread slot p server now := by
  obtain ⟨-, store, chain, -, readable, -⟩ := rejects
  rintro ⟨-, -, unreadable⟩
  exact nomatch readable.symm.trans unreadable

theorem Rejects.not_accepts (rejects : v.Rejects fs slot p server now cert reason) :
    ¬v.Accepts fs slot p server now path := by
  obtain ⟨-, store, chain, rfl, readable, depth, visits, rejected, -⟩ := rejects
  rintro ⟨-, empty | ⟨_, _, ⟨⟩, sameChain, clear⟩⟩
  · exact nomatch empty
  · obtain rfl := Option.some.inj (readable.symm.trans sameChain)
    have accepted := forall_mem_visited_iff.mp clear depth cert visits
    exact nomatch rejected.symm.trans accepted

theorem Accepts.not_stopsUnread (accepts : v.Accepts fs slot p server now path) :
    ¬v.StopsUnread slot p server now := by
  rintro ⟨-, ⟨store, rfl⟩, unreadable⟩
  obtain ⟨-, empty | ⟨_, _, -, readable, -⟩⟩ := accepts
  · exact nomatch empty
  · exact nomatch readable.symm.trans unreadable

/-! ### Endings read off outcomes -/

/-- Only a rejected certificate is ever named. -/
theorem exists_rejects_of_subject {report : Report} {subject : String}
    (recorded : (v.outcome fs slot p server now).value.record = some report)
    (named : report.subject = some subject) :
    ∃ cert reason, v.Rejects fs slot p server now cert reason ∧ cert.subject.display = subject := by
  have ends := v.ending fs slot p server now
  generalize (v.outcome fs slot p server now).value = outcome at recorded ends
  cases ends with
  | refused | accepted =>
    obtain rfl := Option.some.inj recorded
    exact nomatch named
  | unread => exact nomatch recorded
  | rejected rejects =>
    obtain rfl := Option.some.inj recorded
    exact ⟨_, _, rejects, Option.some.inj named⟩

theorem Rejects.outcome_eq (rejects : v.Rejects fs slot p server now cert reason) :
    (v.outcome fs slot p server now).value
      = ⟨.error (VerifyCode.ofReject reason).toFailure,
          some ⟨.failed (.ofReject reason), some cert.subject.display⟩⟩ := by
  have ends := v.ending fs slot p server now
  generalize (v.outcome fs slot p server now).value = outcome at ends
  cases ends with
  | refused noPath => exact absurd noPath rejects.not_refused
  | unread stops => exact absurd stops rejects.not_stopsUnread
  | rejected same =>
    obtain ⟨rfl, rfl⟩ := rejects.unique same
    rfl
  | accepted accepts => exact absurd accepts rejects.not_accepts

end PeerTrust.Verifier
