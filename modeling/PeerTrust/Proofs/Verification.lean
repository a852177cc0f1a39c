import PeerTrust.Verification.Verifier

/-!
# What verification accepts

Verification searches for an anchor, builds a list and looks for the first certificate on it that the
store rejects. Here it is described by position instead: which certificate stands at which depth, and
what the store says of each of them.

## Main definitions

* `Verifier.IsAnchorBehind` — the first readable anchor that issued a certificate
* `Verifier.Visits` — which certificate is put to the store at which depth

## Main results

* `Verifier.visited_getElem?_eq_some_iff` — the certificates put to the store, by depth
* `Verifier.firstReject_eq_none_iff`, `Verifier.exists_least_reject` — the rejection of least depth
* `Verifier.verify_characterized` — acceptance, failure and report in these terms
-/

namespace PeerTrust.Verifier

/-- The first anchor, in the order they were loaded, that can be read and issued a certificate that
did not issue itself. -/
def IsAnchorBehind (v : Verifier) (last anchor : Certificate) : Prop :=
  Name.same last.subject last.issuer = false
    ∧ ∃ before der after, v.anchors = before ++ der :: after
      ∧ Certificate.ofBytes? der = some anchor
      ∧ Name.same anchor.subject last.issuer = true ∧ last.isSignedBy anchor.publicKey = true
      ∧ ∀ earlier ∈ before, ∀ other, Certificate.ofBytes? earlier = some other →
          ¬(Name.same other.subject last.issuer = true ∧ last.isSignedBy other.publicKey = true)

/-- The certificate at a depth: a presented one, or the anchor behind the last of them. -/
def Visits (v : Verifier) (chain : List Certificate) (depth : Nat) (cert : Certificate) : Prop :=
  chain[depth]? = some cert
    ∨ depth = chain.length ∧ ∃ last, chain.getLast? = some last ∧ v.IsAnchorBehind last cert

section Visited

variable {v : Verifier} {chain : List Certificate}

theorem isIssuer_eq_true_iff {cert anchor : Certificate} :
    isIssuer cert anchor = true ↔
      Name.same anchor.subject cert.issuer = true ∧ cert.isSignedBy anchor.publicKey = true := by
  rw [isIssuer, Bool.and_eq_true]

/-- What passes over unreadable elements finds the first readable one that satisfies a condition. -/
theorem find?_filterMap_eq_some_iff {α β : Type} {read : α → Option β} {cond : β → Bool}
    {found : β} (list : List α) :
    (list.filterMap read).find? cond = some found ↔
      ∃ before a after, list = before ++ a :: after ∧ read a = some found ∧ cond found = true
        ∧ ∀ earlier ∈ before, ∀ other, read earlier = some other → ¬cond other = true := by
  rw [List.find?_filterMap, Option.bind_eq_some_iff]
  constructor
  · rintro ⟨a, isFirst, isRead⟩
    obtain ⟨holds, before, after, split, passed⟩ := List.find?_eq_some_iff_append.mp isFirst
    refine ⟨before, a, after, split, isRead, by simpa [isRead] using holds, ?_⟩
    intro earlier mem other isOther
    simpa [isOther] using passed earlier mem
  · rintro ⟨before, a, after, rfl, isRead, holds, passed⟩
    refine ⟨a, List.find?_eq_some_iff_append.mpr ⟨by simp [isRead, holds], before, after, rfl, ?_⟩,
      isRead⟩
    intro earlier mem
    cases isOther : read earlier with
    | none => rfl
    | some other => simpa using passed earlier mem other isOther

theorem anchorOf?_eq_some_iff {last anchor : Certificate} :
    v.anchorOf? last = some anchor ↔ v.IsAnchorBehind last anchor := by
  unfold anchorOf? IsAnchorBehind
  cases selfIssued : Name.same last.subject last.issuer with
  | true => simp
  | false =>
    simp only [Bool.false_eq_true, if_false, true_and, find?_filterMap_eq_some_iff,
      isIssuer_eq_true_iff, and_assoc]

theorem visited_getElem?_eq_some_iff {depth : Nat} {cert : Certificate} :
    (v.visited chain)[depth]? = some cert ↔ v.Visits chain depth cert := by
  have anchor : chain.getLast?.bind v.anchorOf? = some cert ↔
      ∃ last, chain.getLast? = some last ∧ v.IsAnchorBehind last cert := by
    simp only [Option.bind_eq_some_iff, anchorOf?_eq_some_iff]
  unfold visited Visits
  rcases Nat.lt_or_ge depth chain.length with inside | beyond
  · rw [List.getElem?_append_left inside]
    exact ⟨.inl, fun h => h.resolve_right fun ⟨atEnd, _⟩ => Nat.ne_of_lt inside atEnd⟩
  · -- Beyond the presented certificates there is one place at most.
    rw [List.getElem?_append_right beyond, List.getElem?_eq_none beyond, ← anchor]
    cases found : chain.getLast?.bind v.anchorOf? with
    | none => simp
    | some other =>
      rw [Option.toList_some, List.getElem?_singleton]
      constructor
      · intro h
        split at h
        · exact .inr ⟨by omega, h⟩
        · cases h
      · rintro (h | ⟨rfl, h⟩)
        · cases h
        · rw [if_pos (Nat.sub_self _), h]

/-- What holds of all certificates put to the store holds at every depth. -/
theorem forall_mem_visited_iff {P : Certificate → Prop} :
    (∀ cert ∈ v.visited chain, P cert) ↔ ∀ depth cert, v.Visits chain depth cert → P cert := by
  simp only [List.mem_iff_getElem?, visited_getElem?_eq_some_iff, forall_exists_index]
  exact forall_comm

/-- What does not hold of all certificates put to the store fails at a depth. -/
theorem exists_visits_of_not_forall {P : Certificate → Prop}
    (failing : ¬∀ cert ∈ v.visited chain, P cert) :
    ∃ depth cert, v.Visits chain depth cert ∧ ¬P cert := by
  simpa only [forall_mem_visited_iff, Classical.not_forall, exists_prop] using failing

end Visited

section FirstReject

variable {role : Role} {fs : FileSystem} {store : RevocationStore} {now : Moment}

theorem firstReject_accept {cert : Certificate} (depth : Nat) (rest : List Certificate)
    (accepted : (store.check fs cert now).value = .accept) :
    (firstReject role fs store now depth (cert :: rest)).value
      = (firstReject role fs store now (depth + 1) rest).value := by
  rw [firstReject, Logged.value_bind, accepted]

theorem firstReject_reject {cert : Certificate} {reason : RejectReason} (depth : Nat)
    (rest : List Certificate) (rejected : (store.check fs cert now).value = .reject reason) :
    (firstReject role fs store now depth (cert :: rest)).value
      = some ⟨depth, reason, cert.subject.display⟩ := by
  rw [firstReject, Logged.value_bind, rejected]
  rfl

theorem firstReject_eq_none_iff {list : List Certificate} (depth : Nat) :
    (firstReject role fs store now depth list).value = none ↔
      ∀ cert ∈ list, (store.check fs cert now).value = .accept := by
  induction list generalizing depth with
  | nil => simp [firstReject]
  | cons cert rest ih =>
    cases verdict : (store.check fs cert now).value with
    | accept => rw [firstReject_accept depth rest verdict, ih, List.forall_mem_cons,
        and_iff_right verdict]
    | reject reason => simp [firstReject_reject depth rest verdict, verdict]

/-- The rejection found is that of least depth. -/
theorem firstReject_eq_some_iff {list : List Certificate} {rejection : Rejection} (depth : Nat) :
    (firstReject role fs store now depth list).value = some rejection ↔
      ∃ before cert after reason, list = before ++ cert :: after
        ∧ (∀ earlier ∈ before, (store.check fs earlier now).value = .accept)
        ∧ (store.check fs cert now).value = .reject reason
        ∧ rejection = ⟨depth + before.length, reason, cert.subject.display⟩ := by
  induction list generalizing depth with
  | nil => simp [firstReject]
  | cons first rest ih =>
    cases verdict : (store.check fs first now).value with
    | accept =>
      have shift (before : List Certificate) :
          depth + (first :: before).length = depth + 1 + before.length := by
        rw [List.length_cons]
        omega
      -- What was accepted is put before all that comes before the rejection.
      rw [firstReject_accept depth rest verdict, ih]
      constructor
      · rintro ⟨before, cert, after, reason, rfl, accepted, rejected, rfl⟩
        refine ⟨first :: before, cert, after, reason, rfl, ?_, rejected, ?_⟩
        · exact List.forall_mem_cons.mpr ⟨verdict, accepted⟩
        · rw [shift]
      · rintro ⟨before, cert, after, reason, split, accepted, rejected, rfl⟩
        cases before with
        | nil =>
          obtain ⟨rfl, -⟩ := List.cons.inj split
          exact nomatch verdict.symm.trans rejected
        | cons _ before =>
          obtain ⟨rfl, rfl⟩ := List.cons.inj split
          refine ⟨before, cert, after, reason, rfl, ?_, rejected, ?_⟩
          · exact (List.forall_mem_cons.mp accepted).2
          · rw [shift]
    | reject reason =>
      -- Nothing can come before the rejection, since this one would have been accepted.
      rw [firstReject_reject depth rest verdict]
      constructor
      · intro found
        obtain rfl := Option.some.inj found
        exact ⟨[], first, rest, reason, rfl, fun _ h => (nomatch h), verdict, rfl⟩
      · rintro ⟨before, cert, after, other, split, accepted, rejected, rfl⟩
        cases before with
        | nil =>
          obtain ⟨rfl, -⟩ := List.cons.inj split
          obtain rfl : reason = other := by simpa [verdict] using rejected
          rfl
        | cons _ before =>
          obtain ⟨rfl, -⟩ := List.cons.inj split
          exact nomatch verdict.symm.trans (accepted first List.mem_cons_self)

/-- If anything that is put to the store is rejected, then something of least depth is, and that is
what is found. -/
theorem exists_least_reject {v : Verifier} {chain : List Certificate}
    (rejected : ∃ depth cert, v.Visits chain depth cert
      ∧ (store.check fs cert now).value ≠ .accept) :
    ∃ depth cert reason, v.Visits chain depth cert
      ∧ (store.check fs cert now).value = .reject reason
      ∧ (∀ lower other, lower < depth → v.Visits chain lower other →
          (store.check fs other now).value = .accept)
      ∧ (firstReject v.role fs store now 0 (v.visited chain)).value
          = some ⟨depth, reason, cert.subject.display⟩ := by
  obtain ⟨depth, cert, visited, rejected⟩ := rejected
  have someRejected : (firstReject v.role fs store now 0 (v.visited chain)).value ≠ none := by
    rw [Ne, firstReject_eq_none_iff, forall_mem_visited_iff]
    intro accepted
    exact rejected (accepted depth cert visited)
  obtain ⟨rejection, first⟩ := Option.ne_none_iff_exists'.mp someRejected
  obtain ⟨before, cert, after, reason, split, accepted, rejects, rfl⟩ :=
    (firstReject_eq_some_iff 0).mp first
  rw [Nat.zero_add] at first
  refine ⟨before.length, cert, reason, ?_, rejects, ?_, first⟩
  · rw [← visited_getElem?_eq_some_iff, split, List.getElem?_append_right (Nat.le_refl _),
      Nat.sub_self, List.getElem?_cons_zero]
  · -- What stands lower is among those that came before.
    intro lower other below visitedBelow
    rw [← visited_getElem?_eq_some_iff, split, List.getElem?_append_left below] at visitedBelow
    exact accepted other (List.mem_of_getElem? visitedBelow)

end FirstReject

section Outcome

variable {v : Verifier} {fs : FileSystem} {store : RevocationStore} {p : Presented}
  {server : ServerName} {now : Moment} {path : CertPath} {chain : List Certificate}

theorem checkRevocation_ok_iff {accepted : CertPath} :
    (v.checkRevocation fs store p path now).value.result = .ok accepted ↔
      path = accepted ∧ ∃ chain, p.all.mapM Certificate.ofBytes? = some chain
        ∧ ∀ cert ∈ v.visited chain, (store.check fs cert now).value = .accept := by
  unfold checkRevocation
  cases readable : p.all.mapM Certificate.ofBytes? with
  | none => simp
  | some chain =>
    simp only [Logged.value_bind, Option.some.injEq, exists_eq_left']
    rw [← firstReject_eq_none_iff 0]
    cases (firstReject v.role fs store now 0 (v.visited chain)).value with
    | none => simp
    | some rejection => simp

/-- The first rejected certificate decides the failure and the record. -/
theorem checkRevocation_rejected (readable : p.all.mapM Certificate.ofBytes? = some chain)
    {rejection : Rejection}
    (found : (firstReject v.role fs store now 0 (v.visited chain)).value = some rejection) :
    (v.checkRevocation fs store p path now).value
      = ⟨.error rejection.code.toFailure, some ⟨.failed rejection.code, rejection.subject⟩⟩ := by
  simp only [checkRevocation, readable, Logged.value_bind, found, Logged.value_pure]

theorem outcome_ok_iff {slot : Option RevocationStore} :
    (v.outcome fs slot p server now).value.result = .ok path ↔
      v.preVerify p.endEntity p.others server now = .ok path
        ∧ (slot = none ∨ ∃ held chain, slot = some held
          ∧ p.all.mapM Certificate.ofBytes? = some chain
          ∧ ∀ cert ∈ v.visited chain, (held.check fs cert now).value = .accept) := by
  unfold outcome
  cases v.preVerify p.endEntity p.others server now with
  | error failure => simp
  | ok found =>
    cases slot with
    | none => simp
    | some held => simp [checkRevocation_ok_iff]

/-- Whatever the store is, a peer without a path fails before it is asked. -/
theorem verify_of_preVerify_error {failure : TlsFailure}
    (refused : v.preVerify p.endEntity p.others server now = .error failure)
    (slot : Option RevocationStore) (report : Option Report) :
    v.verify fs slot report p server now
      = ⟨(.error failure, report.map fun _ => ⟨.failed (.ofFailure failure), none⟩),
          [.preVerificationFailed v.role failure]⟩ := by
  simp only [verify, outcome, refused]
  rfl

end Outcome

/-- A peer is accepted exactly if there is a path for it and the store, if there is one, accepts
whatever stands at any depth. Without a path the store plays no part; with one, the rejection of
least depth is told and recorded. A report takes no part in the decision. -/
theorem verify_characterized (v : Verifier) (fs : FileSystem) (slot : Option RevocationStore)
    (report : Option Report) (p : Presented) (server : ServerName) (now : Moment) :
    let verified := v.verify fs slot report p server now
    (∀ path, verified.value.1 = .ok path ↔
        v.preVerify p.endEntity p.others server now = .ok path
          ∧ (slot = none ∨ ∃ store chain, slot = some store
            ∧ p.all.mapM Certificate.ofBytes? = some chain
            ∧ ∀ depth cert, v.Visits chain depth cert →
                (store.check fs cert now).value = .accept))
      ∧ (∀ failure, v.preVerify p.endEntity p.others server now = .error failure →
          ∀ files otherSlot, v.verify files otherSlot report p server now
            = ⟨(.error failure, report.map fun _ => ⟨.failed (.ofFailure failure), none⟩),
                [.preVerificationFailed v.role failure]⟩)
      ∧ (∀ path store chain, v.preVerify p.endEntity p.others server now = .ok path →
          slot = some store → p.all.mapM Certificate.ofBytes? = some chain →
          (∃ depth cert, v.Visits chain depth cert ∧ (store.check fs cert now).value ≠ .accept) →
          ∃ depth cert reason, v.Visits chain depth cert
            ∧ (store.check fs cert now).value = .reject reason
            ∧ (∀ lower other, lower < depth → v.Visits chain lower other →
                (store.check fs other now).value = .accept)
            ∧ verified.value
              = (.error (VerifyCode.ofReject reason).toFailure,
                  report.map fun _ =>
                    ⟨.failed (.ofReject reason), some cert.subject.display⟩))
      ∧ verified.value.1 = (v.verify fs slot none p server now).value.1
      ∧ verified.events = (v.verify fs slot none p server now).events := by
  intro verified
  refine ⟨?_, ?_, ?_, ?_, ?_⟩
  · intro path
    rw [verify_fst_eq, outcome_ok_iff]
    simp only [forall_mem_visited_iff]
  · intro failure refused files otherSlot
    exact verify_of_preVerify_error refused otherSlot report
  · rintro path store chain found rfl readable rejected
    obtain ⟨depth, cert, reason, visited, rejects, least, first⟩ := exists_least_reject rejected
    refine ⟨depth, cert, reason, visited, rejects, least, ?_⟩
    simp only [verified, verify, outcome, found, Logged.value_bind, Logged.value_pure,
      checkRevocation_rejected readable first]
    rfl
  · rw [verify_fst_eq, verify_fst_eq]
  · rw [events_verify, events_verify]

end PeerTrust.Verifier
