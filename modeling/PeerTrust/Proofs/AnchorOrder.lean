import PeerTrust.Proofs.ListsOnPath
import PeerTrust.Proofs.Spellings

/-!
# The order of the anchors

Behind the last presented certificate, the first anchor that issued it is put to the store. Whether
an anchor issued a certificate is a matter of name and key, and anchors that share both may still
have been issued by others, under other serial numbers. So the order in which anchors were loaded,
which a directory does not fix, decides about the peer wherever the store does not give all of these
anchors the same verdict.

## Main definitions

* `RevocationStore.checkAll` — the first verdict on several certificates that is not to accept
* `Verifier.issuersOf` — the anchors that issued a certificate
* `Verifier.OrderIrrelevant` — anchors in another order lead to the same answer and record
* `Verifier.IssuersAgree` — any anchor that may come to be the first gets the same verdict

## Main results

* `Verifier.order_irrelevant_iff` — the order is irrelevant exactly if these anchors agree
* `Verifier.orderIrrelevant_of_alike` — anchors that differ in no name, key or serial number do
-/

namespace PeerTrust

/-! ### Verdicts on several certificates -/

namespace Revocation.Verdict

/-- What the peer learns from a verdict on what was put to the store. -/
def answer : Verdict → Except TlsFailure Unit
  | accept => .ok ()
  | reject reason => .error (VerifyCode.ofReject reason).toFailure

/-- What is recorded of it. -/
def recorded : Verdict → PeerVerdict
  | accept => .verified
  | reject reason => .failed (.ofReject reason)

theorem recorded_inj {verdict other : Verdict} :
    verdict.recorded = other.recorded ↔ verdict = other := by
  refine ⟨fun same => ?_, congrArg recorded⟩
  cases verdict with
  | accept =>
    cases other with
    | accept => rfl
    | reject reason => cases same
  | reject reason =>
    cases other with
    | accept => cases same
    | reject otherReason =>
      -- Every reason has a code of its own.
      have code := VerifyCode.rejectReason?_eq_some_iff.mpr (PeerVerdict.failed.inj same)
      rw [VerifyCode.rejectReason?_eq_some_iff.mpr rfl] at code
      rw [Option.some.inj code]

end Revocation.Verdict

namespace RevocationStore

variable {fs : FileSystem} {store : RevocationStore} {now : Moment}

/-- The first verdict on certificates that is not to accept. -/
def checkAll (fs : FileSystem) (store : RevocationStore) (now : Moment) :
    List Certificate → Revocation.Verdict
  | [] => .accept
  | cert :: rest =>
    match (store.check fs cert now).value with
    | .accept => checkAll fs store now rest
    | .reject reason => .reject reason

theorem checkAll_singleton (cert : Certificate) :
    store.checkAll fs now [cert] = (store.check fs cert now).value := by
  rw [checkAll]
  cases (store.check fs cert now).value <;> rfl

theorem checkAll_append (certs others : List Certificate) :
    store.checkAll fs now (certs ++ others) =
      match store.checkAll fs now certs with
      | .accept => store.checkAll fs now others
      | .reject reason => .reject reason := by
  induction certs with
  | nil => rfl
  | cons cert rest ih =>
    rw [List.cons_append, checkAll, checkAll]
    cases (store.check fs cert now).value with
    | accept => exact ih
    | reject reason => rfl

/-- The rejection that a verification finds is that of the first verdict. -/
theorem checkAll_firstReject (role : Role) (depth : Nat) (certs : List Certificate) :
    (store.checkAll fs now certs = .accept
        ∧ (Verifier.firstReject role fs store now depth certs).value = none)
      ∨ ∃ rejection : Rejection, store.checkAll fs now certs = .reject rejection.reason
        ∧ (Verifier.firstReject role fs store now depth certs).value = some rejection := by
  induction certs generalizing depth with
  | nil => exact .inl ⟨rfl, rfl⟩
  | cons cert rest ih =>
    rw [checkAll]
    cases verdict : (store.check fs cert now).value with
    | accept =>
      rw [Verifier.firstReject_accept depth rest verdict]
      exact ih (depth + 1)
    | reject reason => exact .inr ⟨_, rfl, Verifier.firstReject_reject depth rest verdict⟩

end RevocationStore

namespace Verifier

variable {v w : Verifier} {fs : FileSystem} {slot : Option RevocationStore}
  {store : RevocationStore} {report : Option Report} {p : Presented} {server : ServerName}
  {now : Moment} {path : CertPath} {chain : List Certificate} {last : Certificate}

/-! ### What is told of a peer -/

/-- The answer to the peer, whatever path it was accepted with, and the verdict in the report. -/
def told (v : Verifier) (fs : FileSystem) (slot : Option RevocationStore) (report : Option Report)
    (p : Presented) (server : ServerName) (now : Moment) :
    Except TlsFailure Unit × Option PeerVerdict :=
  let verified := (v.verify fs slot report p server now).value
  (verified.1.map fun _ => (), verified.2.map (·.verdict))

/-- If there is a path and the presented certificates can be read, the first verdict is told. -/
theorem told_eq (found : v.preVerify p.endEntity p.others server now = .ok path)
    (readable : p.all.mapM Certificate.ofBytes? = some chain) :
    v.told fs (some store) report p server now
      = ((store.checkAll fs now (v.visited chain)).answer,
          report.map fun _ => (store.checkAll fs now (v.visited chain)).recorded) := by
  simp only [told, verify, outcome, found, checkRevocation, readable, Logged.value_bind,
    Logged.value_pure]
  rcases RevocationStore.checkAll_firstReject v.role 0 (v.visited chain) with
    ⟨verdict, unrejected⟩ | ⟨rejection, verdict, rejected⟩
  · rw [verdict, unrejected]
    cases report <;> rfl
  · rw [verdict, rejected]
    cases report <;> rfl

/-! ### The anchors that issued a certificate -/

/-- The anchors that issued a certificate, in the order they were loaded. What issued itself has
none. -/
def issuersOf (v : Verifier) (last : Certificate) : List Certificate :=
  if Name.same last.subject last.issuer then []
  else (v.anchors.filterMap Certificate.ofBytes?).filter (isIssuer last)

theorem anchorOf?_eq_head? : v.anchorOf? last = (v.issuersOf last).head? := by
  unfold anchorOf? issuersOf
  split
  · rfl
  · rw [List.head?_filter]

theorem issuersOf_perm (reordered : v.anchors.Perm w.anchors) :
    (v.issuersOf last).Perm (w.issuersOf last) := by
  unfold issuersOf
  split
  · exact .nil
  · exact (reordered.filterMap _).filter _

/-- The certificates put to the store after the presented ones. -/
theorem visited_eq (isLast : chain.getLast? = some last) :
    v.visited chain = chain ++ (v.issuersOf last).head?.toList := by
  rw [visited, isLast, Option.bind_some, anchorOf?_eq_head?]

/-! ### Anchors in another order -/

/-- The same verifier with its anchors in another order, for which the search for a path comes to
the same. -/
structure Reordered (v w : Verifier) (p : Presented) (server : ServerName) (now : Moment) :
    Prop where
  role : v.role = w.role
  anchors : v.anchors.Perm w.anchors
  judgement : (v.preVerify p.endEntity p.others server now).map (fun _ => ())
    = (w.preVerify p.endEntity p.others server now).map fun _ => ()

/-- Anchors in another order lead to the same answer and record. -/
def OrderIrrelevant (v : Verifier) (fs : FileSystem) (slot : Option RevocationStore) (p : Presented)
    (server : ServerName) (now : Moment) : Prop :=
  ∀ w, v.Reordered w p server now →
    ∀ report, v.told fs slot report p server now = w.told fs slot report p server now

/-- Unless the peer is turned away before an anchor is put to the store, all anchors that issued the
last presented certificate get the same verdict. -/
def IssuersAgree (v : Verifier) (fs : FileSystem) (slot : Option RevocationStore) (p : Presented)
    (server : ServerName) (now : Moment) : Prop :=
  ∀ path store chain last, v.preVerify p.endEntity p.others server now = .ok path →
    slot = some store → p.all.mapM Certificate.ofBytes? = some chain →
      chain.getLast? = some last → store.checkAll fs now chain = .accept →
        ∀ anchor ∈ v.issuersOf last, ∀ other ∈ v.issuersOf last,
          (store.check fs anchor now).value = (store.check fs other now).value

/-- Where all elements of two lists of the same elements are alike, so are the first ones. -/
theorem checkAll_head?_eq {certs others : List Certificate} (same : certs.Perm others)
    (agree : ∀ cert ∈ certs, ∀ other ∈ certs,
      (store.check fs cert now).value = (store.check fs other now).value) :
    store.checkAll fs now certs.head?.toList = store.checkAll fs now others.head?.toList := by
  cases certs with
  | nil => rw [same.nil_eq]
  | cons cert rest =>
    cases others with
    | nil => cases same.eq_nil
    | cons other more =>
      simp only [List.head?_cons, Option.toList_some, RevocationStore.checkAll_singleton]
      exact agree cert List.mem_cons_self other (same.mem_iff.mpr List.mem_cons_self)

/-- The searches of reordered verifiers both fail, in the same way, or both find a path. -/
theorem Reordered.searches (reordered : v.Reordered w p server now) :
    (∃ failure, v.preVerify p.endEntity p.others server now = .error failure
        ∧ w.preVerify p.endEntity p.others server now = .error failure)
      ∨ ∃ path path', v.preVerify p.endEntity p.others server now = .ok path
        ∧ w.preVerify p.endEntity p.others server now = .ok path' := by
  have judgement := reordered.judgement
  cases found : v.preVerify p.endEntity p.others server now with
  | error failure =>
    cases found' : w.preVerify p.endEntity p.others server now with
    | error failure' => simpa [found, found', Except.map] using judgement.symm
    | ok path' => simp [found, found', Except.map] at judgement
  | ok path =>
    cases found' : w.preVerify p.endEntity p.others server now with
    | error failure' => simp [found, found', Except.map] at judgement
    | ok path' => exact .inr ⟨path, path', rfl, rfl⟩

/-- If the anchors agree, it does not matter which of them comes first. -/
theorem checkAll_visited_eq (reordered : v.anchors.Perm w.anchors)
    (agree : ∀ last, chain.getLast? = some last → store.checkAll fs now chain = .accept →
      ∀ anchor ∈ v.issuersOf last, ∀ other ∈ v.issuersOf last,
        (store.check fs anchor now).value = (store.check fs other now).value) :
    store.checkAll fs now (v.visited chain) = store.checkAll fs now (w.visited chain) := by
  cases isLast : chain.getLast? with
  | none => rw [visited, visited, isLast, Option.bind_none, Option.bind_none]
  | some last =>
    -- Up to the anchor, the same certificates are put to the store.
    rw [visited_eq isLast, visited_eq isLast, RevocationStore.checkAll_append,
      RevocationStore.checkAll_append]
    cases verdict : store.checkAll fs now chain with
    | reject reason => rfl
    | accept => exact checkAll_head?_eq (issuersOf_perm reordered) (agree last isLast verdict)

theorem orderIrrelevant_of_issuersAgree (agree : v.IssuersAgree fs slot p server now) :
    v.OrderIrrelevant fs slot p server now := by
  intro w reordered report
  rcases reordered.searches with ⟨failure, refused, refused'⟩ | ⟨path, path', found, found'⟩
  · rw [told, told, verify_of_preVerify_error refused, verify_of_preVerify_error refused']
  · cases slot with
    | none =>
      simp only [told, verify, outcome, found, found']
      rfl
    | some store =>
      cases readable : p.all.mapM Certificate.ofBytes? with
      | none => simp only [told, verify, outcome, found, found', checkRevocation, readable]
      | some chain =>
        have same := checkAll_visited_eq reordered.anchors fun last isLast accepted =>
          agree path store chain last found rfl readable isLast accepted
        rw [told_eq found readable, told_eq found' readable, same]

/-- The verifier with one of its anchors before all others. -/
def withFirst (v : Verifier) (der : Bytes) : Verifier :=
  { v with anchors := der :: v.anchors.erase der }

theorem reordered_withFirst {der : Bytes} (mem : der ∈ v.anchors) :
    v.Reordered (v.withFirst der) p server now :=
  ⟨rfl, List.perm_cons_erase mem, rfl⟩

/-- Any anchor that issued a certificate may come to be the first. -/
theorem exists_reordered_of_mem_issuersOf {anchor : Certificate}
    (mem : anchor ∈ v.issuersOf last) (p : Presented) (server : ServerName) (now : Moment) :
    ∃ w, v.Reordered w p server now ∧ w.preVerify = v.preVerify
      ∧ (w.issuersOf last).head? = some anchor := by
  unfold issuersOf at mem
  split at mem
  case isTrue => cases mem
  case isFalse fromOther =>
    obtain ⟨isAnchor, issued⟩ := List.mem_filter.mp mem
    obtain ⟨der, mem, reads⟩ := List.mem_filterMap.mp isAnchor
    refine ⟨v.withFirst der, reordered_withFirst mem, rfl, ?_⟩
    rw [issuersOf, if_neg fromOther, withFirst, List.filterMap_cons_some reads,
      List.filter_cons_of_pos issued, List.head?_cons]

/-- If the order is irrelevant, the anchors agree: each of them may be put first. -/
theorem issuersAgree_of_orderIrrelevant (irrelevant : v.OrderIrrelevant fs slot p server now) :
    v.IssuersAgree fs slot p server now := by
  rintro path store chain last found rfl readable isLast accepted
  -- Whichever comes first, its verdict is recorded.
  have first (anchor : Certificate) (mem : anchor ∈ v.issuersOf last) :
      (store.check fs anchor now).value = store.checkAll fs now (v.visited chain) := by
    obtain ⟨w, reordered, searches, isFirst⟩ :=
      exists_reordered_of_mem_issuersOf mem p server now
    have same := irrelevant w reordered (some {})
    rw [told_eq found readable, told_eq (by rw [searches, found]) readable] at same
    have verdict := Revocation.Verdict.recorded_inj.mp (Option.some.inj (Prod.mk.inj same).2)
    rw [verdict, visited_eq isLast, RevocationStore.checkAll_append, accepted, isFirst,
      Option.toList_some, RevocationStore.checkAll_singleton]
  intro anchor mem other memOther
  rw [first anchor mem, first other memOther]

/-- The order of the anchors is irrelevant exactly if all anchors that may be put to the store
behind the last presented certificate get the same verdict. -/
theorem order_irrelevant_iff (v : Verifier) (fs : FileSystem) (slot : Option RevocationStore)
    (p : Presented) (server : ServerName) (now : Moment) :
    v.OrderIrrelevant fs slot p server now ↔ v.IssuersAgree fs slot p server now :=
  ⟨issuersAgree_of_orderIrrelevant, orderIrrelevant_of_issuersAgree⟩

/-- Anchors that differ in no name, key or serial number agree in every store. -/
theorem orderIrrelevant_of_alike
    (alike : ∀ chain last, p.all.mapM Certificate.ofBytes? = some chain →
      chain.getLast? = some last → ∀ anchor ∈ v.issuersOf last, ∀ other ∈ v.issuersOf last,
        anchor.subject.canonical = other.subject.canonical
          ∧ anchor.issuer.canonical = other.issuer.canonical
          ∧ anchor.publicKey = other.publicKey ∧ anchor.serial = other.serial) :
    v.OrderIrrelevant fs slot p server now := by
  refine orderIrrelevant_of_issuersAgree ?_
  intro path store chain last _ _ readable isLast _ anchor mem other memOther
  obtain ⟨subject, issuer, key, serial⟩ :=
    alike chain last readable isLast anchor mem other memOther
  exact RevocationStore.value_check_congr anchor other subject issuer key serial fs store now

end Verifier

/-! ### Two certificates of one authority -/

namespace CrossSigned

open TestAuthority (ofWords)

/-- A certificate of Test CA, issued by another authority under the serial number ten. -/
def cross : Bytes :=
  ofWords 322 [
    0x3082013e3081e6a00302010202010a300a06082a8648ce3d04030230133111300f06035504030c08,
    0x4f746865722043413020170d3230303130313030303030305a180f32303939303130313030303030,
    0x305a30293110300e06035504030c075465737420434131153013060355040a0c0c4e4554434f4e46,
    0x20546573743059301306072a8648ce3d020106082a8648ce3d030107034200043362f6d38338c2be,
    0xf6bb9b6ce74d5edc26353c95b226f52cbecb407aaedb35bd201ae0066aecb3a929fa3ead7f70c02f,
    0xcffb27eda6bbf5c9c0284a3fd8ec916da3133011300f0603551d130101ff040530030101ff300a06,
    0x082a8648ce3d0403020347003044022078392e678219323fd3706fa3d0a5daea7c414ab8103ee6d2,
    0xf5aff97e4d12940a02201a9601f7c61b3515a9b1e1a990a828946430b3b3c2d020206a5593eceb0a,
    0xe96e0000000000000000000000000000000000000000000000000000000000000000000000000000]

/-- A list of the other authority that names this certificate. -/
def otherList : Bytes :=
  ofWords 179 [
    0x3081b03058020101300a06082a8648ce3d04030230133111300f06035504030c084f746865722043,
    0x41170d3233303130313030303030305a170d3333303130313030303030305a3014301202010a170d,
    0x3233303130313030303030305a300a06082a8648ce3d04030203480030450220706d6dff1e3b7278,
    0x6d45c3f9b33b481b6403b1f28ae5391e9096930d2560c63d02210090c98f04192bf06b53c4a02da0,
    0xb4683d646e82aeb56ef6148110fa7a4bc447bd000000000000000000000000000000000000000000]

/-- The list in a file. -/
def files : FileSystem := ⟨[], [(["c"], .file otherList)]⟩

end CrossSigned

open TestAuthority (root leaf now) in
open CrossSigned in
/-- The anchor of a peer is loaded with a certificate for the same name and key that was revoked.
The peer is accepted if the anchor comes first, and turned away if the other does. -/
theorem order_relevant_of_cross_signed :
    ∃ v w store server, Verifier.ofAnchors .client [root, cross] = .ok v
      ∧ Verifier.ofAnchors .client [cross, root] = .ok w
      ∧ RevocationStore.build files (some ⟨"c"⟩) none = .ok store
      ∧ ServerName.ofText? "localhost" = some server
      ∧ v.Reordered w ⟨leaf, []⟩ server now
      ∧ v.told files (some store) (some {}) ⟨leaf, []⟩ server now = (.ok (), some .verified)
      ∧ w.told files (some store) (some {}) ⟨leaf, []⟩ server now
          = (.error (.certificate .revoked), some (.failed .certRevoked)) := by
  have differ : ((Verifier.ofAnchors .client [root, cross]).toOption.any fun v =>
      (Verifier.ofAnchors .client [cross, root]).toOption.any fun w =>
        (RevocationStore.build files (some ⟨"c"⟩) none).toOption.any fun store =>
          (ServerName.ofText? "localhost").any fun server =>
            decide (v.role = w.role ∧ v.anchors.Perm w.anchors
              ∧ (v.preVerify leaf [] server now).map (fun _ => ())
                = (w.preVerify leaf [] server now).map (fun _ => ())
              ∧ v.told files (some store) (some {}) ⟨leaf, []⟩ server now
                = (.ok (), some .verified)
              ∧ w.told files (some store) (some {}) ⟨leaf, []⟩ server now
                = (.error (.certificate .revoked), some (.failed .certRevoked)))) = true := by
    decide +kernel
  obtain ⟨v, made, differ⟩ := toOption_any_eq_true_iff.mp differ
  obtain ⟨w, made', differ⟩ := toOption_any_eq_true_iff.mp differ
  obtain ⟨store, built, differ⟩ := toOption_any_eq_true_iff.mp differ
  obtain ⟨server, named, differ⟩ := (Option.any_eq_true _ _).mp differ
  obtain ⟨role, anchors, judgement, accepted, refused⟩ := of_decide_eq_true differ
  exact ⟨v, w, store, server, made, made', built, named, ⟨role, anchors, judgement⟩, accepted,
    refused⟩

end PeerTrust
