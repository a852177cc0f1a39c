import PeerTrust.Proofs.ListsOnPath
import PeerTrust.Proofs.Outcomes

/-!
# What reports tell

At the end of a verification its report is written over, whatever it held before, and tells how this
verification ended. Only one that stops at a certificate it cannot read leaves the report as it was,
so that an earlier verification speaks for it.

## Main definitions

* `Report.Tells` — a report that tells the result of a verification, and whom the store rejected

## Main results

* `Verifier.report_tells_iff` — reports tell how verifications end that read all certificates
-/

namespace PeerTrust

/-- The report tells a result of this verification, and names whom the store rejected in it. -/
structure Report.Tells (report : Report) (v : Verifier) (fs : FileSystem)
    (slot : Option RevocationStore) (p : Presented) (server : ServerName) (now : Moment)
    (result : Except TlsFailure CertPath) : Prop where
  verified : ∀ path, result = .ok path → report.verdict = .verified
  failed : ∀ failure, result = .error failure → ∃ code, report.verdict = .failed code
  subject : (∃ cert reason, v.Rejects fs slot p server now cert reason
      ∧ report.subject = some cert.subject.display)
    ∨ (¬∃ cert reason, v.Rejects fs slot p server now cert reason) ∧ report.subject = none

namespace Verifier

variable {v : Verifier} {fs : FileSystem} {slot : Option RevocationStore} {p : Presented}
  {server : ServerName} {now : Moment}

/-- What is recorded is what the report holds after it. -/
theorem verify_of_record {report : Report} (before : Report)
    (recorded : (v.outcome fs slot p server now).value.record = some report) :
    (v.verify fs slot (some before) p server now).value
      = ((v.outcome fs slot p server now).value.result, some report) := by
  simp only [verify, Logged.value_bind, Logged.value_pure, Option.map_some, recorded,
    Option.getD_some]

/-- Without a record the report is what it was before. -/
theorem verify_of_no_record (before : Report)
    (recorded : (v.outcome fs slot p server now).value.record = none) :
    (v.verify fs slot (some before) p server now).value
      = ((v.outcome fs slot p server now).value.result, some before) := by
  simp only [verify, Logged.value_bind, Logged.value_pure, Option.map_some, recorded,
    Option.getD_none]

/-- A verification that read all certificates records its outcome. -/
theorem exists_record_tells (fs : FileSystem) (reads : ¬v.StopsUnread slot p server now) :
    ∃ report, (v.outcome fs slot p server now).value.record = some report
      ∧ report.Tells v fs slot p server now (v.outcome fs slot p server now).value.result := by
  have ends := v.ending fs slot p server now
  generalize (v.outcome fs slot p server now).value = outcome at ends
  cases ends with
  | @refused failure noPath =>
    refine ⟨_, rfl, ?_, ?_, ?_⟩
    · exact fun path same => nomatch same
    · exact fun _ _ => ⟨_, rfl⟩
    -- Without a path nothing is put to the store.
    · refine .inr ⟨?_, rfl⟩
      rintro ⟨cert, reason, rejects⟩
      exact rejects.not_refused noPath
  | unread stops => exact absurd stops reads
  | @rejected cert reason rejects =>
    refine ⟨_, rfl, ?_, ?_, ?_⟩
    · exact fun path same => nomatch same
    · exact fun _ _ => ⟨_, rfl⟩
    · exact .inl ⟨cert, reason, rejects, rfl⟩
  | @accepted path accepts =>
    refine ⟨_, rfl, ?_, ?_, ?_⟩
    · exact fun _ _ => rfl
    · exact fun failure same => nomatch same
    · refine .inr ⟨?_, rfl⟩
      rintro ⟨cert, reason, rejects⟩
      exact rejects.not_accepts accepts

/-- Nothing comes of a verification that stops at a certificate it cannot read. -/
theorem StopsUnread.outcome_eq (stops : v.StopsUnread slot p server now) (fs : FileSystem) :
    (v.outcome fs slot p server now).value = ⟨.error (.certificate .badEncoding), none⟩ := by
  have ends := v.ending fs slot p server now
  generalize (v.outcome fs slot p server now).value = outcome at ends
  cases ends with
  | refused noPath =>
    obtain ⟨⟨path, found⟩, -⟩ := stops
    exact nomatch found.symm.trans noPath
  | unread => rfl
  | rejected rejects => exact absurd stops rejects.not_stopsUnread
  | accepted accepts => exact absurd stops accepts.not_stopsUnread

/-- A verification that stops at a certificate it cannot read keeps the report as it was. -/
theorem StopsUnread.verify_eq (stops : v.StopsUnread slot p server now) (fs : FileSystem)
    (before : Report) :
    (v.verify fs slot (some before) p server now).value
      = (.error (.certificate .badEncoding), some before) := by
  have nothing := stops.outcome_eq fs
  rw [verify_of_no_record before (by rw [nothing]), nothing]

/-- After a verification the report tells its result, whatever the report held before, exactly if
the verification did not stop at a certificate that it could not read. There the report is kept. -/
theorem report_tells_iff (v : Verifier) (fs : FileSystem) (slot : Option RevocationStore)
    (p : Presented) (server : ServerName) (now : Moment) :
    ((∃ after : Report, ∀ before,
        let verified := (v.verify fs slot (some before) p server now).value
        verified.2 = some after ∧ after.Tells v fs slot p server now verified.1)
      ↔ ¬v.StopsUnread slot p server now)
      ∧ (v.StopsUnread slot p server now → ∀ before,
        (v.verify fs slot (some before) p server now).value
          = (.error (.certificate .badEncoding), some before)) := by
  refine ⟨⟨?_, ?_⟩, fun stops => stops.verify_eq fs⟩
  · rintro ⟨after, told⟩ stops
    -- What was in the report before would have to be the same for all.
    have unchecked := (told ⟨.notChecked, none⟩).1
    have verified := (told ⟨.verified, none⟩).1
    simp only [stops.verify_eq] at unchecked verified
    exact nomatch unchecked.trans verified.symm
  · intro reads
    obtain ⟨report, recorded, tells⟩ := exists_record_tells fs reads
    refine ⟨report, fun before => ?_⟩
    dsimp only
    rw [verify_of_record before recorded]
    exact ⟨rfl, tells⟩

end Verifier

open TestAuthority in
/-- A peer that presents a single byte beside its certificate is turned away, and a report that
called an earlier peer verified goes on to do so. -/
theorem unreadable_certificate_keeps_report :
    ∃ v server failure, Verifier.ofAnchors .client [root] = .ok v
      ∧ ServerName.ofText? "localhost" = some server
      ∧ (v.verify .empty (some ⟨[]⟩) (some ⟨.verified, none⟩) ⟨leaf, [[0]]⟩ server now).value
          = (.error failure, some ⟨.verified, none⟩) := by
  have searched : ((Verifier.ofAnchors .client [root]).toOption.any fun v =>
      (ServerName.ofText? "localhost").any fun server =>
        (v.preVerify leaf [[0]] server now).toOption.any fun _ => true) = true := by
    decide +kernel
  have unreadable : [leaf, [0]].mapM Certificate.ofBytes? = none := by
    decide +kernel
  obtain ⟨v, made, searched⟩ := toOption_any_eq_true_iff.mp searched
  obtain ⟨server, named, searched⟩ := (Option.any_eq_true _ _).mp searched
  obtain ⟨path, found, -⟩ := toOption_any_eq_true_iff.mp searched
  have stops : v.StopsUnread (some ⟨[]⟩) ⟨leaf, [[0]]⟩ server now :=
    ⟨⟨path, found⟩, ⟨_, rfl⟩, unreadable⟩
  exact ⟨v, server, _, made, named, stops.verify_eq .empty _⟩

end PeerTrust
