import PeerTrust.Proofs.ListsOnPath
import PeerTrust.Proofs.Verification

/-!
# Causes of failures

Path validation may report one and the same cause plainly or with details: the times, names or
purposes that did not agree. When a verification fails there, its report records a code for the
failure. Only the plain forms are told apart, and the search for a path reports the causes that have
details with them.

## Main definitions

* `TlsFailure.causeCode` — the code of what caused a failure, in whichever form it is reported
* `TlsFailure.Unclassified` — the failures that are not recorded under the code of their cause
* `Verifier.ClassifiesByCause` — a verification that records the cause of its failure

## Main results

* `VerifyCode.ofFailure_eq_causeCode_iff` — which failures are recorded under their cause's code
* `Certification.Problem.unclassified_failure_iff` — which problems of a search for a path are not
* `Verifier.classifies_by_cause_iff` — what this says of verifications
-/

namespace PeerTrust

namespace TlsFailure

/-- The code of what caused a failure, in whichever form the cause is reported. -/
def causeCode : TlsFailure → VerifyCode
  | .certificate .badSignature => .certSignatureFailure
  | .certificate .expired | .certificate (.expiredContext ..) => .certHasExpired
  | .certificate .notValidYet | .certificate (.notValidYetContext ..) => .certNotYetValid
  | .certificate .unknownIssuer => .unableToGetIssuerCertLocally
  | .certificate .revoked => .certRevoked
  | .certificate .notValidForName | .certificate (.notValidForNameContext ..) => .hostnameMismatch
  | .certificate .invalidPurpose | .certificate (.invalidPurposeContext ..) => .invalidPurpose
  | .certificate .expiredRevocationList | .certificate (.expiredRevocationListContext ..) =>
    .crlHasExpired
  | .certificate (.rejected code) => code
  | .crlBadSignature => .crlSignatureFailure
  -- Nothing else has a code of its own.
  | _ => .unspecified

/-- The failures whose cause has a code under which they are not recorded: those that are reported
with details, and those that path validation without revocation lists does not report. -/
def Unclassified : TlsFailure → Prop
  | .certificate (.expiredContext ..) | .certificate (.notValidYetContext ..)
  | .certificate (.notValidForNameContext ..) | .certificate (.invalidPurposeContext ..) => True
  | .certificate .expiredRevocationList | .certificate (.expiredRevocationListContext ..)
  | .crlBadSignature => True
  | .certificate (.rejected code) => code ≠ .unspecified
  | _ => False

end TlsFailure

namespace VerifyCode

variable {failure : TlsFailure}

/-- A failure is recorded under the code of its cause, unless it is one of those. -/
theorem ofFailure_eq_causeCode_iff :
    ofFailure failure = failure.causeCode ↔ ¬failure.Unclassified := by
  cases failure with
  | certificate problem =>
    cases problem <;> simp [ofFailure, TlsFailure.causeCode, TlsFailure.Unclassified, eq_comm]
  | _ => simp [ofFailure, TlsFailure.causeCode, TlsFailure.Unclassified]

/-- Those are recorded as if their cause had no code. -/
theorem ofFailure_of_unclassified (unclassified : failure.Unclassified) :
    ofFailure failure = unspecified := by
  cases failure with
  | certificate problem => cases problem <;> simp_all [ofFailure, TlsFailure.Unclassified]
  | crlBadSignature => rfl
  | decryptError | noCertificatesPresented | general => cases unclassified

end VerifyCode

namespace Certification.Problem

/-- The problems that are reported with the times, names or purposes that did not agree. -/
def HasDetails : Problem → Prop
  | notYetValid .. | expired .. | wrongName .. | purposeMissing _ => True
  | _ => False

/-- Of the problems that a search for a path may have, just these are not recorded under the codes
of their causes. -/
theorem unclassified_failure_iff (problem : Problem) :
    problem.failure.Unclassified ↔ problem.HasDetails := by
  cases problem <;> rfl

end Certification.Problem

namespace Verifier

/-- If there is no path, the failure is returned as it is, and recorded with the code of its cause
and no subject. -/
def ClassifiesByCause (v : Verifier) (fs : FileSystem) (slot : Option RevocationStore)
    (before : Report) (p : Presented) (server : ServerName) (now : Moment) : Prop :=
  ∀ failure, v.preVerify p.endEntity p.others server now = .error failure →
    (v.verify fs slot (some before) p server now).value
      = (.error failure, some ⟨.failed failure.causeCode, none⟩)

/-- A verification without a path records the code of the cause exactly if the cause is not reported
with details, and otherwise records that there is no code for it. A search for a path reports just
four of its problems with details: a validity that has ended or not begun, another name, and another
purpose. -/
theorem classifies_by_cause_iff (v : Verifier) (fs : FileSystem) (slot : Option RevocationStore)
    (before : Report) (p : Presented) (server : ServerName) (now : Moment) :
    (v.ClassifiesByCause fs slot before p server now ↔
        ∀ failure, v.preVerify p.endEntity p.others server now = .error failure →
          ¬failure.Unclassified)
      ∧ (∀ failure, v.preVerify p.endEntity p.others server now = .error failure →
          failure.Unclassified →
            (v.verify fs slot (some before) p server now).value
              = (.error failure, some ⟨.failed .unspecified, none⟩))
      ∧ ∀ role anchors, ofAnchors role anchors = .ok v →
          ∀ failure, v.preVerify p.endEntity p.others server now = .error failure →
            ∃ problem : Certification.Problem, failure = problem.failure
              ∧ (failure.Unclassified ↔ problem.HasDetails) := by
  refine ⟨?_, ?_, ?_⟩
  · refine forall_congr' fun failure => imp_congr_right fun refused => ?_
    rw [verify_of_preVerify_error refused, ← VerifyCode.ofFailure_eq_causeCode_iff]
    simp
  · intro failure refused unclassified
    rw [verify_of_preVerify_error refused, VerifyCode.ofFailure_of_unclassified unclassified]
    rfl
  · intro role anchors made failure refused
    obtain ⟨usable, judges⟩ := preVerify_of_ofAnchors made
    rw [judges] at refused
    obtain ⟨problem, -, rfl⟩ := mapError_eq_error_iff.mp refused
    exact ⟨problem, rfl, problem.unclassified_failure_iff⟩

end Verifier

open TestAuthority in
/-- A certificate of the year 2020 is presented in 2017. It is turned away because it is not yet
valid, and recorded as if there were no code for that. -/
theorem early_certificate_unclassified :
    ∃ v server, Verifier.ofAnchors .client [root] = .ok v
      ∧ ServerName.ofText? "localhost" = some server
      ∧ v.preVerify leaf [] server 1500000000
          = .error (.certificate (.notValidYetContext 1500000000 1577836800))
      ∧ ∀ before, ¬v.ClassifiesByCause .empty none before ⟨leaf, []⟩ server 1500000000 := by
  have early : ((Verifier.ofAnchors .client [root]).toOption.any fun v =>
      (ServerName.ofText? "localhost").any fun server =>
        v.preVerify leaf [] server 1500000000
          = .error (.certificate (.notValidYetContext 1500000000 1577836800))) = true := by
    decide +kernel
  obtain ⟨v, made, early⟩ := toOption_any_eq_true_iff.mp early
  obtain ⟨server, named, early⟩ := (Option.any_eq_true _ _).mp early
  have refused := of_decide_eq_true early
  refine ⟨v, server, made, named, refused, fun before classifies => ?_⟩
  have told := classifies _ refused
  rw [Verifier.verify_of_preVerify_error refused] at told
  exact nomatch (Prod.mk.inj told).2

end PeerTrust
