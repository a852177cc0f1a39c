/-!
# Revocation verdicts

## Main definitions

* `RejectReason` — why a certificate is rejected for revocation reasons
* `Revocation.Verdict` — the answer of a revocation check
-/

namespace PeerTrust

/-- Why a certificate is rejected. -/
inductive RejectReason
  /-- The signature of the subject's own list does not verify. -/
  | crlSignatureInvalid
  /-- The subject's own list does not say when it expires. -/
  | crlFieldMissing
  /-- The subject's own list has expired. -/
  | crlExpired
  /-- The issuer's list names the certificate. -/
  | certificateRevoked
  deriving DecidableEq, Repr

/-- The wording of a reason. -/
def RejectReason.text : RejectReason → String
  | crlSignatureInvalid => "CRL signature failure"
  | crlFieldMissing => "CRL nextUpdate field missing"
  | crlExpired => "CRL has expired"
  | certificateRevoked => "certificate revoked"

/-- The answer of a revocation check for one certificate. -/
inductive Revocation.Verdict
  | accept
  | reject (reason : RejectReason)
  deriving DecidableEq, Repr

/-- Whether the certificate may be used. -/
def Revocation.Verdict.isAccept : Revocation.Verdict → Bool
  | accept => true
  | reject _ => false

end PeerTrust
