import PeerTrust.Revocation.Verdict

/-!
# Verification codes and failures

A failed verification is recorded under a numbered code and aborts the handshake with a failure.
Path validation reports failures of its own, which are classified by code; a certificate rejected
for revocation is turned from code to failure.

## Main definitions

* `VerifyCode` — the numbered results
* `CertificateProblem`, `TlsFailure` — what aborts a handshake, and its wording
* `VerifyCode.ofReject` / `VerifyCode.rejectReason?` — codes of revocation reasons
* `VerifyCode.ofFailure` / `VerifyCode.toFailure` — codes and failures

## Main results

* `VerifyCode.rejectReason?_eq_some_iff` — a code stands for a reason exactly if it is its code
-/

namespace PeerTrust

/-- The result code of a failed verification. -/
inductive VerifyCode
  | unspecified
  | certSignatureFailure
  | crlSignatureFailure
  | certNotYetValid
  | certHasExpired
  | crlHasExpired
  | errorInCrlNextUpdateField
  | unableToGetIssuerCertLocally
  | certRevoked
  | invalidPurpose
  | hostnameMismatch
  deriving DecidableEq, Repr

namespace VerifyCode

/-- The number of a code. -/
def number : VerifyCode → Nat
  | unspecified => 1
  | certSignatureFailure => 7
  | crlSignatureFailure => 8
  | certNotYetValid => 9
  | certHasExpired => 10
  | crlHasExpired => 12
  | errorInCrlNextUpdateField => 16
  | unableToGetIssuerCertLocally => 20
  | certRevoked => 23
  | invalidPurpose => 26
  | hostnameMismatch => 62

/-- The wording of a code. -/
def text : VerifyCode → String
  | unspecified => "unspecified certificate verification error"
  | certSignatureFailure => "certificate signature failure"
  | crlSignatureFailure => "CRL signature failure"
  | certNotYetValid => "certificate is not yet valid"
  | certHasExpired => "certificate has expired"
  | crlHasExpired => "CRL has expired"
  | errorInCrlNextUpdateField => "format error in CRL's nextUpdate field"
  | unableToGetIssuerCertLocally => "unable to get local issuer certificate"
  | certRevoked => "certificate revoked"
  | invalidPurpose => "unsupported certificate purpose"
  | hostnameMismatch => "hostname mismatch"

/-- All codes, by number. -/
def all : List VerifyCode :=
  [unspecified, certSignatureFailure, crlSignatureFailure, certNotYetValid, certHasExpired,
   crlHasExpired, errorInCrlNextUpdateField, unableToGetIssuerCertLocally, certRevoked,
   invalidPurpose, hostnameMismatch]

end VerifyCode

/-- What is wrong with a certificate path. Causes that concern a time, a name or a purpose come
plain or with the details. -/
inductive CertificateProblem
  | badEncoding
  | expired
  | expiredContext (time notAfter : Int)
  | notValidYet
  | notValidYetContext (time notBefore : Int)
  | revoked
  | unhandledCriticalExtension
  | unknownIssuer
  | unknownRevocationStatus
  | expiredRevocationList
  | expiredRevocationListContext (time nextUpdate : Int)
  | badSignature
  | unsupportedSignatureAlgorithm
  | unsupportedSignatureAlgorithmContext
  | unsupportedSignatureAlgorithmForPublicKeyContext
  | notValidForName
  | notValidForNameContext (expected : String) (presented : List String)
  | invalidPurpose
  | invalidPurposeContext (presented : List String)
  | invalidOcspResponse
  | applicationVerificationFailure
  /-- A certificate rejected under this code. -/
  | rejected (code : VerifyCode)
  /-- Any other fault of the path. -/
  | other (cause : String)
  deriving DecidableEq, Repr

/-- What aborts a handshake. -/
inductive TlsFailure
  | certificate (problem : CertificateProblem)
  /-- A revocation list whose signature does not verify. -/
  | crlBadSignature
  | decryptError
  | noCertificatesPresented
  | general (text : String)
  deriving DecidableEq, Repr

/-- The wording of what is wrong with a certificate path. -/
def CertificateProblem.message : CertificateProblem → String
  | badEncoding => "BadEncoding"
  | expired => "Expired"
  | expiredContext time notAfter =>
    s!"certificate expired: verification time {time} (UNIX), but certificate is not valid after {notAfter} ({time - notAfter} seconds ago)"
  | notValidYet => "NotValidYet"
  | notValidYetContext time notBefore =>
    s!"certificate not valid yet: verification time {time} (UNIX), but certificate is not valid before {notBefore} ({notBefore - time} seconds in future)"
  | revoked => "Revoked"
  | unhandledCriticalExtension => "UnhandledCriticalExtension"
  | unknownIssuer => "UnknownIssuer"
  | unknownRevocationStatus => "UnknownRevocationStatus"
  | expiredRevocationList => "ExpiredRevocationList"
  | expiredRevocationListContext time nextUpdate =>
    s!"certificate revocation list expired: verification time {time} (UNIX), but CRL is not valid after {nextUpdate} ({time - nextUpdate} seconds ago)"
  | badSignature => "BadSignature"
  | unsupportedSignatureAlgorithm => "UnsupportedSignatureAlgorithm"
  | unsupportedSignatureAlgorithmContext => "unsupported signature algorithm"
  | unsupportedSignatureAlgorithmForPublicKeyContext =>
    "unsupported signature algorithm for the public key"
  | notValidForName => "NotValidForName"
  | notValidForNameContext expected presented =>
    let names := match presented with
      | [] => "certificate is not valid for any names (according to its subjectAltName extension)"
      | [only] => s!"certificate is only valid for {only}"
      | names => "certificate is only valid for " ++ ", ".intercalate names
    s!"certificate not valid for name {expected}; {names}"
  | invalidPurpose => "InvalidPurpose"
  | invalidPurposeContext presented =>
    "certificate does not allow extended key usage for server authentication, allows "
      ++ ", ".intercalate presented
  | invalidOcspResponse => "InvalidOcspResponse"
  | applicationVerificationFailure => "ApplicationVerificationFailure"
  | rejected code => code.text
  | other cause => cause

/-- The wording of what aborts a handshake. -/
def TlsFailure.message : TlsFailure → String
  | certificate problem => s!"invalid peer certificate: {problem.message}"
  | crlBadSignature => "invalid certificate revocation list: BadSignature"
  | decryptError => "cannot decrypt peer's message"
  | noCertificatesPresented => "peer sent no certificates"
  | general text => s!"unexpected error: {text}"

namespace VerifyCode

/-- The code under which a revocation reject is recorded. -/
def ofReject : RejectReason → VerifyCode
  | .crlSignatureInvalid => crlSignatureFailure
  | .crlFieldMissing => errorInCrlNextUpdateField
  | .crlExpired => crlHasExpired
  | .certificateRevoked => certRevoked

/-- The revocation reject that a code records, if it records one. -/
def rejectReason? : VerifyCode → Option RejectReason
  | crlSignatureFailure => some .crlSignatureInvalid
  | errorInCrlNextUpdateField => some .crlFieldMissing
  | crlHasExpired => some .crlExpired
  | certRevoked => some .certificateRevoked
  | _ => none

theorem rejectReason?_eq_some_iff {code : VerifyCode} {reason : RejectReason} :
    code.rejectReason? = some reason ↔ code = ofReject reason := by
  cases code <;> cases reason <;> simp [rejectReason?, ofReject]

/-- The code of a failure that path validation reports. Only the plain forms are told apart. -/
def ofFailure : TlsFailure → VerifyCode
  | .certificate .badSignature => certSignatureFailure
  | .certificate .expired => certHasExpired
  | .certificate .notValidYet => certNotYetValid
  | .certificate .unknownIssuer => unableToGetIssuerCertLocally
  | .certificate .revoked => certRevoked
  | .certificate .notValidForName => hostnameMismatch
  | .certificate .invalidPurpose => invalidPurpose
  | _ => unspecified

/-- The failure that aborts a handshake under a code. -/
def toFailure : VerifyCode → TlsFailure
  | certRevoked => .certificate .revoked
  | crlSignatureFailure => .crlBadSignature
  | code => .certificate (.rejected code)

end VerifyCode

end PeerTrust
