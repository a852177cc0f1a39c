import PeerTrust.Time
import PeerTrust.Verification.Code

/-!
# Problems of certification paths

Every way to build a path may fail for a reason of its own. The most specific reason is kept.

## Main definitions

* `Certification.Problem` — why a path is not accepted
* `Certification.Problem.rank`, `Certification.Problem.mostSpecific` — which reason is kept
* `Certification.Problem.failure` — the failure that a reason is reported as

## Main results

* `Certification.Problem.rank_mostSpecific` — the kept reason has the higher rank
-/

namespace PeerTrust.Certification

/-- Why a path is not accepted. -/
inductive Problem
  | notYetValid (time notBefore : Moment)
  | expired (time notAfter : Moment)
  | wrongName (expected : String) (presented : List String)
  | badSignature
  | algorithmsDiffer
  | noPurposes
  | purposeMissing (presented : List String)
  | nameConstraintViolated
  | pathLengthExceeded
  | authorityAsEndEntity
  | endEntityAsAuthority
  /-- The validity ends before it starts. -/
  | validityReversed
  | badAddressMask
  | unsupportedForKey
  | unsupportedAlgorithm
  | unsupportedCriticalExtension
  | unsupportedVersion
  /-- There are more certificates between end entity and anchor than a path may hold. -/
  | tooDeep
  | malformedHostName
  | malformedNameConstraint
  | trailingData
  | repeatedExtension
  | badTime
  | badEncoding
  | unknownIssuer
  /-- The search verified as many signatures as it may. -/
  | tooManySignatures
  /-- The search tried as many paths as it may. -/
  | tooManyPaths
  /-- The search compared as many names with constraints as it may. -/
  | tooManyComparisons
  deriving DecidableEq, Repr

namespace Problem

/-- How specific a reason is. -/
def rank : Problem → Nat
  | notYetValid .. | expired .. => 20
  | wrongName .. => 19
  | badSignature => 18
  | algorithmsDiffer => 17
  | noPurposes => 16
  | purposeMissing _ => 15
  | nameConstraintViolated => 14
  | pathLengthExceeded => 13
  | authorityAsEndEntity | endEntityAsAuthority => 12
  | validityReversed => 11
  | badAddressMask => 10
  | unsupportedForKey => 9
  | unsupportedAlgorithm => 8
  | unsupportedCriticalExtension | unsupportedVersion => 7
  | tooDeep => 6
  | malformedHostName => 5
  | malformedNameConstraint => 4
  | trailingData => 3
  | repeatedExtension => 2
  | badTime => 1
  | badEncoding => 1
  | unknownIssuer | tooManySignatures | tooManyPaths | tooManyComparisons => 0

/-- The more specific of two reasons, the first of two equally specific ones. -/
def mostSpecific (p q : Problem) : Problem := if q.rank ≤ p.rank then p else q

theorem rank_mostSpecific (p q : Problem) : (mostSpecific p q).rank = max p.rank q.rank := by
  unfold mostSpecific
  split <;> omega

/-- Whether the search ends with this reason, whatever else could be tried. -/
def endsSearch : Problem → Bool
  | tooManySignatures | tooManyPaths | tooManyComparisons => true
  | _ => false

/-- What the reason is reported as. -/
def certificateProblem : Problem → CertificateProblem
  | notYetValid time notBefore => .notValidYetContext time notBefore
  | expired time notAfter => .expiredContext time notAfter
  | wrongName expected presented => .notValidForNameContext expected presented
  | badSignature => .badSignature
  | purposeMissing presented => .invalidPurposeContext presented
  | validityReversed => .expired
  | unsupportedForKey => .unsupportedSignatureAlgorithmForPublicKeyContext
  | unsupportedAlgorithm => .unsupportedSignatureAlgorithmContext
  | trailingData | badTime | badEncoding => .badEncoding
  | unknownIssuer => .unknownIssuer
  | algorithmsDiffer => .other "the two algorithm identifiers differ"
  | noPurposes => .other "the extended key usage is empty"
  | nameConstraintViolated => .other "a name constraint is violated"
  | pathLengthExceeded => .other "a path length constraint is violated"
  | authorityAsEndEntity => .other "an authority is used as an end entity"
  | endEntityAsAuthority => .other "an end entity is used as an authority"
  | badAddressMask => .other "a name constraint holds no network mask"
  | unsupportedCriticalExtension => .other "a critical extension is not supported"
  | unsupportedVersion => .other "the certificate version is not supported"
  | tooDeep => .other "the path is too deep"
  | malformedHostName => .other "a host name is malformed"
  | malformedNameConstraint => .other "a name constraint is malformed"
  | repeatedExtension => .other "an extension is repeated"
  | tooManySignatures => .other "too many signatures were verified"
  | tooManyPaths => .other "too many paths were tried"
  | tooManyComparisons => .other "too many names were compared with constraints"

/-- The failure that a reason is reported as. -/
def failure (p : Problem) : TlsFailure := .certificate p.certificateProblem

end Problem

end PeerTrust.Certification
