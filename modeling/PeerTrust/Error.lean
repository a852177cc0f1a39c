import PeerTrust.FilePath
import PeerTrust.Revocation.Verdict
import PeerTrust.Role

/-!
# Errors

Every operation that can fail gives one of these errors. Each has a category for diagnostics, and
tells whether a later attempt may succeed without any change of the configuration.

## Main definitions

* `IoError`, `ArgumentProblem`, `LoadProblem`, `AnchorProblem`, `StoreProblem` — causes
* `Error` — what an operation fails with
* `Error.message`, `Error.category`, `Error.isRetryable`, `Error.rejectReason?` — its views

## Main results

* `Error.rejectReason?_eq_some_iff` — exactly the errors made from a reject have a reason
-/

namespace PeerTrust

/-- A failed operation on a file or socket. -/
inductive IoError
  | notFound
  | notADirectory
  | isADirectory
  | nameTooLong
  | connectionRefused
  | invalidUtf8
  | embeddedNul
  | described (text : String)
  deriving DecidableEq, Repr

/-- The wording of a failed operation on a file or socket. -/
def IoError.message : IoError → String
  | notFound => "No such file or directory (os error 2)"
  | notADirectory => "Not a directory (os error 20)"
  | isADirectory => "Is a directory (os error 21)"
  | nameTooLong => "File name too long (os error 36)"
  | connectionRefused => "Connection refused (os error 111)"
  | invalidUtf8 => "stream did not contain valid UTF-8"
  | embeddedNul => "file name contained an unexpected NUL byte"
  | described text => text

/-- Why an argument, or what it leaves unset, is unusable. -/
inductive ArgumentProblem
  | certificatePathRequired
  | caLocationRequired
  | crlLocationRequired
  | certificateNotSet (role : Role)
  | caLocationsNotSet (role : Role)
  | contextUnavailable (role : Role)
  | invalidHost (host : String)
  | channelNotConnected
  | described (text : String)
  deriving DecidableEq, Repr

/-- The wording of an unusable argument. -/
def ArgumentProblem.message : ArgumentProblem → String
  | certificatePathRequired => "client certificate path is required"
  | caLocationRequired => "a CA file or a CA directory is required"
  | crlLocationRequired => "a CRL file or a CRL directory is required"
  | certificateNotSet role => s!"{role.display} certificate not set"
  | caLocationsNotSet role => s!"{role.display} CA certificate locations not set"
  | contextUnavailable role => s!"{role.display} TLS context unavailable"
  | invalidHost host => s!"invalid host '{host}': invalid dns name"
  | channelNotConnected => "supplied TLS session is not fully connected"
  | described text => text

/-- Why a file of certificates or keys cannot be loaded. -/
inductive LoadProblem
  | io (e : IoError)
  | malformed (fault : String)
  | noCertificates
  | noPrivateKey
  | unusableKey
  | described (text : String)
  deriving DecidableEq, Repr

/-- The wording of a failed load. -/
def LoadProblem.message : LoadProblem → String
  | io e => e.message
  | malformed fault => fault
  | noCertificates => "no certificates found"
  | noPrivateKey => "no private key found"
  | unusableKey => "the private key does not fit the certificate"
  | described text => text

/-- Why the trust anchors cannot be loaded. -/
inductive AnchorProblem
  | inLocation (path : FilePath) (problem : LoadProblem)
  | noneFound
  | unusable (fault : String)
  | described (text : String)
  deriving DecidableEq, Repr

/-- The wording of unloadable trust anchors. -/
def AnchorProblem.message : AnchorProblem → String
  | inLocation path problem => s!"'{path.text}': {problem.message}"
  | noneFound => "no trusted CA certificates found"
  | unusable fault => s!"unusable CA certificate: {fault}"
  | described text => text

/-- Why a file of revocation lists cannot be loaded. -/
inductive CrlProblem
  /-- The bytes are no revocation list. -/
  | malformed (fault : String)
  | invalidPem (fault : String)
  | noneInPem
  deriving DecidableEq, Repr

/-- The wording of bytes that are no revocation list. -/
def CrlProblem.message : CrlProblem → String
  | malformed fault => s!"CRL parsing failed: {fault}"
  | invalidPem fault => s!"invalid PEM: {fault}"
  | noneInPem => "no CRL data found in PEM"

/-- Why a file of revocation lists cannot be loaded. -/
inductive CrlFileProblem
  | unreadable (path : FilePath) (e : IoError)
  | unusable (path : FilePath) (problem : CrlProblem)
  deriving DecidableEq, Repr

/-- The wording of an unloadable file of revocation lists. -/
def CrlFileProblem.message : CrlFileProblem → String
  | unreadable path e => s!"cannot read '{path.text}': {e.message}"
  | unusable path problem => s!"'{path.text}': {problem.message}"

/-- Why a revocation store cannot be built. -/
inductive StoreProblem
  | file (problem : CrlFileProblem)
  | notADirectory (path : FilePath)
  | described (text : String)
  deriving DecidableEq, Repr

/-- The wording of an unbuildable store. -/
def StoreProblem.message : StoreProblem → String
  | file problem => s!"failed to add CRL file lookup: {problem.message}"
  | notADirectory path =>
    s!"failed to add CRL directory lookup: '{path.text}' is not a directory"
  | described text => text

/-- What is wrong with a configuration. -/
inductive ConfigProblem
  | certificateRequired (role : Role)
  | caLocationRequired (role : Role)
  | emptyPath (role : Role)
  | zeroTimeout
  /-- The text does not parse or does not fit. -/
  | malformed (fault : String)
  deriving DecidableEq, Repr

/-- The wording of a faulty configuration. -/
def ConfigProblem.message : ConfigProblem → String
  | certificateRequired role => s!"{role.key}.cert_path is required when other paths are set"
  | caLocationRequired role => s!"{role.key}: ca_file or ca_dir must be set"
  | emptyPath role => s!"{role.key}: paths cannot be empty"
  | zeroTimeout => "connection.connect_timeout_ms must be greater than 0"
  | malformed fault => fault

/-- What an operation fails with. -/
inductive Error
  | invalidArgument (problem : ArgumentProblem)
  | outOfMemory
  | certificateLoadFailed (path : FilePath) (problem : LoadProblem)
  | keyLoadFailed (path : FilePath) (problem : LoadProblem)
  | trustAnchorLoadFailed (problem : AnchorProblem)
  | revocationStoreBuildFailed (problem : StoreProblem)
  | rejected (reason : RejectReason) (subject : String)
  | socketError (text : String)
  | handshakeFailed (text : String)
  | protocolFailed (text : String)
  | config (problem : ConfigProblem)
  | io (e : IoError)
  | tls (text : String)
  deriving DecidableEq, Repr

namespace Error

/-- The wording of an error. -/
def message : Error → String
  | invalidArgument problem => s!"Invalid argument: {problem.message}"
  | outOfMemory => "Out of memory"
  | certificateLoadFailed path problem =>
    s!"Loading the client certificate from '{path.text}' failed: {problem.message}"
  | keyLoadFailed path problem =>
    s!"Loading the client private key from '{path.text}' failed: {problem.message}"
  | trustAnchorLoadFailed problem =>
    s!"Failed to load the locations of trusted CA certificates: {problem.message}"
  | revocationStoreBuildFailed problem => s!"Failed to build the revocation store: {problem.message}"
  | rejected .crlSignatureInvalid subject => s!"CRL signature verification failed for '{subject}'"
  | rejected .crlFieldMissing subject => s!"CRL next update field missing for '{subject}'"
  | rejected .crlExpired subject => s!"CRL has expired for '{subject}'"
  | rejected .certificateRevoked subject => s!"Certificate revoked: '{subject}'"
  | socketError text => s!"Socket error: {text}"
  | handshakeFailed text => s!"Connecting over TLS failed: {text}"
  | protocolFailed text => s!"Protocol handshake failed: {text}"
  | config problem => s!"Configuration error: {problem.message}"
  | io e => s!"IO error: {e.message}"
  | tls text => s!"TLS error: {text}"

/-- The category of an error in diagnostics. -/
def category : Error → String
  | invalidArgument _ => "argument"
  | outOfMemory => "memory"
  | certificateLoadFailed .. | keyLoadFailed .. | trustAnchorLoadFailed _
  | revocationStoreBuildFailed _ => "build"
  | rejected .. => "revocation"
  | socketError _ | io _ => "transport"
  | handshakeFailed _ | tls _ => "handshake"
  | protocolFailed _ => "protocol"
  | config _ => "configuration"

/-- Whether a later attempt may succeed though the configuration stays as it is. -/
def isRetryable : Error → Bool
  | socketError _ | io _ | outOfMemory => true
  | _ => false

/-- The revocation reason behind an error, if a peer was rejected. -/
def rejectReason? : Error → Option RejectReason
  | rejected reason _ => some reason
  | _ => none

theorem rejectReason?_eq_some_iff {e : Error} {reason : RejectReason} :
    e.rejectReason? = some reason ↔ ∃ subject, e = rejected reason subject := by
  cases e <;> simp [rejectReason?]

end Error

end PeerTrust
