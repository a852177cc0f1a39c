import PeerTrust.FilePath
import PeerTrust.Session.Stage
import PeerTrust.Verification.Verifier

/-!
# Sessions

A session is an established channel together with the schemas it works with and what is known of
the peer.

## Main definitions

* `Schema`, `Channel`, `Session` — a session and its parts
* `Session.withPeer` — a session whose peer is known
* `Session.display` — a session in diagnostics
-/

namespace PeerTrust

/-- The schemas a session works with. -/
structure Schema where
  searchDir : Option FilePath := none
  deriving DecidableEq, Repr

/-- The client's end of a channel. -/
structure Channel where
  /-- Whether the handshake is still going on. -/
  isHandshaking : Bool := false
  deriving DecidableEq, Repr

/-- How far a session has come. -/
inductive SessionStatus
  | starting
  | running
  | closing
  deriving DecidableEq, Repr

/-- The name of a status. -/
def SessionStatus.name : SessionStatus → String
  | starting => "Starting"
  | running => "Running"
  | closing => "Closing"

/-- The name of a code. -/
def VerifyCode.name : VerifyCode → String
  | unspecified => "Unspecified"
  | certSignatureFailure => "CertSignatureFailure"
  | crlSignatureFailure => "CrlSignatureFailure"
  | certNotYetValid => "CertNotYetValid"
  | certHasExpired => "CertHasExpired"
  | crlHasExpired => "CrlHasExpired"
  | errorInCrlNextUpdateField => "ErrorInCrlNextUpdateField"
  | unableToGetIssuerCertLocally => "UnableToGetIssuerCertLocally"
  | certRevoked => "CertRevoked"
  | invalidPurpose => "InvalidPurpose"
  | hostnameMismatch => "HostnameMismatch"

/-- The name of an outcome. -/
def PeerVerdict.name : PeerVerdict → String
  | notChecked => "NotChecked"
  | verified => "Verified"
  | failed code => s!"Failed({code.name})"

/-- An established session. -/
structure Session where
  channel : Channel
  status : SessionStatus := .starting
  schema : Schema
  /-- Whether the schemas were supplied by the caller. -/
  isSchemaShared : Bool
  verdict : PeerVerdict
  host : Option String := none
  port : UInt16 := 0
  username : Option String := none
  deriving DecidableEq, Repr

namespace Session

/-- The user on whose behalf a session runs whose peers know each other by certificates. -/
def certificateUser : String := "certificate-based"

/-- A session whose peer is known. -/
def withPeer (s : Session) (host : String) (port : UInt16) : Session :=
  { s with host, port, username := some certificateUser }

/-- A text between quotation marks. Host and user names hold no characters to escape. -/
def quoted (text : String) : String := "\"" ++ text ++ "\""

/-- An optional text in diagnostics. -/
def optionalText : Option String → String
  | none => "None"
  | some text => s!"Some({quoted text})"

/-- A session in diagnostics. -/
def display (s : Session) : String :=
  "Session \x7b status: " ++ s.status.name ++ ", host: " ++ optionalText s.host
    ++ s!", port: {s.port}, username: " ++ optionalText s.username
    ++ s!", shared_schema: {s.isSchemaShared}, peer_verdict: " ++ s.verdict.name ++ ", .. \x7d"

end Session

end PeerTrust
