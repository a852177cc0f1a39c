import PeerTrust.Error
import PeerTrust.Verification.Code

/-!
# Events

What happens during an operation that its result does not show is told as events, in order.

## Main definitions

* `Event` — what can happen
* `Event.level`, `Event.message`, `Event.fields`, `Event.isSecurity` — how it is told
* `Logged` — a value with the events on the way to it

## Main results

* `Logged.events_bind` — events of one step come before those of the next
-/

namespace PeerTrust

/-- What can happen on the way. -/
inductive Event
  | crlAlgorithmUnsupported (issuer : String)
  | crlUnreadable (path : FilePath) (problem : CrlFileProblem)
  | crlSignatureInvalid (issuer : String)
  | crlFieldMissing (issuer : String)
  | crlExpired (issuer : String)
  | certificateRevoked (serial subject issuer : String)
  | preVerificationFailed (role : Role) (failure : TlsFailure)
  | peerRejected (role : Role) (depth : Nat) (subject : String) (code : VerifyCode)
  | caFileSkipped (path : FilePath) (problem : LoadProblem)
  | handshakeFailed (fault : String)
  | verificationProblem (role : Role) (code : VerifyCode)
  | contextBuilt (role : Role) (anchors : Nat)
  | storeBuilt (role : Role) (sources : Nat)
  | sessionEstablished (sharedSchema : Bool)
  deriving DecidableEq, Repr

namespace Event

/-- How much an event matters. -/
inductive Level
  | debug
  | info
  | warn
  | error
  deriving DecidableEq, Repr

/-- The name of a level. -/
def Level.name : Level → String
  | debug => "DEBUG"
  | info => "INFO"
  | warn => "WARN"
  | error => "ERROR"

/-- The value of a field of an event. -/
inductive Field
  | text (value : String)
  | number (value : Nat)
  | flag (value : Bool)
  deriving DecidableEq, Repr

/-- The text of a field. -/
def Field.display : Field → String
  | text value => value
  | number value => toString value
  | flag value => if value then "true" else "false"

/-- How much an event matters. -/
def level : Event → Level
  | crlAlgorithmUnsupported _ | crlUnreadable .. | crlSignatureInvalid _ | crlFieldMissing _
  | crlExpired _ | peerRejected .. | caFileSkipped .. | verificationProblem .. => .warn
  | certificateRevoked .. | handshakeFailed _ => .error
  | preVerificationFailed .. => .debug
  | contextBuilt .. | storeBuilt .. | sessionEstablished _ => .info

/-- The wording of an event. -/
def message : Event → String
  | crlAlgorithmUnsupported _ => "Unsupported CRL signature algorithm"
  | crlUnreadable .. => "Skipping unreadable CRL"
  | crlSignatureInvalid _ => "Invalid signature on CRL"
  | crlFieldMissing _ => "CRL is missing the nextUpdate field"
  | crlExpired _ => "CRL has expired"
  | certificateRevoked .. => "Certificate revoked"
  | preVerificationFailed .. => "Peer pre-verification failed"
  | peerRejected _ _ _ code => s!"Peer certificate rejected: {code.text}"
  | caFileSkipped .. => "Skipping CA file"
  | handshakeFailed _ => "Connecting over TLS failed"
  | verificationProblem _ code => s!"Server certificate verification problem ({code.text})"
  | contextBuilt .. => "TLS context built"
  | storeBuilt .. => "Revocation store built"
  | sessionEstablished _ => "NETCONF session established"

/-- The fields of an event, in order. -/
def fields : Event → List (String × Field)
  | crlAlgorithmUnsupported issuer | crlSignatureInvalid issuer | crlFieldMissing issuer
  | crlExpired issuer => [("issuer", .text issuer)]
  | crlUnreadable path problem => [("path", .text path.text), ("error", .text problem.message)]
  | certificateRevoked serial subject issuer =>
    [("serial", .text serial), ("subject", .text subject), ("issuer", .text issuer)]
  | preVerificationFailed role failure =>
    [("role", .text role.display), ("error", .text failure.message),
     ("code", .number (VerifyCode.ofFailure failure).number)]
  | peerRejected role depth subject code =>
    [("role", .text role.display), ("depth", .number depth), ("subject", .text subject),
     ("code", .number code.number)]
  | caFileSkipped path problem => [("path", .text path.text), ("error", .text problem.message)]
  | handshakeFailed fault => [("error", .text fault)]
  | verificationProblem role code =>
    [("role", .text role.display), ("code", .number code.number)]
  | contextBuilt role anchors => [("role", .text role.display), ("anchors", .number anchors)]
  | storeBuilt role sources => [("role", .text role.display), ("sources", .number sources)]
  | sessionEstablished shared => [("shared_schema", .flag shared)]

/-- Whether an event belongs to the security record. -/
def isSecurity : Event → Bool
  | certificateRevoked .. => true
  | _ => false

end Event

/-- A value with the events on the way to it. -/
structure Logged (α : Type) where
  value : α
  events : List Event := []
  deriving Repr

namespace Logged

instance : Monad Logged where
  pure a := ⟨a, []⟩
  bind x f := ⟨(f x.value).value, x.events ++ (f x.value).events⟩

/-- One event and no value. -/
def tell (e : Event) : Logged Unit := ⟨(), [e]⟩

@[simp] theorem value_pure {α : Type} (a : α) : (pure a : Logged α).value = a := rfl

@[simp] theorem events_pure {α : Type} (a : α) : (pure a : Logged α).events = [] := rfl

@[simp] theorem value_bind {α β : Type} (x : Logged α) (f : α → Logged β) :
    (x >>= f).value = (f x.value).value := rfl

@[simp] theorem events_bind {α β : Type} (x : Logged α) (f : α → Logged β) :
    (x >>= f).events = x.events ++ (f x.value).events := rfl

@[simp] theorem events_tell (e : Event) : (tell e).events = [e] := rfl

end Logged

end PeerTrust
