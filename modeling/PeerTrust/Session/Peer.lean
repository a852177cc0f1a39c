import PeerTrust.Session.Attempt
import PeerTrust.Trust.Configuration

/-!
# Peers and handshakes

A handshake with a peer is a verification of what the peer presents, recorded in a report of its
own. A handshake that fails because of a revocation says so, with the subject of the rejected
certificate; any other failure is one of the channel.

## Main definitions

* `Peer` — what answers at the other end of a socket
* `Context.meet` — what a handshake with a peer comes to
* `handshakeError` — the error of a failed handshake
* `shakeHands` — a handshake as part of an attempt
-/

namespace PeerTrust

/-- What answers at the other end of a socket. -/
inductive Peer
  /-- A server of the version that contexts are for. -/
  | server (presented : Presented)
  /-- A server that shows its certificates, and then does not prove that they are its own or breaks
  the handshake off. -/
  | unproven (presented : Presented)
  /-- Whatever breaks a handshake off before it shows a certificate. -/
  | stranger
  deriving DecidableEq, Repr

/-- The failure of a handshake that the peer does not go through with. -/
def brokenOff : TlsFailure := .general "the handshake was broken off"

/-- What a handshake with a peer comes to. The verifier looks for the store in its own slot of the
configuration. -/
def Context.meet (context : Context) (fs : FileSystem) (c : Configuration) (report : Option Report)
    (server : ServerName) (now : Moment) :
    Peer → Logged (Except TlsFailure CertPath × Option Report)
  | .server presented =>
    context.verifier.verify fs (c.storeIn context.slot) report presented server now
  | .unproven presented => do
    let (result, report) ←
      context.verifier.verify fs (c.storeIn context.slot) report presented server now
    -- Certificates that are refused end the handshake before anything else can.
    return (result.bind fun _ => .error brokenOff, report)
  | .stranger => return (.error brokenOff, report)

/-- The error of a handshake that failed, by what was recorded of it. -/
def handshakeError (report : Report) (failure : TlsFailure) : Error :=
  match report.verdict with
  | .failed code =>
    match code.rejectReason? with
    | some reason => .rejected reason (report.subject.getD "")
    | none => .handshakeFailed failure.message
  | _ => .handshakeFailed failure.message

/-- A handshake with a peer: the outcome of verification, or why there is no channel. -/
def shakeHands (fs : FileSystem) (c : Configuration) (context : Context) (server : ServerName)
    (now : Moment) (peer : Peer) : Attempt PeerVerdict :=
  let met := context.meet fs c (some {}) server now peer
  let report := met.value.2.getD {}
  .ofLogged <| match met.value.1 with
    | .ok _ => ⟨.ok report.verdict, met.events⟩
    | .error failure =>
      ⟨.error (handshakeError report failure), met.events ++ [.handshakeFailed failure.message]⟩

end PeerTrust
