import PeerTrust.Session.Peer

/-!
# Transports

A transport opens sockets. The plain one may give up after a time.

## Main definitions

* `Transport` — what opens sockets
* `Tcp`, `Tcp.openSocket` — the plain transport
* `durationText` — a time span in messages
* `ProtocolLayer`, `ProtocolLayer.channelOnly` — what runs once the channel is up
-/

namespace PeerTrust

/-- Opens a socket to a host and port, and so reaches a peer. -/
abbrev Transport := (host : String) → (port : UInt16) → Except Error Peer

/-- What comes of connecting to an address. -/
inductive Reach
  | answered (peer : Peer)
  | failed (e : IoError)
  /-- Nothing, however long one waits. -/
  | silence
  deriving DecidableEq, Repr

/-- The digits of a fraction of so many digits, without the zeros at its end. -/
def fractionDigits (width n : Nat) : List Char :=
  let digits := (Nat.toDigits 10 (Nat.pow 10 width + n)).drop 1
  (digits.reverse.dropWhile (· = '0')).reverse

/-- A time span of whole milliseconds in messages: in seconds from one second on. -/
def durationText (millis : Nat) : String :=
  if millis = 0 then "0ns"
  else if millis < 1000 then s!"{millis}ms"
  else
    let seconds := toString (millis / 1000)
    match fractionDigits 3 (millis % 1000) with
    | [] => seconds ++ "s"
    | digits => seconds ++ "." ++ String.ofList digits ++ "s"

/-- The plain transport, which may give up after so many milliseconds. -/
structure Tcp where
  timeoutMillis : Option Nat := none
  deriving DecidableEq, Repr

namespace Tcp

/-- The wording of a failed connection. -/
def failureText (host : String) (port : UInt16) (reason : String) : String :=
  s!"failed to connect to {host}:{port}: {reason}"

/-- The wording of a connection given up. -/
def timeoutText (host : String) (port : UInt16) (millis : Nat) : String :=
  s!"connecting to {host}:{port} timed out after {durationText millis}"

/-- A transport over a network. Where nothing answers, waiting without an end of one's own ends when
the network gives up. -/
def openSocket (t : Tcp) (network : String → UInt16 → Reach) : Transport := fun host port =>
  match network host port, t.timeoutMillis with
  | .answered peer, _ => .ok peer
  | .failed e, _ => .error (.socketError (failureText host port e.message))
  | .silence, some millis => .error (.socketError (timeoutText host port millis))
  | .silence, none =>
    .error (.socketError (failureText host port "Connection timed out (os error 110)"))

end Tcp

/-- What runs once the channel is up. -/
structure ProtocolLayer where
  /-- The schemas for a session whose caller supplied none. -/
  createContext : Except Error Schema
  /-- The handshake of the protocol itself, and the channel as it leaves it. It is handed the whole
  session, but all the rest of it is not the protocol's to change. -/
  performHandshake : Session → Except Error Channel

/-- A layer that exchanges nothing and looks for schemas in a directory. -/
def ProtocolLayer.channelOnly (searchDir : Option FilePath) : ProtocolLayer where
  createContext := .ok ⟨searchDir⟩
  performHandshake session := .ok session.channel

end PeerTrust
