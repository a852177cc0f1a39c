/-!
# Stages of a connection attempt

## Main definitions

* `Stage` — how far an attempt has come
* `Stage.display` — the stage in traces
* `defaultHost`, `defaultPort` — where a client connects unless told otherwise
-/

namespace PeerTrust

/-- How far an attempt to establish a session has come. -/
inductive Stage
  | idle
  | buildingContext
  | connecting
  | handshaking
  | verifyingResult
  | established
  | failed
  deriving DecidableEq, Repr

namespace Stage

/-- All stages, in order. -/
def all : List Stage :=
  [idle, buildingContext, connecting, handshaking, verifyingResult, established, failed]

/-- The stage in traces. -/
def display : Stage → String
  | idle => "idle"
  | buildingContext => "building-context"
  | connecting => "connecting"
  | handshaking => "handshaking"
  | verifyingResult => "verifying-result"
  | established => "established"
  | failed => "failed"

end Stage

/-- The host that stands for a missing or blank one. -/
def defaultHost : String := "localhost"

/-- The port that stands for port 0. -/
def defaultPort : UInt16 := 6513

end PeerTrust
