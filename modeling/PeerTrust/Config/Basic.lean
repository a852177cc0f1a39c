import PeerTrust.Session.Stage
import PeerTrust.Trust.Configuration

/-!
# Client configurations

A configuration has a section of paths for each role and one about connections. A valid section is
empty, or names a certificate and a location of anchors and no empty path.

## Main definitions

* `Config`, `ConnectionConfig` — the sections
* `Config.validate` — what is wrong with a configuration
* `TrustPaths.applyTo` — a section handed to a trust configuration
-/

namespace PeerTrust

/-- Where to connect to, and for how long to try. -/
structure ConnectionConfig where
  host : String := defaultHost
  port : UInt16 := defaultPort
  timeoutMillis : Nat := 10000
  deriving DecidableEq, Repr

/-- The whole seconds and the remaining milliseconds of the time to try for. -/
def ConnectionConfig.timeout (c : ConnectionConfig) : Nat × Nat :=
  (c.timeoutMillis / 1000, c.timeoutMillis % 1000)

/-- The sections of a configuration. -/
structure Config where
  client : TrustPaths := {}
  callHome : TrustPaths := {}
  connection : ConnectionConfig := {}
  deriving DecidableEq, Repr

namespace Config

/-- The section of a role. -/
def paths (c : Config) : Role → TrustPaths
  | .client => c.client
  | .callHome => c.callHome

/-- Whether nothing differs from the defaults. -/
def isDefault (c : Config) : Bool := c = {}

end Config

/-- What is wrong with the section of a role. -/
def TrustPaths.validate (p : TrustPaths) (role : Role) : Except ConfigProblem Unit :=
  if p.isEmpty then .ok ()
  else if p.cert.isNone then .error (.certificateRequired role)
  else if !p.hasCa then .error (.caLocationRequired role)
  else if p.present.any (·.text = "") then .error (.emptyPath role)
  else .ok ()

/-- What is wrong with a configuration: the section of the client counts first, then that of
call-home, then the time to try for. -/
def Config.problem (c : Config) : Except ConfigProblem Unit := do
  c.client.validate .client
  c.callHome.validate .callHome
  if c.connection.timeoutMillis = 0 then throw .zeroTimeout

/-- Refuses a configuration with something wrong. -/
def Config.validate (c : Config) : Except Error Unit := c.problem.mapError .config

/-- A section handed to a trust configuration: the credentials if a certificate is set, the anchors
if a location of them is, and the lists likewise. -/
def TrustPaths.applyTo (p : TrustPaths) (c : Configuration) : Except Error Configuration := do
  let c ← if p.cert.isSome then c.setCredentials p.cert p.key else pure c
  let c ← if p.hasCa then c.setAnchors p.caFile p.caDir else pure c
  if p.hasCrl then c.setCrls p.crlFile p.crlDir else pure c

end PeerTrust
