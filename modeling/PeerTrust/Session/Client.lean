import PeerTrust.Config.Basic
import PeerTrust.Session.Transport
import PeerTrust.Text.Blank

/-!
# Clients

A client holds a trust configuration for each role and turns sockets into running sessions: it
brings the context of the role up to date, shakes hands with the peer, and hands the channel to the
protocol layer.

## Main definitions

* `Client` — the configurations of both roles
* `Client.ofConfig` — a client with the sections of a valid configuration
* `Client.connect` — a session with a server that the client connects to
* `Client.acceptCallHome` — a session with a server that calls home
* `connectWithChannel` — a session over a channel made elsewhere

## Main results

* `Client.trust_setTrust_self`, `Client.trust_setTrust_of_ne` — a change for one role is seen for
  that role only
-/

namespace PeerTrust

/-- The trust configurations of both roles. -/
structure Client where
  forClient : Configuration := { role := .client }
  forCallHome : Configuration := { role := .callHome }

namespace Client

/-- The configuration of a role. -/
def trust (c : Client) : Role → Configuration
  | .client => c.forClient
  | .callHome => c.forCallHome

/-- The configuration of a role replaced. -/
def setTrust (c : Client) (configuration : Configuration) : Role → Client
  | .client => { c with forClient := configuration }
  | .callHome => { c with forCallHome := configuration }

@[simp] theorem trust_setTrust_self (c : Client) (configuration : Configuration) (role : Role) :
    (c.setTrust configuration role).trust role = configuration := by
  cases role <;> rfl

theorem trust_setTrust_of_ne (c : Client) (configuration : Configuration) {role other : Role}
    (h : other ≠ role) : (c.setTrust configuration role).trust other = c.trust other := by
  cases role <;> cases other <;> first | rfl | exact absurd rfl h

/-- The configuration of one role reset. -/
def reset (c : Client) (role : Role) : Client := c.setTrust (c.trust role).reset role

/-- The configurations of both roles reset. -/
def destroy (c : Client) : Client := (c.reset .client).reset .callHome

/-- A client with the sections of a valid configuration. -/
def ofConfig (config : Config) : Except Error Client := do
  config.validate
  let forClient ← config.client.applyTo { role := .client }
  let forCallHome ← config.callHome.applyTo { role := .callHome }
  return { forClient, forCallHome }

end Client

/-- The transport of a client with this configuration. -/
def Config.transport (config : Config) : Tcp := ⟨some config.connection.timeoutMillis⟩

/-- The host to connect to: without white space at its ends, and the default for none. -/
def resolveHost (host : Option String) : String :=
  match host.map fun text => Text.trim text.toList with
  | none | some [] => defaultHost
  | some trimmed => String.ofList trimmed

/-- The port to connect to: the default for 0. -/
def resolvePort (port : UInt16) : UInt16 := if port = 0 then defaultPort else port

/-- The context for a handshake and the name of the server. Missing credentials and a host that is
no server name are refused before anything is built. -/
def Configuration.prepare (c : Configuration) (fs : FileSystem) (host : String) :
    Configuration × Attempt (Context × ServerName) :=
  match c.requireCredentials, ServerName.ofText? host with
  | .error e, _ => (c, .ofExcept (.error e))
  | .ok (), none => (c, .ofExcept (.error (.invalidArgument (.invalidHost host))))
  | .ok (), some server =>
    let ensured := c.ensureContext fs
    (ensured.value.1, .ofLogged ⟨ensured.value.2.map fun context => (context, server), ensured.events⟩)

/-- A failed outcome of a handshake that came to an end is told; it does not end the attempt. -/
def judge (role : Role) : PeerVerdict → Attempt Unit
  | .failed code => .act (.told (.verificationProblem role code))
  | _ => pure ()

/-- The schemas of a session: those of the caller, or those that the protocol layer gives. -/
def chooseSchema (protocol : ProtocolLayer) : Option Schema → Attempt Schema
  | some schema => pure schema
  | none => do
    .act .createdContext
    .ofExcept protocol.createContext

/-- A running session over a channel, after the handshake of the protocol. -/
def establish (protocol : ProtocolLayer) (channel : Channel) (schema : Option Schema)
    (verdict : PeerVerdict) : Attempt Session := do
  let isSchemaShared := schema.isSome
  let schema ← chooseSchema protocol schema
  let session : Session := { channel, schema, isSchemaShared, verdict }
  .act (.performedHandshake session)
  let channel ← .ofExcept (protocol.performHandshake session)
  .act (.told (.sessionEstablished isSchemaShared))
  return { session with channel, status := .running }

/-- A session with a peer: handshake, judgement, protocol. -/
def meetPeer (fs : FileSystem) (now : Moment) (protocol : ProtocolLayer) (c : Configuration)
    (context : Context) (server : ServerName) (peer : Peer) (schema : Option Schema) :
    Attempt Session := do
  .enter .handshaking
  -- The outcome of this handshake; none is kept from an earlier one.
  let verdict ← shakeHands fs c context server now peer
  .enter .verifyingResult
  judge c.role verdict
  establish protocol {} schema verdict

namespace Client

/-- A session with a server that the client connects to. -/
def connect (c : Client) (fs : FileSystem) (now : Moment) (transport : Transport)
    (protocol : ProtocolLayer) (host : Option String) (port : UInt16) (schema : Option Schema) :
    Client × Attempt Session :=
  let host := resolveHost host
  let port := resolvePort port
  let (configuration, prepared) := (c.trust .client).prepare fs host
  (c.setTrust configuration .client, .finished do
    .enter .buildingContext
    let (context, server) ← prepared
    -- No socket is asked for before the context stands.
    .enter .connecting
    .act (.askedSocket host port)
    let peer ← .ofExcept (transport host port)
    let session ← meetPeer fs now protocol configuration context server peer schema
    return session.withPeer host port)

/-- A session with a server that calls home. -/
def acceptCallHome (c : Client) (fs : FileSystem) (now : Moment) (protocol : ProtocolLayer)
    (peer : Peer) (host : String) (port : UInt16) (schema : Option Schema) :
    Client × Attempt Session :=
  let (configuration, prepared) := (c.trust .callHome).prepare fs host
  -- What was built stays, whatever comes of the attempt.
  (c.setTrust configuration .callHome, .finished do
    .enter .buildingContext
    let (context, server) ← prepared
    let session ← meetPeer fs now protocol configuration context server peer schema
    return session.withPeer host port)

end Client

/-- A session over a channel made elsewhere, whose peer is not verified again. -/
def connectWithChannel (protocol : ProtocolLayer) (channel : Channel) (schema : Option Schema) :
    Attempt Session :=
  .finished do
    .enter .verifyingResult
    if channel.isHandshaking then .ofExcept (.error (.invalidArgument .channelNotConnected))
    else establish protocol channel schema .notChecked

end PeerTrust
