import PeerTrust.Session.Client
import PeerTrust.Trust.Operation

/-!
# Operations on a client

## Main definitions

* `Client.Operation` — what a client can be asked for
* `Client.Operation.role?` — the role that an operation is addressed to
* `Client.Response` — what it answers
* `Client.perform` — the client after an operation, and its answer
* `Client.run` — the client after operations in order

## Main results

* `Client.trust_perform_of_ne` — an operation for one role keeps the configuration of the other
-/

namespace PeerTrust.Client

/-- A session over a channel that is made with the context of a role, outside any attempt. Nothing
is recorded of its handshake. -/
def connectOver (c : Client) (fs : FileSystem) (now : Moment) (protocol : ProtocolLayer)
    (role : Role) (server : ServerName) (peer : Peer) (schema : Option Schema) :
    Client × Attempt Session :=
  let ensured := (c.trust role).ensureContext fs
  let configuration := ensured.value.1
  (c.setTrust configuration role, do
    let context ← .ofLogged ⟨ensured.value.2, ensured.events⟩
    let met := context.meet fs configuration none server now peer
    let _ ← .ofLogged ⟨met.value.1.mapError (.tls ·.message), met.events⟩
    connectWithChannel protocol {} schema)

/-- What a client can be asked for. Files are those at the time of the request. -/
inductive Operation
  /-- Something that concerns the configuration of one role only. -/
  | trust (role : Role) (op : Configuration.Operation)
  | connect (fs : FileSystem) (now : Moment) (transport : Transport) (protocol : ProtocolLayer)
      (host : Option String) (port : UInt16) (schema : Option Schema)
  | acceptCallHome (fs : FileSystem) (now : Moment) (protocol : ProtocolLayer) (peer : Peer)
      (host : String) (port : UInt16) (schema : Option Schema)
  | connectOver (fs : FileSystem) (now : Moment) (protocol : ProtocolLayer) (role : Role)
      (server : ServerName) (peer : Peer) (schema : Option Schema)
  | connectWithChannel (protocol : ProtocolLayer) (channel : Channel) (schema : Option Schema)
  /-- Both roles are reset. -/
  | destroy
  /-- The client makes room for one with this configuration. -/
  | configure (config : Config)

/-- The role that an operation is addressed to, if it is addressed to one. -/
def Operation.role? : Operation → Option Role
  | .trust role _ => some role
  | .connect .. => some .client
  | .acceptCallHome .. => some .callHome
  | .connectOver _ _ _ role .. => some role
  | .connectWithChannel .. | .destroy | .configure _ => none

/-- What a client answers. -/
inductive Response
  | trust (response : Configuration.Response)
  | session (attempt : Attempt Session)
  | done (result : Except Error Unit)

/-- The client after an operation, and its answer. -/
def perform (c : Client) : Operation → Client × Response
  | .trust role op =>
    let (configuration, response) := (c.trust role).perform op
    (c.setTrust configuration role, .trust response)
  | .connect fs now transport protocol host port schema =>
    let (c, attempt) := c.connect fs now transport protocol host port schema
    (c, .session attempt)
  | .acceptCallHome fs now protocol peer host port schema =>
    let (c, attempt) := c.acceptCallHome fs now protocol peer host port schema
    (c, .session attempt)
  | .connectOver fs now protocol role server peer schema =>
    let (c, attempt) := c.connectOver fs now protocol role server peer schema
    (c, .session attempt)
  | .connectWithChannel protocol channel schema =>
    (c, .session (PeerTrust.connectWithChannel protocol channel schema))
  | .destroy => (c.destroy, .done (.ok ()))
  | .configure config => match ofConfig config with
    | .ok configured => (configured, .done (.ok ()))
    | .error e => (c, .done (.error e))

/-- The client after operations in order. -/
def run (c : Client) (operations : List Operation) : Client :=
  operations.foldl (fun c op => (c.perform op).1) c

@[simp] theorem run_nil (c : Client) : c.run [] = c := rfl

@[simp] theorem run_cons (c : Client) (op : Operation) (ops : List Operation) :
    c.run (op :: ops) = (c.perform op).1.run ops := rfl

theorem run_append (c : Client) (ops more : List Operation) :
    c.run (ops ++ more) = (c.run ops).run more := List.foldl_append

theorem trust_perform_of_ne (c : Client) {op : Operation} {role other : Role}
    (h : op.role? = some role) (hne : other ≠ role) :
    (c.perform op).1.trust other = c.trust other := by
  cases op with
  | connectWithChannel | destroy | configure => cases h
  | trust | connect | acceptCallHome | connectOver =>
    cases h
    exact trust_setTrust_of_ne c _ hne

end PeerTrust.Client
