import PeerTrust.Proofs.CheckedPeers

/-!
# The order and the effects of an attempt

What others see of an attempt is that the transport is asked for a socket and that the protocol
layer is asked for schemas and handed a session. Each of these happens once at most and in this
order, and each only if all that stands before it succeeded. What an attempt leaves of the client is
settled before any of them: it is refused and leaves everything, or it leaves what bringing the
context up to date leaves.

## Main definitions

* `Attempt.outward`, `Attempt.Shows` — the acts that others see
* `Attempt.InOrder` — what the acts of an attempt have to keep to
* `Configuration.Refuses`, `Configuration.Ready`, `Configuration.Completes` — how far one gets
* `Client.Settles` — what an attempt leaves of the client

## Main results

* `meetPeer_shows`, `connectWithChannel_shows` — what others see of a session
* `Configuration.prepare_of_refuses`, `Configuration.prepare_of_not_refuses` — what is done first
* `Client.attempts_in_order` — attempts of all three kinds, on any client
-/

namespace PeerTrust

/-! ### Acts that others see -/

/-- The place of an act among those that others see, and 0 for one that nobody else sees. -/
def Act.rank : Act → Nat
  | .entered _ | .told _ => 0
  | .askedSocket .. => 1
  | .createdContext => 2
  | .performedHandshake _ => 3

/-- Whether the transport or the protocol layer takes part in an act. -/
def Act.isOutward (act : Act) : Bool := 0 < act.rank

namespace Attempt

variable {α β : Type}

/-- The acts that others see, in order. -/
def outward (a : Attempt α) : List Act := a.acts.filter Act.isOutward

theorem outward_bind_ok {x : Attempt α} {a : α} (done : x.result = .ok a) (f : α → Attempt β) :
    (x >>= f).outward = x.outward ++ (f a).outward := by
  rw [outward, acts_bind_ok done, List.filter_append]
  rfl

@[simp] theorem outward_ofLogged (told : Logged (Except Error α)) : (ofLogged told).outward = [] :=
  List.filter_eq_nil_iff.mpr fun act mem => by
    obtain ⟨event, -, rfl⟩ := List.mem_map.mp mem
    exact Bool.false_ne_true

@[simp] theorem outward_finished (a : Attempt α) : a.finished.outward = a.outward := by
  unfold finished outward
  cases a.result <;> simp [Act.isOutward, Act.rank]

/-- What is read off acts that others see is read off all acts. -/
theorem filterMap_outward {f : Act → Option β} (quiet : ∀ act : Act, act.rank = 0 → f act = none)
    (a : Attempt α) : a.outward.filterMap f = a.acts.filterMap f := by
  rw [outward, List.filterMap_filter]
  congr 1
  funext act
  by_cases unseen : act.rank = 0
  · simp [Act.isOutward, unseen, quiet act unseen]
  · simp [Act.isOutward, Nat.pos_of_ne_zero unseen]

theorem asked_eq_outward (a : Attempt α) :
    a.asked = a.outward.filterMap fun act => match act with
      | .askedSocket host port => some (host, port)
      | _ => none := by
  refine (filterMap_outward (fun act unseen => ?_) a).symm
  cases act with
  | askedSocket => cases unseen
  | _ => rfl

theorem handshakes_eq_outward (a : Attempt α) :
    a.handshakes = a.outward.filterMap fun act => match act with
      | .performedHandshake session => some session
      | _ => none := by
  refine (filterMap_outward (fun act unseen => ?_) a).symm
  cases act with
  | performedHandshake => cases unseen
  | _ => rfl

theorem contexts_eq_outward (a : Attempt α) : a.contexts = a.outward.count .createdContext :=
  (List.count_filter rfl).symm

theorem mem_outward_iff {a : Attempt α} {act : Act} (seen : act.isOutward = true) :
    act ∈ a.outward ↔ act ∈ a.acts := by
  rw [outward, List.mem_filter, and_iff_left seen]

/-- What the acts of an attempt have to keep to, by the address that it asks for a socket, if it
does, and by whether it completes a channel. -/
structure InOrder (protocol : ProtocolLayer) (schema : Option Schema)
    (address : Option (String × UInt16)) (completed : Prop) (a : Attempt Session) : Prop where
  /-- First the socket, then the schemas, then the session, each once at most. -/
  ordered : a.outward.Pairwise fun earlier later => earlier.rank < later.rank
  asked : a.asked = address.toList
  contexts : a.contexts ≤ 1
  contexts_iff : a.contexts = 1 ↔ schema = none ∧ completed
  handshakes : a.handshakes.length ≤ 1
  handshake : ∀ session ∈ a.handshakes,
    completed ∧ (schema = none → .createdContext ∈ a.acts)
  returns : (∃ session, a.result = .ok session) ↔
    ∃ session ∈ a.handshakes, ∃ channel, protocol.performHandshake session = .ok channel

end Attempt

/-! ### What follows what -/

namespace Attempt

variable {α : Type} {protocol : ProtocolLayer} {schema : Option Schema} {before acts : List Act}
  {x : Attempt α} {value : α} {f : α → Attempt Session} {a : Attempt Session}

/-- Others see these acts of an attempt, and a session comes of it exactly if one is handed over
with success. -/
structure Shows (protocol : ProtocolLayer) (acts : List Act) (a : Attempt Session) : Prop where
  outward : a.outward = acts
  returns : (∃ session, a.result = .ok session) ↔
    ∃ session, .performedHandshake session ∈ acts
      ∧ ∃ channel, protocol.performHandshake session = .ok channel

/-- Acts before a session is handed over. -/
def Early (acts : List Act) : Prop := ∀ act ∈ acts, act.rank < 3

theorem Early.not_mem (early : Early acts) (session : Session) :
    .performedHandshake session ∉ acts :=
  fun mem => absurd (early _ mem) (Nat.lt_irrefl 3)

theorem early_nil : Early [] := fun _ mem => nomatch mem

theorem shows_of_error {e : Error} (fails : x.result = .error e) (seen : x.outward = acts)
    (early : Early acts) : (x >>= f).Shows protocol acts where
  outward := by
    rw [bind_error fails]
    exact seen
  returns := by simp [bind_error fails, early.not_mem]

theorem Shows.bind (next : (f value).Shows protocol acts) (done : x.result = .ok value)
    (seen : x.outward = before) (early : Early before) :
    (x >>= f).Shows protocol (before ++ acts) where
  outward := by rw [outward_bind_ok done, next.outward, seen]
  returns := by simp [result_bind_ok done, next.returns, early.not_mem]

/-- A step that nobody else sees changes nothing about what others see. -/
theorem Shows.bind_unseen (next : (f value).Shows protocol acts) (done : x.result = .ok value)
    (unseen : x.outward = []) : (x >>= f).Shows protocol acts :=
  next.bind done unseen early_nil

theorem Shows.bind_act {act : Act} {f : Unit → Attempt Session}
    (next : (f ()).Shows protocol acts) (seen : act.isOutward = true) (early : act.rank < 3) :
    (Attempt.act act >>= f).Shows protocol (act :: acts) := by
  have done : (Attempt.act act).result = .ok () := rfl
  exact next.bind done (List.filter_cons_of_pos seen) (List.forall_mem_singleton.mpr early)

/-- What is said of a session afterwards is not seen by others. -/
theorem Shows.bind_pure (h : a.Shows protocol acts) (g : Session → Session) :
    (a >>= fun session => pure (g session)).Shows protocol acts := by
  obtain ⟨outward, returns⟩ := h
  cases result : a.result with
  | error e =>
    rw [bind_error result]
    exact ⟨outward, by rw [← returns, result]⟩
  | ok session =>
    refine ⟨?_, ?_⟩
    · rw [outward_bind_ok result, outward]
      exact List.append_nil _
    · rw [← returns, result_bind_ok result, result]
      exact ⟨fun _ => ⟨_, rfl⟩, fun _ => ⟨_, rfl⟩⟩

theorem Shows.finished (h : a.Shows protocol acts) : a.finished.Shows protocol acts :=
  ⟨(outward_finished a).trans h.outward, h.returns⟩

/-- Of an attempt that is not prepared with success, others see nothing. -/
theorem finished_of_unprepared {stage : Stage} {e : Error} (fails : x.result = .error e)
    (unseen : x.outward = []) (f : α → Attempt Session) :
    let attempted := Attempt.finished (enter stage >>= fun _ => x >>= f)
    attempted.outward = [] ∧ attempted.result = .error e := by
  have entered : (enter stage).result = .ok () := rfl
  constructor
  · rw [outward_finished, outward_bind_ok entered, bind_error fails]
    exact unseen
  · change (enter stage >>= fun _ => x >>= f).result = .error e
    rw [result_bind_ok entered, bind_error fails]

theorem shows_of_failed {e : Error} (failed : a.outward = [] ∧ a.result = .error e) :
    a.Shows protocol [] :=
  ⟨failed.1, by simp [failed.2]⟩

theorem Shows.finished_of_prepared {stage : Stage} (next : (f value).Shows protocol acts)
    (done : x.result = .ok value) (unseen : x.outward = []) :
    (Attempt.finished (enter stage >>= fun _ => x >>= f)).Shows protocol acts := by
  have entered : (enter stage).result = .ok () := rfl
  exact .finished (.bind_unseen (next.bind_unseen done unseen) entered rfl)

theorem acts_prefix_finished {first : List Act} (h : first <+: a.acts) :
    first <+: a.finished.acts :=
  h.trans (List.prefix_append _ _)

theorem acts_prefix_bind {first : List Act} (done : x.result = .ok value)
    (h : first <+: (f value).acts) : x.acts ++ first <+: (x >>= f).acts := by
  rw [acts_bind_ok done]
  exact (List.prefix_append_right_inj _).mpr h

end Attempt

/-- What the protocol layer is asked for over a channel. -/
def ProtocolLayer.calls (protocol : ProtocolLayer) (schema : Option Schema) (channel : Channel)
    (verdict : PeerVerdict) : List Act :=
  match schema, protocol.createContext with
  | some schema, _ => [.performedHandshake { channel, schema, isSchemaShared := true, verdict }]
  | none, .ok schema =>
    [.createdContext, .performedHandshake { channel, schema, isSchemaShared := false, verdict }]
  | none, .error _ => [.createdContext]

section Attempt

open PeerTrust.Attempt

variable {protocol : ProtocolLayer} {schema : Option Schema} {channel : Channel}
  {verdict : PeerVerdict} {fs : FileSystem} {now : Moment} {c : Configuration} {context : Context}
  {server : ServerName} {peer : Peer} {before : List Act} {a : Attempt Session}

theorem early_createdContext : Early [.createdContext] :=
  List.forall_mem_singleton.mpr (by decide)

/-- Handing a session over is all that others see of what follows. -/
theorem handOver_shows (session : Session) (shared : Bool) :
    Shows protocol [.performedHandshake session] (do
      .act (.performedHandshake session)
      let channel ← .ofExcept (protocol.performHandshake session)
      .act (.told (.sessionEstablished shared))
      return { session with channel, status := .running }) := by
  cases done : protocol.performHandshake session with
  | ok channel => exact ⟨rfl, by simp [bind, pure, Attempt.act, Attempt.ofExcept, done]⟩
  | error e => exact ⟨rfl, by simp [bind, Attempt.act, Attempt.ofExcept, done]⟩

theorem establish_shows :
    (establish protocol channel schema verdict).Shows protocol
      (protocol.calls schema channel verdict) := by
  unfold establish ProtocolLayer.calls
  cases schema with
  | some schema =>
    have chosen : (chooseSchema protocol (some schema)).result = .ok schema := rfl
    refine .bind_unseen ?_ chosen rfl
    exact handOver_shows _ true
  | none =>
    have seen : (chooseSchema protocol none).outward = [.createdContext] := rfl
    have chosen : (chooseSchema protocol none).result = protocol.createContext := rfl
    cases made : protocol.createContext with
    | error e => exact shows_of_error (chosen.trans made) seen early_createdContext
    | ok schema =>
      refine .bind ?_ (chosen.trans made) seen early_createdContext
      exact handOver_shows _ false

@[simp] theorem outward_shakeHands : (shakeHands fs c context server now peer).outward = [] :=
  Attempt.outward_ofLogged _

/-- The acts over the channel with a peer that others see, if a channel comes of it. -/
theorem meetPeer_shows :
    (meetPeer fs now protocol c context server peer schema).Shows protocol
      (match (shakeHands fs c context server now peer).result with
      | .ok verdict => protocol.calls schema {} verdict
      | .error _ => []) := by
  have entered (stage : Stage) : (Attempt.enter stage).result = .ok () := rfl
  have judged (verdict : PeerVerdict) :
      (judge c.role verdict).result = .ok () ∧ (judge c.role verdict).outward = [] := by
    cases verdict <;> exact ⟨rfl, rfl⟩
  unfold meetPeer
  refine .bind_unseen ?_ (entered _) rfl
  cases shaken : (shakeHands fs c context server now peer).result with
  | error e => exact shows_of_error shaken outward_shakeHands early_nil
  | ok verdict =>
    refine .bind_unseen ?_ shaken outward_shakeHands
    refine .bind_unseen ?_ (entered _) rfl
    refine .bind_unseen ?_ (judged verdict).1 (judged verdict).2
    exact establish_shows

theorem connectWithChannel_shows :
    (connectWithChannel protocol channel schema).Shows protocol
      (if channel.isHandshaking then [] else protocol.calls schema channel .notChecked) := by
  have entered (stage : Stage) : (Attempt.enter stage).result = .ok () := rfl
  unfold connectWithChannel
  refine .finished (.bind_unseen ?_ (entered _) rfl)
  cases channel.isHandshaking with
  | true => exact ⟨rfl, by simp [Attempt.ofExcept]⟩
  | false => exact establish_shows

/-! ### What is kept to -/

/-- What others see of asking for a socket, if there is an address to ask for. -/
def asking (address : Option (String × UInt16)) : List Act :=
  address.toList.map fun (host, port) => .askedSocket host port

theorem Attempt.Shows.inOrder_of_unfinished {address : Option (String × UInt16)} {completed : Prop}
    (h : a.Shows protocol (asking address)) (uncompleted : ¬completed) :
    a.InOrder protocol schema address completed := by
  obtain ⟨outward, returns⟩ := h
  constructor <;>
    simp only [contexts_eq_outward, asked_eq_outward, handshakes_eq_outward, outward, returns] <;>
    cases address <;> simp [asking, uncompleted]

theorem Attempt.Shows.inOrder_of_completed {address : Option (String × UInt16)} {completed : Prop}
    (h : a.Shows protocol (asking address ++ protocol.calls schema channel verdict))
    (done : completed) : a.InOrder protocol schema address completed := by
  obtain ⟨outward, returns⟩ := h
  have created : .createdContext ∈ a.acts ↔ .createdContext ∈ a.outward :=
    (mem_outward_iff rfl).symm
  unfold ProtocolLayer.calls at outward returns
  -- The acts are a list of three at most, and everything is read off it.
  constructor <;>
    simp only [contexts_eq_outward, asked_eq_outward, handshakes_eq_outward, created, outward,
      returns] <;>
    cases address <;> cases schema <;> cases protocol.createContext <;>
    simp [asking, done, Act.rank]

theorem Attempt.Shows.inOrder_of_meetPeer {address : Option (String × UInt16)} {completed : Prop}
    (h : a.Shows protocol (asking address ++
      match (shakeHands fs c context server now peer).result with
      | .ok verdict => protocol.calls schema {} verdict
      | .error _ => []))
    (meets : completed ↔
      ∃ verdict, (shakeHands fs c context server now peer).result = .ok verdict) :
    a.InOrder protocol schema address completed := by
  cases shaken : (shakeHands fs c context server now peer).result with
  | error e =>
    simp only [shaken, List.append_nil] at h
    exact h.inOrder_of_unfinished (by simp [meets, shaken])
  | ok verdict =>
    simp only [shaken] at h
    exact h.inOrder_of_completed (meets.mpr ⟨verdict, shaken⟩)

end Attempt

/-! ### What is done first -/

namespace Configuration

variable {c : Configuration} {fs : FileSystem} {host : String}

/-- Without a certificate or a location of anchors, and for a host that is no server name, nothing
is built. -/
def Refuses (c : Configuration) (host : String) : Prop :=
  c.paths.cert = none ∨ c.paths.hasCa = false ∨ ServerName.ofText? host = none

theorem prepare_of_refuses (fs : FileSystem) (refuses : c.Refuses host) :
    ∃ fault, c.prepare fs host = (c, .ofExcept (.error (.invalidArgument fault))) := by
  unfold prepare requireCredentials
  cases cert : c.paths.cert with
  | none => exact ⟨_, rfl⟩
  | some path =>
    cases ca : c.paths.hasCa with
    | false => exact ⟨_, rfl⟩
    | true =>
      have unnamed : ServerName.ofText? host = none := by simpa [Refuses, cert, ca] using refuses
      exact ⟨_, by simp only [unnamed]; rfl⟩

theorem prepare_of_not_refuses (fs : FileSystem) (allows : ¬c.Refuses host) :
    ∃ server, ServerName.ofText? host = some server
      ∧ c.prepare fs host
        = ((c.ensureContext fs).value.1, .ofLogged
          ⟨(c.ensureContext fs).value.2.map (·, server), (c.ensureContext fs).events⟩) := by
  unfold prepare requireCredentials
  obtain ⟨cert, ca, named⟩ : c.paths.cert ≠ none ∧ c.paths.hasCa = true
      ∧ ServerName.ofText? host ≠ none := by simpa [Refuses] using allows
  obtain ⟨server, named⟩ := Option.ne_none_iff_exists'.mp named
  exact ⟨server, named, by simp [named, ca, cert]⟩

/-- An attempt gets as far as a context. -/
def Ready (c : Configuration) (fs : FileSystem) (host : String) : Prop :=
  ¬c.Refuses host ∧ ∃ context, (c.ensureContext fs).value.2 = .ok context

/-- An attempt that reaches a peer gets as far as a channel with it. -/
def Completes (c : Configuration) (fs : FileSystem) (now : Moment) (host : String) (peer : Peer) :
    Prop :=
  ¬c.Refuses host ∧ ∃ server context verdict, ServerName.ofText? host = some server
    ∧ (c.ensureContext fs).value.2 = .ok context
    ∧ (shakeHands fs (c.ensureContext fs).value.1 context server now peer).result = .ok verdict

theorem Completes.ready {now : Moment} {peer : Peer} (completes : c.Completes fs now host peer) :
    c.Ready fs host := by
  obtain ⟨allows, _, context, _, -, built, -⟩ := completes
  exact ⟨allows, context, built⟩

theorem prepare_of_ready (ready : c.Ready fs host) :
    ∃ server context, ServerName.ofText? host = some server
      ∧ (c.ensureContext fs).value.2 = .ok context
      ∧ c.prepare fs host
        = ((c.ensureContext fs).value.1,
          .ofLogged ⟨.ok (context, server), (c.ensureContext fs).events⟩) := by
  obtain ⟨allows, context, built⟩ := ready
  obtain ⟨server, named, prepared⟩ := prepare_of_not_refuses fs allows
  exact ⟨server, context, named, built, by rw [prepared, built]; rfl⟩

theorem prepare_of_not_ready (unready : ¬c.Ready fs host) :
    ∃ e, (c.prepare fs host).2.result = .error e ∧ (c.prepare fs host).2.outward = [] := by
  by_cases refuses : c.Refuses host
  · obtain ⟨fault, prepared⟩ := prepare_of_refuses fs refuses
    rw [prepared]
    exact ⟨_, rfl, rfl⟩
  · obtain ⟨server, -, prepared⟩ := prepare_of_not_refuses fs refuses
    rw [prepared]
    cases built : (c.ensureContext fs).value.2 with
    | error e => exact ⟨e, rfl, Attempt.outward_ofLogged _⟩
    | ok context => exact absurd ⟨refuses, context, built⟩ unready

theorem completes_iff {server : ServerName} {context : Context} {now : Moment} {peer : Peer}
    (allows : ¬c.Refuses host) (named : ServerName.ofText? host = some server)
    (built : (c.ensureContext fs).value.2 = .ok context) :
    c.Completes fs now host peer ↔
      ∃ verdict, (shakeHands fs (c.ensureContext fs).value.1 context server now peer).result
        = .ok verdict := by
  constructor
  · rintro ⟨-, _, _, verdict, namedSo, builtSo, shaken⟩
    obtain rfl := Option.some.inj (named.symm.trans namedSo)
    obtain rfl := Except.ok.inj (built.symm.trans builtSo)
    exact ⟨verdict, shaken⟩
  · rintro ⟨verdict, shaken⟩
    exact ⟨allows, server, context, verdict, named, built, shaken⟩

end Configuration

namespace Client

open PeerTrust.Attempt (early_nil finished_of_unprepared shows_of_error shows_of_failed)

/-- What an attempt of a role leaves of the client: if it is refused, everything and no trace with
others, and else what a request for the context leaves. -/
structure Settles (c : Client) (role : Role) (fs : FileSystem) (host : String)
    (attempted : Client × Attempt Session) : Prop where
  refused : (c.trust role).Refuses host →
    attempted.1 = c ∧ (∃ fault, attempted.2.result = .error (.invalidArgument fault))
      ∧ attempted.2.outward = []
  ensured : ¬(c.trust role).Refuses host →
    attempted.1 = c.setTrust ((c.trust role).ensureContext fs).value.1 role

section Attempts

variable {c : Client} {role : Role} {fs : FileSystem} {now : Moment} {transport : Transport}
  {protocol : ProtocolLayer} {peer : Peer} {schema : Option Schema} {context : Context}
  {server : ServerName} {port : UInt16} {configuration : Configuration} {events : List Event}

theorem setTrust_trust (c : Client) (role : Role) : c.setTrust (c.trust role) role = c := by
  cases role <;> rfl

/-- What an attempt leaves of the client is settled when it is prepared. -/
theorem settles_of_prepare {host : String} {attempted : Client × Attempt Session}
    {f : Context × ServerName → Attempt Session}
    (left : attempted.1 = c.setTrust ((c.trust role).prepare fs host).1 role)
    (runs : attempted.2
      = .finished (.enter .buildingContext >>= fun _ => ((c.trust role).prepare fs host).2 >>= f)) :
    c.Settles role fs host attempted where
  refused refuses := by
    obtain ⟨fault, prepared⟩ := Configuration.prepare_of_refuses fs refuses
    rw [left, runs, prepared, setTrust_trust]
    let refusal : Attempt (Context × ServerName) := .ofExcept (.error (.invalidArgument fault))
    have fails : refusal.result = .error (.invalidArgument fault) := rfl
    obtain ⟨unseen, failed⟩ := finished_of_unprepared fails rfl f
    exact ⟨rfl, ⟨fault, failed⟩, unseen⟩
  ensured allows := by
    obtain ⟨server, -, prepared⟩ := Configuration.prepare_of_not_refuses fs allows
    rw [left, prepared]

/-- What others see of an attempt that gets as far as a context. -/
theorem connect_shows {host : Option String}
    (prepared : (c.trust .client).prepare fs (resolveHost host)
      = (configuration, .ofLogged ⟨.ok (context, server), events⟩)) :
    (c.connect fs now transport protocol host port schema).2.Shows protocol
      (.askedSocket (resolveHost host) (resolvePort port) ::
        match transport (resolveHost host) (resolvePort port) with
        | .error _ => []
        | .ok peer =>
          match (shakeHands fs configuration context server now peer).result with
          | .ok verdict => protocol.calls schema {} verdict
          | .error _ => []) := by
  have entered (stage : Stage) : (Attempt.enter stage).result = .ok () := rfl
  unfold connect
  simp only [prepared]
  refine .finished_of_prepared ?_ rfl (Attempt.outward_ofLogged _)
  refine .bind_unseen ?_ (entered _) rfl
  refine .bind_act ?_ rfl (by simp [Act.rank])
  cases reached : transport (resolveHost host) (resolvePort port) with
  | error e => exact shows_of_error rfl rfl early_nil
  | ok peer => exact .bind_unseen (.bind_pure meetPeer_shows _) rfl rfl

theorem acceptCallHome_shows {host : String}
    (prepared : (c.trust .callHome).prepare fs host
      = (configuration, .ofLogged ⟨.ok (context, server), events⟩)) :
    (c.acceptCallHome fs now protocol peer host port schema).2.Shows protocol
      (match (shakeHands fs configuration context server now peer).result with
      | .ok verdict => protocol.calls schema {} verdict
      | .error _ => []) := by
  unfold acceptCallHome
  simp only [prepared]
  refine .finished_of_prepared ?_ rfl (Attempt.outward_ofLogged _)
  exact .bind_pure meetPeer_shows _

/-- A socket is asked for only after the context was brought up to date, with success. -/
theorem connect_starts {host : Option String}
    (prepared : (c.trust .client).prepare fs (resolveHost host)
      = (configuration, .ofLogged ⟨.ok (context, server), events⟩)) :
    .entered .buildingContext :: (events.map .told
        ++ [.entered .connecting, .askedSocket (resolveHost host) (resolvePort port)])
      <+: (c.connect fs now transport protocol host port schema).2.acts := by
  have entered (stage : Stage) : (Attempt.enter stage).result = .ok () := rfl
  let told : Logged (Except Error (Context × ServerName)) := ⟨.ok (context, server), events⟩
  have built : (Attempt.ofLogged told).result = .ok (context, server) := rfl
  unfold connect
  simp only [prepared]
  refine Attempt.acts_prefix_finished (Attempt.acts_prefix_bind (entered _) ?_)
  refine Attempt.acts_prefix_bind built (Attempt.acts_prefix_bind (entered _) ?_)
  rw [Attempt.acts_bind_ok rfl]
  exact List.prefix_append _ _

theorem connect_of_ready {host : Option String}
    (ready : (c.trust .client).Ready fs (resolveHost host)) :
    let attempted := c.connect fs now transport protocol host port schema
    attempted.2.InOrder protocol schema (some (resolveHost host, resolvePort port))
        (∃ peer, transport (resolveHost host) (resolvePort port) = .ok peer
          ∧ (c.trust .client).Completes fs now (resolveHost host) peer)
      ∧ .entered .buildingContext :: (((c.trust .client).ensureContext fs).events.map .told
          ++ [.entered .connecting, .askedSocket (resolveHost host) (resolvePort port)])
        <+: attempted.2.acts := by
  obtain ⟨server, context, named, built, prepared⟩ := Configuration.prepare_of_ready ready
  refine ⟨?_, connect_starts prepared⟩
  have shows : (c.connect fs now transport protocol host port schema).2.Shows protocol _ :=
    connect_shows prepared
  cases reached : transport (resolveHost host) (resolvePort port) with
  | error e =>
    simp only [reached] at shows
    exact shows.inOrder_of_unfinished (by simp)
  | ok peer =>
    simp only [reached] at shows
    refine shows.inOrder_of_meetPeer ?_
    simp [Configuration.completes_iff ready.1 named built]

theorem acceptCallHome_inOrder (host : String) :
    (c.acceptCallHome fs now protocol peer host port schema).2.InOrder protocol schema none
      ((c.trust .callHome).Completes fs now host peer) := by
  by_cases ready : (c.trust .callHome).Ready fs host
  · obtain ⟨server, context, named, built, prepared⟩ := Configuration.prepare_of_ready ready
    have shows : (c.acceptCallHome fs now protocol peer host port schema).2.Shows protocol _ :=
      acceptCallHome_shows prepared
    exact shows.inOrder_of_meetPeer (Configuration.completes_iff ready.1 named built)
  · obtain ⟨e, fails, unseen⟩ := Configuration.prepare_of_not_ready ready
    have shows : (c.acceptCallHome fs now protocol peer host port schema).2.Shows protocol [] :=
      shows_of_failed (finished_of_unprepared fails unseen _)
    exact shows.inOrder_of_unfinished fun completes => ready completes.ready

end Attempts

/-- An attempt on any client is refused without a trace if credentials are missing or the host is no
server name; otherwise it leaves of the client what a request for the context leaves, whatever comes
of it. Only an attempt to connect asks for a socket, once and under a proper address, after that
request came to a context. The protocol layer is asked for schemas exactly if none were supplied and
there is a channel, and after that it is handed one session at most, which the attempt returns if
that succeeds. A session over a channel made elsewhere leaves the client alone. -/
theorem attempts_in_order (c : Client) (fs : FileSystem) (now : Moment) (protocol : ProtocolLayer)
    (schema : Option Schema) :
    (∀ transport host port,
        let ready := (c.trust .client).Ready fs (resolveHost host)
        let completed := ∃ peer, transport (resolveHost host) (resolvePort port) = .ok peer
          ∧ (c.trust .client).Completes fs now (resolveHost host) peer
        let attempted := c.connect fs now transport protocol host port schema
        c.Settles .client fs (resolveHost host) attempted
          ∧ (resolveHost host ≠ ""
            ∧ Text.trim (resolveHost host).toList = (resolveHost host).toList
            ∧ resolvePort port ≠ 0)
          ∧ (ready →
            attempted.2.InOrder protocol schema (some (resolveHost host, resolvePort port))
                completed
              ∧ .entered .buildingContext :: (((c.trust .client).ensureContext fs).events.map .told
                  ++ [.entered .connecting, .askedSocket (resolveHost host) (resolvePort port)])
                <+: attempted.2.acts)
          ∧ (¬ready → ¬completed ∧ attempted.2.InOrder protocol schema none completed))
      ∧ (∀ peer host port,
          let attempted := c.acceptCallHome fs now protocol peer host port schema
          c.Settles .callHome fs host attempted
            ∧ attempted.2.InOrder protocol schema none
              ((c.trust .callHome).Completes fs now host peer))
      ∧ ∀ channel,
          let attempt := connectWithChannel protocol channel schema
          c.perform (.connectWithChannel protocol channel schema) = (c, .session attempt)
            ∧ attempt.InOrder protocol schema none (channel.isHandshaking = false)
            ∧ (channel.isHandshaking = true → attempt.outward = []) := by
  refine ⟨fun transport host port => ?_, fun peer host port => ?_, fun channel => ?_⟩
  · intro ready completed attempted
    obtain ⟨nonblank, trimmed⟩ := resolveHost_trimmed host
    refine ⟨settles_of_prepare rfl rfl, ⟨nonblank, trimmed, resolvePort_ne_zero port⟩,
      connect_of_ready, fun unready => ?_⟩
    have uncompleted : ¬completed := fun ⟨_, _, completes⟩ => unready completes.ready
    obtain ⟨e, fails, unseen⟩ := Configuration.prepare_of_not_ready unready
    have shows : attempted.2.Shows protocol [] :=
      shows_of_failed (finished_of_unprepared fails unseen _)
    exact ⟨uncompleted, shows.inOrder_of_unfinished uncompleted⟩
  · exact ⟨settles_of_prepare rfl rfl, acceptCallHome_inOrder host⟩
  · intro attempt
    have shows : attempt.Shows protocol _ := connectWithChannel_shows
    cases handshaking : channel.isHandshaking with
    | true =>
      rw [if_pos handshaking] at shows
      exact ⟨rfl, shows.inOrder_of_unfinished nofun, fun _ => shows.outward⟩
    | false =>
      rw [if_neg (by simp [handshaking])] at shows
      exact ⟨rfl, shows.inOrder_of_completed rfl, nofun⟩

end Client

end PeerTrust
