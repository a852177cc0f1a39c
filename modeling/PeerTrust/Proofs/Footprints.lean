import PeerTrust.Proofs.Ledger

/-!
# What operations leave behind

For a role, an attempt leaves behind that its context was brought up to date with the files of that
moment, and nothing else: neither whom it met, nor when, nor what came of it. An attempt for the
other role leaves nothing at all. Two histories with the same footprints are therefore one and the
same to whatever a client does for the role afterwards.

## Main definitions

* `Client.Footprint` — what an operation can leave behind for a role
* `Client.Operation.footprint` — what it does leave behind

## Main results

* `Client.trust_perform`, `Client.trust_run` — the configuration of a role follows the footprints
* `Client.connect_snd_eq`, `Client.acceptCallHome_snd_eq` — and so does all that comes of an attempt
-/

namespace PeerTrust.Client

/-- What an operation on a client can leave behind for a role. -/
inductive Footprint
  /-- The configuration of the role was asked for something. -/
  | asked (op : Configuration.Operation)
  /-- A handshake was prepared. Whether it took place does not matter. -/
  | prepared (fs : FileSystem) (host : String)
  /-- The client made room for one with this configuration. -/
  | replaced (config : Config)

/-- The configuration of a role after what an operation left behind. -/
def Footprint.apply (role : Role) (c : Configuration) : Footprint → Configuration
  | .asked op => (c.perform op).1
  | .prepared fs host => (c.prepare fs host).1
  | .replaced config => match ofConfig config with
    | .ok configured => configured.trust role
    | .error _ => c

/-- What an operation leaves behind for a role. -/
def Operation.footprint (role : Role) : Operation → Option Footprint
  | .trust addressed op => if addressed = role then some (.asked op) else none
  | .connect fs _ _ _ host _ _ =>
    if .client = role then some (.prepared fs (resolveHost host)) else none
  | .acceptCallHome fs _ _ _ host _ _ =>
    if .callHome = role then some (.prepared fs host) else none
  | .connectOver fs _ _ addressed _ _ _ =>
    if addressed = role then some (.asked (.ensureContext fs)) else none
  | .connectWithChannel .. => none
  | .destroy => some (.asked .reset)
  | .configure config => some (.replaced config)

variable {role : Role}

theorem trust_setTrust_eq_footprint (c : Client) {addressed : Role} {left : Footprint}
    {configuration : Configuration}
    (done : addressed = role → left.apply role (c.trust role) = configuration) :
    (c.setTrust configuration addressed).trust role
      = (if addressed = role then some left else none).elim (c.trust role)
          (Footprint.apply role (c.trust role)) := by
  rw [c.trust_setTrust_addressed done]
  split <;> rfl

/-- An operation does to a role what its footprint says. -/
theorem trust_perform (c : Client) (op : Operation) (role : Role) :
    (c.perform op).1.trust role
      = (op.footprint role).elim (c.trust role) (Footprint.apply role (c.trust role)) := by
  -- An operation on one role sets its configuration and leaves that of the other.
  cases op with
  | trust addressed op =>
    refine c.trust_setTrust_eq_footprint fun mine => ?_
    subst mine
    rfl
  | connect fs now transport protocol host port schema =>
    refine c.trust_setTrust_eq_footprint fun mine => ?_
    subst mine
    rfl
  | acceptCallHome fs now protocol peer host port schema =>
    refine c.trust_setTrust_eq_footprint fun mine => ?_
    subst mine
    rfl
  | connectOver fs now protocol addressed server peer schema =>
    refine c.trust_setTrust_eq_footprint fun mine => ?_
    subst mine
    rfl
  | connectWithChannel => rfl
  | destroy => cases role <;> rfl
  | configure config =>
    simp only [perform, Operation.footprint, Option.elim_some, Footprint.apply]
    cases ofConfig config <;> rfl

/-- A run does to a role what the footprints of its operations say. -/
theorem trust_run (c : Client) (ops : List Operation) (role : Role) :
    (c.run ops).trust role
      = (ops.filterMap (·.footprint role)).foldl (Footprint.apply role) (c.trust role) := by
  induction ops generalizing c with
  | nil => rfl
  | cons op ops ih =>
    rw [run_cons, ih, trust_perform, List.filterMap_cons]
    cases op.footprint role <;> rfl

/-- Histories with the same footprints lead to the same configuration. -/
theorem trust_run_eq {ops other : List Operation}
    (same : other.filterMap (·.footprint role) = ops.filterMap (·.footprint role)) :
    (run {} other).trust role = (run {} ops).trust role := by
  rw [trust_run, trust_run, same]

section Attempts

variable {c d : Client} (fs : FileSystem) (now : Moment) (transport : Transport)
  (protocol : ProtocolLayer) (schema : Option Schema)

theorem connect_snd_eq (same : c.trust .client = d.trust .client) (host : Option String)
    (port : UInt16) :
    (c.connect fs now transport protocol host port schema).2
      = (d.connect fs now transport protocol host port schema).2 := by
  simp only [connect, same]

theorem acceptCallHome_snd_eq (same : c.trust .callHome = d.trust .callHome) (peer : Peer)
    (host : String) (port : UInt16) :
    (c.acceptCallHome fs now protocol peer host port schema).2
      = (d.acceptCallHome fs now protocol peer host port schema).2 := by
  simp only [acceptCallHome, same]

end Attempts

end PeerTrust.Client
