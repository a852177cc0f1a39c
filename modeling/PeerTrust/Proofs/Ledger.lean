import PeerTrust.Proofs.Coherence
import PeerTrust.Proofs.Steps
import PeerTrust.Session.Operation

/-!
# Runs of a client, role by role

What a client does to the configuration of a role is a run of that configuration, which starts anew
when the client makes room for another. So the record of origins can be kept for each role of a
client, and is as coherent there as it is for a configuration alone.

## Main definitions

* `Client.Operation.steps` — what an operation does to the configuration of a role
* `Client.ledger` — the recorded configuration of a role after operations on the client

## Main results

* `Client.configuration_ledger` — the ledger holds the configuration of the client
* `Client.coherent_ledger` — the ledger is coherent
-/

namespace PeerTrust

theorem Configuration.prepare_fst (c : Configuration) (fs : FileSystem) (host : String) :
    (c.prepare fs host).1
      = if c.requireCredentials.isOk && (ServerName.ofText? host).isSome
        then (c.ensureContext fs).value.1 else c := by
  unfold prepare
  cases c.requireCredentials with
  | error e => rfl
  | ok =>
    cases ServerName.ofText? host with
    | none => rfl
    | some server => rfl

namespace Client

/-- What preparing a handshake does to a configuration. -/
def preparation (c : Configuration) (fs : FileSystem) (host : String) :
    List Configuration.Operation :=
  if c.requireCredentials.isOk && (ServerName.ofText? host).isSome then [.ensureContext fs] else []

/-- What an operation does to the configuration of a role, while the client stays in place. -/
def Operation.steps (op : Operation) (role : Role) (c : Configuration) :
    List Configuration.Operation :=
  match op with
  | .trust addressed op => if addressed = role then [op] else []
  | .connect fs _ _ _ host _ _ =>
    if .client = role then preparation c fs (resolveHost host) else []
  | .acceptCallHome fs _ _ _ host _ _ => if .callHome = role then preparation c fs host else []
  | .connectOver fs _ _ addressed _ _ _ => if addressed = role then [.ensureContext fs] else []
  | .connectWithChannel .. | .configure _ => []
  | .destroy => [.reset]

/-- The record of a role after an operation on the client. It starts anew with another client. -/
def follow (role : Role) (r : Configuration.Recorded) (op : Operation) : Configuration.Recorded :=
  match op with
  | .configure config => match ofConfig config with
    | .ok configured => { configuration := configured.trust role }
    | .error _ => r
  | op => r.run (op.steps role r.configuration)

/-- The recorded configuration of a role after operations on a new client. -/
def ledger (role : Role) (ops : List Operation) : Configuration.Recorded :=
  ops.foldl (follow role) (.new role)

theorem run_preparation (c : Configuration) (fs : FileSystem) (host : String) :
    c.run (preparation c fs host) = (c.prepare fs host).1 := by
  rw [Configuration.prepare_fst, preparation]
  split <;> rfl

theorem trust_new (role : Role) : ({} : Client).trust role = { role } := by
  cases role <;> rfl

/-- What is done for one role is done to its configuration and to no other. -/
theorem trust_setTrust_addressed (c : Client) {addressed role : Role}
    {after configuration : Configuration} (done : addressed = role → after = configuration) :
    (c.setTrust configuration addressed).trust role
      = if addressed = role then after else c.trust role := by
  by_cases mine : addressed = role
  · rw [if_pos mine, done mine, mine, trust_setTrust_self]
  · rw [if_neg mine, trust_setTrust_of_ne c _ (Ne.symm mine)]

theorem run_addressed (c : Client) {addressed role : Role} {steps : List Configuration.Operation}
    {configuration : Configuration}
    (done : addressed = role → (c.trust role).run steps = configuration) :
    (c.trust role).run (if addressed = role then steps else [])
      = (c.setTrust configuration addressed).trust role := by
  rw [c.trust_setTrust_addressed done, apply_ite (Configuration.run _), Configuration.run_nil]

/-- A client's operation does to each role what its steps say. -/
theorem run_steps (c : Client) {op : Operation} (role : Role)
    (inPlace : ∀ config, op ≠ .configure config) :
    (c.trust role).run (op.steps role (c.trust role)) = (c.perform op).1.trust role := by
  cases op with
  | trust addressed op =>
    refine c.run_addressed fun mine => ?_
    subst mine
    rfl
  | connect fs now transport protocol host port schema =>
    refine c.run_addressed fun mine => ?_
    subst mine
    exact run_preparation _ fs _
  | acceptCallHome fs now protocol peer host port schema =>
    refine c.run_addressed fun mine => ?_
    subst mine
    exact run_preparation _ fs _
  | connectOver fs now protocol addressed server peer schema =>
    refine c.run_addressed fun mine => ?_
    subst mine
    rfl
  | connectWithChannel => rfl
  | destroy => cases role <;> rfl
  | configure config => exact absurd rfl (inPlace config)

theorem configuration_follow {c : Client} {role : Role} {r : Configuration.Recorded}
    (same : r.configuration = c.trust role) (op : Operation) :
    (follow role r op).configuration = (c.perform op).1.trust role := by
  -- Only another client takes the place of a run of steps.
  have steps (inPlace : ∀ config, op ≠ .configure config) :
      (r.run (op.steps role r.configuration)).configuration = (c.perform op).1.trust role := by
    rw [Configuration.Recorded.configuration_run, same, run_steps c role inPlace]
  cases op with
  | configure config =>
    cases made : ofConfig config with
    | ok configured => simp only [follow, perform, made]
    | error e => simpa only [follow, perform, made] using same
  | _ => exact steps fun _ h => nomatch h

theorem configuration_ledger (role : Role) (ops : List Operation) :
    (ledger role ops).configuration = (Client.run {} ops).trust role := by
  -- The client and the record of the role go through the operations side by side.
  have followed (c : Client) (r : Configuration.Recorded)
      (same : r.configuration = c.trust role) :
      (ops.foldl (follow role) r).configuration = (c.run ops).trust role := by
    induction ops generalizing c r with
    | nil => exact same
    | cons op ops ih => exact ih _ _ (configuration_follow same op)
  exact followed {} _ (trust_new role).symm

theorem configuration_ledger_concat (role : Role) (ops : List Operation) (op : Operation) :
    (ledger role (ops ++ [op])).configuration = ((run {} ops).perform op).1.trust role := by
  rw [configuration_ledger, run_append]
  rfl

section Coherence

open PeerTrust.Configuration (Coherent PathChange)

/-- A change that is made only if something is given, and that is not refused. -/
theorem pathChange_of_given {c after : Configuration} {result : Except Error Configuration}
    (change : PathChange c (c.changed result).1) {given : Bool}
    (made : (if given then result else pure c) = .ok after) : PathChange c after := by
  cases given with
  | false =>
    obtain rfl : c = after := Except.ok.inj made
    exact .refused
  | true =>
    obtain rfl : result = .ok after := made
    exact change

theorem applyTo_eq (p : TrustPaths) (c : Configuration) :
    p.applyTo c =
      (if p.cert.isSome then c.setCredentials p.cert p.key else pure c) >>= fun c =>
      (if p.hasCa then c.setAnchors p.caFile p.caDir else pure c) >>= fun c =>
      if p.hasCrl then c.setCrls p.crlFile p.crlDir else pure c := by
  unfold TrustPaths.applyTo
  cases p.cert.isSome <;> cases p.hasCa <;> rfl

/-- A section is handed over by three changes of paths. -/
theorem coherent_applyTo {p : TrustPaths} {c after : Configuration}
    (h : Coherent { configuration := c }) (applied : p.applyTo c = .ok after) :
    Coherent { configuration := after } ∧ after.role = c.role := by
  rw [applyTo_eq] at applied
  obtain ⟨first, credentials, applied⟩ := bind_eq_ok_iff.mp applied
  obtain ⟨second, anchors, crls⟩ := bind_eq_ok_iff.mp applied
  have credentials := pathChange_of_given (c.pathChange_setCredentials _ _) credentials
  have anchors := pathChange_of_given (first.pathChange_setAnchors _ _) anchors
  have crls := pathChange_of_given (second.pathChange_setCrls _ _) crls
  refine ⟨((h.pathChange credentials).pathChange anchors).pathChange crls, ?_⟩
  rw [crls.role_eq, anchors.role_eq, credentials.role_eq]

theorem coherent_ofConfig {config : Config} {c : Client} (made : ofConfig config = .ok c)
    (role : Role) :
    Coherent { configuration := c.trust role } ∧ (c.trust role).role = role := by
  unfold ofConfig at made
  obtain ⟨_, -, made⟩ := bind_eq_ok_iff.mp made
  obtain ⟨forClient, client, made⟩ := bind_eq_ok_iff.mp made
  obtain ⟨forCallHome, callHome, made⟩ := bind_eq_ok_iff.mp made
  obtain rfl : { forClient, forCallHome } = c := Except.ok.inj made
  cases role with
  | client => exact coherent_applyTo (.new .client) client
  | callHome => exact coherent_applyTo (.new .callHome) callHome

theorem coherent_follow {role : Role} {r : Configuration.Recorded} (h : Coherent r)
    (mine : r.configuration.role = role) (op : Operation) :
    Coherent (follow role r op) ∧ (follow role r op).configuration.role = role := by
  have steps : Coherent (r.run (op.steps role r.configuration))
      ∧ (r.run (op.steps role r.configuration)).configuration.role = role := by
    refine ⟨h.run _, ?_⟩
    rw [Configuration.Recorded.configuration_run, Configuration.role_run, mine]
  cases op with
  | configure config =>
    cases made : ofConfig config with
    | ok configured => simpa only [follow, made] using coherent_ofConfig made role
    | error e => simpa only [follow, made] using ⟨h, mine⟩
  | _ => exact steps

/-- Whatever was done to a client, the record of each role is coherent. -/
theorem coherent_ledger (role : Role) (ops : List Operation) :
    Coherent (ledger role ops) ∧ (ledger role ops).configuration.role = role := by
  -- The role goes with coherence, which says what a context was built for but not for whom.
  have followed (r : Configuration.Recorded) (h : Coherent r)
      (mine : r.configuration.role = role) :
      Coherent (ops.foldl (follow role) r)
        ∧ (ops.foldl (follow role) r).configuration.role = role := by
    induction ops generalizing r with
    | nil => exact ⟨h, mine⟩
    | cons op ops ih =>
      obtain ⟨next, mine⟩ := coherent_follow h mine op
      exact ih _ next mine
  exact followed _ (.new role) rfl

end Coherence

end Client

end PeerTrust
