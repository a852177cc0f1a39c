import PeerTrust.Proofs.Ledger
import PeerTrust.Proofs.SetPaths

/-!
# Clients made from configurations

A section of a configuration is valid if it names nothing, or else a certificate, a location of
anchors and no empty path. Applying it makes the settings that it is complete for and leaves out the
others. So nothing can be refused, and all that is ever lost is a key without a certificate, which
no valid section names. A client made from a configuration therefore has for each role the paths of
its section, marked as stale, and has built nothing.

## Main definitions

* `TrustPaths.Names`, `TrustPaths.IsComplete` — what a section must name
* `TrustPaths.settings` — the settings that a section is applied by
* `TrustPaths.applied` — the paths that a section leaves behind
* `TrustPaths.configured` — a new configuration with a section applied to it

## Main results

* `TrustPaths.applyTo_eq_run` — applying a section is a run of settings, and never fails
* `Config.validate_eq_ok_iff` — which configurations are valid
* `Client.ofConfig_eq` — the client of a configuration
* `Client.config_applied_without_loss` — what this says of valid configurations
-/

namespace PeerTrust

open PeerTrust.Configuration (Setting)

/-! ### Applying a section -/

namespace Configuration.Setting

/-- What a setting asks a configuration for. -/
def request (c : Configuration) : Setting → Except Error Configuration
  | credentials cert key => c.setCredentials cert key
  | anchors file dir => c.setAnchors file dir
  | crls file dir => c.setCrls file dir

/-- A setting that is left out where it is incomplete. -/
def offer (c : Configuration) (s : Setting) : Except Error Configuration :=
  if s.isIncomplete then .ok c else s.request c

/-- A setting that is left out does what it would do if it were refused. -/
theorem offer_eq (c : Configuration) (s : Setting) :
    s.offer c = .ok (c.perform s.operation).1 := by
  cases incomplete : s.isIncomplete with
  | true => rw [offer, if_pos incomplete, perform_of_incomplete incomplete]
  | false =>
    have accepted : s.request c = .ok (c.commit (s.put c.paths)) := by
      cases s <;> exact if_neg (ne_true_of_eq_false incomplete)
    have left : ¬s.isIncomplete = true := ne_true_of_eq_false incomplete
    rw [offer, if_neg left, accepted, perform_operation, if_neg left]
    rfl

theorem foldlM_offer (c : Configuration) (settings : List Setting) :
    settings.foldlM offer c = .ok (c.run (settings.map operation)) := by
  induction settings generalizing c with
  | nil => rfl
  | cons s rest ih =>
    rw [List.foldlM_cons, offer_eq, List.map_cons, run_cons, ← ih]
    rfl

end Configuration.Setting

namespace TrustPaths

variable {p : TrustPaths} {role : Role}

/-- The settings that a section is applied by, in order. -/
def settings (p : TrustPaths) : List Setting :=
  [.credentials p.cert p.key, .anchors p.caFile p.caDir, .crls p.crlFile p.crlDir]

/-- A section is applied setting by setting, but for those that it is incomplete for. -/
theorem applyTo_eq_foldlM (p : TrustPaths) (c : Configuration) :
    p.applyTo c = p.settings.foldlM Setting.offer c := by
  rw [Client.applyTo_eq]
  rcases p with ⟨_ | cert, key, _ | caFile, _ | caDir, _ | crlFile, _ | crlDir⟩ <;> rfl

/-- Applying a section is a run of settings. What is refused of them in a run is not asked for. -/
theorem applyTo_eq_run (p : TrustPaths) (c : Configuration) :
    p.applyTo c = .ok (c.run (p.settings.map Setting.operation)) := by
  rw [applyTo_eq_foldlM, Setting.foldlM_offer]

/-- The paths that a section leaves behind where none are set. A key without a certificate is
dropped. -/
def applied (p : TrustPaths) : TrustPaths := { p with key := if p.cert = none then none else p.key }

/-- A new configuration of a role with a section applied to it. -/
def configured (p : TrustPaths) (role : Role) (slot : SlotId := 0) : Configuration where
  role
  slot
  paths := p.applied
  contextDirty := p.cert.isSome || p.hasCa
  revocationDirty := p.hasCrl

/-- Where nothing is set, whether a path is given is all that counts for the marks. -/
theorem applyTo_new (p : TrustPaths) (role : Role) (slot : SlotId) :
    p.applyTo { role, slot } = .ok (p.configured role slot) := by
  rw [applyTo_eq_run, Setting.run_operations]
  rcases p with ⟨_ | cert, key, _ | caFile, _ | caDir, _ | crlFile, _ | crlDir⟩ <;> rfl

/-- A key without a certificate is lost, and lists are kept without anything else. -/
example : ({ key := some ⟨"key.pem"⟩, crlDir := some ⟨"crls"⟩ } : TrustPaths).applyTo
      { role := .client }
    = .ok { role := .client, paths := { crlDir := some ⟨"crls"⟩ }, revocationDirty := true } := rfl

/-! ### Valid sections -/

/-- One of the paths is this one. -/
def Names (p : TrustPaths) (path : FilePath) : Prop :=
  p.cert = some path ∨ p.key = some path ∨ p.caFile = some path ∨ p.caDir = some path
    ∨ p.crlFile = some path ∨ p.crlDir = some path

/-- A certificate and a location of anchors are named, and no path is empty. -/
structure IsComplete (p : TrustPaths) : Prop where
  cert : p.cert ≠ none
  ca : p.caFile ≠ none ∨ p.caDir ≠ none
  nonempty : ∀ path, p.Names path → path.text ≠ ""

theorem mem_present_iff {path : FilePath} : path ∈ p.present ↔ p.Names path := by
  simp [present, Names, eq_comm]

theorem hasCa_iff : p.hasCa = true ↔ p.caFile ≠ none ∨ p.caDir ≠ none := by
  simp [hasCa, Option.isSome_iff_ne_none]

theorem hasCrl_iff : p.hasCrl = true ↔ p.crlFile ≠ none ∨ p.crlDir ≠ none := by
  simp [hasCrl, Option.isSome_iff_ne_none]

theorem IsComplete.ne_empty (complete : p.IsComplete) : p ≠ {} := by
  rintro rfl
  exact complete.cert rfl

theorem validate_eq_ok_iff : p.validate role = .ok () ↔ p = {} ∨ p.IsComplete := by
  unfold validate
  by_cases empty : p = {}
  · simp [isEmpty, empty]
  · have notEmpty : p.isEmpty = false := decide_eq_false empty
    have refused {e : ConfigProblem} (incomplete : ¬p.IsComplete) :
        Except.error e = .ok () ↔ p = {} ∨ p.IsComplete := by simp [empty, incomplete]
    -- Each refusal is for something that a complete section has.
    rw [if_neg (ne_true_of_eq_false notEmpty)]
    split
    case isTrue missing =>
      exact refused fun complete => complete.cert (Option.isNone_iff_eq_none.mp missing)
    case isFalse cert =>
      split
      case isTrue missing =>
        refine refused fun complete => ?_
        simp [hasCa_iff.mpr complete.ca] at missing
      case isFalse ca =>
        split
        case isTrue blank =>
          obtain ⟨path, mem, blank⟩ := List.any_eq_true.mp blank
          exact refused fun complete =>
            complete.nonempty path (mem_present_iff.mp mem) (of_decide_eq_true blank)
        case isFalse nonempty =>
          have complete : p.IsComplete := {
            cert := by simpa using cert
            ca := hasCa_iff.mp (by simpa using ca)
            nonempty := fun path named blank => nonempty (List.any_eq_true.mpr
              ⟨path, mem_present_iff.mpr named, decide_eq_true blank⟩) }
          simp [complete]

/-- Nothing of a valid section is lost. -/
theorem applied_eq (valid : p = {} ∨ p.IsComplete) : p.applied = p := by
  rcases valid with rfl | complete
  · rfl
  · rw [applied, if_neg complete.cert]

/-- A section is valid and names something exactly if it is complete. -/
theorem ne_empty_iff (valid : p = {} ∨ p.IsComplete) : p ≠ {} ↔ p.IsComplete :=
  ⟨valid.resolve_left, IsComplete.ne_empty⟩

/-! ### A configuration of a valid section -/

theorem contextDirty_configured_iff (valid : p = {} ∨ p.IsComplete) :
    (p.configured role).contextDirty = true ↔ p ≠ {} := by
  refine ⟨?_, fun named => ?_⟩
  · rintro marked rfl
    cases marked
  · have complete := (ne_empty_iff valid).mp named
    exact Bool.or_eq_true_iff.mpr (.inl (Option.isSome_iff_ne_none.mpr complete.cert))

theorem requireCredentials_configured_iff (valid : p = {} ∨ p.IsComplete) :
    (p.configured role).requireCredentials = .ok () ↔ p ≠ {} := by
  have paths : (p.configured role).paths = p := applied_eq valid
  rw [Configuration.requireCredentials, paths]
  refine ⟨?_, fun named => ?_⟩
  · rintro accepted rfl
    cases accepted
  · have complete := (ne_empty_iff valid).mp named
    rw [if_neg (by simpa using complete.cert), if_neg (by simp [hasCa_iff.mpr complete.ca])]

end TrustPaths

/-! ### Valid configurations and their clients -/

theorem Config.validate_eq_ok_iff {config : Config} :
    config.validate = .ok () ↔
      (∀ role, config.paths role = {} ∨ (config.paths role).IsComplete)
        ∧ config.connection.timeoutMillis ≠ 0 := by
  have sections : (∀ role, config.paths role = {} ∨ (config.paths role).IsComplete) ↔
      config.client.validate .client = .ok () ∧ config.callHome.validate .callHome = .ok () := by
    rw [TrustPaths.validate_eq_ok_iff, TrustPaths.validate_eq_ok_iff]
    exact ⟨fun valid => ⟨valid .client, valid .callHome⟩, fun valid role => match role with
      | .client => valid.1
      | .callHome => valid.2⟩
  have timeout : (if config.connection.timeoutMillis = 0 then throw ConfigProblem.zeroTimeout
      else pure () : Except ConfigProblem Unit) = .ok ()
        ↔ config.connection.timeoutMillis ≠ 0 := by
    split
    case isTrue zero => exact iff_of_false (by rintro ⟨⟩) fun nonzero => nonzero zero
    case isFalse nonzero => exact iff_of_true rfl nonzero
  rw [sections, Config.validate, mapError_eq_ok_iff, Config.problem]
  rw [bind_guard_eq_ok_iff, bind_guard_eq_ok_iff, timeout, and_assoc]

namespace Client

/-- A new client with the sections of a configuration applied. -/
def ofSections (config : Config) : Client where
  forClient := config.client.configured .client
  forCallHome := config.callHome.configured .callHome

theorem trust_ofSections (config : Config) (role : Role) :
    (ofSections config).trust role = (config.paths role).configured role := by
  cases role <;> rfl

/-- Validating is all that a client can be refused by. -/
theorem ofConfig_eq (config : Config) :
    ofConfig config = config.validate.map fun _ => ofSections config := by
  unfold ofConfig
  cases config.validate with
  | error e => rfl
  | ok =>
    rw [TrustPaths.applyTo_new, TrustPaths.applyTo_new]
    rfl

theorem ofConfig_eq_ok_iff {config : Config} {client : Client} :
    ofConfig config = .ok client ↔ config.validate = .ok () ∧ ofSections config = client := by
  rw [ofConfig_eq, map_eq_ok_iff]
  exact ⟨fun ⟨_, valid, same⟩ => ⟨valid, same⟩, fun ⟨valid, same⟩ => ⟨(), valid, same⟩⟩

/-- A configuration is valid exactly if each section names nothing, or else a certificate, a
location of anchors and no empty path, and the time to try for is not 0. A client is made of exactly
these. For each role it has the six paths of its own section. The context is stale, and credentials
are there, exactly if the section names something; the store is stale exactly if the section names a
location of lists; and nothing has been built. Any section, valid or not, is applied to a new
configuration without failing, and all that it may lose is a key given without a certificate. -/
theorem config_applied_without_loss (config : Config) :
    (config.validate = .ok () ↔
        (∀ role, config.paths role = {} ∨ (config.paths role).IsComplete)
          ∧ config.connection.timeoutMillis ≠ 0)
      ∧ ((∃ client, ofConfig config = .ok client) ↔ config.validate = .ok ())
      ∧ (∀ client, ofConfig config = .ok client → ∀ role,
          (client.trust role).role = role
          ∧ (client.trust role).paths = config.paths role
          ∧ ((client.trust role).contextDirty = true ↔ config.paths role ≠ {})
          ∧ ((client.trust role).revocationDirty = true ↔
              (config.paths role).crlFile ≠ none ∨ (config.paths role).crlDir ≠ none)
          ∧ ((client.trust role).requireCredentials = .ok () ↔ config.paths role ≠ {})
          ∧ (client.trust role).context = none
          ∧ (client.trust role).store = none
          ∧ (client.trust role).counts = {})
      ∧ ∀ (p : TrustPaths) (role : Role) (slot : SlotId),
          ∃ after, p.applyTo { role, slot } = .ok after
            ∧ after.paths = { p with key := if p.cert = none then none else p.key } := by
  refine ⟨Config.validate_eq_ok_iff, ?_, fun client made role => ?_, fun p role slot => ?_⟩
  · exact ⟨fun ⟨_, made⟩ => (ofConfig_eq_ok_iff.mp made).1,
      fun valid => ⟨_, ofConfig_eq_ok_iff.mpr ⟨valid, rfl⟩⟩⟩
  · obtain ⟨accepted, rfl⟩ := ofConfig_eq_ok_iff.mp made
    have valid := (Config.validate_eq_ok_iff.mp accepted).1 role
    rw [trust_ofSections]
    exact ⟨rfl, TrustPaths.applied_eq valid, TrustPaths.contextDirty_configured_iff valid,
      TrustPaths.hasCrl_iff, TrustPaths.requireCredentials_configured_iff valid, rfl, rfl, rfl⟩
  · exact ⟨_, p.applyTo_new role slot, rfl⟩

end Client

end PeerTrust
