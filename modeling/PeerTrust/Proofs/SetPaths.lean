import PeerTrust.Proofs.Rebuilds

/-!
# Setting paths in a row

A setting gives two of the six paths of a configuration. It is refused, and then nothing has
happened, or it replaces these two and may mark the artifact that is built from them. However many
settings follow one another, a mark tells whether it was there at first or one of them changed a
path, and so it is there whenever the paths at the end are not those of the beginning.

## Main definitions

* `Configuration.Setting` — two paths to be set, with what is required of them
* `Configuration.Setting.put`, `Configuration.Setting.after` — the paths that a setting leads to
* `Configuration.Setting.changes` — it is accepted and changes a path, and not only its spelling
* `Configuration.Setting.anyChanges` — one of several settings does so for an artifact

## Main results

* `Configuration.Setting.perform_of_complete` — all that a setting does
* `Configuration.Setting.run_operations` — all that settings in a row do
* `Configuration.settings_mark_exactly` — what this says of refusals, frames and marks
-/

namespace PeerTrust.Configuration

theorem Artifact.SamePaths.refl (a : Artifact) (p : TrustPaths) : a.SamePaths p p := by
  cases a with
  | context => exact TrustPaths.SameMaterial.refl p
  | store => exact TrustPaths.SameCrls.refl p

theorem Artifact.SamePaths.trans {a : Artifact} {p q r : TrustPaths} (h : a.SamePaths p q)
    (h' : a.SamePaths q r) : a.SamePaths p r := by
  cases a with
  | context => exact TrustPaths.SameMaterial.trans h h'
  | store => exact TrustPaths.SameCrls.trans h h'

/-- Two paths to be set. A path that is not given is unset. -/
inductive Setting
  | credentials (cert key : Option FilePath)
  | anchors (file dir : Option FilePath)
  | crls (file dir : Option FilePath)
  deriving DecidableEq, Repr

namespace Setting

/-- The operation that sets the paths. -/
def operation : Setting → Operation
  | credentials cert key => .setCredentials cert key
  | anchors file dir => .setAnchors file dir
  | crls file dir => .setCrls file dir

/-- Whether what is required is missing: a certificate, or one of two locations. -/
def isIncomplete : Setting → Bool
  | credentials cert _ => cert.isNone
  | anchors file dir | crls file dir => file.isNone && dir.isNone

/-- What an incomplete setting is refused with. -/
def problem : Setting → ArgumentProblem
  | credentials _ _ => .certificatePathRequired
  | anchors _ _ => .caLocationRequired
  | crls _ _ => .crlLocationRequired

/-- The paths with two of them replaced. -/
def put (p : TrustPaths) : Setting → TrustPaths
  | credentials cert key => { p with cert, key }
  | anchors file dir => { p with caFile := file, caDir := dir }
  | crls file dir => { p with crlFile := file, crlDir := dir }

/-- The paths after a setting that may be refused. -/
def after (p : TrustPaths) (s : Setting) : TrustPaths := if s.isIncomplete then p else s.put p

/-- Whether one of the two paths is not the one that is set already, spelling aside. -/
def differs (p : TrustPaths) : Setting → Bool
  | credentials cert key =>
    !(FilePath.sameOption p.cert cert && FilePath.sameOption p.key key)
  | anchors file dir => !(FilePath.sameOption p.caFile file && FilePath.sameOption p.caDir dir)
  | crls file dir => !(FilePath.sameOption p.crlFile file && FilePath.sameOption p.crlDir dir)

/-- Whether a setting is accepted and changes a path of an artifact. -/
def changes (a : Artifact) (p : TrustPaths) (s : Setting) : Bool :=
  !s.isIncomplete && s.operation.sets a && s.differs p

/-- Whether one of the settings, made one after the other, does so. -/
def anyChanges (a : Artifact) : TrustPaths → List Setting → Bool
  | _, [] => false
  | p, s :: rest => s.changes a p || anyChanges a (s.after p) rest

/-! ### One setting -/

variable {c : Configuration} {s : Setting} {a : Artifact} {p : TrustPaths}

/-- All settings are requests of one kind. -/
theorem perform_operation (c : Configuration) (s : Setting) :
    c.perform s.operation
      = c.changed (if s.isIncomplete then .error (.invalidArgument s.problem)
          else .ok (c.commit (s.put c.paths))) := by
  cases s <;> rfl

theorem perform_of_incomplete (h : s.isIncomplete = true) :
    c.perform s.operation = (c, .done (.error (.invalidArgument s.problem))) := by
  rw [perform_operation, if_pos h]
  rfl

/-- A setting makes stale what it sets paths of, if it changes one. -/
theorem between_put (p : TrustPaths) (s : Setting) :
    RebuildPlan.between p (s.put p)
      = ⟨s.operation.sets .context && s.differs p, s.operation.sets .store && s.differs p⟩ := by
  cases s <;> simp [RebuildPlan.between, put, operation, Operation.sets, differs,
    FilePath.sameOption_self]

/-- A complete setting replaces its two paths, marks what that makes stale and does nothing else. -/
theorem perform_of_complete (h : s.isIncomplete = false) :
    c.perform s.operation
      = ({ c with
          paths := s.put c.paths
          contextDirty := c.contextDirty || s.changes .context c.paths
          revocationDirty := c.revocationDirty || s.changes .store c.paths }, .done (.ok ())) := by
  rw [perform_operation, if_neg (by simp [h])]
  simp only [changed, commit, between_put, changes, h, Bool.not_false, Bool.true_and]

/-- What a setting that may be refused comes to. -/
theorem perform_fst (c : Configuration) (s : Setting) :
    (c.perform s.operation).1
      = { c with
          paths := s.after c.paths
          contextDirty := c.contextDirty || s.changes .context c.paths
          revocationDirty := c.revocationDirty || s.changes .store c.paths } := by
  cases h : s.isIncomplete with
  | false => rw [perform_of_complete h, after, if_neg (by simp [h])]
  | true => simp [perform_of_incomplete h, after, changes, h]

/-- What changes no path of an artifact leaves its paths the same. -/
theorem samePaths_after (h : s.changes a p = false) : a.SamePaths p (s.after p) := by
  cases refused : s.isIncomplete with
  | true =>
    rw [after, if_pos refused]
    exact .refl a p
  | false =>
    have kept : (s.operation.sets a && s.differs p) = false := by simpa [changes, refused] using h
    rw [after, if_neg (by simp [refused])]
    cases a with
    | context =>
      refine RebuildPlan.context_between_eq_false_iff.mp ?_
      rw [between_put]
      exact kept
    | store =>
      refine RebuildPlan.revocation_between_eq_false_iff.mp ?_
      rw [between_put]
      exact kept

/-! ### Settings in a row -/

/-- All that settings in a row do. -/
theorem run_operations (c : Configuration) (settings : List Setting) :
    c.run (settings.map operation)
      = { c with
          paths := settings.foldl after c.paths
          contextDirty := c.contextDirty || anyChanges .context c.paths settings
          revocationDirty := c.revocationDirty || anyChanges .store c.paths settings } := by
  induction settings generalizing c with
  | nil => simp [anyChanges]
  | cons s rest ih =>
    rw [List.map_cons, run_cons, ih, perform_fst]
    simp only [List.foldl_cons, anyChanges, Bool.or_assoc]

/-- Where no setting changes a path of an artifact, its paths at the end are those of the
beginning. -/
theorem samePaths_foldl {settings : List Setting} (h : anyChanges a p settings = false) :
    a.SamePaths p (settings.foldl after p) := by
  induction settings generalizing p with
  | nil => exact .refl a p
  | cons s rest ih =>
    obtain ⟨first, others⟩ := Bool.or_eq_false_iff.mp h
    exact (samePaths_after first).trans (ih others)

theorem marked_run_operations (c : Configuration) (settings : List Setting) (a : Artifact) :
    (c.run (settings.map operation)).marked a
      = (c.marked a || anyChanges a c.paths settings) := by
  rw [run_operations]
  cases a <;> rfl

end Setting

open Setting in
/-- A setting is refused exactly if what it requires is missing, and then leaves everything as it
is. Otherwise it replaces its own two paths and touches nothing else but the mark of the artifact
that is built from them. After settings in a row each mark is what it was at first, or set by those
that changed a path of its artifact; so it is set wherever paths at the end differ from those of the
beginning, also if some were changed and changed back in between. -/
theorem settings_mark_exactly (c : Configuration) (settings : List Setting) :
    (∀ s : Setting,
        ((∃ problem, (c.perform s.operation).2 = .done (.error (.invalidArgument problem))) ↔
          s.isIncomplete = true)
        ∧ (s.isIncomplete = true → (c.perform s.operation).1 = c)
        ∧ (s.isIncomplete = false → c.perform s.operation
            = ({ c with
                paths := s.put c.paths
                contextDirty := c.contextDirty || s.changes .context c.paths
                revocationDirty := c.revocationDirty || s.changes .store c.paths },
              .done (.ok ()))))
      ∧ c.run (settings.map operation)
        = { c with
            paths := settings.foldl after c.paths
            contextDirty := c.contextDirty || anyChanges .context c.paths settings
            revocationDirty := c.revocationDirty || anyChanges .store c.paths settings }
      ∧ ∀ a : Artifact, ¬a.SamePaths c.paths (c.run (settings.map operation)).paths →
          (c.run (settings.map operation)).marked a = true := by
  refine ⟨fun s => ⟨?_, ?_, perform_of_complete⟩, run_operations c settings, ?_⟩
  · cases h : s.isIncomplete with
    | false => simp [perform_of_complete h]
    | true => simp [perform_of_incomplete h]
  · intro h
    rw [perform_of_incomplete h]
  · intro a differ
    rw [marked_run_operations, Bool.or_eq_true_iff]
    refine .inr (Bool.of_not_eq_false fun unchanged => differ ?_)
    rw [run_operations]
    exact samePaths_foldl unchanged

/-- A path changed and changed back has changed. -/
example : Setting.anyChanges .context { caFile := some ⟨"ca"⟩ }
    [.anchors (some ⟨"other"⟩) none, .anchors none none, .anchors (some ⟨"ca/"⟩) none] = true := by
  decide +kernel

end PeerTrust.Configuration
