import PeerTrust.Proofs.Refresh

/-!
# Where artifacts come from

A configuration keeps what it built across changes of paths and of files. Here a run is followed
together with a record of what each artifact was built from. Whether something was built is read off
the counts of the configuration itself, so that the record takes no part in the run.

## Main definitions

* `TrustPaths.SameMaterial`, `TrustPaths.SameCrls` — paths that are the same, spelling aside
* `Configuration.PathChange` — what a change of paths can come to
* `Origin`, `Configuration.Recorded` — a configuration with the origins of its artifacts
* `Configuration.Recorded.run` — a run with its record

## Main results

* `Configuration.Recorded.configuration_run` — the record does not disturb the run
* `Configuration.Recorded.follow_follow` — a step in two parts is recorded as one
-/

namespace PeerTrust

/-- The certificate, key and anchor paths are the same, spelling aside. -/
def TrustPaths.SameMaterial (p q : TrustPaths) : Prop :=
  p.cert.map FilePath.components = q.cert.map FilePath.components
    ∧ p.key.map FilePath.components = q.key.map FilePath.components
    ∧ p.caFile.map FilePath.components = q.caFile.map FilePath.components
    ∧ p.caDir.map FilePath.components = q.caDir.map FilePath.components

/-- The paths of revocation lists are the same, spelling aside. -/
def TrustPaths.SameCrls (p q : TrustPaths) : Prop :=
  p.crlFile.map FilePath.components = q.crlFile.map FilePath.components
    ∧ p.crlDir.map FilePath.components = q.crlDir.map FilePath.components

section SamePaths

variable {p q r : TrustPaths}

theorem TrustPaths.SameMaterial.refl (p : TrustPaths) : p.SameMaterial p := ⟨rfl, rfl, rfl, rfl⟩

theorem TrustPaths.SameMaterial.trans (h : p.SameMaterial q) (h' : q.SameMaterial r) :
    p.SameMaterial r :=
  ⟨h.1.trans h'.1, h.2.1.trans h'.2.1, h.2.2.1.trans h'.2.2.1, h.2.2.2.trans h'.2.2.2⟩

theorem TrustPaths.SameMaterial.symm (h : p.SameMaterial q) : q.SameMaterial p :=
  ⟨h.1.symm, h.2.1.symm, h.2.2.1.symm, h.2.2.2.symm⟩

theorem TrustPaths.sameMaterial_empty_iff :
    p.SameMaterial {} ↔ p.cert = none ∧ p.key = none ∧ p.caFile = none ∧ p.caDir = none := by
  simp [SameMaterial]

theorem TrustPaths.SameCrls.refl (p : TrustPaths) : p.SameCrls p := ⟨rfl, rfl⟩

theorem TrustPaths.SameCrls.trans (h : p.SameCrls q) (h' : q.SameCrls r) : p.SameCrls r :=
  ⟨h.1.trans h'.1, h.2.trans h'.2⟩

/-- Paths that are the same are set or unset together. -/
theorem TrustPaths.SameCrls.hasCrl_eq (h : p.SameCrls q) : p.hasCrl = q.hasCrl := by
  have file := congrArg Option.isSome h.1
  have dir := congrArg Option.isSome h.2
  simp only [Option.isSome_map] at file dir
  rw [hasCrl, hasCrl, file, dir]

theorem RebuildPlan.context_between_eq_false_iff :
    (RebuildPlan.between p q).context = false ↔ p.SameMaterial q := by
  simp [between, TrustPaths.SameMaterial, FilePath.sameOption_iff, and_assoc]

theorem RebuildPlan.revocation_between_eq_false_iff :
    (RebuildPlan.between p q).revocation = false ↔ p.SameCrls q := by
  simp [between, TrustPaths.SameCrls, FilePath.sameOption_iff]

end SamePaths

/-- What an artifact was built from: the files at that time, and the paths then set. -/
structure Origin where
  files : FileSystem
  paths : TrustPaths

namespace Configuration

/-- A change leaves the mark of the context clear if it was clear and no path differs. -/
theorem contextDirty_commit_eq_false_iff {c : Configuration} {paths : TrustPaths} :
    (c.commit paths).contextDirty = false ↔
      c.contextDirty = false ∧ c.paths.SameMaterial paths := by
  rw [commit, Bool.or_eq_false_iff, RebuildPlan.context_between_eq_false_iff]

theorem revocationDirty_commit_eq_false_iff {c : Configuration} {paths : TrustPaths} :
    (c.commit paths).revocationDirty = false ↔
      c.revocationDirty = false ∧ c.paths.SameCrls paths := by
  rw [commit, Bool.or_eq_false_iff, RebuildPlan.revocation_between_eq_false_iff]

/-- What a change of paths can come to. -/
inductive PathChange (c : Configuration) : Configuration → Prop
  | refused : PathChange c c
  /-- A change sets a location of lists, or leaves those locations alone. -/
  | made {paths : TrustPaths}
      (crls : paths.hasCrl = true
        ∨ paths.crlFile = c.paths.crlFile ∧ paths.crlDir = c.paths.crlDir) :
      PathChange c (c.commit paths)

theorem PathChange.counts_eq {c after : Configuration} (h : PathChange c after) :
    after.counts = c.counts := by
  cases h <;> rfl

theorem PathChange.role_eq {c after : Configuration} (h : PathChange c after) :
    after.role = c.role := by
  cases h <;> rfl

theorem pathChange_setCredentials (c : Configuration) (cert key : Option FilePath) :
    PathChange c (c.changed (c.setCredentials cert key)).1 := by
  unfold setCredentials
  split
  · exact .refused
  · exact .made (.inr ⟨rfl, rfl⟩)

theorem pathChange_setAnchors (c : Configuration) (file dir : Option FilePath) :
    PathChange c (c.changed (c.setAnchors file dir)).1 := by
  unfold setAnchors
  split
  · exact .refused
  · exact .made (.inr ⟨rfl, rfl⟩)

theorem pathChange_setCrls (c : Configuration) (file dir : Option FilePath) :
    PathChange c (c.changed (c.setCrls file dir)).1 := by
  unfold setCrls
  split
  case isTrue => exact .refused
  case isFalse given =>
    -- Locations that are both missing were refused.
    refine .made (.inl ?_)
    cases file <;> cases dir <;> simp [TrustPaths.hasCrl] at given ⊢

/-- A configuration with the origins of what it holds. -/
structure Recorded where
  configuration : Configuration
  contextFrom : Option Origin := none
  storeFrom : Option Origin := none

/-- What an operation builds from, if it builds anything. -/
def Operation.origin? (op : Operation) (before : Configuration) : Option Origin :=
  match op with
  | .ensureContext fs => some ⟨fs, before.paths⟩
  | _ => none

namespace Recorded

/-- Nothing built yet. -/
def new (role : Role) : Recorded := { configuration := { role } }

/-- The record once the configuration has changed. An artifact was built if its count rose. -/
def follow (r : Recorded) (origin : Option Origin) (after : Configuration) : Recorded where
  configuration := after
  contextFrom :=
    if r.configuration.counts.context < after.counts.context then origin else r.contextFrom
  storeFrom :=
    if r.configuration.counts.revocation < after.counts.revocation then origin else r.storeFrom

/-- An operation performed and recorded. -/
def perform (r : Recorded) (op : Operation) : Recorded :=
  r.follow (op.origin? r.configuration) (r.configuration.perform op).1

/-- Operations performed and recorded in order. -/
def run (r : Recorded) (ops : List Operation) : Recorded := ops.foldl perform r

@[simp] theorem run_nil (r : Recorded) : r.run [] = r := rfl

@[simp] theorem run_cons (r : Recorded) (op : Operation) (ops : List Operation) :
    r.run (op :: ops) = (r.perform op).run ops := rfl

/-- The record does not disturb the run. -/
theorem configuration_run (r : Recorded) (ops : List Operation) :
    (r.run ops).configuration = r.configuration.run ops := by
  induction ops generalizing r with
  | nil => rfl
  | cons op ops ih =>
    rw [run_cons, ih, Configuration.run_cons]
    rfl

@[simp] theorem configuration_follow (r : Recorded) (origin : Option Origin)
    (after : Configuration) : (r.follow origin after).configuration = after := rfl

/-- Without a count that rises, the origins stay. -/
theorem follow_eq {r : Recorded} (origin : Option Origin) (after : Configuration)
    (context : after.counts.context ≤ r.configuration.counts.context)
    (revocation : after.counts.revocation ≤ r.configuration.counts.revocation) :
    r.follow origin after = { r with configuration := after } := by
  simp only [follow, if_neg (Nat.not_lt.mpr context), if_neg (Nat.not_lt.mpr revocation)]

/-- Two refreshes, of which the first leaves the store's count alone and the second the context's,
are recorded as one. -/
theorem follow_follow {r : Recorded} {mid after : Configuration} (origin : Option Origin)
    (revocation : mid.counts.revocation = r.configuration.counts.revocation)
    (context : after.counts.context = mid.counts.context) :
    (r.follow origin mid).follow origin after = r.follow origin after := by
  simp only [follow, revocation, context, Nat.lt_irrefl, if_false]

end Recorded

end Configuration

end PeerTrust
