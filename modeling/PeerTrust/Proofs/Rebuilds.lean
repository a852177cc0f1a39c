import PeerTrust.Proofs.FailedRequests

/-!
# What building is paid for with

A mark is set by a change of paths and cleared by a build. Nothing unmarked is ever built, since
what is missing without a mark has nothing to be built from. So the builds, together with the mark
as one that is still to come, never exceed the changes, however often a context is requested.

## Main definitions

* `Configuration.Artifact`, `Configuration.builds` — what is built, and how often it was
* `Configuration.changesPath` — an operation changes a path, and not only its spelling
* `Configuration.changesSinceReset` — how many operations did so for an artifact
* `Configuration.owed` — the builds so far, and the one that is still to come
* `Configuration.KeepsPaths` — operations without a change of paths

## Main results

* `Configuration.Coherent.owed_run` — builds never exceed changes
* `Configuration.Current.ensureContext_eq` — a request that finds everything current does nothing
* `Configuration.builds_paid_for` — what this says of the configuration that a run leads to
-/

namespace PeerTrust

instance (p q : TrustPaths) : Decidable (p.SameMaterial q) :=
  decidable_of_iff _ RebuildPlan.context_between_eq_false_iff

instance (p q : TrustPaths) : Decidable (p.SameCrls q) :=
  decidable_of_iff _ RebuildPlan.revocation_between_eq_false_iff

namespace Configuration

/-- What a configuration builds. -/
inductive Artifact
  | context
  | store

/-- The paths that an artifact is built from are the same, spelling aside. -/
def Artifact.SamePaths (p q : TrustPaths) : Artifact → Prop
  | .context => p.SameMaterial q
  | .store => p.SameCrls q

/-- How often an artifact was built. -/
def builds (c : Configuration) : Artifact → Nat
  | .context => c.counts.context
  | .store => c.counts.revocation

/-- Whether an artifact is marked as stale. -/
def marked (c : Configuration) : Artifact → Bool
  | .context => c.contextDirty
  | .store => c.revocationDirty

/-! ### Changes of paths -/

/-- Whether an operation sets paths that an artifact is built from. -/
def Operation.sets : Operation → Artifact → Bool
  | .setCredentials _ _, .context | .setAnchors _ _, .context | .setCrls _ _, .store => true
  | _, _ => false

/-- Whether an operation changes a path, and not only its spelling. -/
def changesPath (c : Configuration) (op : Operation) : Bool :=
  let after := (c.perform op).1.paths
  !(decide (c.paths.SameMaterial after) && decide (c.paths.SameCrls after))

/-- How many operations have set and changed paths of an artifact since the last reset, after one
more operation. -/
def changesAfter (a : Artifact) (c : Configuration) (n : Nat) : Operation → Nat
  | .reset => 0
  | op => n + (op.sets a && c.changesPath op).toNat

/-- How many operations have set and changed paths of an artifact since the last reset, where `n`
had done so before. -/
def changesSinceReset (a : Artifact) (c : Configuration) (n : Nat) : List Operation → Nat
  | [] => n
  | op :: ops => (c.perform op).1.changesSinceReset a (c.changesAfter a n op) ops

section Changes

variable {c : Configuration} {a : Artifact} {op : Operation} {paths : TrustPaths}

theorem changesPath_eq_false_iff :
    c.changesPath op = false ↔ ∀ a : Artifact, a.SamePaths c.paths (c.perform op).1.paths := by
  simp only [changesPath, Bool.not_eq_false', Bool.and_eq_true, decide_eq_true_eq]
  constructor
  · rintro ⟨material, crls⟩ (_ | _)
    · exact material
    · exact crls
  · intro same
    exact ⟨same .context, same .store⟩

/-- A change that may be refused. -/
theorem changed_of_guard (refused : Bool) (e : Error) (paths : TrustPaths) :
    (c.changed (if refused then .error e else .ok (c.commit paths))).1 = c
      ∨ (c.changed (if refused then .error e else .ok (c.commit paths))).1 = c.commit paths := by
  cases refused with
  | false => exact .inr rfl
  | true => exact .inl rfl

/-- What sets paths is refused, or changes the paths it sets and no others. -/
theorem perform_of_sets (sets : op.sets a = true) :
    (c.perform op).1 = c ∨ ∃ paths, (c.perform op).1 = c.commit paths
      ∧ ∀ other : Artifact, op.sets other = false → other.SamePaths c.paths paths := by
  cases op with
  | setCredentials cert key =>
    refine (changed_of_guard _ _ _).imp_right fun made => ⟨_, made, fun other unset => ?_⟩
    cases other with
    | context => cases unset
    | store => exact .refl _
  | setAnchors file dir =>
    refine (changed_of_guard _ _ _).imp_right fun made => ⟨_, made, fun other unset => ?_⟩
    cases other with
    | context => cases unset
    | store => exact .refl _
  | setCrls file dir =>
    refine (changed_of_guard _ _ _).imp_right fun made => ⟨_, made, fun other unset => ?_⟩
    cases other with
    | context => exact .refl _
    | store => cases unset
  | requireCredentials | ensureContext | check | reset => cases sets

theorem builds_commit : (c.commit paths).builds a = c.builds a := by
  cases a <;> rfl

theorem marked_commit_eq_false_iff :
    (c.commit paths).marked a = false ↔ c.marked a = false ∧ a.SamePaths c.paths paths := by
  cases a with
  | context => exact contextDirty_commit_eq_false_iff
  | store => exact revocationDirty_commit_eq_false_iff

theorem marked_commit_of_samePaths (same : a.SamePaths c.paths paths) :
    (c.commit paths).marked a = c.marked a := by
  cases mark : c.marked a with
  | false => exact marked_commit_eq_false_iff.mpr ⟨mark, same⟩
  | true =>
    refine Bool.of_not_eq_false fun clean => ?_
    exact nomatch mark.symm.trans (marked_commit_eq_false_iff.mp clean).1

end Changes

/-! ### Builds never exceed changes -/

/-- The builds of an artifact so far, and the one to come if it is marked. -/
def owed (c : Configuration) (a : Artifact) : Nat := c.builds a + (c.marked a).toNat

/-- A change of the paths of an artifact costs one build, and no other change costs any. -/
theorem owed_of_sets {c : Configuration} {a b : Artifact} {op : Operation}
    (sets : op.sets b = true) :
    (c.perform op).1.owed a ≤ c.owed a + (op.sets a && c.changesPath op).toNat := by
  rcases perform_of_sets sets with refused | ⟨paths, made, others⟩
  · rw [refused]
    exact Nat.le_add_right _ _
  · by_cases same : a.SamePaths c.paths paths
    · have mark : (c.commit paths).marked a = c.marked a := marked_commit_of_samePaths same
      rw [made, owed, owed, builds_commit, mark]
      exact Nat.le_add_right _ _
    · have changes : c.changesPath op = true := by
        rw [← Bool.not_eq_false, changesPath_eq_false_iff, made]
        exact fun all => same (all a)
      have mine : op.sets a = true := by
        rw [← Bool.not_eq_false]
        exact fun unset => same (others a unset)
      have bound := Bool.toNat_le ((c.commit paths).marked a)
      rw [made, owed, owed, builds_commit, mine, changes]
      simp only [Bool.and_self, Bool.toNat_true]
      omega

namespace Coherent

variable {r : Recorded} {fs : FileSystem} {after : Configuration} {a : Artifact} {n : Nat}

/-- A context is built only where its mark is set: without the mark and the context, there is no
certificate to build one from. -/
theorem contextDirty_of_build {context : Context} (h : Coherent r)
    (stale : r.configuration.needsContext = true)
    (made : (Context.build fs r.configuration.role r.configuration.paths
      r.configuration.slot).value = .ok context) : r.configuration.contextDirty = true := by
  cases clean : r.configuration.contextDirty with
  | true => rfl
  | false =>
    have missing := context_eq_none_of_needsContext clean stale
    obtain ⟨unset, -⟩ := TrustPaths.sameMaterial_empty_iff.mp (h.material_unset missing clean)
    obtain ⟨_, _, _, _, _, set, -⟩ := Context.build_eq_ok_iff.mp made
    cases unset.symm.trans set

theorem owed_refreshContext {result : Except Error Unit} (h : Coherent r)
    (step : ContextRefresh fs r.configuration (after, result)) :
    after.owed a ≤ r.configuration.owed a := by
  cases step with
  | current | failed => cases a <;> exact Nat.le_refl _
  | built stale made =>
    have mark := h.contextDirty_of_build stale made
    cases a with
    | context => simp [owed, builds, marked, withContext, mark]
    | store => exact Nat.le_refl _

theorem owed_refreshStore {result : Except Error Unit} (h : Coherent r)
    (step : StoreRefresh fs r.configuration (after, result)) :
    after.owed a ≤ r.configuration.owed a := by
  cases step with
  | current | failed => cases a <;> exact Nat.le_refl _
  | built stale =>
    have mark := h.revocationDirty_of_needsStore stale
    cases a with
    | context => exact Nat.le_refl _
    | store => simp [owed, builds, marked, withStore, mark]

/-- A build is paid for with the mark that it clears. -/
theorem owed_ensureContext {result : Except Error Context} (h : Coherent r)
    (step : Ensured fs r.configuration (after, result)) :
    after.owed a ≤ r.configuration.owed a := by
  cases step with
  | contextFailed context => exact h.owed_refreshContext context
  | storeFailed context store | done context store =>
    have kept := h.refreshContext context
    exact Nat.le_trans (kept.owed_refreshStore store) (h.owed_refreshContext context)

/-- Whatever is asked for, what is owed is covered by the changes. -/
theorem owed_perform (h : Coherent r) (op : Operation) (paid : r.configuration.owed a ≤ n) :
    (r.perform op).configuration.owed a ≤ r.configuration.changesAfter a n op := by
  have set {b : Artifact} (sets : op.sets b = true) :
      (r.perform op).configuration.owed a
        ≤ n + (op.sets a && r.configuration.changesPath op).toNat :=
    Nat.le_trans (owed_of_sets sets) (Nat.add_le_add_right paid _)
  cases op with
  | setCredentials | setAnchors => exact set (b := .context) rfl
  | setCrls => exact set (b := .store) rfl
  | requireCredentials | check => exact Nat.le_trans paid (Nat.le_add_right _ _)
  | ensureContext fs =>
    have covered := Nat.le_trans (h.owed_ensureContext (r.configuration.ensured fs)) paid
    exact Nat.le_trans covered (Nat.le_add_right _ _)
  | reset => cases a <;> exact Nat.le_refl _

/-- Builds never exceed changes. -/
theorem owed_run (h : Coherent r) (ops : List Operation) (paid : r.configuration.owed a ≤ n) :
    (r.run ops).configuration.owed a ≤ r.configuration.changesSinceReset a n ops := by
  induction ops generalizing r n with
  | nil => exact paid
  | cons op ops ih => exact ih (h.perform op) (h.owed_perform op paid)

end Coherent

/-! ### Single requests -/

/-- Whether a request builds an artifact: it is stale, what comes before it succeeds, and it can be
built. -/
def rebuilds (fs : FileSystem) (c : Configuration) : Artifact → Bool
  | .context => c.needsContext && (Context.build fs c.role c.paths c.slot).value.isOk
  | .store =>
    (!c.needsContext || (Context.build fs c.role c.paths c.slot).value.isOk)
      && c.needsStore && (RevocationStore.build fs c.paths.crlFile c.paths.crlDir).isOk

section Requests

variable {fs : FileSystem} {c after : Configuration} {held : Context}
  {result : Except Error Unit}

theorem ContextReady.rebuilds_context (ready : c.ContextReady fs held) :
    c.rebuilds fs .context = c.needsContext := by
  unfold ContextReady at ready
  split at ready
  case isTrue stale => simp [rebuilds, stale, ready]
  case isFalse fresh => simp [rebuilds, fresh]

theorem ContextReady.rebuilds_store (ready : c.ContextReady fs held) :
    c.rebuilds fs .store
      = (c.needsStore && (RevocationStore.build fs c.paths.crlFile c.paths.crlDir).isOk) := by
  unfold ContextReady at ready
  split at ready
  case isTrue stale => simp [rebuilds, stale, ready]
  case isFalse fresh => simp [rebuilds, fresh]

theorem StoreRefresh.builds_store (h : StoreRefresh fs c (after, result)) :
    after.builds .store = c.builds .store
      + (c.needsStore && (RevocationStore.build fs c.paths.crlFile c.paths.crlDir).isOk).toNat := by
  cases h with
  | current fresh => simp [fresh]
  | failed stale refused => simp [refused, builds, withoutStore]
  | built stale made => simp [stale, made, builds, withStore]

/-- A request builds each artifact once at most, and exactly where it is stale and can be built. -/
theorem builds_ensureContext (fs : FileSystem) (c : Configuration) (a : Artifact) :
    (c.ensureContext fs).value.1.builds a = c.builds a + (c.rebuilds fs a).toNat := by
  have both {mid after : Configuration} {result : Except Error Unit}
      (context : ContextRefresh fs c (mid, .ok ())) (store : StoreRefresh fs mid (after, result)) :
      after.builds a = c.builds a + (c.rebuilds fs a).toNat := by
    obtain ⟨held, ready, rfl⟩ := context.ready
    cases a with
    | context =>
      rw [ready.rebuilds_context]
      exact store.contextCount_eq
    | store =>
      rw [ready.rebuilds_store]
      exact store.builds_store
  have step := c.ensured fs
  generalize (c.ensureContext fs).value = outcome at step
  cases step with
  | contextFailed context =>
    cases context with
    | failed stale refused =>
      cases a <;> simp [rebuilds, stale, refused, builds, withoutContext]
  | storeFailed context store | done context store => exact both context store

/-! ### Requests without changes -/

/-- There are no changes of paths among operations, and no reset. -/
def KeepsPaths (c : Configuration) : List Operation → Prop
  | [] => True
  | op :: ops => op ≠ .reset ∧ c.changesPath op = false ∧ (c.perform op).1.KeepsPaths ops

/-- The context is held, and nothing is stale. -/
structure Current (c : Configuration) (held : Context) : Prop where
  holds : c.context = some held
  context : c.needsContext = false
  store : c.needsStore = false

/-- A request that finds everything current does nothing, and tells of nothing. -/
theorem Current.ensureContext_eq (h : c.Current held) (fs : FileSystem) :
    c.ensureContext fs = pure (c, .ok held) := by
  have context : c.refreshContext fs = pure (c, .ok ()) := by simp [refreshContext, h.context]
  have store : c.refreshStore fs = pure (c, .ok ()) := by simp [refreshStore, h.store]
  have pure_bind {α β : Type} (a : α) (f : α → Logged β) : (pure a >>= f) = f a := rfl
  simp [ensureContext, context, store, pure_bind, h.holds]

/-- Paths that are only spelled differently make nothing stale. -/
theorem Current.commit (h : c.Current held) {paths : TrustPaths}
    (same : ∀ a : Artifact, a.SamePaths c.paths paths) : (c.commit paths).Current held where
  holds := h.holds
  context := by
    obtain ⟨holds, clean⟩ := needsContext_eq_false_iff.mp h.context
    exact needsContext_eq_false_iff.mpr
      ⟨holds, contextDirty_commit_eq_false_iff.mpr ⟨clean, same .context⟩⟩
  store := by
    obtain ⟨clean, unset⟩ := needsStore_eq_false_iff.mp h.store
    have crls : c.paths.SameCrls paths := same .store
    refine needsStore_eq_false_iff.mpr
      ⟨revocationDirty_commit_eq_false_iff.mpr ⟨clean, crls⟩, fun missing => ?_⟩
    exact crls.hasCrl_eq.symm.trans (unset missing)

theorem Current.perform (h : c.Current held) {op : Operation} (noReset : op ≠ .reset)
    (keeps : c.changesPath op = false) : (c.perform op).1.Current held := by
  have same := changesPath_eq_false_iff.mp keeps
  have set {a : Artifact} (sets : op.sets a = true) : (c.perform op).1.Current held := by
    rcases perform_of_sets sets with refused | ⟨paths, made, -⟩
    · rwa [refused]
    · rw [made] at same ⊢
      exact h.commit same
  cases op with
  | setCredentials | setAnchors => exact set (a := .context) rfl
  | setCrls => exact set (a := .store) rfl
  | requireCredentials | check => exact h
  | ensureContext fs =>
    rw [Configuration.perform, h.ensureContext_eq fs]
    exact h
  | reset => exact absurd rfl noReset

/-- What is current stays so, whatever is asked for and whatever becomes of the files. -/
protected theorem Current.run (h : c.Current held) {ops : List Operation}
    (keeps : c.KeepsPaths ops) : (c.run ops).Current held := by
  induction ops generalizing c with
  | nil => exact h
  | cons op ops ih =>
    obtain ⟨noReset, unchanged, rest⟩ := keeps
    exact ih (h.perform noReset unchanged) rest

end Requests

/-- In the configuration that any run leads to, each artifact was built at most as often since the
last reset as its paths were changed. A request builds it once more exactly if it is stale and can
be built. After a request that was granted, and without a change of paths, any further request finds
the same context and leaves everything as it is, whatever the files are. -/
theorem builds_paid_for (role : Role) (ops : List Operation) :
    let c := Configuration.run { role } ops
    (∀ a, c.builds a ≤ changesSinceReset a { role } 0 ops)
      ∧ (∀ fs a, (c.ensureContext fs).value.1.builds a = c.builds a + (c.rebuilds fs a).toNat)
      ∧ ∀ fs held, (c.ensureContext fs).value.2 = .ok held →
          let after := (c.ensureContext fs).value.1
          ∀ between fs', after.KeepsPaths between →
            (after.run between).ensureContext fs' = pure (after.run between, .ok held) := by
  intro c
  refine ⟨fun a => ?_, fun fs a => builds_ensureContext fs c a, ?_⟩
  · have covered : ((Recorded.new role).run ops).configuration.owed a
        ≤ changesSinceReset a { role } 0 ops :=
      (Coherent.new role).owed_run ops (by cases a <;> exact Nat.le_refl 0)
    rw [Recorded.configuration_run] at covered
    exact Nat.le_trans (Nat.le_add_right _ _) covered
  · intro fs held granted after between fs' keeps
    have step : Ensured fs c (after, .ok held) := by
      rw [← granted]
      exact c.ensured fs
    obtain ⟨holds, context, store⟩ := step.needs_eq_false
    have current : after.Current held := ⟨holds, context, store⟩
    exact (current.run keeps).ensureContext_eq fs'

/-- Another spelling of a path is no change. -/
example : changesSinceReset .store { role := .client } 0
    [.setCrls (some ⟨"lists/c.pem"⟩) none, .setCrls (some ⟨"lists//c.pem"⟩) none,
      .setCrls none (some ⟨"lists"⟩)] = 2 := by
  decide +kernel

end Configuration

end PeerTrust
