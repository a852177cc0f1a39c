import PeerTrust.Proofs.Building
import PeerTrust.Proofs.Origins

/-!
# Coherence of what a configuration holds

A configuration says by two marks which of its artifacts have become stale. The marks are shown to
tell the truth in every configuration that a run can reach: an artifact without its mark was built
from the paths that are set now, and where neither is there, nothing is configured to build it from.

## Main definitions

* `Configuration.Coherent` — what the marks promise

## Main results

* `Configuration.Coherent.perform`, `Configuration.Coherent.run` — every operation keeps the promise,
  and so every run does
* `Configuration.marks_truthful` — what this says of a configuration that a run leads to
-/

namespace PeerTrust.Configuration

/-- What the marks promise of a configuration and its record. -/
structure Coherent (r : Recorded) : Prop where
  /-- A context was built from its origin, and from the paths set now unless it is stale. -/
  context : ∀ context, r.configuration.context = some context →
    ∃ origin, r.contextFrom = some origin
      ∧ (Context.build origin.files r.configuration.role origin.paths
          r.configuration.slot).value = .ok context
      ∧ (r.configuration.contextDirty = false → origin.paths.SameMaterial r.configuration.paths)
  /-- A store was built from its origin, and from the paths set now unless it is stale. -/
  store : ∀ store, r.configuration.store = some store →
    ∃ origin, r.storeFrom = some origin
      ∧ RevocationStore.build origin.files origin.paths.crlFile origin.paths.crlDir = .ok store
      ∧ (r.configuration.revocationDirty = false → origin.paths.SameCrls r.configuration.paths)
  /-- Without a context and its mark, there is nothing to build one from. -/
  material_unset : r.configuration.context = none → r.configuration.contextDirty = false →
    r.configuration.paths.SameMaterial {}
  /-- Without a store and its mark, no lists are configured. -/
  crls_unset : r.configuration.store = none → r.configuration.revocationDirty = false →
    r.configuration.paths.hasCrl = false
  /-- Lists are configured wherever there is a store or its mark. -/
  hasCrl : r.configuration.store ≠ none ∨ r.configuration.revocationDirty = true →
    r.configuration.paths.hasCrl = true

namespace Coherent

variable {r : Recorded}

/-- Whatever was recorded before, a configuration of which only the role and the slot are set is
coherent. -/
theorem blank (r : Recorded) (role : Role) (slot : SlotId) :
    Coherent { r with configuration := { role, slot } } where
  context _ held := nomatch held
  store _ held := nomatch held
  material_unset _ _ := .refl _
  crls_unset _ _ := rfl
  hasCrl h := by
    rcases h with held | dirty
    · exact absurd rfl held
    · exact nomatch dirty

theorem new (role : Role) : Coherent (Recorded.new role) := blank (Recorded.new role) role 0

/-- A configuration may be replaced by a coherent one that was not built on the way. -/
protected theorem follow {origin : Option Origin} {after : Configuration}
    (h : Coherent { r with configuration := after })
    (context : after.counts.context ≤ r.configuration.counts.context)
    (revocation : after.counts.revocation ≤ r.configuration.counts.revocation) :
    Coherent (r.follow origin after) := by
  rw [Recorded.follow_eq origin after context revocation]
  exact h

/-- A change of paths that sets a location of lists, or leaves those locations alone. -/
theorem commit (h : Coherent r) {paths : TrustPaths}
    (crls : paths.hasCrl = true
      ∨ paths.crlFile = r.configuration.paths.crlFile
        ∧ paths.crlDir = r.configuration.paths.crlDir) :
    Coherent { r with configuration := r.configuration.commit paths } where
  context context held := by
    obtain ⟨origin, recorded, built, same⟩ := h.context context held
    refine ⟨origin, recorded, built, ?_⟩
    intro clean
    obtain ⟨clean, unchanged⟩ := contextDirty_commit_eq_false_iff.mp clean
    exact (same clean).trans unchanged
  store store held := by
    obtain ⟨origin, recorded, built, same⟩ := h.store store held
    refine ⟨origin, recorded, built, ?_⟩
    intro clean
    obtain ⟨clean, unchanged⟩ := revocationDirty_commit_eq_false_iff.mp clean
    exact (same clean).trans unchanged
  material_unset missing clean := by
    -- Nothing was set before, and without a mark nothing has changed.
    obtain ⟨clean, unchanged⟩ := contextDirty_commit_eq_false_iff.mp clean
    exact unchanged.symm.trans (h.material_unset missing clean)
  crls_unset missing clean := by
    obtain ⟨clean, unchanged⟩ := revocationDirty_commit_eq_false_iff.mp clean
    rw [← h.crls_unset missing clean]
    exact unchanged.hasCrl_eq.symm
  hasCrl marked := by
    rcases crls with set | ⟨file, dir⟩
    · exact set
    · -- The locations of lists are what they were, and so is the mark.
      have same : r.configuration.paths.SameCrls paths := by
        simp only [TrustPaths.SameCrls, file, dir, and_self]
      refine same.hasCrl_eq.symm.trans (h.hasCrl ?_)
      rcases marked with held | dirty
      · exact .inl held
      · refine .inr (Bool.of_not_eq_false fun clean => ?_)
        have clean := revocationDirty_commit_eq_false_iff.mpr ⟨clean, same⟩
        exact Bool.false_ne_true (clean.symm.trans dirty)

/-- A change of paths that may be refused. -/
theorem pathChange (h : Coherent r) {after : Configuration}
    (step : PathChange r.configuration after) :
    Coherent { r with configuration := after } := by
  cases step with
  | refused => exact h
  | made crls => exact h.commit crls

/-- The context afterwards is none, the old one or one built from the paths set now. -/
theorem refreshContext (h : Coherent r) {fs : FileSystem} {after : Configuration}
    {result : Except Error Unit} (step : ContextRefresh fs r.configuration (after, result)) :
    Coherent (r.follow (some ⟨fs, r.configuration.paths⟩) after) := by
  cases step with
  | current => exact .follow h (Nat.le_refl _) (Nat.le_refl _)
  | failed stale =>
    refine .follow ?_ (Nat.le_refl _) (Nat.le_refl _)
    exact
      { h with
        context := by rintro _ ⟨⟩
        material_unset := fun _ clean => by
          -- The mark was clear, so that what made the context stale was its absence.
          have clean : r.configuration.contextDirty = false := clean
          exact h.material_unset (context_eq_none_of_needsContext clean stale) clean }
  | @built context stale made =>
    -- The count of contexts has risen and that of stores has not.
    refine
      { context := fun held isHeld => ?_
        store := fun store held => ?_
        material_unset := by rintro ⟨⟩
        crls_unset := h.crls_unset
        hasCrl := h.hasCrl }
    · obtain rfl : context = held := Option.some.inj isHeld
      exact ⟨_, if_pos (Nat.lt_succ_self _), made, fun _ => .refl _⟩
    · obtain ⟨origin, recorded, built, same⟩ := h.store store held
      exact ⟨origin, (if_neg (Nat.lt_irrefl _)).trans recorded, built, same⟩

/-- A store is stale only where its mark is set: without the mark and the store, no lists are
configured. -/
theorem revocationDirty_of_needsStore (h : Coherent r)
    (stale : r.configuration.needsStore = true) : r.configuration.revocationDirty = true := by
  cases clean : r.configuration.revocationDirty with
  | true => rfl
  | false =>
    have fresh : r.configuration.needsStore = false :=
      needsStore_eq_false_iff.mpr ⟨clean, fun missing => h.crls_unset missing clean⟩
    exact nomatch fresh.symm.trans stale

/-- The store afterwards is none, the old one or one built from the paths set now. -/
theorem refreshStore (h : Coherent r) {fs : FileSystem} {after : Configuration}
    {result : Except Error Unit} (step : StoreRefresh fs r.configuration (after, result)) :
    Coherent (r.follow (some ⟨fs, r.configuration.paths⟩) after) := by
  cases step with
  | current => exact .follow h (Nat.le_refl _) (Nat.le_refl _)
  | failed stale =>
    refine .follow ?_ (Nat.le_refl _) (Nat.le_refl _)
    exact
      { h with
        store := fun _ held => nomatch held
        crls_unset := fun _ clean =>
          absurd (h.revocationDirty_of_needsStore stale) (Bool.eq_false_iff.mp clean)
        hasCrl := fun marked => by
          rcases marked with held | dirty
          · exact absurd rfl held
          · exact h.hasCrl (.inr dirty) }
  | @built store stale made =>
    -- The count of stores has risen and that of contexts has not.
    refine
      { context := fun context held => ?_
        store := fun held isHeld => ?_
        material_unset := h.material_unset
        crls_unset := fun missing => nomatch missing
        hasCrl := fun _ => ?_ }
    · obtain ⟨origin, recorded, built, same⟩ := h.context context held
      exact ⟨origin, (if_neg (Nat.lt_irrefl _)).trans recorded, built, same⟩
    · obtain rfl : store = held := Option.some.inj isHeld
      exact ⟨_, if_pos (Nat.lt_succ_self _), made, fun _ => .refl _⟩
    · -- A store is built only where lists are configured.
      rcases Bool.or_eq_true_iff.mp stale with dirty | missing
      · exact h.hasCrl (.inr dirty)
      · exact (Bool.and_eq_true_iff.mp missing).2

/-- A request for a context is a refresh of the context, and of the store if that succeeds. -/
theorem ensureContext (h : Coherent r) {fs : FileSystem} {after : Configuration}
    {result : Except Error Context} (step : Ensured fs r.configuration (after, result)) :
    Coherent (r.follow (some ⟨fs, r.configuration.paths⟩) after) := by
  -- The first refresh leaves the paths alone, so that both artifacts have one origin.
  have both {mid : Configuration} {refreshed : Except Error Unit}
      (context : ContextRefresh fs r.configuration (mid, .ok ()))
      (store : StoreRefresh fs mid (after, refreshed)) :
      Coherent (r.follow (some ⟨fs, r.configuration.paths⟩) after) := by
    have kept := (h.refreshContext context).refreshStore store
    rw [← Recorded.follow_follow _ context.revocationCount_eq store.contextCount_eq]
    simpa only [Recorded.configuration_follow, context.paths_eq] using kept
  cases step with
  | contextFailed context => exact h.refreshContext context
  | storeFailed context store => exact both context store
  | done context store => exact both context store

/-- Every operation keeps the promise. -/
theorem perform (h : Coherent r) (op : Operation) : Coherent (r.perform op) := by
  -- A change of paths builds nothing.
  have changed {origin : Option Origin} {after : Configuration}
      (step : PathChange r.configuration after) : Coherent (r.follow origin after) :=
    .follow (h.pathChange step) (Nat.le_of_eq (congrArg RebuildCounts.context step.counts_eq))
      (Nat.le_of_eq (congrArg RebuildCounts.revocation step.counts_eq))
  cases op with
  | ensureContext fs => exact h.ensureContext (r.configuration.ensured fs)
  | requireCredentials | check => exact .follow h (Nat.le_refl _) (Nat.le_refl _)
  -- The counts are back at zero, so that nothing passes for built.
  | reset => exact .follow (.blank r _ _) (Nat.zero_le _) (Nat.zero_le _)
  | setCredentials cert key => exact changed (r.configuration.pathChange_setCredentials cert key)
  | setAnchors file dir => exact changed (r.configuration.pathChange_setAnchors file dir)
  | setCrls file dir => exact changed (r.configuration.pathChange_setCrls file dir)

/-- Every run keeps the promise. -/
protected theorem run (h : Coherent r) (ops : List Operation) : Coherent (r.run ops) := by
  induction ops generalizing r with
  | nil => exact h
  | cons op ops ih => exact ih (h.perform op)

end Coherent

/-- Every run from a new configuration is coherent. -/
theorem coherent_run (role : Role) (ops : List Operation) :
    Coherent ((Recorded.new role).run ops) :=
  (Coherent.new role).run ops

/-- A request for a context that succeeds leaves a context and nothing stale. -/
theorem Ensured.needs_eq_false {fs : FileSystem} {c after : Configuration} {held : Context}
    (h : Ensured fs c (after, .ok held)) :
    after.context = some held ∧ after.needsContext = false ∧ after.needsStore = false := by
  cases h with
  | done context store holds =>
    refine ⟨holds, ?_, store.needsStore_eq_false⟩
    have fresh := context.needsContext_eq_false
    rwa [needsContext, ← store.context_eq, ← store.contextDirty_eq] at fresh

/-- A request that succeeds leaves everything current, with a store exactly where lists are
configured. -/
theorem Coherent.of_granted {r : Recorded} (h : Coherent r) {fs : FileSystem}
    {after : Configuration} {held : Context}
    (step : Ensured fs r.configuration (after, .ok held)) :
    after.context = some held ∧ after.contextDirty = false ∧ after.revocationDirty = false
      ∧ (after.store.isSome = true ↔
          after.paths.crlFile.isSome = true ∨ after.paths.crlDir.isSome = true) := by
  obtain ⟨holds, context, store⟩ := step.needs_eq_false
  obtain ⟨-, clean⟩ := needsContext_eq_false_iff.mp context
  obtain ⟨storeClean, stored⟩ := needsStore_eq_false_iff.mp store
  refine ⟨holds, clean, storeClean, ?_⟩
  rw [← Bool.or_eq_true]
  constructor
  · intro present
    exact (h.ensureContext step).hasCrl (.inl (Option.ne_none_iff_isSome.mpr present))
  · intro set
    rw [← Option.ne_none_iff_isSome]
    intro missing
    exact Bool.false_ne_true ((stored missing).symm.trans set)

/-- What holds of the configuration that any run of operations leads to, with the record of the run:
unmarked artifacts were built from the paths set now, nothing unmarked is missing, the verifier reads
the slot of the store, and a request for a context that succeeds leaves everything current. -/
theorem marks_truthful (role : Role) (ops : List Operation) :
    let r := (Recorded.new role).run ops
    let c := Configuration.run { role } ops
    r.configuration = c
      ∧ (∀ context, c.context = some context → c.contextDirty = false →
          ∃ origin, r.contextFrom = some origin
            ∧ (Context.build origin.files role origin.paths c.slot).value = .ok context
            ∧ origin.paths.SameMaterial c.paths)
      ∧ (∀ store, c.store = some store → c.revocationDirty = false →
          ∃ origin, r.storeFrom = some origin
            ∧ RevocationStore.build origin.files origin.paths.crlFile origin.paths.crlDir
                = .ok store
            ∧ origin.paths.SameCrls c.paths)
      ∧ (c.context = none → c.contextDirty = false →
          c.paths.cert = none ∧ c.paths.key = none ∧ c.paths.caFile = none ∧ c.paths.caDir = none)
      ∧ (c.store = none → c.revocationDirty = false →
          c.paths.crlFile = none ∧ c.paths.crlDir = none)
      ∧ (∀ context, c.context = some context →
          context.slot = c.slot ∧ c.storeIn context.slot = c.store)
      ∧ (∀ fs held, (c.ensureContext fs).value.2 = .ok held →
          let after := (c.ensureContext fs).value.1
          after.context = some held ∧ after.contextDirty = false ∧ after.revocationDirty = false
            ∧ (after.store.isSome = true ↔
                after.paths.crlFile.isSome = true ∨ after.paths.crlDir.isSome = true)) := by
  intro r c
  have run : r.configuration = c := Recorded.configuration_run (Recorded.new role) ops
  have role_eq : c.role = role := role_run { role } ops
  have coherent : Coherent r := coherent_run role ops
  clear_value c
  subst run
  -- All that is left is to read the clauses off the invariant of the run.
  refine ⟨rfl, ?_, ?_, ?_, ?_, ?_, ?_⟩
  · intro context held clean
    obtain ⟨origin, recorded, built, same⟩ := coherent.context context held
    rw [role_eq] at built
    exact ⟨origin, recorded, built, same clean⟩
  · intro store held clean
    obtain ⟨origin, recorded, built, same⟩ := coherent.store store held
    exact ⟨origin, recorded, built, same clean⟩
  · intro missing clean
    exact TrustPaths.sameMaterial_empty_iff.mp (coherent.material_unset missing clean)
  · intro missing clean
    simpa [TrustPaths.hasCrl] using coherent.crls_unset missing clean
  · intro context held
    obtain ⟨origin, -, built, -⟩ := coherent.context context held
    have slot : context.slot = r.configuration.slot := Context.slot_eq_of_build built
    exact ⟨slot, by rw [storeIn, if_pos slot]⟩
  · intro fs held granted after
    have step : Ensured fs r.configuration (after, .ok held) := by
      rw [← granted]
      exact r.configuration.ensured fs
    exact coherent.of_granted step

end PeerTrust.Configuration
