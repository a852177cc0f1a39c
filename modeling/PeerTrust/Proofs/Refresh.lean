import PeerTrust.Trust.Operation

/-!
# What bringing a configuration up to date can come to

A request for a context refreshes the context and then the store, and each refresh either finds its
artifact current, fails, or builds it. These are all the ways in which anything is ever built or
dropped, apart from a reset, so whatever is claimed of artifacts is proved by going through them.

## Main definitions

* `Configuration.ContextRefresh`, `Configuration.StoreRefresh` — the outcomes of the two refreshes
* `Configuration.Ensured` — the outcomes of a request for a context

## Main results

* `Configuration.contextRefresh`, `Configuration.storeRefresh`, `Configuration.ensured` — there are
  no other outcomes
-/

namespace PeerTrust.Configuration

/-- The context dropped. -/
def withoutContext (c : Configuration) : Configuration := { c with context := none }

/-- The store dropped. -/
def withoutStore (c : Configuration) : Configuration := { c with store := none }

/-- What refreshing the context can come to. -/
inductive ContextRefresh (fs : FileSystem) (c : Configuration) :
    Configuration × Except Error Unit → Prop
  | current (fresh : c.needsContext = false) : ContextRefresh fs c (c, .ok ())
  | failed {e : Error} (stale : c.needsContext = true)
      (refused : (Context.build fs c.role c.paths c.slot).value = .error e) :
      ContextRefresh fs c (c.withoutContext, .error e)
  | built {context : Context} (stale : c.needsContext = true)
      (made : (Context.build fs c.role c.paths c.slot).value = .ok context) :
      ContextRefresh fs c (c.withContext context, .ok ())

/-- What refreshing the store can come to. -/
inductive StoreRefresh (fs : FileSystem) (c : Configuration) :
    Configuration × Except Error Unit → Prop
  | current (fresh : c.needsStore = false) : StoreRefresh fs c (c, .ok ())
  | failed {e : Error} (stale : c.needsStore = true)
      (refused : RevocationStore.build fs c.paths.crlFile c.paths.crlDir = .error e) :
      StoreRefresh fs c (c.withoutStore, .error e)
  | built {store : RevocationStore} (stale : c.needsStore = true)
      (made : RevocationStore.build fs c.paths.crlFile c.paths.crlDir = .ok store) :
      StoreRefresh fs c (c.withStore store, .ok ())

/-- What a request for a context can come to. -/
inductive Ensured (fs : FileSystem) (c : Configuration) :
    Configuration × Except Error Context → Prop
  /-- The store is not looked at once the context fails. -/
  | contextFailed {after : Configuration} {e : Error}
      (context : ContextRefresh fs c (after, .error e)) : Ensured fs c (after, .error e)
  | storeFailed {mid after : Configuration} {e : Error}
      (context : ContextRefresh fs c (mid, .ok ()))
      (store : StoreRefresh fs mid (after, .error e)) : Ensured fs c (after, .error e)
  | done {mid after : Configuration} {held : Context}
      (context : ContextRefresh fs c (mid, .ok ()))
      (store : StoreRefresh fs mid (after, .ok ()))
      (holds : after.context = some held) : Ensured fs c (after, .ok held)

theorem contextRefresh (fs : FileSystem) (c : Configuration) :
    ContextRefresh fs c (c.refreshContext fs).value := by
  unfold refreshContext
  cases stale : c.needsContext with
  | false => exact .current stale
  | true =>
    cases outcome : (Context.build fs c.role c.paths c.slot).value with
    | error e => simpa [outcome, withoutContext] using ContextRefresh.failed stale outcome
    | ok context => simpa [outcome] using ContextRefresh.built stale outcome

theorem storeRefresh (fs : FileSystem) (c : Configuration) :
    StoreRefresh fs c (c.refreshStore fs).value := by
  unfold refreshStore
  cases stale : c.needsStore with
  | false => exact .current stale
  | true =>
    cases outcome : RevocationStore.build fs c.paths.crlFile c.paths.crlDir with
    | error e => exact .failed stale outcome
    | ok store => exact .built stale outcome

/-- After a refresh that succeeds, a context is held and is not stale. -/
theorem ContextRefresh.needsContext_eq_false {fs : FileSystem} {c after : Configuration}
    (h : ContextRefresh fs c (after, .ok ())) : after.needsContext = false := by
  cases h with
  | current fresh => exact fresh
  | built => rfl

theorem StoreRefresh.needsStore_eq_false {fs : FileSystem} {c after : Configuration}
    (h : StoreRefresh fs c (after, .ok ())) : after.needsStore = false := by
  cases h with
  | current fresh => exact fresh
  | built => rfl

theorem needsContext_eq_false_iff {c : Configuration} :
    c.needsContext = false ↔ (∃ context, c.context = some context) ∧ c.contextDirty = false := by
  cases h : c.context <;> simp [needsContext, h]

theorem context_eq_none_of_needsContext {c : Configuration} (clean : c.contextDirty = false)
    (stale : c.needsContext = true) : c.context = none := by
  simpa only [needsContext, clean, Bool.or_false, Option.isNone_iff_eq_none] using stale

theorem needsStore_eq_false_iff {c : Configuration} :
    c.needsStore = false ↔
      c.revocationDirty = false ∧ (c.store = none → c.paths.hasCrl = false) := by
  cases h : c.store <;> simp [needsStore, h]

section Frame

variable {fs : FileSystem} {c after : Configuration} {result : Except Error Unit}

/-! ### What a refresh leaves alone -/

theorem ContextRefresh.paths_eq (h : ContextRefresh fs c (after, result)) :
    after.paths = c.paths := by
  cases h <;> rfl

theorem ContextRefresh.revocationCount_eq (h : ContextRefresh fs c (after, result)) :
    after.counts.revocation = c.counts.revocation := by
  cases h <;> rfl

theorem StoreRefresh.context_eq (h : StoreRefresh fs c (after, result)) :
    after.context = c.context := by
  cases h <;> rfl

theorem StoreRefresh.contextDirty_eq (h : StoreRefresh fs c (after, result)) :
    after.contextDirty = c.contextDirty := by
  cases h <;> rfl

theorem StoreRefresh.contextCount_eq (h : StoreRefresh fs c (after, result)) :
    after.counts.context = c.counts.context := by
  cases h <;> rfl

end Frame

theorem ensured (fs : FileSystem) (c : Configuration) :
    Ensured fs c (c.ensureContext fs).value := by
  have context := c.contextRefresh fs
  simp only [ensureContext, Logged.value_bind]
  generalize (c.refreshContext fs).value = refreshed at context
  obtain ⟨mid, e | ⟨⟩⟩ := refreshed
  · exact .contextFailed context
  · have store := mid.storeRefresh fs
    simp only [Logged.value_bind]
    generalize (mid.refreshStore fs).value = refreshed at store
    obtain ⟨after, e | ⟨⟩⟩ := refreshed
    · exact .storeFailed context store
    · -- The branch without a context cannot be reached.
      obtain ⟨⟨held, holds⟩, -⟩ := needsContext_eq_false_iff.mp context.needsContext_eq_false
      have holds : after.context = some held := store.context_eq.trans holds
      simpa [holds] using Ensured.done context store holds

end PeerTrust.Configuration
