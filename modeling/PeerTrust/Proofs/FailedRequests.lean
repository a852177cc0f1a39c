import PeerTrust.Proofs.Coherence

/-!
# Requests that fail

A request for a context fails at the context, or at the store once the context is current. What it
could not replace is dropped all the same. What is stale stays known as stale, so that the request
only has to be repeated once the files allow it, and then builds what it failed to build before.

## Main definitions

* `Configuration.ContextReady` — the context that a request goes on with to the store
* `Configuration.ContextFails`, `Configuration.StoreFails` — the two ways to fail

## Main results

* `Configuration.Ensured.eq_value` — whatever a request can come to, it comes to
* `Configuration.Ensured.fails` — there are no other ways to fail
* `Configuration.failed_request_repeatable` — what a failed request leaves, and what repeating it
  comes to
-/

namespace PeerTrust.Configuration

variable {fs fs' : FileSystem} {c after : Configuration} {e : Error} {held : Context}
  {store : RevocationStore}

/-! ### Each outcome under its conditions -/

theorem ContextRefresh.eq_value {out : Configuration × Except Error Unit}
    (h : ContextRefresh fs c out) : (c.refreshContext fs).value = out := by
  cases h with
  | current fresh => simp [refreshContext, fresh]
  | failed stale refused => simp [refreshContext, stale, refused, withoutContext]
  | built stale made => simp [refreshContext, stale, made]

theorem StoreRefresh.eq_value {out : Configuration × Except Error Unit}
    (h : StoreRefresh fs c out) : (c.refreshStore fs).value = out := by
  cases h with
  | current fresh => simp [refreshStore, fresh]
  | failed stale refused => simp [refreshStore, stale, refused, withoutStore]
  | built stale made => simp [refreshStore, stale, made]

/-- The conditions of the outcomes exclude each other. -/
theorem Ensured.eq_value {out : Configuration × Except Error Context} (h : Ensured fs c out) :
    (c.ensureContext fs).value = out := by
  cases h with
  | contextFailed context => simp [ensureContext, context.eq_value]
  | storeFailed context store => simp [ensureContext, context.eq_value, store.eq_value]
  | done context store holds => simp [ensureContext, context.eq_value, store.eq_value, holds]

/-! ### Ways to fail -/

/-- The context cannot be built. -/
def ContextFails (fs : FileSystem) (c : Configuration) (e : Error) : Prop :=
  c.needsContext = true ∧ (Context.build fs c.role c.paths c.slot).value = .error e

/-- The context that a request goes on with: the one that is held, or where it is missing or stale,
the one that is built. -/
def ContextReady (fs : FileSystem) (c : Configuration) (held : Context) : Prop :=
  if c.needsContext = true then (Context.build fs c.role c.paths c.slot).value = .ok held
  else c.context = some held

/-- There is a current context, but the store cannot be built. -/
def StoreFails (fs : FileSystem) (c : Configuration) (e : Error) : Prop :=
  (∃ held, c.ContextReady fs held) ∧ c.needsStore = true
    ∧ RevocationStore.build fs c.paths.crlFile c.paths.crlDir = .error e

/-- A current context put in place, counted if it was built. -/
def withReady (c : Configuration) (held : Context) : Configuration :=
  { c with
    context := some held
    contextDirty := false
    counts := { c.counts with context := c.counts.context + c.needsContext.toNat } }

theorem withReady_of_stale (stale : c.needsContext = true) :
    c.withReady held = c.withContext held := by
  simp [withReady, withContext, stale]

theorem withReady_of_current (fresh : c.needsContext = false) (holds : c.context = some held) :
    c.withReady held = c := by
  obtain ⟨-, clean⟩ := needsContext_eq_false_iff.mp fresh
  simp only [withReady, fresh, Bool.toNat_false, Nat.add_zero]
  rw [← holds, ← clean]

theorem ContextReady.contextRefresh (ready : c.ContextReady fs held) :
    ContextRefresh fs c (c.withReady held, .ok ()) := by
  unfold ContextReady at ready
  split at ready
  case isTrue stale =>
    rw [withReady_of_stale stale]
    exact .built stale ready
  case isFalse current =>
    have fresh : c.needsContext = false := Bool.eq_false_iff.mpr current
    rw [withReady_of_current fresh ready]
    exact .current fresh

/-- A request gets as far as the store with a current context only. -/
theorem ContextRefresh.ready (h : ContextRefresh fs c (after, .ok ())) :
    ∃ held, c.ContextReady fs held ∧ after = c.withReady held := by
  cases h with
  | current fresh =>
    obtain ⟨⟨held, holds⟩, -⟩ := needsContext_eq_false_iff.mp fresh
    exact ⟨held, by simp [ContextReady, fresh, holds], (withReady_of_current fresh holds).symm⟩
  | @built held stale made =>
    exact ⟨held, by simp [ContextReady, stale, made], (withReady_of_stale stale).symm⟩

theorem ContextFails.ensured (fails : c.ContextFails fs e) :
    Ensured fs c (c.withoutContext, .error e) :=
  .contextFailed (.failed fails.1 fails.2)

theorem StoreFails.ensured (fails : c.StoreFails fs e) (ready : c.ContextReady fs held) :
    Ensured fs c ((c.withReady held).withoutStore, .error e) :=
  .storeFailed ready.contextRefresh (.failed fails.2.1 fails.2.2)

/-- A request fails in one of these ways. -/
theorem Ensured.fails (h : Ensured fs c (after, .error e)) :
    c.ContextFails fs e ∨ c.StoreFails fs e := by
  cases h with
  | contextFailed context =>
    cases context with
    | failed stale refused => exact .inl ⟨stale, refused⟩
  | storeFailed context store =>
    cases store with
    | failed stale refused =>
      obtain ⟨held, ready, rfl⟩ := context.ready
      exact .inr ⟨⟨held, ready⟩, stale, refused⟩

/-! ### Requests that are repeated -/

/-- Once the context can be built, it is, while a current store is left alone. -/
theorem ensured_withoutContext
    (made : (Context.build fs' c.role c.paths c.slot).value = .ok held)
    (fresh : c.needsStore = false) :
    Ensured fs' c.withoutContext (c.withoutContext.withContext held, .ok held) :=
  .done (.built rfl made) (.current fresh) rfl

/-- Once the context can be built, it is, and then the store, which the failed request did not get
to. -/
theorem ensured_withoutContext_of_stored
    (made : (Context.build fs' c.role c.paths c.slot).value = .ok held)
    (stale : c.needsStore = true)
    (stored : RevocationStore.build fs' c.paths.crlFile c.paths.crlDir = .ok store) :
    Ensured fs' c.withoutContext ((c.withoutContext.withContext held).withStore store, .ok held) :=
  .done (.built rfl made) (.built stale stored) rfl

/-- Once the store can be built, it is, while the context is left alone. -/
theorem ensured_withoutStore (marked : c.revocationDirty = true)
    (stored : RevocationStore.build fs' c.paths.crlFile c.paths.crlDir = .ok store) :
    Ensured fs' (c.withReady held).withoutStore
      ((c.withReady held).withoutStore.withStore store, .ok held) := by
  have stale : (c.withReady held).withoutStore.needsStore = true := by
    rw [needsStore, Bool.or_eq_true_iff]
    exact .inl marked
  exact .done (.current rfl) (.built stale stored) rfl

/-- What a request fails at it no longer holds, and what it did not get to is as it was. The same
request is granted as soon as the files allow it, without any change of paths, and builds what was
stale and nothing else. -/
theorem failed_request_repeatable (role : Role) (ops : List Operation) (fs : FileSystem) :
    let c := Configuration.run { role } ops
    (∀ e, c.ContextFails fs e → ∃ after, (c.ensureContext fs).value = (after, .error e)
        ∧ after = { c with context := none } ∧ after.needsContext = true
        ∧ ∀ fs' held, (Context.build fs' c.role c.paths c.slot).value = .ok held →
            (c.needsStore = false →
              (after.ensureContext fs').value = (after.withContext held, .ok held))
            ∧ ∀ store, c.needsStore = true →
                RevocationStore.build fs' c.paths.crlFile c.paths.crlDir = .ok store →
                  (after.ensureContext fs').value
                    = ((after.withContext held).withStore store, .ok held))
      ∧ (∀ e, c.StoreFails fs e → ∃ after held, (c.ensureContext fs).value = (after, .error e)
          ∧ c.ContextReady fs held
          ∧ after = { c with
              context := some held
              contextDirty := false
              store := none
              revocationDirty := true
              counts := { c.counts with context := c.counts.context + c.needsContext.toNat } }
          ∧ ∀ fs' store, RevocationStore.build fs' c.paths.crlFile c.paths.crlDir = .ok store →
              (after.ensureContext fs').value = (after.withStore store, .ok held))
      ∧ ∀ after e, (c.ensureContext fs).value = (after, .error e) →
          c.ContextFails fs e ∨ c.StoreFails fs e := by
  intro c
  refine ⟨fun e fails => ?_, fun e fails => ?_, fun after e failed => ?_⟩
  · refine ⟨c.withoutContext, fails.ensured.eq_value, rfl, rfl, fun fs' held made => ⟨?_, ?_⟩⟩
    · intro fresh
      exact (ensured_withoutContext made fresh).eq_value
    · intro store stale stored
      exact (ensured_withoutContext_of_stored made stale stored).eq_value
  · obtain ⟨⟨held, ready⟩, stale, -⟩ := id fails
    -- A store that is only missing is none to build, so that it was the mark that made it stale.
    have marked : c.revocationDirty = true := by
      have run : ((Recorded.new role).run ops).configuration = c :=
        Recorded.configuration_run (Recorded.new role) ops
      rw [← run] at stale ⊢
      exact (coherent_run role ops).revocationDirty_of_needsStore stale
    refine ⟨_, held, (fails.ensured ready).eq_value, ready, ?_, fun fs' store stored => ?_⟩
    · rw [← marked]
      rfl
    · exact (ensured_withoutStore marked stored).eq_value
  · have step := c.ensured fs
    rw [failed] at step
    exact step.fails

end PeerTrust.Configuration
