import PeerTrust.Trust.Configuration

/-!
# Operations on a trust configuration

## Main definitions

* `Configuration.Operation` — what a configuration can be asked for
* `Configuration.Response` — what it answers
* `Configuration.perform` — the configuration after an operation, and its answer
* `Configuration.run` — the configuration after operations in order

## Main results

* `Configuration.role_run` — a configuration keeps its role
-/

namespace PeerTrust.Configuration

/-- What a configuration can be asked for. Files are those at the time of the request. -/
inductive Operation
  | setCredentials (cert key : Option FilePath)
  | setAnchors (file dir : Option FilePath)
  | setCrls (file dir : Option FilePath)
  | requireCredentials
  | ensureContext (fs : FileSystem)
  | check (fs : FileSystem) (cert : Certificate) (now : Moment)
  | reset

/-- What a configuration answers. -/
inductive Response
  | done (result : Except Error Unit)
  | context (told : Logged (Except Error Context))
  /-- The verdict of the store, if there is one. -/
  | verdict (told : Option (Logged Revocation.Verdict))

/-- The configuration after a change of paths, and whether it was refused. A refused change leaves
everything as it was. -/
def changed (c : Configuration) : Except Error Configuration → Configuration × Response
  | .ok after => (after, .done (.ok ()))
  | .error e => (c, .done (.error e))

/-- The configuration after an operation, and its answer. -/
def perform (c : Configuration) : Operation → Configuration × Response
  | .setCredentials cert key => c.changed (c.setCredentials cert key)
  | .setAnchors file dir => c.changed (c.setAnchors file dir)
  | .setCrls file dir => c.changed (c.setCrls file dir)
  | .requireCredentials => (c, .done c.requireCredentials)
  | .ensureContext fs =>
    let ensured := c.ensureContext fs
    (ensured.value.1, .context ⟨ensured.value.2, ensured.events⟩)
  | .check fs cert now => (c, .verdict (c.store.map fun store => store.check fs cert now))
  | .reset => (c.reset, .done (.ok ()))

/-- The configuration after operations in order. -/
def run (c : Configuration) (operations : List Operation) : Configuration :=
  operations.foldl (fun c op => (c.perform op).1) c

@[simp] theorem run_nil (c : Configuration) : c.run [] = c := rfl

@[simp] theorem run_cons (c : Configuration) (op : Operation) (ops : List Operation) :
    c.run (op :: ops) = (c.perform op).1.run ops := rfl

theorem run_append (c : Configuration) (ops more : List Operation) :
    c.run (ops ++ more) = (c.run ops).run more := List.foldl_append

theorem role_changed {c : Configuration} {result : Except Error Configuration}
    (h : ∀ after, result = .ok after → after.role = c.role) :
    (c.changed result).1.role = c.role := by
  cases result with
  | ok after => exact h after rfl
  | error e => rfl

theorem role_refreshContext (fs : FileSystem) (c : Configuration) :
    (c.refreshContext fs).value.1.role = c.role := by
  unfold refreshContext
  split
  · rfl
  · simp only [bind]
    split <;> rfl

theorem role_refreshStore (fs : FileSystem) (c : Configuration) :
    (c.refreshStore fs).value.1.role = c.role := by
  unfold refreshStore
  split
  · rfl
  · simp only [bind]
    split <;> rfl

theorem role_ensureContext (fs : FileSystem) (c : Configuration) :
    (c.ensureContext fs).value.1.role = c.role := by
  have hc := c.role_refreshContext fs
  simp only [ensureContext, Logged.value_bind]
  revert hc
  rcases (c.refreshContext fs).value with ⟨c, e | ⟨⟩⟩ <;> intro hc
  · exact hc
  · have hs := c.role_refreshStore fs
    simp only [Logged.value_bind]
    revert hs
    rcases (c.refreshStore fs).value with ⟨c, e | ⟨⟩⟩ <;> intro hs
    · exact hs.trans hc
    · dsimp only
      split <;> exact hs.trans hc

theorem role_perform (c : Configuration) (op : Operation) : (c.perform op).1.role = c.role := by
  cases op with
  | setCredentials cert key =>
    refine role_changed fun after h => ?_
    simp only [setCredentials] at h
    split at h <;> cases h
    rfl
  | setAnchors file dir =>
    refine role_changed fun after h => ?_
    simp only [setAnchors] at h
    split at h <;> cases h
    rfl
  | setCrls file dir =>
    refine role_changed fun after h => ?_
    simp only [setCrls] at h
    split at h <;> cases h
    rfl
  | requireCredentials => rfl
  | ensureContext fs => exact c.role_ensureContext fs
  | check fs cert now => rfl
  | reset => rfl

theorem role_run (c : Configuration) (ops : List Operation) : (c.run ops).role = c.role := by
  induction ops generalizing c with
  | nil => rfl
  | cons op ops ih => rw [run_cons, ih, role_perform]

end PeerTrust.Configuration
