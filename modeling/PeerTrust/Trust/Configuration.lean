import PeerTrust.Trust.Context

/-!
# Trust configurations

A configuration holds the paths of one role and what was built from them. A change of paths marks
what it makes stale; building waits until a context is asked for, and then replaces only what is
stale. A build that fails leaves the mark, so that the next request tries again.

## Main definitions

* `Configuration` — the state of one role
* `Configuration.setCredentials`, `Configuration.setAnchors`, `Configuration.setCrls` — changes of
  paths
* `Configuration.ensureContext` — a context and a store that are up to date
* `Configuration.reset` — everything dropped
* `Configuration.storeIn` — the store that a slot holds
-/

namespace PeerTrust

/-- How often each artifact was built. -/
structure RebuildCounts where
  context : Nat := 0
  revocation : Nat := 0
  deriving DecidableEq, Repr

/-- The state of one role: its paths, what was built from them, and what has become stale. -/
structure Configuration where
  role : Role
  paths : TrustPaths := {}
  context : Option Context := none
  contextDirty : Bool := false
  store : Option RevocationStore := none
  revocationDirty : Bool := false
  counts : RebuildCounts := {}
  /-- The slot that holds the store. -/
  slot : SlotId := 0

namespace Configuration

/-- The paths replaced, and what that makes stale marked. -/
def commit (c : Configuration) (paths : TrustPaths) : Configuration :=
  let plan := RebuildPlan.between c.paths paths
  { c with
    paths
    -- What is stale stays so, even if the paths come back to what they were.
    contextDirty := c.contextDirty || plan.context
    revocationDirty := c.revocationDirty || plan.revocation }

/-- Sets the certificate, and the key if it has a path of its own. -/
def setCredentials (c : Configuration) (cert key : Option FilePath) : Except Error Configuration :=
  if cert.isNone then .error (.invalidArgument .certificatePathRequired)
  else .ok (c.commit { c.paths with cert, key })

/-- Sets the file and the directory of trust anchors. -/
def setAnchors (c : Configuration) (file dir : Option FilePath) : Except Error Configuration :=
  if file.isNone && dir.isNone then .error (.invalidArgument .caLocationRequired)
  else .ok (c.commit { c.paths with caFile := file, caDir := dir })

/-- Sets the file and the directory of revocation lists. -/
def setCrls (c : Configuration) (file dir : Option FilePath) : Except Error Configuration :=
  if file.isNone && dir.isNone then .error (.invalidArgument .crlLocationRequired)
  else .ok (c.commit { c.paths with crlFile := file, crlDir := dir })

/-- Whether the context is missing or stale. -/
def needsContext (c : Configuration) : Bool := c.context.isNone || c.contextDirty

/-- Whether the store is stale, or missing though lists are configured. -/
def needsStore (c : Configuration) : Bool :=
  c.revocationDirty || (c.store.isNone && c.paths.hasCrl)

/-- A certificate and a location of anchors must be set. -/
def requireCredentials (c : Configuration) : Except Error Unit :=
  if c.paths.cert.isNone then .error (.invalidArgument (.certificateNotSet c.role))
  else if !c.paths.hasCa then .error (.invalidArgument (.caLocationsNotSet c.role))
  else .ok ()

/-- Everything dropped, and a new slot opened. -/
def reset (c : Configuration) : Configuration := { role := c.role, slot := c.slot + 1 }

/-- The store in a slot. Slots of before a reset stay empty. -/
def storeIn (c : Configuration) (slot : SlotId) : Option RevocationStore :=
  if slot = c.slot then c.store else none

/-- A newly built context put in place. -/
def withContext (c : Configuration) (context : Context) : Configuration :=
  { c with
    context
    contextDirty := false
    counts := { c.counts with context := c.counts.context + 1 } }

/-- A newly built store put in place. -/
def withStore (c : Configuration) (store : RevocationStore) : Configuration :=
  { c with
    store
    revocationDirty := false
    counts := { c.counts with revocation := c.counts.revocation + 1 } }

/-- The context built anew if it is missing or stale. The old one is gone even if that fails. -/
def refreshContext (fs : FileSystem) (c : Configuration) :
    Logged (Configuration × Except Error Unit) := do
  if !c.needsContext then return (c, .ok ())
  match ← Context.build fs c.role c.paths c.slot with
  -- The mark stays as it is; without a context the next request tries again anyway.
  | .error e => return ({ c with context := none }, .error e)
  | .ok context =>
    Logged.tell (.contextBuilt c.role context.anchorCount)
    return (c.withContext context, .ok ())

/-- The store built anew if it is missing or stale. The old one is gone even if that fails. -/
def refreshStore (fs : FileSystem) (c : Configuration) :
    Logged (Configuration × Except Error Unit) := do
  if !c.needsStore then return (c, .ok ())
  match RevocationStore.build fs c.paths.crlFile c.paths.crlDir with
  -- From here on contexts already handed out find the slot empty.
  | .error e => return ({ c with store := none }, .error e)
  | .ok store =>
    Logged.tell (.storeBuilt c.role store.sources.length)
    return (c.withStore store, .ok ())

/-- The context, after what is missing or stale was built anew, the context first. -/
def ensureContext (fs : FileSystem) (c : Configuration) :
    Logged (Configuration × Except Error Context) := do
  match ← c.refreshContext fs with
  | (c, .error e) => return (c, .error e)
  | (c, .ok ()) =>
    match ← c.refreshStore fs with
    | (c, .error e) => return (c, .error e)
    | (c, .ok ()) =>
      match c.context with
      | some context => return (c, .ok context)
      | none => return (c, .error (.invalidArgument (.contextUnavailable c.role)))

end Configuration

end PeerTrust
