import PeerTrust.Event
import PeerTrust.Session.Basic

/-!
# Attempts

An attempt to establish a session does things that can be seen from outside, one after the other,
until it has come to its end or fails.

## Main definitions

* `Act` — what an attempt does
* `Attempt` — acts with the result that they lead to
* `Attempt.finished` — an attempt that enters its last stage
* `Attempt.stages`, `Attempt.events`, `Attempt.asked`, `Attempt.contexts`, `Attempt.handshakes` —
  its acts, kind by kind

## Main results

* `Attempt.acts_bind_ok` — the acts of a step come before those of the next
* `Attempt.result_bind_eq_ok` — two steps succeed when each does in turn
* `Attempt.result_bind_eq_error` — two steps fail when one of them does
-/

namespace PeerTrust

/-- What an attempt does. -/
inductive Act
  | entered (stage : Stage)
  | told (event : Event)
  /-- The transport is asked for a socket. -/
  | askedSocket (host : String) (port : UInt16)
  /-- The protocol layer is asked for schemas. -/
  | createdContext
  /-- The protocol layer is handed the session for its own handshake. -/
  | performedHandshake (session : Session)
  deriving DecidableEq, Repr

/-- Acts with the result that they lead to. -/
structure Attempt (α : Type) where
  acts : List Act
  result : Except Error α

namespace Attempt

variable {α β : Type}

instance : Monad Attempt where
  pure a := ⟨[], .ok a⟩
  bind x f := match x.result with
    | .ok a => ⟨x.acts ++ (f a).acts, (f a).result⟩
    | .error e => ⟨x.acts, .error e⟩

/-- One act. -/
def act (a : Act) : Attempt Unit := ⟨[a], .ok ()⟩

/-- The next stage. -/
def enter (stage : Stage) : Attempt Unit := act (.entered stage)

/-- A result without any act. -/
def ofExcept (result : Except Error α) : Attempt α := ⟨[], result⟩

/-- A result with the events on the way to it. -/
def ofLogged (told : Logged (Except Error α)) : Attempt α := ⟨told.events.map .told, told.value⟩

/-- An attempt that enters its last stage. -/
def finished (a : Attempt α) : Attempt α :=
  let last := match a.result with
    | .ok _ => .established
    | .error _ => .failed
  ⟨a.acts ++ [.entered last], a.result⟩

/-- The stages entered, in order. -/
def stages (a : Attempt α) : List Stage :=
  a.acts.filterMap fun act => match act with
    | .entered stage => some stage
    | _ => none

/-- The events told, in order. -/
def events (a : Attempt α) : List Event :=
  a.acts.filterMap fun act => match act with
    | .told event => some event
    | _ => none

/-- The addresses that sockets were asked for. -/
def asked (a : Attempt α) : List (String × UInt16) :=
  a.acts.filterMap fun act => match act with
    | .askedSocket host port => some (host, port)
    | _ => none

/-- How often the protocol layer was asked for schemas. -/
def contexts (a : Attempt α) : Nat := a.acts.count .createdContext

/-- The sessions that the protocol layer was handed. -/
def handshakes (a : Attempt α) : List Session :=
  a.acts.filterMap fun act => match act with
    | .performedHandshake session => some session
    | _ => none

theorem acts_bind_ok {x : Attempt α} {a : α} (h : x.result = .ok a) (f : α → Attempt β) :
    (x >>= f).acts = x.acts ++ (f a).acts := by
  simp [bind, h]

theorem result_bind_ok {x : Attempt α} {a : α} (h : x.result = .ok a) (f : α → Attempt β) :
    (x >>= f).result = (f a).result := by
  simp [bind, h]

theorem result_bind_eq_ok {x : Attempt α} {f : α → Attempt β} {b : β} :
    (x >>= f).result = .ok b ↔ ∃ a, x.result = .ok a ∧ (f a).result = .ok b := by
  cases h : x.result <;> simp [bind, h]

theorem result_bind_eq_error {x : Attempt α} {f : α → Attempt β} {e : Error} :
    (x >>= f).result = .error e ↔
      x.result = .error e ∨ ∃ a, x.result = .ok a ∧ (f a).result = .error e := by
  cases h : x.result <;> simp [bind, h]

theorem result_bind_pure (x : Attempt α) (g : α → β) :
    (x >>= fun a => pure (g a)).result = x.result.map g := by
  cases h : x.result <;> simp [bind, pure, h, Except.map]

theorem bind_error {x : Attempt α} {e : Error} (h : x.result = .error e) (f : α → Attempt β) :
    x >>= f = ⟨x.acts, .error e⟩ := by
  simp [bind, h]

end Attempt

end PeerTrust
