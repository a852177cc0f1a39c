import PeerTrust.Proofs.Footprints

/-!
# Roles apart

A client serves both roles, one after the other in any order. Whatever it is asked for on behalf of
one role leaves the other alone: if all of it is taken out of a run, the answers to the rest are the
same, and after each of them the configuration of the other role is.

## Main definitions

* `Client.Operation.concerns` — an operation for a role, or for no role in particular
* `Client.Exchange`, `Client.exchanges` — the operations of a run with what came of them
* `Client.Exchange.seenBy` — as much of an exchange as a role can see

## Main results

* `Client.response_perform_eq` — the answer to an operation depends on the role it is for
* `Client.exchanges_without_other_role` — a role sees the same with and without the other
-/

namespace PeerTrust.Client

/-- Whether an operation is addressed to a role, or to none in particular. -/
def Operation.concerns (op : Operation) (role : Role) : Bool :=
  op.role?.all (· = role)

/-- One operation of a run: what was asked for, what was answered, and the client afterwards. -/
structure Exchange where
  operation : Operation
  response : Response
  after : Client

/-- As much of an exchange as a role can see: all but the configuration of the other role. -/
def Exchange.seenBy (role : Role) (e : Exchange) : Operation × Response × Configuration :=
  (e.operation, e.response, e.after.trust role)

/-- The exchanges of a run, in order. Each operation finds the files of its own time. -/
def exchanges (c : Client) : List Operation → List Exchange
  | [] => []
  | op :: ops =>
    let (after, response) := c.perform op
    ⟨op, response, after⟩ :: after.exchanges ops

variable {c d : Client} {op : Operation} {role : Role}

theorem Operation.footprint_eq_none (other : op.concerns role = false) :
    op.footprint role = none := by
  cases op with
  | connectWithChannel | destroy | configure => cases other
  | trust | connect | acceptCallHome | connectOver =>
    exact if_neg (of_decide_eq_false other)

/-- An operation for the other role changes nothing. -/
theorem trust_perform_of_not_concerns (c : Client) (other : op.concerns role = false) :
    (c.perform op).1.trust role = c.trust role := by
  rw [trust_perform, Operation.footprint_eq_none other, Option.elim_none]

/-- What an operation does to a role depends on the configuration of that role only. -/
theorem trust_perform_eq (same : c.trust role = d.trust role) (op : Operation) :
    (c.perform op).1.trust role = (d.perform op).1.trust role := by
  rw [trust_perform, trust_perform, same]

/-- The answer to an operation depends on the configuration of the role that it is for. -/
theorem response_perform_eq (same : c.trust role = d.trust role) (mine : op.concerns role = true) :
    (c.perform op).2 = (d.perform op).2 := by
  cases op with
  | trust addressed op =>
    obtain rfl : addressed = role := of_decide_eq_true mine
    exact congrArg (fun before => Response.trust (before.perform op).2) same
  | connect fs now transport protocol host port schema =>
    obtain rfl : Role.client = role := of_decide_eq_true mine
    exact congrArg Response.session (connect_snd_eq fs now transport protocol schema same host port)
  | acceptCallHome fs now protocol peer host port schema =>
    obtain rfl : Role.callHome = role := of_decide_eq_true mine
    exact congrArg Response.session (acceptCallHome_snd_eq fs now protocol schema same peer host port)
  | connectOver fs now protocol addressed server peer schema =>
    obtain rfl : addressed = role := of_decide_eq_true mine
    simp only [perform, connectOver, same]
  | connectWithChannel => rfl
  | destroy => rfl
  | configure config =>
    simp only [perform]
    cases ofConfig config <;> rfl

/-- Clients that agree on a role answer alike, and go on to agree on it, whether or not the
operations of the other role are left out. -/
theorem exchanges_eq (same : c.trust role = d.trust role) (ops : List Operation) :
    ((c.exchanges ops).filter (·.operation.concerns role)).map (Exchange.seenBy role)
      = (d.exchanges (ops.filter (·.concerns role))).map (Exchange.seenBy role) := by
  induction ops generalizing c d with
  | nil => rfl
  | cons op ops ih =>
    rw [exchanges, List.filter_cons, List.filter_cons]
    cases mine : op.concerns role with
    | false =>
      -- The run without the other role stands still.
      have kept := (trust_perform_of_not_concerns c mine).trans same
      simpa [mine] using ih kept
    | true =>
      have kept := trust_perform_eq same op
      have answered := response_perform_eq same mine
      simp [exchanges, Exchange.seenBy, kept, answered, ih kept]

/-- If all that is addressed to the other role is taken out of a run, nothing changes for a role:
neither the answer to any operation that remains, nor the configuration of the role after it, which
holds its paths, marks, context, store and counts. -/
theorem exchanges_without_other_role (c : Client) (role : Role) (ops : List Operation) :
    ((c.exchanges ops).filter (·.operation.concerns role)).map (Exchange.seenBy role)
      = (c.exchanges (ops.filter (·.concerns role))).map (Exchange.seenBy role) :=
  exchanges_eq rfl ops

end PeerTrust.Client
