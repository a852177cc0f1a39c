import PeerTrust.Certification.Problem

/-!
# What a search may do

A search for a path is given up after so many signatures, paths and comparisons of names, so that
nobody can keep it busy with certificates made for that.

## Main definitions

* `Certification.Budget` — how much a search may still do
* `Certification.Search` — a step of a search
* `Certification.spendSignature`, `Certification.spendPath`, `Certification.spendComparison` — what
  counts
-/

namespace PeerTrust.Certification

/-- How much a search may still do. -/
structure Budget where
  signatures : Nat := 100
  paths : Nat := 200000
  /-- Names compared with patterns of constraints. -/
  comparisons : Nat := 250000
  deriving DecidableEq, Repr

/-- A step of a search. What it takes from the budget is gone even if it fails. -/
abbrev Search := ExceptT Problem (StateM Budget)

/-- A result that takes nothing from the budget. -/
def ofExcept {α : Type} (e : Except Problem α) : Search α := fun budget => (e, budget)

/-- One more of what may be done `left` times, or the reason to give up. -/
def spend (left : Budget → Nat) (setLeft : Nat → Budget → Budget) (exceeded : Problem) :
    Search Unit := do
  match left (← get) with
  | 0 => throw exceeded
  | n + 1 => modify (setLeft n)

/-- One more signature is verified. -/
def spendSignature : Search Unit :=
  spend (·.signatures) (fun n b => { b with signatures := n }) .tooManySignatures

/-- One more path is tried. -/
def spendPath : Search Unit := spend (·.paths) (fun n b => { b with paths := n }) .tooManyPaths

/-- One more name is compared with a pattern. -/
def spendComparison : Search Unit :=
  spend (·.comparisons) (fun n b => { b with comparisons := n }) .tooManyComparisons

end PeerTrust.Certification
