import PeerTrust.Certification.Budget
import PeerTrust.Certification.Names

/-!
# Name constraints

An authority may constrain the names of all certificates below it: names of a kind must match one of
the permitted patterns of their kind, if there are any, and none of the excluded ones.

## Main definitions

* `Certification.Subtrees` — the permitted and the excluded patterns
* `Certification.GeneralName.matchesPattern` — whether a name matches a pattern, if they are of one
  kind
* `Certification.checkNames` — whether the names of certificates keep to constraints
-/

namespace PeerTrust.Certification

/-- Whether a text may stand in a pattern of host names: empty, or labels, perhaps after a dot. -/
def isHostPattern (text : Bytes) : Bool :=
  text.length ≤ 253 && (text = [] ||
    match splitAt 0x2E text with
    | [] :: labels => HostName.areLabels labels
    | labels => HostName.areLabels labels)

/-- The end of a presented name that is compared with a pattern, if the name is not ruled out by
what stands before it. -/
def comparedEnd (presented pattern : Bytes) : Option Bytes :=
  if presented.length ≤ pattern.length then some presented
  else
    let after := presented.drop (presented.length - pattern.length)
    if pattern.head? = some 0x2E then some after
    else if (presented.drop (presented.length - pattern.length - 1)).head? = some 0x2E then
      some after
    else none

/-- Whether a presented host name lies under a pattern. -/
def liesUnder (presented pattern : Bytes) : Except Problem Bool :=
  if !isPresentable presented then .error .malformedHostName
  else if !isHostPattern pattern then .error .malformedNameConstraint
  else if pattern = [] then .ok true
  else match comparedEnd presented pattern with
    | none => .ok false
    | some compared => .ok <|
      match compared.map lower, pattern.map lower with
      -- A wildcard stands for what the pattern holds up to its next dot.
      | 0x2A :: compared, pattern =>
        pattern ≠ [] && compared = (pattern.drop 1).dropWhile (· ≠ 0x2E)
      | compared, pattern => compared = pattern

/-- Whether a byte is ones followed by zeros. -/
def isMaskByte (b : UInt8) : Bool := b ∈ [0, 0x80, 0xC0, 0xE0, 0xF0, 0xF8, 0xFC, 0xFE, 0xFF]

/-- Whether an address lies in a network, byte by byte; the mask is ones followed by zeros. -/
def liesIn : (masked : Bool) → (address network mask : Bytes) → Except Problem Bool
  | masked, a :: address, n :: network, m :: mask =>
    if !isMaskByte m || (masked && m ≠ 0) then .error .badAddressMask
    else if (a ^^^ n) &&& m ≠ 0 then .ok false
    else liesIn (m ≠ 0xFF) address network mask
  | _, _, _, _ => .ok true

/-- Whether an address lies in a network, which is written as an address and a mask. -/
def addressLiesIn (address pattern : Bytes) : Except Problem Bool :=
  match address.length, pattern.length with
  | 4, 8 | 16, 32 =>
    liesIn false address (pattern.take address.length) (pattern.drop address.length)
  | 4, 32 | 16, 8 => .ok false
  | 4, _ | 16, _ => .error .badAddressMask
  | _, _ => .error .badEncoding

/-- Whether a name matches a pattern; nothing if they are of different kinds. Names of directories
match only what excludes them. -/
def GeneralName.matchesPattern (excluding : Bool) :
    (name pattern : GeneralName) → Except Problem (Option Bool)
  | host presented, host pattern => some <$> liesUnder presented pattern
  | directory, directory => .ok (some excluding)
  | address octets, address pattern => some <$> addressLiesIn octets pattern
  | unsupported m, unsupported n => if m = n then .error .nameConstraintViolated else .ok none
  | _, _ => .ok none

/-- The patterns of one kind of constraints that are left to compare a name with. -/
def pattern : Reader GeneralName := do
  whole .trailingData GeneralName.read (← expect 0x30)

/-- Compares a name with the next pattern, and tells whether any so far matched and whether any did
not. -/
def compare (name : GeneralName) (excluding : Bool) (seen : Bool × Bool) : Reader (Bool × Bool) := do
  match ← name.matchesPattern excluding (← pattern) with
  | some true => if excluding then throw .nameConstraintViolated else return (true, seen.2)
  | some false => return (seen.1, true)
  | none => return seen

/-- Compares a name with all patterns that are left. Each of them counts, also one that does not
parse or is of another kind. -/
def compareAll (name : GeneralName) (excluding : Bool) (seen : Bool × Bool) (patterns : Bytes) :
    Search (Bool × Bool) :=
  if patterns = [] then return seen
  else do
    spendComparison
    match compare name excluding seen patterns with
    | .error p => throw p
    | .ok (seen, rest) =>
      if rest.length < patterns.length then compareAll name excluding seen rest
      else throw .badEncoding
termination_by patterns.length

/-- Constraints: the permitted and the excluded patterns. -/
structure Subtrees where
  permitted : Bytes := []
  excluded : Bytes := []

/-- Constraints as they are written. -/
def Subtrees.read : Reader Subtrees := do
  let permitted ← if ← isNext 0xA0 then expect 0xA0 else pure []
  let excluded ← if ← isNext 0xA1 then expect 0xA1 else pure []
  return ⟨permitted, excluded⟩

/-- A name keeps to the constraints. -/
def checkName (s : Subtrees) (name : GeneralName) : Search Unit := do
  let (matched, unmatched) ← compareAll name false (false, false) s.permitted
  if unmatched && !matched then throw .nameConstraintViolated
  let _ ← compareAll name true (false, false) s.excluded

/-- All names of a certificate keep to the constraints; the subject counts as the last one. -/
def checkCertificate (s : Subtrees) (c : Certificate) : Search Unit := do
  let (names, fault) := generalNames (c.alternativeNames.getD [])
  names.forM (checkName s)
  match fault with
  | some p => throw p
  | none => checkName s .directory

/-- All names of certificates keep to the constraints, if there are any. -/
def checkNames (constraints : Option Bytes) (below : List Certificate) : Search Unit :=
  match constraints with
  | none => return ()
  | some content => do
    let (s, rest) ← ofExcept (Subtrees.read content)
    below.forM (checkCertificate s)
    -- What follows the patterns is looked at last.
    if rest ≠ [] then throw .badEncoding

end PeerTrust.Certification
