import PeerTrust.Revocation.Store

/-!
# What a check of revocation looks at

A certificate is accepted when the list under its own name is in order and the list under its
issuer's name does not name it. Lists are found by canonical names, and nothing else of a name
matters.

## Main definitions

* `RevocationList.InOrder` — a list that may be relied on

## Main results

* `RevocationStore.check_eq_accept_iff` — what it takes to be accepted
* `RevocationStore.find_congr` — names that are the same find the same list
* `RevocationStore.inOrder_of_check_accept` — what is accepted answers for the list under its name
-/

namespace PeerTrust

/-- The list may be relied on: it is signed by the key and says when the next one is due, which is
not over. -/
def RevocationList.InOrder (list : RevocationList) (key : SubjectPublicKeyInfo) (now : Moment) :
    Prop :=
  list.signatureResult key = .valid ∧ ∃ next, list.nextUpdate = some next ∧ now ≤ next

theorem RevocationList.isSignedBy_eq_true_iff {list : RevocationList} {key : SubjectPublicKeyInfo} :
    (list.isSignedBy key).value = true ↔ list.signatureResult key = .valid := by
  unfold isSignedBy
  cases list.signatureResult key <;> simp

namespace RevocationStore

variable {fs : FileSystem} {store : RevocationStore} {now : Moment} {cert : Certificate}

theorem checkOwn_eq_accept_iff {list : RevocationList} :
    (checkOwn list cert now).value = .accept ↔ list.InOrder cert.publicKey now := by
  unfold checkOwn RevocationList.InOrder
  rw [← RevocationList.isSignedBy_eq_true_iff, Logged.value_bind]
  cases (list.isSignedBy cert.publicKey).value with
  | false => simp
  | true =>
    cases list.nextUpdate with
    | none => simp
    | some next =>
      by_cases due : now ≤ next
      · simp [due, Int.not_lt.mpr due]
      · simp [due, Int.not_le.mp due]

theorem checkListed_eq_accept_iff {list : RevocationList} :
    (checkListed list cert).value = .accept ↔ list.revokes cert.serial = false := by
  unfold checkListed
  cases list.revokes cert.serial <;> simp

theorem checkFound_eq_accept_iff {name : Name} {check : RevocationList → Logged Revocation.Verdict} :
    (checkFound fs store name check).value = .accept ↔
      ∀ list, (store.find fs name).value = some list → (check list).value = .accept := by
  unfold checkFound
  rw [Logged.value_bind]
  cases (store.find fs name).value <;> simp

/-- A certificate is accepted if its own list is in order and its issuer's list does not name it. -/
theorem check_eq_accept_iff :
    (store.check fs cert now).value = .accept ↔
      (∀ list, (store.find fs cert.subject).value = some list → list.InOrder cert.publicKey now)
        ∧ ∀ list, (store.find fs cert.issuer).value = some list →
            list.revokes cert.serial = false := by
  simp only [← checkOwn_eq_accept_iff, ← checkListed_eq_accept_iff, ← checkFound_eq_accept_iff]
  unfold check
  rw [Logged.value_bind]
  cases (checkFound fs store cert.subject (checkOwn · cert now)).value <;> simp

end RevocationStore

/-! ### Lists are looked up by canonical names -/

section Lookup

variable {fs : FileSystem} {name other : Name}

theorem RevocationList.isIssuedBy_congr (same : name.canonical = other.canonical)
    (list : RevocationList) : list.isIssuedBy name = list.isIssuedBy other := by
  rw [isIssuedBy, isIssuedBy, same]

theorem CrlSource.walk_congr (same : name.canonical = other.canonical) (paths : List FilePath) :
    walk fs name paths = walk fs other paths := by
  induction paths with
  | nil => rfl
  | cons path rest ih =>
    simp only [walk, RevocationList.isIssuedBy_congr same, ih]

theorem CrlSource.find_congr (same : name.canonical = other.canonical) (source : CrlSource) :
    source.find fs name = source.find fs other := by
  cases source with
  | file path lists => simp only [find, RevocationList.isIssuedBy_congr same]
  -- A name is looked up under the hash of its canonical form.
  | hashedDir dir => simp only [find, Name.hash, same, walk_congr same]

theorem RevocationStore.find_congr (same : name.canonical = other.canonical)
    (store : RevocationStore) : store.find fs name = store.find fs other := by
  unfold find
  induction store.sources with
  | nil => rfl
  | cons source rest ih =>
    rw [findIn, findIn, CrlSource.find_congr same, ih]

end Lookup

/-- A certificate that is accepted answers for any list that is found under its name. -/
theorem RevocationStore.inOrder_of_check_accept {fs : FileSystem} {store : RevocationStore}
    {now : Moment} {cert : Certificate} {name : Name} {list : RevocationList}
    (accepted : (store.check fs cert now).value = .accept)
    (named : cert.subject.canonical = name.canonical)
    (isList : (store.find fs name).value = some list) : list.InOrder cert.publicKey now := by
  obtain ⟨own, -⟩ := check_eq_accept_iff.mp accepted
  apply own list
  rw [find_congr named]
  exact isList

/-- Names of the same relative names are the same name. -/
theorem Name.canonical_congr {name other : Name} (same : name.relatives = other.relatives) :
    name.canonical = other.canonical := by
  rw [canonical, canonical, same]

end PeerTrust
