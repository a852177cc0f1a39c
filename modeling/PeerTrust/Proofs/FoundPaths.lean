import Mathlib.Data.List.Chain
import PeerTrust.Proofs.Readings

/-!
# The paths that a search finds

Whatever the budget and whatever else was tried before, a path that a search gives back is made of
presented certificates, each issued under the name of the next, and ends in one of the anchors. The
conditions on signatures, times and purposes are not needed for that.

## Main definitions

* `Certification.Partial.Grown` — what holds of every path under construction
* `CertPath.inner`, `CertPath.links` — the certificates of a path with what stands above them

## Main results

* `Certification.search_eq_ok` — a search keeps to what holds of paths under construction
* `Certification.preVerify_ends`, `Certification.preVerify_eq_ok` — the paths that are found
* `CertPath.mem_links_iff` — all links but the last are between presented certificates
-/

namespace PeerTrust

namespace Certification

/-- The certificates of a path under construction are presented ones, each issued under the name of
the one above it. The last one comes first. -/
structure Partial.Grown (presented : List Bytes) (p : Partial) : Prop where
  read : ∀ c ∈ p.all, c.der ∈ presented ∧ Certificate.ofDer c.der = .ok c
  linked : p.all.IsChain fun upper lower => lower.issuer = upper.subject

variable {α β : Type} {budget after : Budget} {path : CertPath}

/-- What succeeds first was an attempt at something in the list. -/
theorem firstOf_eq_ok {attempt : α → Search β} {reason : Problem} {list : List α} {b : β}
    (h : firstOf attempt reason list budget = (.ok b, after)) :
    ∃ a ∈ list, ∃ left, attempt a left = (.ok b, after) := by
  induction list generalizing reason budget with
  | nil => exact nomatch h
  | cons a rest ih =>
    unfold firstOf at h
    split at h
    case h_1 made left tried =>
      obtain ⟨same, rfl⟩ := Prod.mk.inj h
      obtain rfl := Except.ok.inj same
      exact ⟨a, List.mem_cons_self, budget, tried⟩
    case h_2 p left tried =>
      split at h
      · exact nomatch h
      · obtain ⟨a, mem, found⟩ := ih h
        exact ⟨a, List.mem_cons_of_mem _ mem, found⟩

theorem attachAnchor_eq_ok {p : Partial} {a : Anchor}
    (h : attachAnchor p a budget = (.ok path, after)) :
    p.last.issuer = a.subject ∧ path = p.endingIn a := by
  unfold attachAnchor at h
  split at h
  · exact nomatch h
  case isFalse named =>
    obtain ⟨_, _, -, h⟩ := bind_search_eq_ok_iff.mp h
    obtain ⟨_, _, -, h⟩ := bind_search_eq_ok_iff.mp h
    obtain ⟨same, -⟩ := Prod.mk.inj h
    exact ⟨not_not.mp named, (Except.ok.inj same).symm⟩

theorem attachPresented_eq_ok {goOn : Partial → Search CertPath} {p : Partial} {der : Bytes}
    (h : attachPresented goOn p der budget = (.ok path, after)) :
    ∃ c, Certificate.ofDer der = .ok c ∧ p.last.issuer = c.subject
      ∧ ∃ left, goOn ⟨c, p.all⟩ left = (.ok path, after) := by
  unfold attachPresented at h
  obtain ⟨c, _, read, h⟩ := bind_search_eq_ok_iff.mp h
  obtain ⟨read, -⟩ := Prod.mk.inj read
  split at h
  · exact nomatch h
  case isFalse named =>
    obtain ⟨named, -⟩ := not_or.mp named
    obtain ⟨_, left, -, h⟩ := bind_search_eq_ok_iff.mp h
    exact ⟨c, read, (not_not.mp named).symm, left, h⟩

section Continue

variable {anchors : List Anchor} {presented : List Bytes} {now : Moment}

/-- What a path that was found comes of: a path under construction, issued under the name of an
anchor. -/
def Ends (anchors : List Anchor) (all : List Bytes) (path : CertPath) : Prop :=
  ∃ q : Partial, q.Grown all ∧ ∃ a ∈ anchors, q.last.issuer = a.subject ∧ path = q.endingIn a

theorem continueFrom_eq_ok {all : List Bytes} {goOn : Partial → Search CertPath} {p : Partial}
    (grown : p.Grown all) (offered : ∀ der ∈ presented, der ∈ all)
    (next : ∀ q : Partial, q.Grown all → ∀ left, goOn q left = (.ok path, after) →
      Ends anchors all path)
    (h : continueFrom anchors presented now goOn p budget = (.ok path, after)) :
    Ends anchors all path := by
  unfold continueFrom at h
  obtain ⟨_, left, -, h⟩ := bind_search_eq_ok_iff.mp h
  split at h
  case h_1 made rest tried =>
    obtain ⟨same, rfl⟩ := Prod.mk.inj h
    obtain rfl := Except.ok.inj same
    -- Either an anchor ends the path as it is, …
    obtain ⟨a, isAnchor, _, attached⟩ := firstOf_eq_ok tried
    obtain ⟨named, rfl⟩ := attachAnchor_eq_ok attached
    exact ⟨p, grown, a, isAnchor, named, rfl⟩
  case h_2 reason rest tried =>
    split at h
    · exact nomatch h
    · -- … or it goes on from one certificate more.
      obtain ⟨der, isOffered, _, attached⟩ := firstOf_eq_ok h
      obtain ⟨c, read, named, _, found⟩ := attachPresented_eq_ok attached
      have sameDer : c.der = der := (Certificate.ofDer_eq_ok read).1
      refine next ⟨c, p.all⟩ ⟨?_, ?_⟩ _ found
      · refine List.forall_mem_cons.mpr ⟨?_, grown.read⟩
        rw [sameDer]
        exact ⟨offered der isOffered, read⟩
      · exact List.isChain_cons_cons.mpr ⟨named, grown.linked⟩

/-- A search keeps to what holds of paths under construction. -/
theorem search_eq_ok {all : List Bytes} {room : Nat} {p : Partial}
    (grown : p.Grown all) (offered : ∀ der ∈ presented, der ∈ all)
    (h : search anchors presented now room p budget = (.ok path, after)) :
    Ends anchors all path := by
  induction room generalizing p budget with
  | zero =>
    rw [search] at h
    -- Going on fails at once here.
    refine continueFrom_eq_ok grown offered (fun q _ left deeper => ?_) h
    exact nomatch (Prod.mk.inj deeper).1
  | succ room ih =>
    rw [search] at h
    exact continueFrom_eq_ok grown offered (fun q grown left deeper => ih grown deeper) h

end Continue

/-- A path that is found was under construction from the end entity on. -/
theorem preVerify_ends {anchors : List Anchor} {endEntity : Bytes} {others : List Bytes}
    {server : ServerName} {now : Moment}
    (h : preVerify anchors endEntity others server now = .ok path) :
    Ends anchors (endEntity :: others) path := by
  have found : findPath anchors endEntity others server now = .ok path := mapError_eq_ok_iff.mp h
  unfold findPath at found
  obtain ⟨c, read, found⟩ := bind_eq_ok_iff.mp found
  obtain ⟨_, searched, found⟩ := bind_eq_ok_iff.mp found
  obtain ⟨_, -, same⟩ := bind_eq_ok_iff.mp found
  obtain rfl := Except.ok.inj same
  have sameDer : c.der = endEntity := (Certificate.ofDer_eq_ok read).1
  have start : Partial.Grown (endEntity :: others) ⟨c, []⟩ := by
    refine ⟨?_, .singleton _⟩
    refine List.forall_mem_singleton.mpr ⟨?_, ?_⟩
    · rw [sameDer]
      exact List.mem_cons_self
    · rw [sameDer]
      exact read
  exact search_eq_ok start (fun _ => List.mem_cons_of_mem _) (Prod.ext searched rfl)

/-- A path that is found is made of presented certificates, from the end entity up, each issued
under the name of the next. -/
theorem preVerify_eq_ok {anchors : List Anchor} {endEntity : Bytes} {others : List Bytes}
    {server : ServerName} {now : Moment}
    (h : preVerify anchors endEntity others server now = .ok path) :
    ∃ certs : List Certificate, certs ≠ [] ∧ path.certificates = certs.map (·.der)
      ∧ (∀ c ∈ certs, c.der ∈ endEntity :: others ∧ Certificate.ofDer c.der = .ok c)
      ∧ certs.IsChain fun lower upper => lower.issuer = upper.subject := by
  obtain ⟨q, grown, a, -, -, rfl⟩ := preVerify_ends h
  -- The search holds the last certificate first, the path the end entity.
  refine ⟨q.all.reverse, by simp [Partial.all], List.map_reverse.symm, ?_, ?_⟩
  · intro c mem
    exact grown.read c (List.mem_reverse.mp mem)
  · rw [List.isChain_reverse]
    exact grown.linked

end Certification

namespace CertPath

/-- Certificates of a path, each with the one above it. -/
def inner (path : CertPath) : List (Bytes × Bytes) :=
  path.certificates.zip path.certificates.tail

/-- The certificates of a path, each with what stands above it: another one, or the anchor. -/
def links (path : CertPath) : List (Bytes × Bytes) :=
  path.certificates.zip (path.certificates.tail ++ [path.anchor])

/-- What is linked in a row is linked in the pairs of neighbours. -/
theorem rel_of_mem_zip_tail {α : Type} {R : α → α → Prop} {list : List α} (linked : list.IsChain R)
    {a b : α} (mem : (a, b) ∈ list.zip list.tail) : R a b := by
  induction linked with
  | nil => cases mem
  | singleton => cases mem
  | cons_cons first _ ih =>
    rcases List.mem_cons.mp mem with same | mem
    · obtain ⟨rfl, rfl⟩ := Prod.mk.inj same
      exact first
    · exact ih mem

/-- All links but the last are between certificates of the path. -/
theorem mem_links_iff {path : CertPath} {link : Bytes × Bytes} :
    link ∈ path.links ↔
      link ∈ path.inner
        ∨ ∃ last, path.certificates.getLast? = some last ∧ link = (last, path.anchor) := by
  obtain ⟨certificates, anchor⟩ := path
  unfold links inner
  dsimp only
  induction certificates with
  | nil => simp
  | cons first rest ih =>
    cases rest with
    | nil => simp
    | cons second rest =>
      show link ∈ (first, second) :: (second :: rest).zip (rest ++ [anchor]) ↔
        link ∈ (first, second) :: (second :: rest).zip rest ∨ _
      rw [List.mem_cons, List.mem_cons, or_assoc, List.getLast?_cons_cons]
      exact or_congr_right ih

end CertPath

end PeerTrust
