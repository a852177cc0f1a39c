import PeerTrust.Certification.Search

/-!
# Steps that may fail

Readers, searches and plain results are put together from steps. What comes of two steps is what
comes of the second after what came of the first.

## Main results

* `bind_eq_ok_iff`, `bind_eq_error_iff`, `map_eq_ok_iff`, `map_eq_error_iff`,
  `mapError_eq_ok_iff`, `mapError_eq_error_iff` — results
* `bind_guard_eq_ok_iff` — steps that give nothing and may only fail
* `toOption_eq_some_iff`, `toOption_any_eq_true_iff`, `isOk_eq_false_iff` — results that are tested
* `exists_mem_of_mapM_eq_some`, `eq_map_of_mapM_eq_ok` — results for each element of a list
* `Certification.bind_reader_eq_ok_iff` — readers
* `Certification.bind_search_eq_ok_iff` — searches
-/

namespace PeerTrust

variable {ε ε' α β : Type}

theorem bind_eq_ok_iff {x : Except ε α} {f : α → Except ε β} {b : β} :
    x >>= f = .ok b ↔ ∃ a, x = .ok a ∧ f a = .ok b := by
  cases x <;> simp [bind, Except.bind]

theorem bind_eq_error_iff {x : Except ε α} {f : α → Except ε β} {e : ε} :
    x >>= f = .error e ↔ x = .error e ∨ ∃ a, x = .ok a ∧ f a = .error e := by
  cases x <;> simp [bind, Except.bind]

theorem bind_guard_eq_ok_iff {x : Except ε Unit} {f : Unit → Except ε β} {b : β} :
    x >>= f = .ok b ↔ x = .ok () ∧ f () = .ok b := by
  cases x <;> simp [bind, Except.bind]

theorem toOption_eq_some_iff {x : Except ε α} {a : α} : x.toOption = some a ↔ x = .ok a := by
  cases x <;> simp [Except.toOption]

theorem toOption_any_eq_true_iff {x : Except ε α} {p : α → Bool} :
    x.toOption.any p = true ↔ ∃ a, x = .ok a ∧ p a = true := by
  cases x <;> simp [Except.toOption]

@[simp] theorem isOk_ok (a : α) : (Except.ok a : Except ε α).isOk = true := rfl

@[simp] theorem isOk_error (e : ε) : (Except.error e : Except ε α).isOk = false := rfl

theorem isOk_eq_false_iff {x : Except ε α} : x.isOk = false ↔ ∃ e, x = .error e := by
  cases x <;> simp

theorem map_eq_ok_iff {x : Except ε α} {f : α → β} {b : β} :
    x.map f = .ok b ↔ ∃ a, x = .ok a ∧ f a = b := by
  cases x <;> simp [Except.map]

theorem map_eq_error_iff {x : Except ε α} {f : α → β} {e : ε} :
    x.map f = .error e ↔ x = .error e := by
  cases x <;> simp [Except.map]

theorem mapError_eq_ok_iff {x : Except ε α} {f : ε → ε'} {a : α} :
    x.mapError f = .ok a ↔ x = .ok a := by
  cases x with
  | error e => exact ⟨by rintro ⟨⟩, by rintro ⟨⟩⟩
  | ok b => exact ⟨fun h => congrArg _ (Except.ok.inj h), fun h => congrArg _ (Except.ok.inj h)⟩

theorem mapError_eq_error_iff {x : Except ε α} {f : ε → ε'} {e : ε'} :
    x.mapError f = .error e ↔ ∃ p, x = .error p ∧ f p = e := by
  cases x with
  | error p =>
    constructor
    · intro h
      exact ⟨p, rfl, Except.error.inj h⟩
    · rintro ⟨_, ⟨⟩, rfl⟩
      rfl
  | ok a => exact ⟨by rintro ⟨⟩, by rintro ⟨_, ⟨⟩, -⟩⟩

/-- A step that succeeds for all elements of a list gives something for each of them. -/
theorem exists_mem_of_mapM_eq_some {f : α → Option β} {as : List α} {bs : List β}
    (h : as.mapM f = some bs) {a : α} (mem : a ∈ as) : ∃ b ∈ bs, f a = some b := by
  induction as generalizing bs with
  | nil => cases mem
  | cons first rest ih =>
    rw [List.mapM_cons] at h
    obtain ⟨made, isMade, h⟩ := Option.bind_eq_some_iff.mp h
    obtain ⟨others, areMade, same⟩ := Option.bind_eq_some_iff.mp h
    obtain rfl := Option.some.inj same
    rcases List.mem_cons.mp mem with rfl | mem
    · exact ⟨made, List.mem_cons_self, isMade⟩
    · obtain ⟨b, memb, isB⟩ := ih areMade mem
      exact ⟨b, List.mem_cons_of_mem _ memb, isB⟩

/-- What steps that succeed give for a list is known from what each of them gives. -/
theorem eq_map_of_mapM_eq_ok {f : α → Except ε β} {g : α → β}
    (known : ∀ a b, f a = .ok b → b = g a) {as : List α} {bs : List β} (h : as.mapM f = .ok bs) :
    bs = as.map g := by
  induction as generalizing bs with
  | nil => exact (Except.ok.inj h).symm
  | cons first rest ih =>
    rw [List.mapM_cons] at h
    obtain ⟨made, isMade, h⟩ := bind_eq_ok_iff.mp h
    obtain ⟨others, areMade, same⟩ := bind_eq_ok_iff.mp h
    obtain rfl := Except.ok.inj same
    rw [known first made isMade, ih areMade, List.map_cons]

namespace Certification

theorem bind_reader_eq_ok_iff {x : Reader α} {f : α → Reader β} {bs rest : Bytes} {b : β} :
    (x >>= f) bs = .ok (b, rest) ↔ ∃ a mid, x bs = .ok (a, mid) ∧ f a mid = .ok (b, rest) := by
  show (x bs >>= fun read => f read.1 read.2) = _ ↔ _
  rw [bind_eq_ok_iff, Prod.exists]

theorem bind_search_eq_ok_iff {x : Search α} {f : α → Search β} {budget after : Budget} {b : β} :
    (x >>= f) budget = (.ok b, after) ↔
      ∃ a mid, x budget = (.ok a, mid) ∧ f a mid = (.ok b, after) := by
  have step : (x >>= f) budget = ExceptT.bindCont f (x budget).1 (x budget).2 := rfl
  rw [step]
  obtain ⟨result, mid⟩ := x budget
  cases result with
  | error p =>
    constructor
    · rintro ⟨⟩
    · rintro ⟨_, _, ⟨⟩, -⟩
  | ok a =>
    constructor
    · exact fun h => ⟨a, mid, rfl, h⟩
    · rintro ⟨_, _, ⟨⟩, h⟩
      exact h

end Certification

end PeerTrust
