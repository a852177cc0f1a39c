import Mathlib.Data.List.DropRight
import Mathlib.Data.List.TakeWhile
import PeerTrust.Session.Client

/-!
# The host and the port that a client connects to

A client connects under the text that it is given as a host, without the white space at its ends. If
there is no text, or nothing but white space in it, the client connects to `localhost`. In place of
port 0 it takes 6513.

## Main definitions

* `Text.IsCore` — what is left of a text without the white space at its ends
* `ConnectsUnder` — the name that stands for a host, which may be missing or blank

## Main results

* `Text.isCore_iff` — trimming leaves exactly this
* `connectsUnder_iff` — a client connects under this name and no other
-/

namespace PeerTrust

namespace Text

variable {cs core : List Char}

/-- What is left of a text without the white space at its ends. It begins and ends with a character
that is no white space. -/
structure IsCore (cs core : List Char) : Prop where
  split : ∃ front back, cs = front ++ core ++ back
    ∧ (∀ c ∈ front, isBlank c = true) ∧ ∀ c ∈ back, isBlank c = true
  first : ∃ c ∈ core.head?, isBlank c = false
  last : ∃ c ∈ core.getLast?, isBlank c = false

theorem trim_eq_rdropWhile (cs : List Char) : trim cs = (cs.dropWhile isBlank).rdropWhile isBlank :=
  rfl

/-- Only white space is trimmed to nothing. -/
theorem trim_eq_nil_iff : trim cs = [] ↔ ∀ c ∈ cs, isBlank c = true := by
  rw [trim_eq_rdropWhile, List.rdropWhile_eq_nil_iff]
  constructor
  · intro blank c mem
    rw [← List.takeWhile_append_dropWhile (p := isBlank) (l := cs)] at mem
    rcases List.mem_append.mp mem with front | rest
    · exact List.mem_takeWhile_imp front
    · exact blank c rest
  · intro blank c mem
    exact blank c ((List.dropWhile_suffix isBlank).subset mem)

/-- What trimming leaves is the text without the white space at its ends. -/
theorem isCore_trim (nonblank : trim cs ≠ []) : IsCore cs (trim cs) := by
  rw [trim_eq_rdropWhile] at nonblank ⊢
  have whole := List.takeWhile_append_dropWhile (p := isBlank) (l := cs)
  have stopped := List.head?_dropWhile_not isBlank cs
  generalize cs.dropWhile isBlank = rest at nonblank whole stopped ⊢
  have split : rest.rdropWhile isBlank ++ rest.rtakeWhile isBlank = rest :=
    List.rdropWhile_append_rtakeWhile
  refine ⟨⟨_, _, by rw [List.append_assoc, split, whole], fun c => List.mem_takeWhile_imp,
    fun c => List.mem_rtakeWhile_imp⟩, ?_, ?_⟩
  · -- What is cut off at the end leaves the first character in place.
    obtain ⟨c, more, core⟩ := List.exists_cons_of_ne_nil nonblank
    rw [core, List.cons_append] at split
    rw [← split] at stopped
    exact ⟨c, by rw [core]; rfl, by simpa using stopped⟩
  · exact ⟨_, List.getLast?_eq_some_getLast nonblank,
      by simpa using List.rdropWhile_last_not isBlank rest nonblank⟩

/-- The white space at the ends is trimmed, and nothing else. -/
theorem IsCore.trim_eq (isCore : IsCore cs core) : trim cs = core := by
  obtain ⟨⟨front, back, rfl, blankFront, blankBack⟩, ⟨c, first, notBlank⟩, ⟨d, last, notBlank'⟩⟩ :=
    isCore
  have fromFirst : (front ++ core ++ back).dropWhile isBlank = core ++ back := by
    obtain ⟨more, rfl⟩ := List.head?_eq_some_iff.mp first
    rw [List.append_assoc, List.dropWhile_append_of_pos blankFront, List.cons_append,
      List.dropWhile_cons_of_neg (by simp [notBlank])]
  have toLast : (core ++ back).reverse.dropWhile isBlank = core.reverse := by
    obtain ⟨init, rfl⟩ := List.getLast?_eq_some_iff.mp last
    rw [List.reverse_append,
      List.dropWhile_append_of_pos fun c mem => blankBack c (List.mem_reverse.mp mem),
      List.reverse_append, List.reverse_singleton, List.singleton_append,
      List.dropWhile_cons_of_neg (by simp [notBlank'])]
  rw [trim, fromFirst, toLast, List.reverse_reverse]

theorem isCore_iff : IsCore cs core ↔ trim cs = core ∧ core ≠ [] := by
  constructor
  · intro isCore
    refine ⟨isCore.trim_eq, ?_⟩
    rintro rfl
    obtain ⟨c, ⟨⟩, -⟩ := isCore.first
  · rintro ⟨rfl, nonblank⟩
    exact isCore_trim nonblank

/-- A text is trimmed once and for all. -/
theorem trim_trim (cs : List Char) : trim (trim cs) = trim cs := by
  by_cases blank : trim cs = []
  · rw [blank, trim_nil]
  · obtain ⟨-, first, last⟩ := isCore_trim blank
    exact IsCore.trim_eq ⟨⟨[], [], by simp, nofun, nofun⟩, first, last⟩

end Text

/-- The name that a client connects to a host under. -/
inductive ConnectsUnder : Option String → String → Prop
  /-- Without any text. -/
  | absent : ConnectsUnder none "localhost"
  /-- For a text of nothing but white space. -/
  | blank {text : String} (blank : ∀ c ∈ text.toList, Text.isBlank c = true) :
      ConnectsUnder (some text) "localhost"
  /-- For any other text. -/
  | trimmed {text name : String} (isCore : Text.IsCore text.toList name.toList) :
      ConnectsUnder (some text) name

/-- A client connects to a host under this name and no other. -/
theorem connectsUnder_iff {host : Option String} {name : String} :
    ConnectsUnder host name ↔ name = resolveHost host := by
  unfold resolveHost
  constructor
  · rintro (_ | blank | isCore)
    · rfl
    · simp only [Option.map_some, Text.trim_eq_nil_iff.mpr blank, defaultHost]
    · obtain ⟨trimmed, nonblank⟩ := Text.isCore_iff.mp isCore
      obtain ⟨c, cs, core⟩ := List.exists_cons_of_ne_nil nonblank
      simp only [Option.map_some, trimmed, core]
      rw [← core, String.ofList_toList]
  · rintro rfl
    cases host with
    | none => exact .absent
    | some text =>
      -- What trimming leaves tells a blank text from others.
      cases trimmed : Text.trim text.toList with
      | nil =>
        simp only [Option.map_some, trimmed]
        exact .blank (Text.trim_eq_nil_iff.mp trimmed)
      | cons c cs =>
        simp only [Option.map_some, trimmed]
        refine .trimmed (Text.isCore_iff.mpr ?_)
        rw [trimmed, String.toList_ofList]
        exact ⟨rfl, List.cons_ne_nil c cs⟩

/-- A host to connect to is no blank text and has no white space at its ends. -/
theorem resolveHost_trimmed (host : Option String) :
    resolveHost host ≠ "" ∧ Text.trim (resolveHost host).toList = (resolveHost host).toList := by
  have under : ConnectsUnder host (resolveHost host) := connectsUnder_iff.mpr rfl
  generalize resolveHost host = name at under ⊢
  cases under with
  | absent | blank => decide
  | trimmed isCore =>
    obtain ⟨trimmed, nonblank⟩ := Text.isCore_iff.mp isCore
    refine ⟨fun empty => nonblank (String.toList_eq_nil_iff.mpr empty), ?_⟩
    rw [← trimmed, Text.trim_trim]

theorem resolvePort_ne_zero (port : UInt16) : resolvePort port ≠ 0 := by
  unfold resolvePort
  split
  · decide
  · assumption

end PeerTrust
