import PeerTrust.Crl.File
import PeerTrust.Proofs.Respellings
import PeerTrust.Trust.Material

/-!
# Trust material under other spellings

What is loaded from a path is loaded from another spelling of it, if both open what stands there or
neither does. For the anchors of a directory it is enough that this holds of the files in it that
have certificates, and it is necessary too: of two spellings, one opens all that the other does, so
that nothing can make up for a file that is left out.

## Main definitions

* `Agrees` — two results that are the same, or errors of the same variant
* `FileSystem.OpensAlike`, `FileSystem.ListsAlike`, `FileSystem.AnchorsAlike` — spellings of a path
  that make no difference

## Main results

* `loadChain_agrees`, `loadKey_agrees`, `loadAnchors_agrees` — what is loaded under such spellings
* `anchorsUnder_eq_iff` — the anchors of a directory are the same entry by entry or not at all
* `alike_of_loadAnchors` — the same anchors are loaded under such spellings only
-/

namespace PeerTrust

/-- Both results are successes that are the same in this sense, or both are errors of the same
variant. -/
inductive Agrees {α : Type} (same : α → α → Prop) : Except Error α → Except Error α → Prop
  | ok {a b : α} (h : same a b) : Agrees same (.ok a) (.ok b)
  | error {e e' : Error} (h : e.ctorIdx = e'.ctorIdx) : Agrees same (.error e) (.error e')

section Agrees

variable {ε α β : Type} {related : α → α → Prop} {same : β → β → Prop}

theorem Agrees.refl (x : Except Error α) : Agrees Eq x x := by
  cases x with
  | ok a => exact .ok rfl
  | error e => exact .error rfl

theorem Agrees.bind {x y : Except Error α} {f g : α → Except Error β} (h : Agrees related x y)
    (next : ∀ a b, related a b → Agrees same (f a) (g b)) : Agrees same (x >>= f) (y >>= g) := by
  cases h with
  | ok h => exact next _ _ h
  | error h => exact .error h

theorem Agrees.map {x y : Except Error α} {f : α → β} (h : Agrees related x y)
    (next : ∀ a b, related a b → same (f a) (f b)) : Agrees same (x.map f) (y.map f) := by
  cases h with
  | ok h => exact .ok (next _ _ h)
  | error h => exact .error h

theorem Agrees.eq_of_ok {a b : α} (h : Agrees Eq (.ok a) (.ok b)) : a = b := by
  cases h with
  | ok same => exact same

/-- Results with the same values are one success or two failures. -/
theorem eq_ok_or_error_of_toOption {x y : Except ε α} (alike : x.toOption = y.toOption) :
    (∃ a, x = .ok a ∧ y = .ok a) ∨ ∃ p q, x = .error p ∧ y = .error q := by
  cases x with
  | ok a => exact .inl ⟨a, rfl, toOption_eq_some_iff.mp alike.symm⟩
  | error p =>
    cases y with
    | ok b => cases alike
    | error q => exact .inr ⟨p, q, rfl, rfl⟩

theorem toOption_mapError {ε' : Type} (x : Except ε α) (f : ε → ε') :
    (x.mapError f).toOption = x.toOption := by
  cases x <;> rfl

/-- Problems that are told in an error of one variant do not count, only whether there is one. -/
theorem agrees_mapError {x y : Except ε α} {f g : ε → Error} (alike : x.toOption = y.toOption)
    (variant : ∀ p q, (f p).ctorIdx = (g q).ctorIdx) :
    Agrees Eq (x.mapError f) (y.mapError g) := by
  rcases eq_ok_or_error_of_toOption alike with ⟨a, rfl, rfl⟩ | ⟨p, q, rfl, rfl⟩
  · exact .refl _
  · exact .error (variant p q)

end Agrees

/-! ### Spellings that make no difference -/

namespace FileSystem

variable {fs : FileSystem} {p q : FilePath}

/-- A file that stands under a path can be opened under both spellings of it, or under neither. -/
def OpensAlike (fs : FileSystem) (p q : FilePath) : Prop :=
  ∀ names content, fs.LeadsTo p ⟨names, .file content⟩ → p.opensFile = q.opensFile

/-- A directory that stands under a path can be opened under both spellings of it, or under
neither. -/
def ListsAlike (fs : FileSystem) (p q : FilePath) : Prop :=
  ∀ place, fs.LeadsTo p place → place.isFile = false → p.isShort = q.isShort

/-- The certificates in a file, none if it is faulty. -/
def certificatesIn (content : Bytes) : List Bytes :=
  (Pem.contents? .certificate content).toOption.getD []

/-- Besides the directory, its files that hold certificates can be opened under both spellings or
under neither. -/
structure AnchorsAlike (fs : FileSystem) (p q : FilePath) : Prop where
  dir : fs.ListsAlike p q
  entries : ∀ names, fs.list p = .ok names → ∀ name ∈ names, ∀ way content,
    fs.LeadsTo (p.join name) ⟨way, .file content⟩ → certificatesIn content ≠ [] →
      (p.join name).opensFile = (q.join name).opensFile

theorem OpensAlike.of_opensFile (opens : p.opensFile = true) (opens' : q.opensFile = true) :
    fs.OpensAlike p q :=
  fun _ _ _ => opens.trans opens'.symm

theorem OpensAlike.toOption_read (alike : fs.OpensAlike p q) (same : p.components = q.components) :
    (fs.read p).toOption = (fs.read q).toOption := by
  ext content
  simp only [toOption_eq_some_iff, read_eq_ok_iff_leadsTo, ← leadsTo_congr same]
  refine and_congr_right fun ⟨names, leads⟩ => ?_
  rw [alike names content leads]

theorem ListsAlike.toOption_list (alike : fs.ListsAlike p q) (same : p.components = q.components) :
    (fs.list p).toOption = (fs.list q).toOption := by
  ext names
  simp only [toOption_eq_some_iff, list_eq_ok_iff_leadsTo, ← leadsTo_congr same]
  refine and_congr_right fun ⟨place, leads, holds⟩ => ?_
  rw [alike place leads (isFile_of_held? holds)]

theorem ListsAlike.isDirectory_eq (alike : fs.ListsAlike p q) (same : p.components = q.components) :
    fs.isDirectory p = fs.isDirectory q := by
  rw [Bool.eq_iff_iff, isDirectory_iff_leadsTo, isDirectory_iff_leadsTo]
  simp only [← leadsTo_congr same]
  refine and_congr_right fun ⟨place, leads, notFile⟩ => ?_
  rw [alike place leads notFile]

end FileSystem

/-! ### Loading -/

section Loading

open PeerTrust.FileSystem

variable {fs : FileSystem} {p q : FilePath} {α : Type}

theorem toOption_readCertificates (alike : (fs.read p).toOption = (fs.read q).toOption) :
    (readCertificates fs p).toOption = (readCertificates fs q).toOption := by
  unfold readCertificates
  rcases eq_ok_or_error_of_toOption alike with ⟨_, readable, same⟩ | ⟨_, _, fails, also⟩
  · rw [readable, same]
  · rw [fails, also]
    rfl

theorem toOption_readSomeCertificates (alike : (fs.read p).toOption = (fs.read q).toOption) :
    (readSomeCertificates fs p).toOption = (readSomeCertificates fs q).toOption := by
  unfold readSomeCertificates
  rcases eq_ok_or_error_of_toOption (toOption_readCertificates alike) with
    ⟨_, found, same⟩ | ⟨_, _, fails, also⟩
  · rw [found, same]
  · rw [fails, also]
    rfl

theorem toOption_readKey (alike : (fs.read p).toOption = (fs.read q).toOption) :
    (readKey fs p).toOption = (readKey fs q).toOption := by
  unfold readKey
  rcases eq_ok_or_error_of_toOption alike with ⟨_, readable, same⟩ | ⟨_, _, fails, also⟩
  · rw [readable, same]
  · rw [fails, also]
    rfl

theorem toOption_load (alike : (fs.read p).toOption = (fs.read q).toOption) :
    (RevocationList.load fs p).toOption = (RevocationList.load fs q).toOption := by
  unfold RevocationList.load
  rcases eq_ok_or_error_of_toOption alike with ⟨content, readable, same⟩ | ⟨_, _, fails, also⟩
  · rw [readable, same]
    exact (toOption_mapError _ _).trans (toOption_mapError _ _).symm
  · rw [fails, also]
    rfl

theorem loadChain_agrees (alike : (fs.read p).toOption = (fs.read q).toOption) :
    Agrees Eq (loadChain fs p) (loadChain fs q) :=
  agrees_mapError (toOption_readSomeCertificates alike) fun _ _ => rfl

theorem loadKey_agrees (alike : (fs.read p).toOption = (fs.read q).toOption) :
    Agrees Eq (loadKey fs p) (loadKey fs q) :=
  agrees_mapError (toOption_readKey alike) fun _ _ => rfl

theorem anchorsOfFile_agrees (alike : (fs.read p).toOption = (fs.read q).toOption) :
    Agrees Eq (anchorsOfFile fs p) (anchorsOfFile fs q) :=
  agrees_mapError (toOption_readSomeCertificates alike) fun _ _ => rfl

/-! ### Anchors of a directory -/

theorem value_anchorsOfEntry_of_unreadable (unreadable : ∀ content, fs.read p ≠ .ok content) :
    (anchorsOfEntry fs p).value = [] := by
  unfold anchorsOfEntry readCertificates
  cases readable : fs.read p with
  | error e => split <;> rfl
  | ok content => exact absurd readable (unreadable content)

/-- The anchors of a file are the certificates in it, if it can be opened. -/
theorem value_anchorsOfEntry {way : List String} {content : Bytes}
    (leads : fs.LeadsTo p ⟨way, .file content⟩) :
    (anchorsOfEntry fs p).value = if p.opensFile then certificatesIn content else [] := by
  cases opens : p.opensFile with
  | true =>
    have readable : fs.read p = .ok content := read_eq_ok_iff_leadsTo.mpr ⟨⟨way, leads⟩, opens⟩
    have loaded : (readCertificates fs p).toOption
        = (Pem.contents? .certificate content).toOption := by
      rw [readCertificates, readable]
      exact toOption_mapError _ _
    rw [anchorsOfEntry, if_pos (isFile_of_read readable), if_pos rfl, certificatesIn, ← loaded]
    cases readCertificates fs p <;> rfl
  | false =>
    refine value_anchorsOfEntry_of_unreadable fun content readable => ?_
    exact Bool.false_ne_true (opens.symm.trans (opensFile_of_read readable))

theorem value_anchorsOfEntry_of_not_leadsTo
    (noFile : ∀ way content, ¬fs.LeadsTo p ⟨way, .file content⟩) :
    (anchorsOfEntry fs p).value = [] := by
  refine value_anchorsOfEntry_of_unreadable fun content readable => ?_
  obtain ⟨⟨way, leads⟩, -⟩ := read_eq_ok_iff_leadsTo.mp readable
  exact noFile way content leads

theorem value_anchorsOfEntries (paths : List FilePath) :
    (anchorsOfEntries fs paths).value
      = paths.flatMap fun path => (anchorsOfEntry fs path).value := by
  induction paths with
  | nil => rfl
  | cons path rest ih =>
    rw [List.flatMap_cons, ← ih]
    rfl

/-- The anchors of the entries of a directory, by their names. -/
def anchorsUnder (fs : FileSystem) (dir : FilePath) (names : List String) : List Bytes :=
  names.flatMap fun name => (anchorsOfEntry fs (dir.join name)).value

theorem value_anchorsOfDir_eq_ok_iff {dir : FilePath} {anchors : List Bytes} :
    (anchorsOfDir fs dir).value = .ok anchors ↔
      ∃ names, fs.list dir = .ok names ∧ anchors = anchorsUnder fs dir names := by
  unfold anchorsOfDir
  cases fs.list dir with
  | error e => simp
  | ok names => simp [value_anchorsOfEntries, anchorsUnder, List.flatMap_map, eq_comm]

/-- What an entry holds under two spellings of the directory. -/
theorem value_anchorsOfEntry_join_iff (same : p.components = q.components) (name : String) :
    (anchorsOfEntry fs (p.join name)).value = (anchorsOfEntry fs (q.join name)).value ↔
      ∀ way content, fs.LeadsTo (p.join name) ⟨way, .file content⟩ →
        certificatesIn content ≠ [] → (p.join name).opensFile = (q.join name).opensFile := by
  have sameEntry := FilePath.same_join same name
  by_cases stands : ∃ way content, fs.LeadsTo (p.join name) ⟨way, .file content⟩
  · obtain ⟨way, content, leads⟩ := stands
    rw [value_anchorsOfEntry leads, value_anchorsOfEntry ((leadsTo_congr sameEntry).mp leads)]
    constructor
    · intro held other found leadsAlso some_found
      obtain ⟨rfl, rfl⟩ : other = way ∧ found = content := by
        simpa using leadsAlso.unique leads
      -- Where only one spelling opens the file, the other leaves its certificates out.
      cases opens : (p.join name).opensFile <;> cases opens' : (q.join name).opensFile
      · rfl
      · rw [opens, opens', if_neg Bool.false_ne_true, if_pos rfl] at held
        exact absurd held.symm some_found
      · rw [opens, opens', if_pos rfl, if_neg Bool.false_ne_true] at held
        exact absurd held some_found
      · rfl
    · intro alike
      by_cases nothing : certificatesIn content = []
      · rw [nothing, ite_self, ite_self]
      · rw [alike way content leads nothing]
  · have noFile : ∀ way content, ¬fs.LeadsTo (p.join name) ⟨way, .file content⟩ :=
      fun way content leads => stands ⟨way, content, leads⟩
    have noFileAlso : ∀ way content, ¬fs.LeadsTo (q.join name) ⟨way, .file content⟩ :=
      fun way content leads => noFile way content ((leadsTo_congr sameEntry).mpr leads)
    rw [value_anchorsOfEntry_of_not_leadsTo noFile,
      value_anchorsOfEntry_of_not_leadsTo noFileAlso]
    exact iff_of_true rfl fun way content leads => absurd leads (noFile way content)

theorem anchorsOfDir_agrees (same : p.components = q.components) (alike : fs.AnchorsAlike p q) :
    Agrees Eq (anchorsOfDir fs p).value (anchorsOfDir fs q).value := by
  rcases eq_ok_or_error_of_toOption (alike.dir.toOption_list same) with
    ⟨names, listed, also⟩ | ⟨_, _, fails, also⟩
  · have entries : anchorsUnder fs p names = anchorsUnder fs q names :=
      List.flatMap_congr fun name mem =>
        (value_anchorsOfEntry_join_iff same name).mpr (alike.entries names listed name mem)
    rw [value_anchorsOfDir_eq_ok_iff.mpr ⟨names, listed, rfl⟩,
      value_anchorsOfDir_eq_ok_iff.mpr ⟨names, also, entries⟩]
    exact .refl _
  · simp only [anchorsOfDir, fails, also]
    exact .error rfl

section LeftOut

variable {β γ : Type} {f g : β → List γ} {as : List β}

theorem length_flatMap_le (kept : ∀ a ∈ as, g a = f a ∨ g a = []) :
    (as.flatMap g).length ≤ (as.flatMap f).length := by
  induction as with
  | nil => exact Nat.le_refl 0
  | cons a as ih =>
    obtain ⟨first, rest⟩ := List.forall_mem_cons.mp kept
    rw [List.flatMap_cons, List.flatMap_cons, List.length_append, List.length_append]
    refine Nat.add_le_add ?_ (ih rest)
    rcases first with first | first
    · exact Nat.le_of_eq (congrArg List.length first)
    · rw [first]
      exact Nat.zero_le _

/-- Of lists in a row some may be left out. The row stays the same exactly if each list does. -/
theorem flatMap_eq_flatMap_iff (kept : ∀ a ∈ as, g a = f a ∨ g a = []) :
    as.flatMap f = as.flatMap g ↔ ∀ a ∈ as, f a = g a := by
  refine ⟨fun same => ?_, fun same => List.flatMap_congr same⟩
  induction as with
  | nil => exact fun a mem => nomatch mem
  | cons a as ih =>
    obtain ⟨first, rest⟩ := List.forall_mem_cons.mp kept
    rw [List.flatMap_cons, List.flatMap_cons] at same
    -- Had the first list been left out, the others could not make up for its length.
    have head : f a = g a := by
      rcases first with first | first
      · exact first.symm
      · have missing := congrArg List.length same
        have bound := length_flatMap_le rest
        simp only [List.length_append, first, List.length_nil] at missing
        rw [first]
        exact List.length_eq_zero_iff.mp (by omega)
    rw [head, List.append_cancel_left_eq] at same
    exact List.forall_mem_cons.mpr ⟨head, ih rest same⟩

end LeftOut

/-- Under a spelling that opens no other files, an entry holds what it held or nothing. -/
theorem value_anchorsOfEntry_join_or {name : String} (same : p.components = q.components)
    (fewer : (q.join name).opensFile = true → (p.join name).opensFile = true) :
    (anchorsOfEntry fs (q.join name)).value = (anchorsOfEntry fs (p.join name)).value
      ∨ (anchorsOfEntry fs (q.join name)).value = [] := by
  have sameEntry := FilePath.same_join same name
  by_cases stands : ∃ way content, fs.LeadsTo (q.join name) ⟨way, .file content⟩
  · obtain ⟨way, content, leads⟩ := stands
    rw [value_anchorsOfEntry leads, value_anchorsOfEntry ((leadsTo_congr sameEntry).mpr leads)]
    cases opens : (q.join name).opensFile with
    | true => exact .inl (by rw [fewer opens])
    | false => exact .inr rfl
  · exact .inr (value_anchorsOfEntry_of_not_leadsTo fun way content leads =>
      stands ⟨way, content, leads⟩)

/-- The anchors of a directory are the same under both spellings only if those of each entry are. -/
theorem anchorsUnder_eq_iff {names : List String} (same : p.components = q.components) :
    anchorsUnder fs p names = anchorsUnder fs q names ↔
      ∀ name ∈ names,
        (anchorsOfEntry fs (p.join name)).value = (anchorsOfEntry fs (q.join name)).value := by
  rcases FilePath.opensFile_join_total same with fewer | fewer
  · exact flatMap_eq_flatMap_iff fun name _ => value_anchorsOfEntry_join_or same (fewer name)
  · rw [eq_comm, anchorsUnder, anchorsUnder, flatMap_eq_flatMap_iff fun name _ =>
      value_anchorsOfEntry_join_or same.symm (fewer name)]
    exact forall₂_congr fun name _ => eq_comm

theorem anchorsAlike_of_eq {names : List String} (same : p.components = q.components)
    (listed : fs.list p = .ok names) (listedAlso : fs.list q = .ok names)
    (equal : anchorsUnder fs p names = anchorsUnder fs q names) : fs.AnchorsAlike p q where
  dir _ _ _ :=
    (list_eq_ok_iff_leadsTo.mp listed).2.trans (list_eq_ok_iff_leadsTo.mp listedAlso).2.symm
  entries others listedThen name mem := by
    obtain rfl : others = names := Except.ok.inj (listedThen.symm.trans listed)
    have entry := (anchorsUnder_eq_iff same).mp equal name mem
    exact (value_anchorsOfEntry_join_iff same name).mp entry

/-! ### Optional paths -/

theorem FilePath.none_or_some_of_same {old new : Option FilePath}
    (same : old.map FilePath.components = new.map FilePath.components) :
    old = none ∧ new = none
      ∨ ∃ p q, old = some p ∧ new = some q ∧ p.components = q.components := by
  cases old with
  | none => exact .inl ⟨rfl, Option.map_eq_none_iff.mp same.symm⟩
  | some p =>
    obtain ⟨q, isNew, sameComponents⟩ := Option.map_eq_some_iff.mp same.symm
    exact .inr ⟨p, q, rfl, isNew, sameComponents.symm⟩

theorem anchorsOf_agrees {load : FilePath → Logged (Except Error (List Bytes))}
    {old new : Option FilePath}
    (same : old.map FilePath.components = new.map FilePath.components)
    (each : ∀ p ∈ old, ∀ q ∈ new, p.components = q.components →
      Agrees Eq (load p).value (load q).value) :
    Agrees Eq (anchorsOf load old).value (anchorsOf load new).value := by
  obtain ⟨rfl, rfl⟩ | ⟨p, q, rfl, rfl, sameComponents⟩ := FilePath.none_or_some_of_same same
  · exact .refl _
  · exact each p rfl q rfl sameComponents

theorem anchorsOf_file_agrees {file file' : Option FilePath}
    (same : file.map FilePath.components = file'.map FilePath.components)
    (alike : ∀ p ∈ file, ∀ q ∈ file', fs.OpensAlike p q) :
    Agrees Eq (anchorsOf (fun path => return anchorsOfFile fs path) file).value
      (anchorsOf (fun path => return anchorsOfFile fs path) file').value :=
  anchorsOf_agrees same fun p isP q isQ same =>
    anchorsOfFile_agrees ((alike p isP q isQ).toOption_read same)

/-- Anchors of the file and of the directory, of which there must be one. -/
theorem value_loadAnchors (fs : FileSystem) (file dir : Option FilePath) :
    (loadAnchors fs file dir).value = (do
      let fromFile ← (anchorsOf (fun path => return anchorsOfFile fs path) file).value
      let fromDir ← (anchorsOf (anchorsOfDir fs) dir).value
      if fromFile ++ fromDir = [] then .error (.trustAnchorLoadFailed .noneFound)
      else .ok (fromFile ++ fromDir)) := by
  rw [loadAnchors, Logged.value_bind]
  cases (anchorsOf (fun path => return anchorsOfFile fs path) file).value with
  | error e => rfl
  | ok fromFile =>
    show (anchorsOf (anchorsOfDir fs) dir >>= _).value = Except.bind _ _
    rw [Logged.value_bind]
    cases (anchorsOf (anchorsOfDir fs) dir).value with
    | error e => rfl
    | ok fromDir =>
      show Logged.value (ite _ _ _) = ite _ _ _
      split <;> rfl

theorem loadAnchors_agrees {file file' dir dir' : Option FilePath}
    (sameFile : file.map FilePath.components = file'.map FilePath.components)
    (sameDir : dir.map FilePath.components = dir'.map FilePath.components)
    (files : ∀ p ∈ file, ∀ q ∈ file', fs.OpensAlike p q)
    (dirs : ∀ p ∈ dir, ∀ q ∈ dir', fs.AnchorsAlike p q) :
    Agrees Eq (loadAnchors fs file dir).value (loadAnchors fs file' dir').value := by
  rw [value_loadAnchors, value_loadAnchors]
  refine (anchorsOf_file_agrees sameFile files).bind ?_
  rintro fromFile _ rfl
  refine (anchorsOf_agrees sameDir fun p isP q isQ same =>
    anchorsOfDir_agrees same (dirs p isP q isQ)).bind ?_
  rintro fromDir _ rfl
  exact .refl _

/-! ### What loading shows -/

theorem opensFile_of_readSomeCertificates {found : List Bytes}
    (loaded : readSomeCertificates fs p = .ok found) : p.opensFile = true := by
  cases readable : fs.read p with
  | error e => simp [readSomeCertificates, readCertificates, readable] at loaded
  | ok content => exact opensFile_of_read readable

theorem opensFile_of_readKey {key : PrivateKey} (loaded : readKey fs p = .ok key) :
    p.opensFile = true := by
  cases readable : fs.read p with
  | error e => simp [readKey, readable] at loaded
  | ok content => exact opensFile_of_read readable

theorem opensFile_of_load {lists : List RevocationList}
    (loaded : RevocationList.load fs p = .ok lists) : p.opensFile = true := by
  cases readable : fs.read p with
  | error e => simp [RevocationList.load, readable] at loaded
  | ok content => exact opensFile_of_read readable

/-- Anchors come of the file first. -/
theorem value_loadAnchors_eq_ok {file dir : Option FilePath} {anchors : List Bytes}
    (loaded : (loadAnchors fs file dir).value = .ok anchors) :
    ∃ fromFile fromDir,
      (anchorsOf (fun path => return anchorsOfFile fs path) file).value = .ok fromFile
        ∧ (anchorsOf (anchorsOfDir fs) dir).value = .ok fromDir
        ∧ anchors = fromFile ++ fromDir := by
  rw [value_loadAnchors] at loaded
  obtain ⟨fromFile, filed, loaded⟩ := bind_eq_ok_iff.mp loaded
  obtain ⟨fromDir, listed, loaded⟩ := bind_eq_ok_iff.mp loaded
  refine ⟨fromFile, fromDir, filed, listed, ?_⟩
  split at loaded
  · cases loaded
  · exact (Except.ok.inj loaded).symm

/-- Directories under which the same anchors are found are the same for all that counts. -/
theorem anchorsAlike_of_anchorsOfDir {anchors : List Bytes} (same : p.components = q.components)
    (found : (anchorsOfDir fs p).value = .ok anchors)
    (also : (anchorsOfDir fs q).value = .ok anchors) : fs.AnchorsAlike p q := by
  obtain ⟨names, listed, isFound⟩ := value_anchorsOfDir_eq_ok_iff.mp found
  obtain ⟨names', listed', isFound'⟩ := value_anchorsOfDir_eq_ok_iff.mp also
  obtain rfl : names = names' := by
    have short := (list_eq_ok_iff_leadsTo.mp listed').2
    exact Except.ok.inj (((list_of_same same listed).mpr short).symm.trans listed')
  exact anchorsAlike_of_eq same listed listed' (isFound.symm.trans isFound')

/-- If the same anchors are loaded under both spellings, these make no difference. -/
theorem alike_of_loadAnchors {file file' dir dir' : Option FilePath} {anchors : List Bytes}
    (sameFile : file.map FilePath.components = file'.map FilePath.components)
    (sameDir : dir.map FilePath.components = dir'.map FilePath.components)
    (loaded : (loadAnchors fs file dir).value = .ok anchors)
    (also : (loadAnchors fs file' dir').value = .ok anchors) :
    (∀ p ∈ file, ∀ q ∈ file', fs.OpensAlike p q) ∧
      ∀ p ∈ dir, ∀ q ∈ dir', fs.AnchorsAlike p q := by
  obtain ⟨fromFile, fromDir, filed, listed, rfl⟩ := value_loadAnchors_eq_ok loaded
  obtain ⟨fromFile', fromDir', filed', listed', both⟩ := value_loadAnchors_eq_ok also
  have files : ∀ p ∈ file, ∀ q ∈ file', fs.OpensAlike p q := by
    rintro p rfl q rfl
    exact .of_opensFile (opensFile_of_readSomeCertificates (mapError_eq_ok_iff.mp filed))
      (opensFile_of_readSomeCertificates (mapError_eq_ok_iff.mp filed'))
  refine ⟨files, ?_⟩
  rintro p rfl q rfl
  have agreed := anchorsOf_file_agrees sameFile files
  rw [filed, filed'] at agreed
  obtain rfl := agreed.eq_of_ok
  -- The files have given the same, and so have the directories.
  obtain rfl := List.append_cancel_left both
  exact anchorsAlike_of_anchorsOfDir (Option.some.inj sameDir) listed listed'

end Loading

end PeerTrust
