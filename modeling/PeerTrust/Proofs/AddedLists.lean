import Mathlib.Data.List.Basic
import Mathlib.Data.List.TakeWhile
import PeerTrust.Proofs.Directories
import PeerTrust.Proofs.HashedNames
import PeerTrust.Proofs.Verdicts

/-!
# Rejections as time goes by

A certificate that a store rejects is rejected later on, and also after lists were added behind
those that are there: appended to the lists of a file, in a directory that comes after the file, or
in new files of the directory. A list that was found is found again, since those before it are the
same, and a list that was not found before can only bring another reason to reject.

## Main definitions

* `FileSystem.KeepsFiles` — the files of a directory are still there
* `RevocationStore.lists` — the lists that are looked through for a name
* `RevocationStore.Extends` — these lists are followed by others at most
* `RevocationStore.Grows` — the ways in which lists are added

## Main results

* `RevocationStore.Grows.extends` — no way to add lists displaces those that are there
* `RevocationStore.rejection_persists` — rejections outlast time and added lists
-/

namespace PeerTrust

/-! ### Files that stay -/

namespace FileSystem

variable {fs fs' : FileSystem} {p : FilePath} {place found : Place}

/-- Whatever stands under a name stands there still, and paths set out from the same place. -/
structure Keeps (fs fs' : FileSystem) : Prop where
  working : fs'.working = fs.working
  entries : ∀ names entry,
    fs.entries.lookup names = some entry → fs'.entries.lookup names = some entry

/-- All files in a directory are still there, and hold what they held, or refuse to be read as they
did. Others may be new. -/
def KeepsFiles (fs fs' : FileSystem) (dir : FilePath) : Prop :=
  ∀ name file, '/' ∉ name.toList →
    fs.file? (dir.join name) = some file → fs'.file? (dir.join name) = some file

theorem Keeps.placeAt (kept : fs.Keeps fs') {names : List String}
    (stands : fs.placeAt names = .ok place) : fs'.placeAt names = .ok place := by
  obtain ⟨rfl, under⟩ := placeAt_eq_ok_iff.mp stands
  refine placeAt_eq_ok_iff.mpr ⟨rfl, ?_⟩
  unfold entry? at under ⊢
  split at under
  case isTrue root => rwa [if_pos root]
  case isFalse below =>
    rw [if_neg below]
    exact kept.entries _ _ under

theorem Keeps.step (kept : fs.Keeps fs') {word : List Char}
    (leads : fs.step place word = .ok found) : fs'.step place word = .ok found := by
  obtain ⟨names, ⟨content, fault⟩ | fault⟩ := place
  · exact leads
  · simp only [FileSystem.step] at leads ⊢
    split at leads
    case isTrue still => rwa [if_pos still]
    case isFalse moves =>
      rw [if_neg moves]
      split at leads
      case isTrue => cases leads
      case isFalse short =>
        rw [if_neg short]
        exact kept.placeAt leads

theorem Keeps.foldlM_step (kept : fs.Keeps fs') (words : List (List Char))
    (leads : words.foldlM fs.step place = .ok found) :
    words.foldlM fs'.step place = .ok found := by
  induction words generalizing place with
  | nil => exact leads
  | cons word words ih =>
    obtain ⟨next, step, rest⟩ := bind_eq_ok_iff.mp leads
    exact bind_eq_ok_iff.mpr ⟨next, kept.step step, ih rest⟩

/-- A path that leads somewhere leads there still. -/
theorem Keeps.locate (kept : fs.Keeps fs') (leads : fs.locate p = .ok found) :
    fs'.locate p = .ok found := by
  obtain ⟨wellFormed, walked⟩ := locate_eq_ok_iff.mp leads
  obtain ⟨start, stands, walked⟩ := bind_eq_ok_iff.mp walked
  have same : fs'.origin p = fs.origin p := by rw [origin, origin, kept.working]
  refine locate_eq_ok_iff.mpr ⟨wellFormed, bind_eq_ok_iff.mpr ⟨start, ?_, ?_⟩⟩
  · rw [same]
    exact kept.placeAt stands
  · exact kept.foldlM_step _ walked

theorem Keeps.file? (kept : fs.Keeps fs') {file : Except IoError Bytes}
    (stands : fs.file? p = some file) : fs'.file? p = some file := by
  obtain ⟨isFile, same⟩ := file?_eq_some_iff.mp stands
  obtain ⟨names, content, fault, leads⟩ := isFile_iff.mp isFile
  refine file?_eq_some_iff.mpr ⟨isFile_iff.mpr ⟨names, content, fault, kept.locate leads⟩, ?_⟩
  rwa [read, kept.locate leads, ← leads]

theorem lookup_put_of_ne {names other : List String} (ne : names ≠ other) (entry : FileEntry) :
    (fs.put other entry).entries.lookup names = fs.entries.lookup names := by
  have notOther : (names == other) = false := beq_eq_false_iff_ne.mpr ne
  unfold put
  split
  case h_2 => simp [List.lookup_append, List.lookup_cons, notOther]
  case h_1 =>
    dsimp only
    induction fs.entries with
    | nil => rfl
    | cons first rest ih =>
      rw [List.map_cons, List.lookup_cons, List.lookup_cons, ih]
      by_cases replaced : first.1 = other
      · rw [if_pos replaced, replaced, notOther]
      · rw [if_neg replaced]

theorem working_put (names : List String) (entry : FileEntry) :
    (fs.put names entry).working = fs.working := by
  unfold put
  split <;> rfl

theorem Keeps.trans {other : FileSystem} (kept : fs.Keeps fs') (also : fs'.Keeps other) :
    fs.Keeps other :=
  ⟨also.working.trans kept.working, fun names entry under =>
    also.entries names entry (kept.entries names entry under)⟩

theorem keeps_put_of_missing {names : List String} (missing : fs.entries.lookup names = none)
    (entry : FileEntry) : fs.Keeps (fs.put names entry) := by
  refine ⟨working_put .., fun others found under => ?_⟩
  have ne : others ≠ names := by
    rintro rfl
    exact nomatch missing.symm.trans under
  rwa [lookup_put_of_ne ne]

theorem keeps_putDirectories (fs : FileSystem) (names : List String) :
    fs.Keeps (fs.putDirectories names) := by
  unfold putDirectories
  generalize (List.range names.length).map _ = ways
  induction ways generalizing fs with
  | nil => exact ⟨rfl, fun _ _ under => under⟩
  | cons way ways ih =>
    rw [List.foldl_cons]
    refine Keeps.trans ?_ (ih _)
    split
    case isTrue => exact ⟨rfl, fun _ _ under => under⟩
    case isFalse missing =>
      exact keeps_put_of_missing (Option.not_isSome_iff_eq_none.mp missing) .directory

/-- A file under a name that is not taken leaves everything else where it was. -/
theorem keeps_write (new : fs.entries.lookup (fs.way p) = none) (content : Bytes) :
    fs.Keeps (fs.write p content) := by
  have kept := keeps_putDirectories fs (fs.way p).dropLast
  refine ⟨(working_put ..).trans kept.working, fun names entry under => ?_⟩
  have ne : names ≠ fs.way p := by
    rintro rfl
    exact nomatch new.symm.trans under
  rw [write, lookup_put_of_ne ne]
  exact kept.entries names entry under

theorem Keeps.keepsFiles (kept : fs.Keeps fs') (dir : FilePath) : fs.KeepsFiles fs' dir :=
  fun _ _ _ => kept.file?

end FileSystem

/-! ### Lists that are added -/

/-- What satisfies a weaker condition to begin with goes at least as far. -/
theorem takeWhile_isPrefix {α : Type} {p q : α → Bool} (list : List α)
    (weaker : ∀ a ∈ list, p a = true → q a = true) : list.takeWhile p <+: list.takeWhile q := by
  induction list with
  | nil => exact List.nil_prefix
  | cons first rest ih =>
    obtain ⟨head, tail⟩ := List.forall_mem_cons.mp weaker
    cases holds : p first with
    | false => simp [holds]
    | true =>
      rw [List.takeWhile_cons_of_pos holds, List.takeWhile_cons_of_pos (head holds)]
      exact (List.prefix_cons_inj first).mpr (ih tail)

namespace CrlSource

variable {fs fs' : FileSystem} {dir : FilePath}

/-- The file of an index is still there. -/
theorem file?_hashedPath_of_keepsFiles (kept : fs.KeepsFiles fs' dir) {hash : UInt32} {index : Nat}
    {file : Except IoError Bytes} (stands : fs.file? (hashedPath dir hash index) = some file) :
    fs'.file? (hashedPath dir hash index) = some file :=
  kept _ file (not_mem_hashedFileName (by decide) (by decide)) stands

/-- New files come after those that are there, or behind a gap. -/
theorem numberedFiles_isPrefix (kept : fs.KeepsFiles fs' dir) (hash : UInt32) :
    numberedFiles fs dir hash <+: numberedFiles fs' dir hash := by
  refine takeWhile_isPrefix _ fun path mem isFile => ?_
  obtain ⟨index, -, rfl⟩ := List.mem_map.mp mem
  have stands := FileSystem.file?_eq_some_iff.mpr ⟨isFile, rfl⟩
  exact (FileSystem.file?_eq_some_iff.mp (file?_hashedPath_of_keepsFiles kept stands)).1

/-- The files that were there hold the lists that they held. -/
theorem inFile_of_mem_numberedFiles (kept : fs.KeepsFiles fs' dir) {hash : UInt32}
    {path : FilePath} (mem : path ∈ numberedFiles fs dir hash) :
    RevocationList.inFile fs path = RevocationList.inFile fs' path := by
  unfold numberedFiles at mem
  have isFile : fs.isFile path = true := List.mem_takeWhile_imp mem
  have numbered := List.takeWhile_subset _ mem
  obtain ⟨index, -, rfl⟩ := List.mem_map.mp numbered
  have stands := FileSystem.file?_eq_some_iff.mpr ⟨isFile, rfl⟩
  obtain ⟨-, same⟩ := FileSystem.file?_eq_some_iff.mp (file?_hashedPath_of_keepsFiles kept stands)
  simp only [RevocationList.inFile, RevocationList.load, same]

theorem lists_hashedDir_isPrefix (kept : fs.KeepsFiles fs' dir) (hash : UInt32) :
    (hashedDir dir).lists fs hash <+: (hashedDir dir).lists fs' hash := by
  obtain ⟨more, files⟩ := numberedFiles_isPrefix kept hash
  rw [lists, lists, ← files, List.flatMap_append,
    List.flatMap_congr fun _ => inFile_of_mem_numberedFiles kept]
  exact List.prefix_append _ _

/-- Sources over files, one after the other. -/
def ofFiles (files : List (FilePath × List RevocationList)) : List CrlSource :=
  files.map fun (path, lists) => .file path lists

/-- What is held of files does not depend on the files any more. -/
theorem flatMap_lists_ofFiles (fs fs' : FileSystem) (hash : UInt32)
    (files : List (FilePath × List RevocationList)) :
    (ofFiles files).flatMap (·.lists fs hash) = (ofFiles files).flatMap (·.lists fs' hash) := by
  rw [ofFiles, List.flatMap_map, List.flatMap_map]
  rfl

end CrlSource

namespace RevocationStore

variable {fs fs' : FileSystem} {store store' : RevocationStore} {t t' : Moment}
  {cert : Certificate} {own above : Option RevocationList} {reason : RejectReason}

/-- The lists that are looked through for a name, in order. -/
def lists (fs : FileSystem) (store : RevocationStore) (name : Name) : List RevocationList :=
  store.sources.flatMap (·.lists fs name.hash)

/-- For any name, the lists that are looked through are those of before, and others after them. -/
def Extends (fs : FileSystem) (store : RevocationStore) (fs' : FileSystem)
    (store' : RevocationStore) : Prop :=
  ∀ name, store.lists fs name <+: store'.lists fs' name

/-- The ways in which lists are added to a store, while time changes the files. -/
inductive Grows (fs fs' : FileSystem) : RevocationStore → RevocationStore → Prop
  /-- Lists after those of the last file, where there is no directory. -/
  | lists (before : List (FilePath × List RevocationList)) (path path' : FilePath)
      (lists more : List RevocationList) :
      Grows fs fs' ⟨CrlSource.ofFiles before ++ [.file path lists]⟩
        ⟨CrlSource.ofFiles before ++ [.file path' (lists ++ more)]⟩
  /-- A directory after the files. -/
  | directory (files : List (FilePath × List RevocationList)) (dir : FilePath) :
      Grows fs fs' ⟨CrlSource.ofFiles files⟩ ⟨CrlSource.ofFiles files ++ [.hashedDir dir]⟩
  /-- New files in the directory. -/
  | files (files : List (FilePath × List RevocationList)) {dir : FilePath}
      (kept : fs.KeepsFiles fs' dir) :
      Grows fs fs' ⟨CrlSource.ofFiles files ++ [.hashedDir dir]⟩
        ⟨CrlSource.ofFiles files ++ [.hashedDir dir]⟩

/-- Whatever is added comes after the lists that are there. -/
theorem Grows.extends (grows : Grows fs fs' store store') : Extends fs store fs' store' := by
  intro name
  cases grows with
  | lists before path path' lists more =>
    rw [RevocationStore.lists, RevocationStore.lists, List.flatMap_append, List.flatMap_append,
      CrlSource.flatMap_lists_ofFiles fs fs', List.flatMap_singleton, List.flatMap_singleton,
      List.prefix_append_right_inj]
    exact List.prefix_append _ _
  | directory files dir =>
    rw [RevocationStore.lists, RevocationStore.lists, List.flatMap_append,
      CrlSource.flatMap_lists_ofFiles fs fs']
    exact List.prefix_append _ _
  | files files kept =>
    rw [RevocationStore.lists, RevocationStore.lists, List.flatMap_append, List.flatMap_append,
      CrlSource.flatMap_lists_ofFiles fs fs', List.prefix_append_right_inj,
      List.flatMap_singleton, List.flatMap_singleton]
    exact CrlSource.lists_hashedDir_isPrefix kept name.hash

theorem value_find (fs : FileSystem) (store : RevocationStore) (name : Name) :
    (store.find fs name).value = (store.lists fs name).find? (·.isIssuedBy name) :=
  findIn_eq_find? name store.sources

/-- The list that was found is found again. -/
theorem Extends.find_eq_some (added : Extends fs store fs' store') {name : Name}
    {list : RevocationList} (found : (store.find fs name).value = some list) :
    (store'.find fs' name).value = some list := by
  rw [value_find] at found ⊢
  exact (added name).find?_eq_some found

theorem inOrder_of_later {list : RevocationList} {key : SubjectPublicKeyInfo} (later : t ≤ t')
    (inOrder : list.InOrder key t') : list.InOrder key t := by
  obtain ⟨valid, next, due, notOver⟩ := inOrder
  exact ⟨valid, next, due, Int.le_trans later notOver⟩

/-- What is accepted after lists were added was accepted before. -/
theorem Extends.check_accept (added : Extends fs store fs' store') (later : t ≤ t')
    (accepted : (store'.check fs' cert t').value = .accept) :
    (store.check fs cert t).value = .accept := by
  obtain ⟨own, above⟩ := check_eq_accept_iff.mp accepted
  refine check_eq_accept_iff.mpr ⟨fun list found => ?_, fun list found => ?_⟩
  · exact inOrder_of_later later (own list (added.find_eq_some found))
  · exact above list (added.find_eq_some found)

/-- A reason that applies goes on to apply. -/
theorem applies_of_later (later : t ≤ t') (applies : reason.Applies own above cert t) :
    reason.Applies own above cert t' := by
  cases reason with
  | crlExpired =>
    obtain ⟨list, next, isOwn, due, past⟩ := applies
    exact ⟨list, next, isOwn, due, Int.lt_of_lt_of_le past later⟩
  | crlSignatureInvalid | crlFieldMissing | certificateRevoked => exact applies

/-- Only expiry depends on the time. -/
theorem applies_of_ne_crlExpired (timeless : reason ≠ .crlExpired)
    (applies : reason.Applies own above cert t') : reason.Applies own above cert t := by
  cases reason with
  | crlExpired => exact absurd rfl timeless
  | crlSignatureInvalid | crlFieldMissing | certificateRevoked => exact applies

/-- The first reason stays the first, unless it was the last and the list has expired since. -/
theorem isFirst_of_later {other : RejectReason} (later : t ≤ t')
    (before : reason.IsFirst own above cert t) (after : other.IsFirst own above cert t') :
    other = reason ∨ reason = .certificateRevoked ∧ other = .crlExpired := by
  have notAfter := after.2 reason (applies_of_later later before.1)
  cases other with
  | crlExpired =>
    cases reason with
    | crlSignatureInvalid | crlFieldMissing => exact absurd notAfter (by decide)
    | crlExpired => exact .inl rfl
    | certificateRevoked => exact .inr ⟨rfl, rfl⟩
  | crlSignatureInvalid | crlFieldMissing | certificateRevoked =>
    have notBefore := before.2 _ (applies_of_ne_crlExpired (by decide) after.1)
    exact .inl (RejectReason.order_injective (Nat.le_antisymm notAfter notBefore))

/-- With the same lists a rejection has the same reason later on, unless the list of the subject,
which was in order while that of the issuer named the certificate, has expired since. -/
theorem check_reject_of_later (same : ∀ name, store'.lists fs' name = store.lists fs name)
    (later : t ≤ t') (rejected : (store.check fs cert t).value = .reject reason) :
    (store'.check fs' cert t').value = .reject reason
      ∨ reason = .certificateRevoked ∧ (store'.check fs' cert t').value = .reject .crlExpired := by
  have find_eq (name : Name) : (store'.find fs' name).value = (store.find fs name).value := by
    rw [value_find, value_find, same]
  have before := isFirst_of_check rejected
  cases verdict : (store'.check fs' cert t').value with
  | accept =>
    have added : Extends fs store fs' store' := fun name =>
      ⟨[], by rw [List.append_nil, same]⟩
    exact nomatch rejected.symm.trans (added.check_accept later verdict)
  | reject other =>
    have after := isFirst_of_check verdict
    rw [find_eq, find_eq] at after
    rcases isFirst_of_later later before after with rfl | ⟨rfl, rfl⟩
    · exact .inl rfl
    · exact .inr ⟨rfl, rfl⟩

/-- A certificate that is rejected stays rejected, at any later time and after any lists were added
behind those that are looked through, in whichever way. While the lists are the same the reason is
too, but for a revoked certificate whose own list expires. -/
theorem rejection_persists (later : t ≤ t') (fs : FileSystem) (store : RevocationStore)
    (cert : Certificate) :
    (∀ (fs' : FileSystem) (store' : RevocationStore), Extends fs store fs' store' →
        (store.check fs cert t).value ≠ .accept → (store'.check fs' cert t').value ≠ .accept)
      ∧ (∀ (fs' : FileSystem) (store' : RevocationStore), Grows fs fs' store store' →
          Extends fs store fs' store')
      ∧ ∀ (fs' : FileSystem) (store' : RevocationStore) (reason : RejectReason),
          (∀ name, store'.lists fs' name = store.lists fs name) →
          (store.check fs cert t).value = .reject reason →
            (store'.check fs' cert t').value = .reject reason
              ∨ reason = .certificateRevoked
                ∧ (store'.check fs' cert t').value = .reject .crlExpired := by
  refine ⟨?_, fun _ _ => Grows.extends, fun _ _ _ same => check_reject_of_later same later⟩
  intro fs' store' added rejected accepted
  exact rejected (added.check_accept later accepted)

end RevocationStore

namespace NamelessIssuer

/-- A common name of one letter. -/
def letter : Name where
  raw := Der.encode 0x30 (Der.encode 0x31 (Der.encode 0x30
    (Der.encode 0x06 [0x55, 0x04, 0x03] ++ Der.encode 0x0c [0x61])))
  relatives := [[⟨⟨[0x55, 0x04, 0x03]⟩,
    ⟨.universal, false, Der.Tag.utf8String, [0x61], Der.encode 0x0c [0x61]⟩⟩]]

/-- A certificate with the serial 5 from the issuer, for a subject that has a name. -/
def subordinate : Certificate where
  serial := [0, 5]
  issuer := ⟨[0x30, 0x00], []⟩
  subject := letter
  publicKey := ⟨⟨⟨[0x2a]⟩, none⟩, []⟩
  algorithm := ⟨⟨[0x2a]⟩, none⟩
  signature := []
  signed := []

/-- The list of the issuer in a file, beside an empty directory. -/
def filesAndDirectory : FileSystem := ⟨[], [(["d"], .directory), (["c"], .file list)]⟩

end NamelessIssuer

open NamelessIssuer in
/-- Whatever is filed under the name of a revoked certificate, it stays rejected. -/
theorem RevocationStore.rejected_whatever_is_filed :
    ∃ store, build filesAndDirectory (some ⟨"c"⟩) (some ⟨"d"⟩) = .ok store
      ∧ (store.check filesAndDirectory subordinate 0).value = .reject .certificateRevoked
      ∧ (0 : Moment) ≤ 1
      ∧ ∀ content, (store.check (filesAndDirectory.write
          (CrlSource.hashedPath ⟨"d"⟩ subordinate.subject.hash 0) content) subordinate 1).value
            ≠ .accept := by
  have revoked : ((build filesAndDirectory (some ⟨"c"⟩) (some ⟨"d"⟩)).toOption.any fun store =>
      decide ((store.check filesAndDirectory subordinate 0).value
        = .reject .certificateRevoked)) = true := by
    decide +kernel
  have free : filesAndDirectory.entries.lookup (filesAndDirectory.way
      (CrlSource.hashedPath ⟨"d"⟩ subordinate.subject.hash 0)) = none := by
    decide +kernel
  obtain ⟨store, built, revoked⟩ := toOption_any_eq_true_iff.mp revoked
  have revoked := of_decide_eq_true revoked
  -- What was built is a source over the file and one over the directory.
  obtain rfl : store = ⟨CrlSource.ofFiles [(⟨"c"⟩, RevocationList.inFile filesAndDirectory ⟨"c"⟩)]
      ++ [.hashedDir ⟨"d"⟩]⟩ := congrArg RevocationStore.mk (sources_of_build built)
  refine ⟨_, built, revoked, by decide, fun content => ?_⟩
  obtain ⟨persists, ways, -⟩ := rejection_persists (by decide : (0 : Moment) ≤ 1)
    filesAndDirectory _ subordinate
  have kept := (FileSystem.keeps_write free content).keepsFiles ⟨"d"⟩
  refine persists _ _ (ways _ _ (.files _ kept)) ?_
  rw [revoked]
  exact fun h => nomatch h

end PeerTrust
