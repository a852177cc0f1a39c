import Mathlib.Data.List.Basic
import Mathlib.Data.List.TakeWhile
import PeerTrust.Proofs.Directories
import PeerTrust.Proofs.Verdicts

/-!
# Look-ups in a directory

A look-up in a directory of lists goes through the files under the hash of the name, by index, up to
the first index without a file. It finds the first list issued under the name that these files hold,
and tells of every file that it had to pass over on the way. So it depends on nothing else in the
directory, and since a store keeps the path of a directory and none of its files, it depends on
nothing that was there before either.

## Main definitions

* `FileSystem.Change` — a change of files
* `CrlSource.SameUnder` — two states of a directory with the same files under a hash
* `CrlSource.unloadable?`, `CrlSource.passedOver` — the files that a look-up tells of
* `RevocationStore.Use`, `RevocationStore.answers` — checks between changes of files

## Main results

* `CrlSource.walk_eq` — what a walk along files finds, and what it tells
* `RevocationStore.check_of_sameUnder` — files under other hashes do not count
* `RevocationStore.answers_of_build` — neither does what was in the directory before
* `RevocationStore.directory_lookup_exact` — what this says of a directory
-/

namespace PeerTrust

namespace FileSystem

/-- A change of files. -/
inductive Change
  | write (path : FilePath) (content : Bytes)
  | makeDirectory (path : FilePath)
  | remove (path : FilePath)
  deriving DecidableEq, Repr

/-- The files after a change. -/
def change (fs : FileSystem) : Change → FileSystem
  | .write path content => fs.write path content
  | .makeDirectory path => fs.makeDirectory path
  | .remove path => fs.remove path

end FileSystem

/-- The same files hold the same lists. -/
theorem RevocationList.load_of_file? {fs fs' : FileSystem} {p : FilePath}
    (isFile : fs.isFile p = true) (same : fs.file? p = fs'.file? p) : load fs p = load fs' p := by
  have stands := FileSystem.file?_eq_some_iff.mpr ⟨isFile, rfl⟩
  obtain ⟨-, readAlike⟩ := FileSystem.file?_eq_some_iff.mp (same ▸ stands)
  simp only [load, readAlike]

namespace CrlSource

variable {fs fs' : FileSystem} {dir : FilePath} {hash : UInt32} {name : Name}

/-! ### What a walk tells -/

/-- What is told of a file that cannot be read or parsed. -/
def unloadable? (fs : FileSystem) (path : FilePath) : Option Event :=
  match RevocationList.load fs path with
  | .ok _ => none
  | .error problem => some (.crlUnreadable path problem)

/-- The files up to the one that holds a list issued under a name. -/
def passedOver (fs : FileSystem) (name : Name) (paths : List FilePath) : List FilePath :=
  paths.takeWhile fun path => !(RevocationList.inFile fs path).any (·.isIssuedBy name)

theorem events_walk (paths : List FilePath) :
    (walk fs name paths).events = (passedOver fs name paths).filterMap (unloadable? fs) := by
  induction paths with
  | nil => rfl
  | cons path rest ih =>
    unfold passedOver at ih ⊢
    rw [List.takeWhile_cons, walk]
    cases loaded : RevocationList.load fs path with
    | error problem => simp [RevocationList.inFile, unloadable?, loaded, ih]
    | ok lists =>
      cases found : lists.find? (·.isIssuedBy name) with
      | none =>
        have unissued : lists.any (·.isIssuedBy name) = false := by
          simpa using List.find?_eq_none.mp found
        simp [RevocationList.inFile, unloadable?, loaded, found, unissued, ih]
      | some list =>
        have fits := List.find?_some found
        have issued : lists.any (·.isIssuedBy name) = true :=
          List.any_eq_true.mpr ⟨list, List.mem_of_find?_eq_some found, fits⟩
        simp [RevocationList.inFile, loaded, found, issued]

/-- A walk finds the first list that all files in a row hold, and tells of those before it that
cannot be loaded, once each. -/
theorem walk_eq (paths : List FilePath) :
    walk fs name paths
      = ⟨(paths.flatMap (RevocationList.inFile fs)).find? (·.isIssuedBy name),
        (passedOver fs name paths).filterMap (unloadable? fs)⟩ := by
  rw [← walk_eq_find?, ← events_walk]

/-- A look-up in a directory is a walk along the files under the hash of the name. -/
theorem find_hashedDir (fs : FileSystem) (dir : FilePath) (name : Name) :
    find fs name (.hashedDir dir)
      = ⟨((numberedFiles fs dir name.hash).flatMap (RevocationList.inFile fs)).find?
          (·.isIssuedBy name),
        (passedOver fs name (numberedFiles fs dir name.hash)).filterMap (unloadable? fs)⟩ := by
  rw [find, candidates_eq_numberedFiles, walk_eq]

/-- All that a walk tells is a warning. -/
theorem level_of_mem_unloadable {paths : List FilePath} {e : Event}
    (told : e ∈ paths.filterMap (unloadable? fs)) : e.level = .warn := by
  obtain ⟨path, -, isEvent⟩ := List.mem_filterMap.mp told
  unfold unloadable? at isEvent
  split at isEvent
  · cases isEvent
  · obtain rfl := Option.some.inj isEvent
    rfl

/-! ### Where a walk ends -/

/-- The files under a hash are those below the first index without a file. -/
theorem numberedFiles_of_stop {stop : UInt32}
    (before : ∀ index < stop, fs.isFile (dir.join (hashedFileName hash index)) = true)
    (missing : fs.isFile (dir.join (hashedFileName hash stop)) = false) :
    numberedFiles fs dir hash = (List.range stop.toNat).map (hashedPath dir hash) := by
  have isFile : ∀ index < stop.toNat, fs.isFile (hashedPath dir hash index) = true := by
    intro index below
    have small : index < UInt32.size := Nat.lt_trans below stop.toNat_lt
    refine before _ (UInt32.lt_iff_toNat_lt.mpr ?_)
    rwa [UInt32.toNat_ofNat_of_lt' small]
  by_cases room : stop.toNat < maxFiles
  · refine numberedFiles_of_gap room isFile ?_
    rwa [hashedPath, UInt32.ofNat_toNat]
  · -- The last number is not used as an index, so that a file under it would not be looked at.
    have last : stop.toNat = maxFiles := by
      have bound := stop.toNat_lt
      simp only [maxFiles, UInt32.size] at room ⊢
      omega
    rw [last] at isFile ⊢
    refine List.takeWhile_eq_self_iff.mpr fun path mem => ?_
    obtain ⟨index, below, rfl⟩ := List.mem_map.mp mem
    exact isFile index (List.mem_range.mp below)

/-! ### What a look-up depends on -/

/-- The files under a hash are the same in two states of a directory, also in whether they can be
read. -/
def SameUnder (fs fs' : FileSystem) (dir : FilePath) (hash : UInt32) : Prop :=
  ∀ index : UInt32, fs.file? (dir.join (hashedFileName hash index))
    = fs'.file? (dir.join (hashedFileName hash index))

theorem filesFrom_of_sameUnder (same : SameUnder fs fs' dir hash) (room index : Nat) :
    filesFrom fs dir hash room index = filesFrom fs' dir hash room index := by
  induction room generalizing index with
  | zero => rfl
  | succ room ih =>
    have isFile : fs.isFile (hashedPath dir hash index)
        = fs'.isFile (hashedPath dir hash index) := by
      rw [FileSystem.isFile_eq_isSome_file?, FileSystem.isFile_eq_isSome_file?, hashedPath, same]
    simp only [filesFrom, isFile, ih]

theorem load_of_mem_candidates (same : SameUnder fs fs' dir hash) {path : FilePath}
    (mem : path ∈ candidates fs dir hash) :
    RevocationList.load fs path = RevocationList.load fs' path := by
  rw [candidates_eq_numberedFiles, numberedFiles] at mem
  have isFile : fs.isFile path = true := List.mem_takeWhile_imp mem
  obtain ⟨index, -, rfl⟩ := List.mem_map.mp (List.takeWhile_subset _ mem)
  exact RevocationList.load_of_file? isFile (same _)

theorem walk_of_load {paths : List FilePath}
    (same : ∀ path ∈ paths, RevocationList.load fs path = RevocationList.load fs' path) :
    walk fs name paths = walk fs' name paths := by
  induction paths with
  | nil => rfl
  | cons path rest ih =>
    obtain ⟨first, others⟩ := List.forall_mem_cons.mp same
    rw [walk, walk, first, ih others]

/-- A look-up in a directory depends on the files under the hash of the name only. -/
theorem find_of_sameUnder (same : SameUnder fs fs' dir name.hash) :
    find fs name (.hashedDir dir) = find fs' name (.hashedDir dir) := by
  have files : candidates fs' dir name.hash = candidates fs dir name.hash :=
    (filesFrom_of_sameUnder same _ _).symm
  rw [find, find, files]
  exact walk_of_load fun _ => load_of_mem_candidates same

end CrlSource

namespace RevocationStore

variable {fs fs' built : FileSystem} {store : RevocationStore} {cert : Certificate} {now : Moment}
  {dir : FilePath}

theorem findIn_of_sameUnder {name : Name} {sources : List CrlSource}
    (same : ∀ dir, .hashedDir dir ∈ sources → CrlSource.SameUnder fs fs' dir name.hash) :
    findIn fs name sources = findIn fs' name sources := by
  induction sources with
  | nil => rfl
  | cons source rest ih =>
    have first : source.find fs name = source.find fs' name := by
      cases source with
      | file path lists => rfl
      | hashedDir dir => exact CrlSource.find_of_sameUnder (same dir List.mem_cons_self)
    rw [findIn, findIn, first, ih fun dir mem => same dir (List.mem_cons_of_mem _ mem)]

/-- A verdict, with what is told on the way, depends on the files under two hashes only. -/
theorem check_of_sameUnder
    (same : ∀ dir, .hashedDir dir ∈ store.sources →
      CrlSource.SameUnder fs fs' dir cert.subject.hash
        ∧ CrlSource.SameUnder fs fs' dir cert.issuer.hash) :
    store.check fs cert now = store.check fs' cert now := by
  have own : store.find fs cert.subject = store.find fs' cert.subject :=
    findIn_of_sameUnder fun dir mem => (same dir mem).1
  have above : store.find fs cert.issuer = store.find fs' cert.issuer :=
    findIn_of_sameUnder fun dir mem => (same dir mem).2
  simp only [check, checkFound, own, above]

/-! ### Checks between changes -/

/-- What happens to a store over time: files change, and certificates are checked. -/
inductive Use
  | change (what : FileSystem.Change)
  | check (cert : Certificate) (now : Moment)

/-- The answers to the checks, in order. -/
def answers {α : Type} (answer : FileSystem → Certificate → Moment → α) :
    FileSystem → List Use → List α
  | _, [] => []
  | fs, .change what :: rest => answers answer (fs.change what) rest
  | fs, .check cert now :: rest => answer fs cert now :: answers answer fs rest

/-- Whenever a certificate is checked, the directory is in place. -/
def KeepsDirectory (dir : FilePath) : FileSystem → List Use → Prop
  | _, [] => True
  | fs, .change what :: rest => KeepsDirectory dir (fs.change what) rest
  | fs, .check _ _ :: rest => fs.isDirectory dir = true ∧ KeepsDirectory dir fs rest

/-- A store over a directory alone is its path, as long as the directory is there. -/
theorem build_hashedDir (isDir : fs.isDirectory dir = true) :
    build fs none (some dir) = .ok ⟨[.hashedDir dir]⟩ := by
  have source : dirSource fs dir = .ok (.hashedDir dir) := if_pos isDir
  simp only [build, Option.toList_none, Option.toList_some, List.mapM_nil, List.mapM_cons, source]
  rfl

/-- Whatever became of the files since a store was built, it answers as one built anew. -/
theorem answers_of_build (made : build built none (some dir) = .ok store) {uses : List Use}
    (keeps : KeepsDirectory dir fs uses) :
    answers (fun fs cert now => .ok (store.check fs cert now)) fs uses
      = answers (fun fs cert now => (build fs none (some dir)).map (·.check fs cert now)) fs
          uses := by
  have sources := sources_of_build made
  induction uses generalizing fs with
  | nil => rfl
  | cons use rest ih =>
    cases use with
    | change what => exact ih keeps
    | check cert now =>
      obtain ⟨isDir, keeps⟩ := keeps
      obtain rfl : store = ⟨[.hashedDir dir]⟩ := congrArg mk sources
      rw [answers, answers, ih keeps, build_hashedDir isDir]
      rfl

/-- A look-up in a directory finds the first list issued under the name in the files under its hash,
which end at the first index without a file, and warns of each file on the way that it cannot load.
Two states of the files with the same files under the hashes of a certificate's names give the same
verdict on it. A store over a directory answers every check as one that is built anew at that
moment, whatever was written, removed or checked before. -/
theorem directory_lookup_exact (dir : FilePath) :
    (∀ (fs : FileSystem) (name : Name),
        let found := CrlSource.find fs name (.hashedDir dir)
        found = ⟨((CrlSource.numberedFiles fs dir name.hash).flatMap
              (RevocationList.inFile fs)).find? (·.isIssuedBy name),
            (CrlSource.passedOver fs name (CrlSource.numberedFiles fs dir name.hash)).filterMap
              (CrlSource.unloadable? fs)⟩
          ∧ ∀ e ∈ found.events, e.level = .warn)
      ∧ (∀ (fs : FileSystem) (hash stop : UInt32),
          (∀ index < stop, fs.isFile (dir.join (hashedFileName hash index)) = true) →
          fs.isFile (dir.join (hashedFileName hash stop)) = false →
            CrlSource.numberedFiles fs dir hash
              = (List.range stop.toNat).map (CrlSource.hashedPath dir hash))
      ∧ (∀ (fs fs' : FileSystem) (store : RevocationStore) (cert : Certificate) (now : Moment),
          (∀ other, .hashedDir other ∈ store.sources → other = dir) →
          CrlSource.SameUnder fs fs' dir cert.subject.hash →
          CrlSource.SameUnder fs fs' dir cert.issuer.hash →
            store.check fs cert now = store.check fs' cert now)
      ∧ ∀ (built fs : FileSystem) (store : RevocationStore) (uses : List Use),
          build built none (some dir) = .ok store → KeepsDirectory dir fs uses →
            answers (fun fs cert now => .ok (store.check fs cert now)) fs uses
              = answers (fun fs cert now => (build fs none (some dir)).map (·.check fs cert now)) fs
                  uses := by
  refine ⟨fun fs name => ?_, fun _ _ _ => CrlSource.numberedFiles_of_stop,
    fun fs fs' store cert now only subject issuer => ?_,
    fun _ _ _ _ made keeps => answers_of_build made keeps⟩
  · have found := CrlSource.find_hashedDir fs dir name
    refine ⟨found, fun e mem => ?_⟩
    rw [found] at mem
    dsimp only at mem
    exact CrlSource.level_of_mem_unloadable mem
  · refine check_of_sameUnder fun other mem => ?_
    obtain rfl := only other mem
    exact ⟨subject, issuer⟩

end RevocationStore

namespace GappedDirectory

open TestAuthority (expiredList)

/-- A directory with four files under the hash of the name of Test CA: one that may not be read, one
that is no list, a list, and behind a gap another list. -/
def files : FileSystem :=
  ⟨[], [(["d"], .directory),
    (["d", "2ab920ce.r0"], .file expiredList (some (.described "Permission denied (os error 13)"))),
    (["d", "2ab920ce.r1"], .file (Bytes.ofAscii "no list")),
    (["d", "2ab920ce.r2"], .file expiredList),
    (["d", "2ab920ce.r4"], .file ForgedList.list)]⟩

/-- The two files that are passed over, and the list before the gap. -/
def reached : List FilePath :=
  [⟨"d/2ab920ce.r0"⟩, ⟨"d/2ab920ce.r1"⟩, ⟨"d/2ab920ce.r2"⟩]

/-- What is told of the two files that are passed over. -/
def warnings : List Event :=
  [.crlUnreadable ⟨"d/2ab920ce.r0"⟩
      (.unreadable ⟨"d/2ab920ce.r0"⟩ (.described "Permission denied (os error 13)")),
    .crlUnreadable ⟨"d/2ab920ce.r1"⟩
      (.unusable ⟨"d/2ab920ce.r1"⟩ (.malformed "not a revocation list"))]

/-- The certificate is checked before and after the list before the gap is removed. -/
def uses (cert : Certificate) : List RevocationStore.Use :=
  [.check cert TestAuthority.now, .change (.remove ⟨"d/2ab920ce.r2"⟩),
    .check cert TestAuthority.now]

theorem keepsDirectory_uses (cert : Certificate) :
    RevocationStore.KeepsDirectory ⟨"d"⟩ files (uses cert) :=
  ⟨by decide +kernel, by decide +kernel, trivial⟩

end GappedDirectory

open TestAuthority GappedDirectory in
/-- The list before the gap is found, with a warning of each file that is passed over. Behind the
gap nothing is looked at. Once the list before the gap is removed, the store answers as one that is
built then. -/
theorem RevocationStore.gap_ends_lookup :
    ∃ anchor list, Certificate.ofBytes? root = some anchor
      ∧ RevocationList.ofDer? expiredList = some list
      ∧ CrlSource.numberedFiles files ⟨"d"⟩ anchor.subject.hash = reached
      ∧ CrlSource.find files anchor.subject (.hashedDir ⟨"d"⟩) = ⟨some list, warnings⟩
      ∧ KeepsDirectory ⟨"d"⟩ files (uses anchor)
      ∧ ∃ store, build files none (some ⟨"d"⟩) = .ok store
        ∧ answers (fun fs cert now => .ok (store.check fs cert now)) files (uses anchor)
          = answers (fun fs cert now => (build fs none (some ⟨"d"⟩)).map (·.check fs cert now))
              files (uses anchor) := by
  have readable : ((Certificate.ofBytes? root).any fun anchor =>
      (RevocationList.ofDer? expiredList).any fun list =>
        decide (anchor.subject.hash = 0x2ab920ce
          ∧ (reached.flatMap (RevocationList.inFile files)).find?
              (·.isIssuedBy anchor.subject) = some list
          ∧ (CrlSource.passedOver files anchor.subject reached).filterMap
              (CrlSource.unloadable? files) = warnings)) = true := by
    decide +kernel
  obtain ⟨anchor, isAnchor, readable⟩ := (Option.any_eq_true _ _).mp readable
  obtain ⟨list, isList, readable⟩ := (Option.any_eq_true _ _).mp readable
  obtain ⟨hash, found, told⟩ := of_decide_eq_true readable
  have isDir : files.isDirectory ⟨"d"⟩ = true := by decide +kernel
  -- The hash is that of the file names, so that the files can be asked for by index.
  have before (index : UInt32) (below : index < 3) :
      files.isFile (FilePath.join ⟨"d"⟩ (hashedFileName 0x2ab920ce index)) = true := by
    have files : ∀ n < 3, files.isFile
        (FilePath.join ⟨"d"⟩ (hashedFileName 0x2ab920ce (UInt32.ofNat n))) = true := by
      decide +kernel
    simpa using files index.toNat (UInt32.lt_iff_toNat_lt.mp below)
  obtain ⟨lookups, ends, -, uncached⟩ := directory_lookup_exact ⟨"d"⟩
  have numbered : CrlSource.numberedFiles files ⟨"d"⟩ anchor.subject.hash = reached := by
    rw [hash, ends files 0x2ab920ce 3 before (by decide +kernel)]
    decide +kernel
  have keeps := keepsDirectory_uses anchor
  refine ⟨anchor, list, isAnchor, isList, numbered, ?_, keeps, _, build_hashedDir isDir,
    uncached files files _ _ (build_hashedDir isDir) keeps⟩
  rw [(lookups files anchor.subject).1, numbered, found, told]

end PeerTrust
