import PeerTrust.Proofs.KeptLists
import PeerTrust.Proofs.Verdicts

/-!
# The two kinds of sources

A file of armoured text and a hashed directory that hold the same revocation lists are looked through
to the same effect. A hash may be shared by different issuers, and an issuer may have several lists:
what counts is that all lists an issuer's name could lead to are filed under its hash, and in their
order.

## Main results

* `CrlSource.find_hashedDir_eq` — what is found in the directory is the first in the sequence
* `RevocationStore.check_file_eq_check_directory` — the verdicts and events are the same
-/

namespace PeerTrust

namespace CrlSource

open RevocationList

variable {fs : FileSystem} {dir : FilePath} {es : List Encoded} {name : Name}

/-- A walk along the files under a hash goes through the lists that are filed under it. -/
theorem walk_hashedPaths (holds : HoldsHashed fs dir es) {hash : UInt32} {done todo : List Encoded}
    (filed : filedUnder hash es = done ++ todo) :
    walk fs name ((List.range' done.length todo.length).map (hashedPath dir hash))
      = pure ((todo.map (·.list)).find? (·.isIssuedBy name)) := by
  induction todo generalizing done with
  | nil => rfl
  | cons e todo ih =>
    have filedOthers : filedUnder hash es = (done ++ [e]) ++ todo := by
      rw [filed, List.append_assoc, List.singleton_append]
    have others := ih filedOthers
    rw [List.length_append, List.length_singleton] at others
    rw [List.length_cons, List.range'_succ, List.map_cons, walk, holds.load_hashedPath filed]
    dsimp only
    rw [others, List.map_cons, List.find?_cons, List.find?_cons, List.find?_nil]
    cases e.list.isIssuedBy name <;> rfl

/-- A list that was issued under a name is filed under its hash. -/
theorem find?_filedUnder (name : Name) (es : List Encoded) :
    ((filedUnder name.hash es).map (·.list)).find? (·.isIssuedBy name)
      = (es.map (·.list)).find? (·.isIssuedBy name) := by
  have isFiled (e : Encoded) :
      (decide (e.hash = name.hash) && e.list.isIssuedBy name) = e.list.isIssuedBy name := by
    cases issued : e.list.isIssuedBy name with
    | false => rw [Bool.and_false]
    | true =>
      have sameHash : e.hash = name.hash := by
        rw [Encoded.hash, Name.hash, of_decide_eq_true issued, Name.hash]
      rw [Bool.and_true, decide_eq_true sameHash]
  rw [List.find?_map, List.find?_map, filedUnder, List.find?_filter]
  simp only [Function.comp_def, Bool.decide_and, Bool.decide_eq_true, isFiled]

/-- What is found in the directory is the first list in the sequence that was issued under the name,
and every file on the way can be read. -/
theorem find_hashedDir_eq (holds : HoldsHashed fs dir es) (few : es.length < UInt32.size - 1)
    (name : Name) :
    (hashedDir dir).find fs name = pure ((es.map (·.list)).find? (·.isIssuedBy name)) := by
  have room : (filedUnder name.hash es).length < maxFiles :=
    Nat.lt_of_le_of_lt (List.length_filter_le _ _) few
  rw [find, candidates_eq_numberedFiles, numberedFiles_of_gap room
    (fun index filed => holds.isFile_hashedPath filed)
    (holds.isFile_hashedPath_eq_false (Nat.lt_of_lt_of_le few (Nat.sub_le _ _))),
    List.range_eq_range', ← find?_filedUnder]
  exact walk_hashedPaths holds (List.nil_append _).symm

end CrlSource

namespace RevocationStore

open RevocationList

theorem find_singleton (fs : FileSystem) (source : CrlSource) (name : Name) :
    find fs ⟨[source]⟩ name = source.find fs name := by
  rw [find, findIn]
  rcases source.find fs name with ⟨value, events⟩
  cases value with
  | none => exact congrArg (Logged.mk none) (List.append_nil events)
  | some list => exact congrArg (Logged.mk (some list)) (List.append_nil events)

/-- A check depends on what is found under names only. -/
theorem check_congr {fs fs' : FileSystem} {store store' : RevocationStore}
    (alike : ∀ name, store.find fs name = store'.find fs' name) (cert : Certificate) (now : Moment) :
    store.check fs cert now = store'.check fs' cert now := by
  simp only [check, checkFound, alike]

/-- A store over a file of armoured text that holds lists in some order, and one over a directory that
holds each of them under the hash of its issuer, come to the same verdict with the same events, on
any certificate at any moment. -/
theorem check_file_eq_check_directory {fileFs dirFs : FileSystem} {path dir : FilePath}
    {es : List Encoded} (nonempty : es ≠ []) (few : es.length < 2 ^ 32 - 1)
    (inFile : HoldsArmoured fileFs path es) (inDir : HoldsHashed dirFs dir es) :
    ∃ fileStore dirStore, build fileFs (some path) none = .ok fileStore
      ∧ build dirFs none (some dir) = .ok dirStore
      ∧ ∀ (fs : FileSystem) (cert : Certificate) (now : Moment),
          fileStore.check fs cert now = dirStore.check dirFs cert now := by
  refine ⟨⟨[.file path (es.map (·.list))]⟩, ⟨[.hashedDir dir]⟩, ?_, ?_, fun fs => ?_⟩
  · simp [build, fileSource, inFile.load_eq nonempty]
  · simp [build, dirSource, inDir.isDirectory]
  · apply check_congr
    intro name
    rw [find_singleton, find_singleton, CrlSource.find_hashedDir_eq inDir few]
    rfl

end RevocationStore

/-! ### Three lists -/

namespace Kept

/-- A list of an issuer over one serial. Nobody signed it. -/
def der (issuer : Bytes) (serial : UInt8) : Bytes :=
  let algorithm := Der.encode 0x30 [0x06, 0x01, 0x2a]
  let day := Der.encode 0x17 (Bytes.ofAscii "200101000000Z")
  let entry := Der.encode 0x30 ([0x02, 0x01, serial] ++ day)
  let body := Der.encode 0x30 (algorithm ++ issuer ++ day ++ Der.encode 0x30 entry)
  Der.encode 0x30 (body ++ algorithm ++ [0x03, 0x01, 0x00])

/-- A name that is one common name. -/
def issuer (name : String) : Bytes :=
  Der.encode 0x30 (Der.encode 0x31 (Der.encode 0x30
    (Der.encode 0x06 [0x55, 0x04, 0x03] ++ Der.encode 0x0c (Bytes.ofAscii name))))

/-- Two lists of one issuer, spelled in two ways, with a list of another in between. -/
def ders : List Bytes :=
  [der (issuer "Test CA") 5, der (issuer "Other CA") 6, der (issuer " test ca") 7]

end Kept

namespace RevocationStore

open RevocationList

theorem exists_encoded {ders : List Bytes} (accepted : ∀ der ∈ ders, (ofDer? der).isSome = true) :
    ∃ es : List Encoded, es.map (·.der) = ders := by
  induction ders with
  | nil => exact ⟨[], rfl⟩
  | cons der ders ih =>
    obtain ⟨first, others⟩ := List.forall_mem_cons.mp accepted
    obtain ⟨list, isList⟩ := Option.isSome_iff_exists.mp first
    obtain ⟨es, rfl⟩ := ih others
    exact ⟨⟨der, list, by rw [ofDer, isList]⟩ :: es, rfl⟩

/-- Three lists, kept in both ways. -/
theorem check_of_three_lists :
    ∃ (es : List Encoded) (fileStore dirStore : RevocationStore), es.map (·.der) = Kept.ders
      ∧ HoldsArmoured (armouredFile es) ⟨"lists"⟩ es ∧ HoldsHashed (directory es) ⟨"lists"⟩ es
      ∧ build (armouredFile es) (some ⟨"lists"⟩) none = .ok fileStore
      ∧ build (directory es) none (some ⟨"lists"⟩) = .ok dirStore
      ∧ ∀ (fs : FileSystem) (cert : Certificate) (now : Moment),
          fileStore.check fs cert now = dirStore.check (directory es) cert now := by
  have accepted : ∀ der ∈ Kept.ders, (ofDer? der).isSome = true := by decide +kernel
  obtain ⟨es, areKept⟩ := exists_encoded accepted
  have length : es.length = 3 := by
    rw [← List.length_map (·.der), areKept]
    rfl
  have nonempty : es ≠ [] := List.ne_nil_of_length_eq_add_one length
  have inFile := holdsArmoured_armouredFile nonempty
  have inDir : HoldsHashed (directory es) ⟨"lists"⟩ es :=
    holdsHashed_directory (by rw [length]; decide)
  obtain ⟨fileStore, dirStore, builtFile, builtDir, alike⟩ :=
    check_file_eq_check_directory nonempty (by rw [length]; decide) inFile inDir
  exact ⟨es, fileStore, dirStore, areKept, inFile, inDir, builtFile, builtDir, alike⟩

end RevocationStore

end PeerTrust
