import Mathlib.Data.List.Forall2
import PeerTrust.Proofs.FoundPaths
import PeerTrust.Proofs.SoundPlans
import PeerTrust.Proofs.Verification

/-!
# The anchors that are configured

A context trusts the certificates of the configured file, in their order, and after them what the
files of the configured directory hold, file by file. The file must be there, without a fault and
with a certificate in it. In the directory a file that cannot be read or has a fault counts for
nothing, and not for a part of what it holds. Where one of the anchors cannot be used there is no
context at all.

## Main definitions

* `FileSystem.HoldsCertificates` — the certificates in a file without a fault
* `FileSystem.FileContributes`, `FileSystem.DirContributes` — what a file and a directory come to
* `Certification.Anchor.AreReadFrom` — what certificates are read as
* `TrustPaths.LeadToAnchors` — the anchors that are configured
* `TrustPaths.AnchorsFail` — all that can be wrong with them
* `Context.Trusts` — what the anchors are used for

## Main results

* `TrustPaths.value_loadAnchors_eq_ok_iff` — what is loaded
* `TrustPaths.AnchorsFail.not_areReadFrom`, `TrustPaths.exists_usable` — nothing else can be wrong
* `Context.build_of_anchors`, `Context.build_of_anchorsFail` — what is built after the credentials
* `Context.trusts_configured_anchors` — what this says of contexts
-/

namespace PeerTrust

/-! ### Relations between lists -/

section Forall₂

variable {ε α β : Type} {R : α → β → Prop} {as : List α} {bs : List β}

theorem mapM_eq_ok_iff_forall₂ {f : α → Except ε β} :
    as.mapM f = .ok bs ↔ List.Forall₂ (fun a b => f a = .ok b) as bs := by
  induction as generalizing bs with
  | nil => simp [pure, Except.pure, eq_comm]
  | cons a as ih =>
    rw [List.mapM_cons, bind_eq_ok_iff, List.forall₂_cons_left_iff]
    refine exists_congr fun b => ?_
    rw [bind_eq_ok_iff]
    constructor
    · rintro ⟨made, others, rest, same⟩
      exact ⟨others, made, ih.mp rest, (Except.ok.inj same).symm⟩
    · rintro ⟨others, made, rest, rfl⟩
      exact ⟨made, others, ih.mpr rest, rfl⟩

theorem exists_forall₂_iff : (∃ bs, List.Forall₂ R as bs) ↔ ∀ a ∈ as, ∃ b, R a b := by
  induction as with
  | nil => exact ⟨fun _ _ mem => (nomatch mem), fun _ => ⟨[], .nil⟩⟩
  | cons a as ih =>
    rw [List.forall_mem_cons, ← ih]
    constructor
    · rintro ⟨_, first | ⟨first, rest⟩⟩
      exact ⟨⟨_, first⟩, _, rest⟩
    · rintro ⟨⟨b, first⟩, bs, rest⟩
      exact ⟨b :: bs, .cons first rest⟩

theorem forall₂_eq_map_iff {f : α → β} :
    List.Forall₂ (fun a b => b = f a) as bs ↔ bs = as.map f := by
  induction as generalizing bs with
  | nil => simp
  | cons a as ih => simp [List.forall₂_cons_left_iff, ih]

end Forall₂

/-! ### Files and directories -/

namespace FileSystem

variable {fs : FileSystem} {path dir : FilePath} {certs anchors : List Bytes}

/-- The certificates in a file, in order. It can be read, and no section of it is faulty. -/
def HoldsCertificates (fs : FileSystem) (path : FilePath) (certs : List Bytes) : Prop :=
  ∃ text found, fs.read path = .ok text ∧ Pem.sections text = (found, none)
    ∧ certs = Pem.ofKind .certificate found

/-- What a file contributes: all certificates in it, of which there must be one. -/
def FileContributes (fs : FileSystem) (file : FilePath) (certs : List Bytes) : Prop :=
  fs.HoldsCertificates file certs ∧ certs ≠ []

/-- What an entry of a directory contributes: a regular file all certificates in it, and anything
else nothing. -/
inductive Contributes (fs : FileSystem) (path : FilePath) : List Bytes → Prop
  | all {certs : List Bytes} (isFile : fs.isFile path = true)
      (holds : fs.HoldsCertificates path certs) : Contributes fs path certs
  | nothing (skipped : fs.isFile path = true → ∀ certs, ¬fs.HoldsCertificates path certs) :
      Contributes fs path []

/-- What a directory contributes: what its entries do, in the order that they are listed in. -/
def DirContributes (fs : FileSystem) (dir : FilePath) (anchors : List Bytes) : Prop :=
  ∃ names parts, fs.list dir = .ok names
    ∧ List.Forall₂ (fun name part => fs.Contributes (dir.join name) part) names parts
    ∧ anchors = parts.flatten

theorem readCertificates_eq_ok_iff :
    readCertificates fs path = .ok certs ↔ fs.HoldsCertificates path certs := by
  unfold readCertificates HoldsCertificates
  cases readable : fs.read path with
  | error e => simp
  | ok text =>
    dsimp only
    rw [mapError_eq_ok_iff, Pem.contents?]
    split
    case h_1 found fault faulty => simp [faulty]
    case h_2 found sound => simp [sound, eq_comm]

theorem readSomeCertificates_eq_ok_iff :
    readSomeCertificates fs path = .ok certs ↔ fs.FileContributes path certs := by
  rw [FileContributes, ← readCertificates_eq_ok_iff]
  unfold readSomeCertificates
  split
  case h_1 empty =>
    rw [empty]
    refine ⟨by rintro ⟨⟩, ?_⟩
    rintro ⟨⟨⟩, some_certs⟩
    exact absurd rfl some_certs
  case h_2 found notEmpty =>
    refine ⟨fun held => ⟨held, ?_⟩, And.left⟩
    rintro rfl
    exact notEmpty held

theorem value_anchorsOfEntry_of_holds (isFile : fs.isFile path = true)
    (holds : fs.HoldsCertificates path certs) : (anchorsOfEntry fs path).value = certs := by
  rw [anchorsOfEntry, if_pos isFile, readCertificates_eq_ok_iff.mpr holds]
  rfl

/-- Whatever is wrong with an entry, it counts for nothing. -/
theorem value_anchorsOfEntry_of_skipped
    (skipped : fs.isFile path = true → ∀ certs, ¬fs.HoldsCertificates path certs) :
    (anchorsOfEntry fs path).value = [] := by
  unfold anchorsOfEntry
  split
  case isTrue isFile =>
    split
    case h_1 found read =>
      exact absurd (readCertificates_eq_ok_iff.mp read) (skipped isFile found)
    case h_2 => rfl
  case isFalse => rfl

theorem contributes_iff :
    fs.Contributes path certs ↔ certs = (anchorsOfEntry fs path).value := by
  constructor
  · rintro (⟨isFile, holds⟩ | skipped)
    · exact (value_anchorsOfEntry_of_holds isFile holds).symm
    · exact (value_anchorsOfEntry_of_skipped skipped).symm
  · rintro rfl
    by_cases held : fs.isFile path = true ∧ ∃ certs, fs.HoldsCertificates path certs
    · obtain ⟨isFile, certs, holds⟩ := held
      rw [value_anchorsOfEntry_of_holds isFile holds]
      exact .all isFile holds
    · have skipped : fs.isFile path = true → ∀ certs, ¬fs.HoldsCertificates path certs :=
        fun isFile certs holds => held ⟨isFile, certs, holds⟩
      rw [value_anchorsOfEntry_of_skipped skipped]
      exact .nothing skipped

theorem value_anchorsOfDir_eq_ok_iff_contributes :
    (anchorsOfDir fs dir).value = .ok anchors ↔ fs.DirContributes dir anchors := by
  rw [value_anchorsOfDir_eq_ok_iff]
  simp only [DirContributes, contributes_iff, forall₂_eq_map_iff, anchorsUnder]
  refine exists_congr fun names => ?_
  constructor
  · rintro ⟨listed, rfl⟩
    exact ⟨_, listed, rfl, List.flatMap_def⟩
  · rintro ⟨_, listed, rfl, rfl⟩
    exact ⟨listed, List.flatMap_def.symm⟩

end FileSystem

/-- Trust anchors that certificates are read as, one each. -/
def Certification.Anchor.AreReadFrom (usable : List Anchor) (ders : List Bytes) : Prop :=
  List.Forall₂ (fun der a => ofDer der = .ok a) ders usable

/-! ### Configured locations -/

namespace TrustPaths

variable {fs : FileSystem} {p : TrustPaths} {anchors others : List Bytes}

/-- What is found in a location, or nothing if it is not set. -/
def FoundIn (found : FilePath → List Bytes → Prop) : Option FilePath → List Bytes → Prop
  | none, anchors => anchors = []
  | some path, anchors => found path anchors

/-- The anchors that are configured: the certificates of the file, of which there must be one, and
after them those of the directory. -/
def LeadToAnchors (fs : FileSystem) (p : TrustPaths) (anchors : List Bytes) : Prop :=
  ∃ fromFile fromDir,
    FoundIn fs.FileContributes p.caFile fromFile
      ∧ FoundIn fs.DirContributes p.caDir fromDir
      ∧ anchors = fromFile ++ fromDir

/-- What can be wrong with the anchors that are configured. -/
inductive AnchorsFail (fs : FileSystem) (p : TrustPaths) : Prop
  | unreadableFile {file : FilePath} {e : IoError} (set : p.caFile = some file)
      (fails : fs.read file = .error e)
  | faultyFile {file : FilePath} {text : Bytes} {found : List Pem.Section} {fault : Pem.Fault}
      (set : p.caFile = some file) (read : fs.read file = .ok text)
      (faulty : Pem.sections text = (found, some fault))
  | emptyFile {file : FilePath} (set : p.caFile = some file)
      (holds : fs.HoldsCertificates file [])
  | unreadableDir {dir : FilePath} {e : IoError} (set : p.caDir = some dir)
      (fails : fs.list dir = .error e)
  | noneFound (lead : p.LeadToAnchors fs [])
  | unusable {anchors : List Bytes} {der : Bytes} {problem : Certification.Problem}
      (lead : p.LeadToAnchors fs anchors) (mem : der ∈ anchors)
      (unusable : Certification.Anchor.ofDer der = .error problem)

theorem value_anchorsOf_eq_ok_iff {load : FilePath → Logged (Except Error (List Bytes))}
    {found : FilePath → List Bytes → Prop}
    (each : ∀ path anchors, (load path).value = .ok anchors ↔ found path anchors)
    {location : Option FilePath} :
    (anchorsOf load location).value = .ok anchors ↔ FoundIn found location anchors := by
  cases location with
  | none => simp [anchorsOf, FoundIn, eq_comm]
  | some path => exact each path anchors

theorem foundIn_file_iff {location : Option FilePath} :
    (anchorsOf (fun path => return anchorsOfFile fs path) location).value = .ok anchors ↔
      FoundIn fs.FileContributes location anchors :=
  value_anchorsOf_eq_ok_iff fun _ _ =>
    mapError_eq_ok_iff.trans FileSystem.readSomeCertificates_eq_ok_iff

theorem foundIn_dir_iff {location : Option FilePath} :
    (anchorsOf (anchorsOfDir fs) location).value = .ok anchors ↔
      FoundIn fs.DirContributes location anchors :=
  value_anchorsOf_eq_ok_iff fun _ _ => FileSystem.value_anchorsOfDir_eq_ok_iff_contributes

theorem value_loadAnchors_eq_ok_iff :
    (loadAnchors fs p.caFile p.caDir).value = .ok anchors ↔
      p.LeadToAnchors fs anchors ∧ anchors ≠ [] := by
  rw [value_loadAnchors]
  simp only [bind_eq_ok_iff, foundIn_file_iff, foundIn_dir_iff]
  constructor
  · rintro ⟨fromFile, file, fromDir, dir, made⟩
    split at made
    case isTrue => cases made
    case isFalse some_anchors =>
      obtain rfl := Except.ok.inj made
      exact ⟨⟨fromFile, fromDir, file, dir, rfl⟩, some_anchors⟩
  · rintro ⟨⟨fromFile, fromDir, file, dir, rfl⟩, some_anchors⟩
    exact ⟨fromFile, file, fromDir, dir, if_neg some_anchors⟩

/-- The same paths lead to one list of anchors. -/
theorem LeadToAnchors.unique (lead : p.LeadToAnchors fs anchors)
    (also : p.LeadToAnchors fs others) : anchors = others := by
  obtain ⟨fromFile, fromDir, file, dir, rfl⟩ := lead
  obtain ⟨fromFile', fromDir', file', dir', rfl⟩ := also
  rw [← foundIn_file_iff] at file file'
  rw [← foundIn_dir_iff] at dir dir'
  obtain rfl := Except.ok.inj (file.symm.trans file')
  obtain rfl := Except.ok.inj (dir.symm.trans dir')
  rfl

/-- All failures of loading are of one variant. -/
theorem value_loadAnchors_eq_error {file dir : Option FilePath} {e : Error}
    (failed : (loadAnchors fs file dir).value = .error e) :
    ∃ problem, e = .trustAnchorLoadFailed problem := by
  rw [value_loadAnchors] at failed
  rcases bind_eq_error_iff.mp failed with failed | ⟨fromFile, -, failed⟩
  · cases file with
    | none => cases failed
    | some path =>
      obtain ⟨problem, -, rfl⟩ := mapError_eq_error_iff.mp failed
      exact ⟨_, rfl⟩
  · rcases bind_eq_error_iff.mp failed with failed | ⟨fromDir, -, failed⟩
    · cases dir with
      | none => cases failed
      | some path =>
        replace failed : (anchorsOfDir fs path).value = .error e := failed
        unfold anchorsOfDir at failed
        split at failed
        · exact ⟨_, (Except.error.inj failed).symm⟩
        · cases failed
    · split at failed
      · exact ⟨_, (Except.error.inj failed).symm⟩
      · cases failed

/-- Where nothing is wrong, the file contributes something, unless it is not set. -/
theorem exists_foundIn_file (sound : ¬p.AnchorsFail fs) :
    ∃ certs, FoundIn fs.FileContributes p.caFile certs := by
  cases set : p.caFile with
  | none => exact ⟨[], rfl⟩
  | some file =>
    cases read : fs.read file with
    | error e => exact absurd (.unreadableFile set read) sound
    | ok text =>
      rcases sections : Pem.sections text with ⟨found, _ | fault⟩
      case some => exact absurd (.faultyFile set read sections) sound
      case none =>
        have holds : fs.HoldsCertificates file (Pem.ofKind .certificate found) :=
          ⟨text, found, read, sections, rfl⟩
        refine ⟨_, holds, fun empty => sound ?_⟩
        rw [empty] at holds
        exact .emptyFile set holds

/-- Of a directory only the list of its entries can fail. -/
theorem exists_foundIn_dir (sound : ¬p.AnchorsFail fs) :
    ∃ anchors, FoundIn fs.DirContributes p.caDir anchors := by
  cases set : p.caDir with
  | none => exact ⟨[], rfl⟩
  | some dir =>
    cases listed : fs.list dir with
    | error e => exact absurd (.unreadableDir set listed) sound
    | ok names =>
      have loaded := value_anchorsOfDir_eq_ok_iff.mpr ⟨names, listed, rfl⟩
      exact ⟨_, FileSystem.value_anchorsOfDir_eq_ok_iff_contributes.mp loaded⟩

/-- Where something is wrong, no anchors are left that could all be used. -/
theorem AnchorsFail.not_areReadFrom {usable : List Certification.Anchor}
    (failing : p.AnchorsFail fs) (lead : p.LeadToAnchors fs anchors) (some_anchors : anchors ≠ []) :
    ¬Certification.Anchor.AreReadFrom usable anchors := by
  intro read
  obtain ⟨fromFile, fromDir, file, dir, rfl⟩ := id lead
  cases failing with
  -- The file and the directory are read once, and what was found in them shows no fault.
  | unreadableFile set fails =>
    rw [set] at file
    obtain ⟨⟨_, _, readable, -⟩, -⟩ := file
    cases fails.symm.trans readable
  | faultyFile set readable faulty =>
    rw [set] at file
    obtain ⟨⟨_, _, readable', sound, -⟩, -⟩ := file
    obtain rfl := Except.ok.inj (readable.symm.trans readable')
    cases faulty.symm.trans sound
  | emptyFile set holds =>
    rw [set] at file
    obtain ⟨holds', some_certs⟩ := file
    rw [← FileSystem.readCertificates_eq_ok_iff] at holds holds'
    exact some_certs (Except.ok.inj (holds'.symm.trans holds))
  | unreadableDir set fails =>
    rw [set] at dir
    obtain ⟨_, _, listed, -⟩ := dir
    cases fails.symm.trans listed
  | noneFound none_lead => exact some_anchors (lead.unique none_lead)
  | unusable lead' mem unusable =>
    obtain rfl := lead'.unique lead
    obtain ⟨a, isAnchor⟩ := exists_forall₂_iff.mp ⟨usable, read⟩ _ mem
    cases unusable.symm.trans isAnchor

/-- Where nothing is wrong, there are anchors, and all of them can be used. -/
theorem exists_usable (sound : ¬p.AnchorsFail fs) :
    ∃ anchors usable, p.LeadToAnchors fs anchors ∧ anchors ≠ []
      ∧ Certification.Anchor.AreReadFrom usable anchors := by
  obtain ⟨fromFile, file⟩ := exists_foundIn_file sound
  obtain ⟨fromDir, dir⟩ := exists_foundIn_dir sound
  have lead : p.LeadToAnchors fs (fromFile ++ fromDir) := ⟨fromFile, fromDir, file, dir, rfl⟩
  have some_anchors : fromFile ++ fromDir ≠ [] := by
    intro empty
    rw [empty] at lead
    exact sound (.noneFound lead)
  have each : ∀ der ∈ fromFile ++ fromDir, ∃ a, Certification.Anchor.ofDer der = .ok a := by
    intro der mem
    cases read : Certification.Anchor.ofDer der with
    | ok a => exact ⟨a, rfl⟩
    | error problem => exact absurd (.unusable lead mem read) sound
  obtain ⟨usable, read⟩ := exists_forall₂_iff.mpr each
  exact ⟨_, usable, lead, some_anchors, read⟩

end TrustPaths

/-! ### Verifiers and contexts -/

theorem Certification.Anchor.der_of_ofDer {der : Bytes} {a : Anchor} (read : ofDer der = .ok a) :
    a.der = der := by
  unfold ofDer at read
  split at read
  case h_1 =>
    obtain rfl := Except.ok.inj read
    rfl
  case h_3 => cases read
  case h_2 =>
    obtain ⟨_, -, parts⟩ := nested_eq_ok_iff.mp (whole_eq_ok_iff.mp (mapError_eq_ok_iff.mp read))
    obtain ⟨made, _, body, parts⟩ := bind_reader_eq_ok_iff.mp parts
    obtain ⟨_, _, -, parts⟩ := bind_reader_eq_ok_iff.mp parts
    obtain ⟨_, _, -, parts⟩ := bind_reader_eq_ok_iff.mp parts
    obtain ⟨rfl, -⟩ := Prod.mk.inj (Except.ok.inj parts)
    -- Without a version the anchor is made at the end of its body.
    obtain ⟨_, -, body⟩ := nested_eq_ok_iff.mp body
    unfold bodyWithoutVersion at body
    obtain ⟨_, _, -, body⟩ := bind_reader_eq_ok_iff.mp body
    obtain ⟨_, _, -, body⟩ := bind_reader_eq_ok_iff.mp body
    obtain ⟨_, _, -, body⟩ := bind_reader_eq_ok_iff.mp body
    obtain ⟨_, _, -, body⟩ := bind_reader_eq_ok_iff.mp body
    obtain ⟨_, _, -, body⟩ := bind_reader_eq_ok_iff.mp body
    obtain ⟨_, _, -, body⟩ := bind_reader_eq_ok_iff.mp body
    obtain ⟨rfl, -⟩ := Prod.mk.inj (Except.ok.inj body)
    rfl

theorem Certification.Anchor.eq_map_der {ders : List Bytes} {usable : List Anchor}
    (read : AreReadFrom usable ders) : ders = usable.map (·.der) := by
  have kept : List.Forall₂ (flip fun (a : Anchor) der => der = a.der) ders usable :=
    read.imp fun _ _ read => (der_of_ofDer read).symm
  exact forall₂_eq_map_iff.mp kept.flip

theorem Verifier.ofAnchors_eq_ok_iff {role : Role} {anchors : List Bytes} {v : Verifier} :
    ofAnchors role anchors = .ok v ↔
      ∃ usable, Certification.Anchor.AreReadFrom usable anchors
        ∧ anchors ≠ [] ∧ v = { role, anchors, preVerify := Certification.preVerify usable } := by
  unfold ofAnchors
  rw [bind_eq_ok_iff]
  refine exists_congr fun usable => ?_
  rw [mapError_eq_ok_iff, mapM_eq_ok_iff_forall₂]
  refine and_congr_right fun read => ?_
  have empty_iff : usable = [] ↔ anchors = [] := by
    rw [← List.length_eq_zero_iff, ← List.length_eq_zero_iff, read.length_eq]
  split
  case isTrue empty =>
    refine iff_of_false (by rintro ⟨⟩) ?_
    rintro ⟨some_anchors, -⟩
    exact some_anchors (empty_iff.mp empty)
  case isFalse some_usable =>
    have some_anchors : anchors ≠ [] := some_usable ∘ empty_iff.mpr
    rw [and_iff_right some_anchors, eq_comm]
    exact ⟨Except.ok.inj, congrArg Except.ok⟩

namespace Context

variable {fs : FileSystem} {role : Role} {paths : TrustPaths} {slot : SlotId} {context : Context}
  {anchors chain : List Bytes} {key : PrivateKey} {cert : FilePath}

/-- What the anchors of a context are used for: they are counted, paths are looked for to what each
of them is read as, and the one behind the last presented certificate is looked for among them. -/
structure Trusts (context : Context) (anchors : List Bytes) : Prop where
  held : context.verifier.anchors = anchors
  counted : context.anchorCount = anchors.length
  searched : ∃ usable, context.verifier.preVerify = Certification.preVerify usable
    ∧ Certification.Anchor.AreReadFrom usable anchors
  found : ∀ endEntity others server now path,
    context.verifier.preVerify endEntity others server now = .ok path → path.anchor ∈ anchors
  behind : ∀ last anchor, context.verifier.anchorOf? last = some anchor →
    ∃ der ∈ anchors, Certificate.ofBytes? der = some anchor

theorem trusts_of_ofAnchors (made : Verifier.ofAnchors role anchors = .ok context.verifier) :
    context.Trusts anchors := by
  obtain ⟨usable, read, -, isVerifier⟩ := Verifier.ofAnchors_eq_ok_iff.mp made
  have held : context.verifier.anchors = anchors := by rw [isVerifier]
  have searched : context.verifier.preVerify = Certification.preVerify usable := by rw [isVerifier]
  refine ⟨held, congrArg List.length held, ⟨usable, searched, read⟩, ?_, ?_⟩
  · intro endEntity others server now path found
    rw [searched] at found
    obtain ⟨q, -, a, mem, -, rfl⟩ := Certification.preVerify_ends found
    rw [Certification.Anchor.eq_map_der read]
    exact List.mem_map_of_mem mem
  · intro last anchor behind
    obtain ⟨-, before, der, after, split, isRead, -⟩ := Verifier.anchorOf?_eq_some_iff.mp behind
    refine ⟨der, ?_, isRead⟩
    rw [← held, split]
    exact List.mem_append_right before List.mem_cons_self

/-- After the credentials all depends on the anchors, and only then on whether the key fits. -/
theorem build_of_anchors (hasCert : paths.cert = some cert)
    (read : loadCredentials fs cert (paths.key.getD cert) = .ok (chain, key))
    (lead : paths.LeadToAnchors fs anchors) (some_anchors : anchors ≠ [])
    {usable : List Certification.Anchor}
    (areAnchors : Certification.Anchor.AreReadFrom usable anchors) :
    (build fs role paths slot).value =
      if chain.head?.any key.fits then
        .ok { chain, key, slot,
              verifier := { role, anchors, preVerify := Certification.preVerify usable } }
      else .error (.keyLoadFailed (paths.key.getD cert) .unusableKey) := by
  have loaded := TrustPaths.value_loadAnchors_eq_ok_iff.mpr ⟨lead, some_anchors⟩
  have made : Verifier.ofAnchors role anchors
      = .ok { role, anchors, preVerify := Certification.preVerify usable } :=
    Verifier.ofAnchors_eq_ok_iff.mpr ⟨usable, areAnchors, some_anchors, rfl⟩
  rw [value_build hasCert, read, loaded]
  show ofMaterial _ _ _ _ _ _ = _
  rw [ofMaterial, made]
  rfl

/-- Whatever is wrong with the anchors, a build fails by one variant. -/
theorem build_of_anchorsFail (role : Role) (slot : SlotId) (hasCert : paths.cert = some cert)
    (read : loadCredentials fs cert (paths.key.getD cert) = .ok (chain, key))
    (failing : paths.AnchorsFail fs) :
    ∃ problem, (build fs role paths slot).value = .error (.trustAnchorLoadFailed problem) := by
  rw [value_build hasCert, read]
  cases loaded : (loadAnchors fs paths.caFile paths.caDir).value with
  | error e =>
    obtain ⟨problem, rfl⟩ := TrustPaths.value_loadAnchors_eq_error loaded
    exact ⟨problem, rfl⟩
  | ok anchors =>
    obtain ⟨lead, some_anchors⟩ := TrustPaths.value_loadAnchors_eq_ok_iff.mp loaded
    show ∃ problem, ofMaterial _ _ _ _ _ _ = _
    cases made : Verifier.ofAnchors role anchors with
    | error fault =>
      rw [ofMaterial, made]
      exact ⟨_, rfl⟩
    | ok verifier =>
      obtain ⟨usable, areAnchors, -, -⟩ := Verifier.ofAnchors_eq_ok_iff.mp made
      exact absurd areAnchors (failing.not_areReadFrom lead some_anchors)

/-- A context that is built trusts exactly the anchors that are configured: the certificates of the
file, in order, and then all those of each file in the directory that can be read and has no fault;
there is at least one. Once the credentials are loaded, a build fails for its anchors by a file that
cannot be read, has a fault or holds no certificate, by a directory that cannot be listed, by no
anchor at all, or by one that cannot be used, and by nothing else. Without any of these a context is
built exactly if the key fits. -/
theorem trusts_configured_anchors (fs : FileSystem) (role : Role) (paths : TrustPaths)
    (slot : SlotId) :
    (∀ context, (build fs role paths slot).value = .ok context →
        ∃ anchors, paths.LeadToAnchors fs anchors ∧ anchors ≠ [] ∧ context.Trusts anchors)
      ∧ ∀ cert chain key, paths.cert = some cert →
        loadCredentials fs cert (paths.key.getD cert) = .ok (chain, key) →
          ((∃ problem, (build fs role paths slot).value = .error (.trustAnchorLoadFailed problem)) ↔
            paths.AnchorsFail fs)
          ∧ ((∃ context, (build fs role paths slot).value = .ok context) ↔
            ¬paths.AnchorsFail fs ∧ chain.head?.any key.fits = true) := by
  refine ⟨fun context made => ?_, fun cert chain key hasCert read => ?_⟩
  · obtain ⟨_, _, _, anchors, _, -, -, loaded, trusting, -, rfl⟩ := build_eq_ok_iff.mp made
    obtain ⟨lead, some_anchors⟩ := TrustPaths.value_loadAnchors_eq_ok_iff.mp loaded
    exact ⟨anchors, lead, some_anchors, trusts_of_ofAnchors trusting⟩
  · by_cases failing : paths.AnchorsFail fs
    · obtain ⟨problem, failed⟩ := build_of_anchorsFail role slot hasCert read failing
      simp [failed, failing]
    · obtain ⟨anchors, usable, lead, some_anchors, areAnchors⟩ :=
        TrustPaths.exists_usable failing
      rw [build_of_anchors hasCert read lead some_anchors areAnchors]
      by_cases fits : chain.head?.any key.fits = true
      · simp [failing, fits]
      · simp [failing, fits]

end Context

end PeerTrust
