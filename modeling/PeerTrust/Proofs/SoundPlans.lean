import PeerTrust.Proofs.HandedOutContexts
import PeerTrust.Proofs.RespelledMaterial

/-!
# When a rebuild plan is sound

A plan that leaves an artifact alone has compared paths by their components. What is built from the
new paths is then what was built from the old ones, as long as both spellings of every path open
what stands under it or neither does. A trailing slash is enough to break this: the file is still
the same path, but it cannot be read any more.

## Main definitions

* `TrustPaths.MaterialAlike`, `TrustPaths.CrlsAlike` — paths whose spellings make no difference
* `RevocationStore.Same` — stores over the same lists and the same directory

## Main results

* `Context.build_agreesIff`, `RevocationStore.build_agreesIff` — builds from respelled paths
* `Configuration.context_kept_iff`, `Configuration.store_kept_iff` — artifacts that are kept
* `TrustPaths.plan_sound_iff` — all of this, for a plan that leaves an artifact alone
* `TrustPaths.respelled_files_kept` — artifacts are kept that could not be built again
-/

namespace PeerTrust

/-! ### Contexts and stores -/

/-- The spellings of certificate, key and anchor paths make no difference. -/
structure TrustPaths.MaterialAlike (fs : FileSystem) (old new : TrustPaths) : Prop where
  cert : ∀ p ∈ old.cert, ∀ q ∈ new.cert, fs.OpensAlike p q
  key : ∀ p ∈ old.key, ∀ q ∈ new.key, fs.OpensAlike p q
  caFile : ∀ p ∈ old.caFile, ∀ q ∈ new.caFile, fs.OpensAlike p q
  caDir : ∀ p ∈ old.caDir, ∀ q ∈ new.caDir, fs.AnchorsAlike p q

/-- The spellings of the paths of revocation lists make no difference. -/
structure TrustPaths.CrlsAlike (fs : FileSystem) (old new : TrustPaths) : Prop where
  crlFile : ∀ p ∈ old.crlFile, ∀ q ∈ new.crlFile, fs.OpensAlike p q
  crlDir : ∀ p ∈ old.crlDir, ∀ q ∈ new.crlDir, fs.ListsAlike p q

theorem Verifier.anchors_of_ofAnchors {role : Role} {anchors : List Bytes} {v : Verifier}
    (made : ofAnchors role anchors = .ok v) : v.anchors = anchors := by
  obtain ⟨usable, -, made⟩ := bind_eq_ok_iff.mp made
  split at made
  · cases made
  · obtain rfl := Except.ok.inj made
    rfl

namespace Context

variable {fs : FileSystem} {role : Role} {slot : SlotId} {old new : TrustPaths}

theorem loadCredentials_agrees {cert cert' keyPath keyPath' : FilePath}
    (certs : (fs.read cert).toOption = (fs.read cert').toOption)
    (keys : (fs.read keyPath).toOption = (fs.read keyPath').toOption) :
    Agrees Eq (loadCredentials fs cert keyPath) (loadCredentials fs cert' keyPath') := by
  refine (loadChain_agrees certs).bind ?_
  rintro chain _ rfl
  refine (loadKey_agrees keys).bind ?_
  rintro key _ rfl
  exact .refl _

theorem opensFile_of_loadCredentials {cert keyPath : FilePath} {chain : List Bytes}
    {key : PrivateKey} (loaded : loadCredentials fs cert keyPath = .ok (chain, key)) :
    cert.opensFile = true ∧ keyPath.opensFile = true := by
  obtain ⟨_, isChain, loaded⟩ := bind_eq_ok_iff.mp loaded
  obtain ⟨_, isKey, -⟩ := bind_eq_ok_iff.mp loaded
  exact ⟨opensFile_of_readSomeCertificates (mapError_eq_ok_iff.mp isChain),
    opensFile_of_readKey (mapError_eq_ok_iff.mp isKey)⟩

/-- The path of the key is told in an error only. -/
theorem ofMaterial_agrees (keyPath keyPath' : FilePath) (chain : List Bytes) (key : PrivateKey)
    (anchors : List Bytes) :
    Agrees Eq (ofMaterial role slot keyPath chain key anchors)
      (ofMaterial role slot keyPath' chain key anchors) := by
  refine (Agrees.refl _).bind ?_
  rintro verifier _ rfl
  split
  · exact .refl _
  · exact .error rfl

/-- A context without a certificate path cannot be built. Otherwise the material is loaded first. -/
theorem value_build {paths : TrustPaths} {cert : FilePath} (hasCert : paths.cert = some cert) :
    (build fs role paths slot).value = (do
      let credentials ← loadCredentials fs cert (paths.key.getD cert)
      let anchors ← (loadAnchors fs paths.caFile paths.caDir).value
      ofMaterial role slot (paths.key.getD cert) credentials.1 credentials.2 anchors) := by
  unfold build
  rw [hasCert]
  dsimp only
  cases loadCredentials fs cert (paths.key.getD cert) with
  | error e => rfl
  | ok credentials =>
    show (loadAnchors fs paths.caFile paths.caDir >>= _).value = Except.bind _ _
    rw [Logged.value_bind]
    cases (loadAnchors fs paths.caFile paths.caDir).value <;> rfl

theorem build_agrees (same : old.SameMaterial new) (alike : old.MaterialAlike fs new) :
    Agrees Eq (build fs role old slot).value (build fs role new slot).value := by
  obtain ⟨sameCert, sameKey, sameFile, sameDir⟩ := same
  obtain ⟨noCert, noCert'⟩ | ⟨cert, cert', hasCert, hasCert', certs⟩ :=
    FilePath.none_or_some_of_same sameCert
  · simp only [build, noCert, noCert']
    exact .error rfl
  · have readCert := (alike.cert cert hasCert cert' hasCert').toOption_read certs
    -- Without a path of its own the key is read from the file of the certificate.
    have readKey : (fs.read (old.key.getD cert)).toOption
        = (fs.read (new.key.getD cert')).toOption := by
      obtain ⟨noKey, noKey'⟩ | ⟨key, key', hasKey, hasKey', keys⟩ :=
        FilePath.none_or_some_of_same sameKey
      · rw [noKey, noKey']
        exact readCert
      · rw [hasKey, hasKey']
        exact (alike.key key hasKey key' hasKey').toOption_read keys
    rw [value_build hasCert, value_build hasCert']
    refine (loadCredentials_agrees readCert readKey).bind ?_
    rintro credentials _ rfl
    refine (loadAnchors_agrees sameFile sameDir alike.caFile alike.caDir).bind ?_
    rintro anchors _ rfl
    exact ofMaterial_agrees _ _ _ _ _

/-- A context that can be built under both spellings tells that these make no difference. -/
theorem materialAlike_of_build {context : Context} (same : old.SameMaterial new)
    (made : (build fs role old slot).value = .ok context)
    (also : (build fs role new slot).value = .ok context) : old.MaterialAlike fs new := by
  obtain ⟨-, -, sameFile, sameDir⟩ := same
  obtain ⟨cert, chain, key, anchors, verifier, hasCert, read, loaded, trusting, -, isContext⟩ :=
    build_eq_ok_iff.mp made
  obtain ⟨cert', chain', key', anchors', verifier', hasCert', read', loaded', trusting', -,
    isContext'⟩ := build_eq_ok_iff.mp also
  obtain ⟨certOpens, keyOpens⟩ := opensFile_of_loadCredentials read
  obtain ⟨certOpens', keyOpens'⟩ := opensFile_of_loadCredentials read'
  -- A verifier keeps the anchors that it looks for paths to.
  obtain rfl : anchors = anchors' := by
    have held : verifier = verifier' := congrArg Context.verifier (isContext.symm.trans isContext')
    rw [← Verifier.anchors_of_ofAnchors trusting, held, Verifier.anchors_of_ofAnchors trusting']
  obtain ⟨files, dirs⟩ := alike_of_loadAnchors sameFile sameDir loaded loaded'
  refine ⟨?_, ?_, files, dirs⟩
  · rw [hasCert, hasCert']
    rintro _ ⟨⟩ _ ⟨⟩
    exact .of_opensFile certOpens certOpens'
  · intro p isKey q isKey'
    rw [Option.mem_def.mp isKey] at keyOpens
    rw [Option.mem_def.mp isKey'] at keyOpens'
    exact .of_opensFile keyOpens keyOpens'

end Context

/-! ### Stores -/

/-- What a source looks into, spelling aside: a directory, or the lists of a file. -/
def CrlSource.meant : CrlSource → List FilePath.Component × Option (List RevocationList)
  | file path lists => (path.components, some lists)
  | hashedDir path => (path.components, none)

/-- The same lists and the same directory, spelling aside. -/
def RevocationStore.Same (s t : RevocationStore) : Prop :=
  s.sources.map CrlSource.meant = t.sources.map CrlSource.meant

namespace RevocationStore

variable {fs : FileSystem} {p q : FilePath} {old new : Option FilePath}
  {load : FilePath → Except Error CrlSource}

/-- A source for a path that may be unset. -/
theorem mapM_toList (path : Option FilePath) :
    path.toList.mapM load = path.elim (.ok []) fun p => (load p).map ([·]) := by
  cases path with
  | none => rfl
  | some p =>
    rw [Option.toList_some, List.mapM_cons, List.mapM_nil, Option.elim_some]
    cases load p <;> rfl

theorem mapM_toList_agrees (same : old.map FilePath.components = new.map FilePath.components)
    (each : ∀ p ∈ old, ∀ q ∈ new, p.components = q.components →
      Agrees (fun a b => a.meant = b.meant) (load p) (load q)) :
    Agrees (fun as bs => as.map CrlSource.meant = bs.map CrlSource.meant) (old.toList.mapM load)
      (new.toList.mapM load) := by
  rw [mapM_toList, mapM_toList]
  obtain ⟨rfl, rfl⟩ | ⟨p, q, rfl, rfl, sameComponents⟩ := FilePath.none_or_some_of_same same
  · exact .ok rfl
  · exact (each p rfl q rfl sameComponents).map fun a b meant => congrArg ([·]) meant

theorem exists_of_mapM_toList {path : Option FilePath} {sources : List CrlSource}
    (made : path.toList.mapM load = .ok sources) : ∀ p ∈ path, ∃ source, load p = .ok source := by
  rintro p rfl
  obtain ⟨source, loaded, -⟩ := map_eq_ok_iff.mp ((mapM_toList (some p)).symm.trans made)
  exact ⟨source, loaded⟩

theorem fileSource_agrees (same : p.components = q.components)
    (alike : (fs.read p).toOption = (fs.read q).toOption) :
    Agrees (fun a b => a.meant = b.meant) (fileSource fs p) (fileSource fs q) := by
  unfold fileSource
  rcases eq_ok_or_error_of_toOption (toOption_load alike) with
    ⟨lists, loaded, also⟩ | ⟨_, _, fails, also⟩
  · rw [loaded, also]
    exact .ok (congrArg (·, some lists) same)
  · rw [fails, also]
    exact .error rfl

theorem dirSource_agrees (same : p.components = q.components)
    (alike : fs.isDirectory p = fs.isDirectory q) :
    Agrees (fun a b => a.meant = b.meant) (dirSource fs p) (dirSource fs q) := by
  unfold dirSource
  rw [alike]
  split
  · exact .ok (congrArg (·, none) same)
  · exact .error rfl

theorem opensFile_of_fileSource {source : CrlSource} (made : fileSource fs p = .ok source) :
    p.opensFile = true := by
  unfold fileSource at made
  cases loaded : RevocationList.load fs p with
  | error problem => simp [loaded] at made
  | ok lists => exact opensFile_of_load loaded

theorem isShort_of_dirSource {source : CrlSource} (made : dirSource fs p = .ok source) :
    p.isShort = true := by
  unfold dirSource at made
  split at made
  next isDirectory => exact (FileSystem.isDirectory_iff_leadsTo.mp isDirectory).2
  next => cases made

variable {old new : TrustPaths}

theorem build_agrees (same : old.SameCrls new) (alike : old.CrlsAlike fs new) :
    Agrees Same (build fs old.crlFile old.crlDir) (build fs new.crlFile new.crlDir) := by
  obtain ⟨sameFile, sameDir⟩ := same
  refine (mapM_toList_agrees sameFile fun p isP q isQ same =>
    fileSource_agrees same ((alike.crlFile p isP q isQ).toOption_read same)).bind ?_
  intro files files' filed
  refine (mapM_toList_agrees sameDir fun p isP q isQ same =>
    dirSource_agrees same ((alike.crlDir p isP q isQ).isDirectory_eq same)).bind ?_
  intro dirs dirs' listed
  refine .ok ?_
  rw [Same, List.map_append, List.map_append, filed, listed]

/-- Stores that can be built under both spellings tell that these make no difference. -/
theorem crlsAlike_of_build {store store' : RevocationStore}
    (made : build fs old.crlFile old.crlDir = .ok store)
    (also : build fs new.crlFile new.crlDir = .ok store') : old.CrlsAlike fs new := by
  obtain ⟨files, filed, made⟩ := bind_eq_ok_iff.mp made
  obtain ⟨dirs, listed, -⟩ := bind_eq_ok_iff.mp made
  obtain ⟨files', filed', also⟩ := bind_eq_ok_iff.mp also
  obtain ⟨dirs', listed', -⟩ := bind_eq_ok_iff.mp also
  constructor
  · intro p isP q isQ
    obtain ⟨_, opened⟩ := exists_of_mapM_toList filed p isP
    obtain ⟨_, opened'⟩ := exists_of_mapM_toList filed' q isQ
    exact .of_opensFile (opensFile_of_fileSource opened) (opensFile_of_fileSource opened')
  · intro p isP q isQ
    obtain ⟨_, opened⟩ := exists_of_mapM_toList listed p isP
    obtain ⟨_, opened'⟩ := exists_of_mapM_toList listed' q isQ
    exact fun _ _ _ => (isShort_of_dirSource opened).trans (isShort_of_dirSource opened').symm

end RevocationStore

/-! ### Plans -/

/-- Two results agree if this holds, and only then if one of them is a success. -/
structure AgreesIff {α : Type} (same : α → α → Prop) (alike : Prop) (x y : Except Error α) :
    Prop where
  agrees : alike → Agrees same x y
  alike : x.isOk = true ∨ y.isOk = true → Agrees same x y → alike

theorem Agrees.exists_ok {α : Type} {same : α → α → Prop} {x y : Except Error α}
    (h : Agrees same x y) (some_ok : x.isOk = true ∨ y.isOk = true) :
    ∃ a b, x = .ok a ∧ y = .ok b ∧ same a b := by
  cases h with
  | ok same => exact ⟨_, _, rfl, rfl, same⟩
  | error _ => rcases some_ok with h | h <;> cases h

/-- What agrees with a success is a success. -/
theorem AgreesIff.exists_ok_iff {α : Type} {same : α → α → Prop} {alike : Prop} {a : α}
    {y : Except Error α} (h : AgreesIff same alike (.ok a) y) :
    (∃ b, y = .ok b ∧ same a b) ↔ alike := by
  constructor
  · rintro ⟨b, rfl, meant⟩
    exact h.alike (.inl rfl) (.ok meant)
  · intro alike
    obtain ⟨_, b, ⟨⟩, made, meant⟩ := (h.agrees alike).exists_ok (.inl rfl)
    exact ⟨b, made, meant⟩

section Plans

variable {fs : FileSystem} {old new : TrustPaths}

theorem Context.build_agreesIff (same : old.SameMaterial new) (role : Role) (slot : SlotId) :
    AgreesIff Eq (old.MaterialAlike fs new) (build fs role old slot).value
      (build fs role new slot).value where
  agrees := build_agrees same
  alike some_ok agreed := by
    obtain ⟨context, _, made, also, rfl⟩ := agreed.exists_ok some_ok
    exact materialAlike_of_build same made also

theorem RevocationStore.build_agreesIff (same : old.SameCrls new) :
    AgreesIff Same (old.CrlsAlike fs new) (build fs old.crlFile old.crlDir)
      (build fs new.crlFile new.crlDir) where
  agrees := build_agrees same
  alike some_ok agreed := by
    obtain ⟨store, store', made, also, -⟩ := agreed.exists_ok some_ok
    exact crlsAlike_of_build made also

namespace Configuration

variable {c : Configuration} {context : Context} {store : RevocationStore}

/-- A change that marks nothing changes the paths only. -/
theorem commit_of_isEmpty (unmarked : (RebuildPlan.between c.paths new).isEmpty = true) :
    c.commit new = { c with paths := new } := by
  simp only [RebuildPlan.isEmpty, Bool.and_eq_true, Bool.not_eq_true'] at unmarked
  simp only [commit, unmarked, Bool.or_false]

/-- A context that no change of paths has marked is kept by every refresh. It is what would be built
now exactly if the spellings make no difference. -/
theorem context_kept_iff (held : (c.commit new).context = some context)
    (clean : (c.commit new).contextDirty = false) :
    ((c.commit new).refreshContext fs).value = (c.commit new, .ok ())
      ∧ ((Context.build fs c.role c.paths c.slot).value = .ok context →
        ((Context.build fs c.role new c.slot).value = .ok context
          ↔ c.paths.MaterialAlike fs new)) := by
  constructor
  · have fresh := needsContext_eq_false_iff.mpr ⟨⟨context, held⟩, clean⟩
    simp [refreshContext, fresh]
  · intro made
    have same : c.paths.SameMaterial new := (contextDirty_commit_eq_false_iff.mp clean).2
    have builds : AgreesIff Eq (c.paths.MaterialAlike fs new) (.ok context)
        (Context.build fs c.role new c.slot).value :=
      made ▸ Context.build_agreesIff same c.role c.slot
    simpa using builds.exists_ok_iff

/-- The same of a store. -/
theorem store_kept_iff (held : (c.commit new).store = some store)
    (clean : (c.commit new).revocationDirty = false) :
    ((c.commit new).refreshStore fs).value = (c.commit new, .ok ())
      ∧ (RevocationStore.build fs c.paths.crlFile c.paths.crlDir = .ok store →
        ((∃ built, RevocationStore.build fs new.crlFile new.crlDir = .ok built ∧ store.Same built)
          ↔ c.paths.CrlsAlike fs new)) := by
  constructor
  · have fresh := needsStore_eq_false_iff.mpr ⟨clean, by simp [held]⟩
    simp [refreshStore, fresh]
  · intro made
    have same : c.paths.SameCrls new := (revocationDirty_commit_eq_false_iff.mp clean).2
    have builds : AgreesIff RevocationStore.Same (c.paths.CrlsAlike fs new) (.ok store)
        (RevocationStore.build fs new.crlFile new.crlDir) :=
      made ▸ RevocationStore.build_agreesIff same
    exact builds.exists_ok_iff

end Configuration

end Plans

/-- What is not marked when paths change is built from the new paths as it was from the old ones if
their spellings make no difference; and where anything can be built, only then. So an artifact that
is kept is what would be built now on the same files exactly if the spellings make no difference. -/
theorem TrustPaths.plan_sound_iff (fs : FileSystem) (old new : TrustPaths) :
    ((RebuildPlan.between old new).context = false → ∀ role slot,
        AgreesIff Eq (old.MaterialAlike fs new) (Context.build fs role old slot).value
          (Context.build fs role new slot).value)
      ∧ ((RebuildPlan.between old new).revocation = false →
        AgreesIff RevocationStore.Same (old.CrlsAlike fs new)
          (RevocationStore.build fs old.crlFile old.crlDir)
          (RevocationStore.build fs new.crlFile new.crlDir))
      ∧ ∀ c : Configuration, c.paths = old →
        (∀ context, (c.commit new).context = some context → (c.commit new).contextDirty = false →
          ((c.commit new).refreshContext fs).value = (c.commit new, .ok ())
            ∧ ((Context.build fs c.role old c.slot).value = .ok context →
              ((Context.build fs c.role new c.slot).value = .ok context
                ↔ old.MaterialAlike fs new)))
        ∧ ∀ store, (c.commit new).store = some store → (c.commit new).revocationDirty = false →
          ((c.commit new).refreshStore fs).value = (c.commit new, .ok ())
            ∧ (RevocationStore.build fs old.crlFile old.crlDir = .ok store →
              ((∃ built, RevocationStore.build fs new.crlFile new.crlDir = .ok built
                  ∧ store.Same built)
                ↔ old.CrlsAlike fs new)) := by
  refine ⟨fun unmarked => ?_, fun unmarked => ?_, ?_⟩
  · exact Context.build_agreesIff (RebuildPlan.context_between_eq_false_iff.mp unmarked)
  · exact RevocationStore.build_agreesIff (RebuildPlan.revocation_between_eq_false_iff.mp unmarked)
  · rintro c rfl
    exact ⟨fun _ => Configuration.context_kept_iff, fun _ => Configuration.store_kept_iff⟩

/-! ### A slash at the end -/

namespace MissingLists

/-- The files of the anchors and of the lists, now with a slash at the end. -/
def respelled : TrustPaths :=
  { configured.paths with
    caFile := some ⟨"ca/"⟩
    crlFile := some ⟨"c/"⟩ }

theorem between_respelled : (RebuildPlan.between configured.paths respelled).isEmpty = true := by
  decide +kernel

theorem context_respelled : ∃ e, (Context.build files .client respelled 0).value = .error e :=
  isOk_eq_false_iff.mp (by decide +kernel)

theorem store_respelled :
    ∃ e, RevocationStore.build files respelled.crlFile respelled.crlDir = .error e :=
  isOk_eq_false_iff.mp (by decide +kernel)

end MissingLists

open MissingLists in
/-- The files of the anchors and of the lists are set once more with a slash at the end. Nothing is
marked, and both artifacts are kept, while neither could be built again. -/
theorem TrustPaths.respelled_files_kept :
    ∃ context store e e',
      let c := Configuration.run { role := .client } (settings ++ [.ensureContext files])
      let changed := c.commit respelled
      (RebuildPlan.between c.paths respelled).isEmpty = true
        ∧ (changed.ensureContext files).value = (changed, .ok context)
        ∧ changed.store = some store
        ∧ (Context.build files c.role c.paths c.slot).value = .ok context
        ∧ (Context.build files c.role respelled c.slot).value = .error e
        ∧ RevocationStore.build files c.paths.crlFile c.paths.crlDir = .ok store
        ∧ RevocationStore.build files respelled.crlFile respelled.crlDir = .error e' := by
  obtain ⟨context, store, -, -, made, stored, -⟩ := exists_rejects
  obtain ⟨e, unusable⟩ := context_respelled
  obtain ⟨e', unusable'⟩ := store_respelled
  refine ⟨context, store, e, e', ?_⟩
  rw [run_ensureContext made stored]
  let c := (configured.withContext context).withStore store
  have unmarked : (RebuildPlan.between c.paths respelled).isEmpty = true := between_respelled
  dsimp only
  rw [Configuration.commit_of_isEmpty unmarked]
  -- Neither artifact is stale, so that the request leaves everything as it is.
  let kept : Configuration := { c with paths := respelled }
  have current : Configuration.Ensured files kept (kept, .ok context) :=
    .done (.current rfl) (.current rfl) rfl
  exact ⟨unmarked, current.eq_value, rfl, made, unusable, stored, unusable'⟩

end PeerTrust
