import PeerTrust.Proofs.ArmouredText
import PeerTrust.Proofs.FailedRequests
import PeerTrust.Proofs.ListsOnPath
import PeerTrust.Proofs.Outcomes

/-!
# Contexts handed out before a request that fails

The verifier of a context looks for the store in a slot of the configuration, also after the context
was handed out. A request that fails at the context leaves the slot alone. A request that fails at
the store has emptied the slot before it tried to build anything, and an empty slot rejects nobody.

## Main results

* `Configuration.ContextFails.storeIn_eq`, `Configuration.StoreFails.storeIn_eq` — what the slots
  hold after a request that fails
* `Configuration.rejection_kept_iff` — whoever was rejected before a request that fails is turned
  away after it exactly if it failed at the context
-/

namespace PeerTrust

/-- An empty slot turns away nobody for whom there is a path. -/
theorem Verifier.verify_of_empty_slot {v : Verifier} {p : Presented} {server : ServerName}
    {now : Moment} {path : CertPath}
    (found : v.preVerify p.endEntity p.others server now = .ok path) (fs : FileSystem)
    (report : Option Report) :
    (v.verify fs none report p server now).value.1 = .ok path := by
  rw [verify_fst_eq, outcome_ok_iff]
  exact ⟨found, .inl rfl⟩

namespace Configuration

variable {fs : FileSystem} {c : Configuration} {e : Error}

theorem perform_ensureContext (c : Configuration) (fs : FileSystem) :
    (c.perform (.ensureContext fs)).1 = (c.ensureContext fs).value.1 := rfl

/-- A context looks for the store where its configuration keeps it. -/
theorem Coherent.slot_eq {r : Recorded} {context : Context} (h : Coherent r)
    (held : r.configuration.context = some context) : context.slot = r.configuration.slot := by
  obtain ⟨origin, -, built, -⟩ := h.context context held
  exact Context.slot_eq_of_build built

theorem PathChange.storeIn_eq {after : Configuration} (h : PathChange c after) (slot : SlotId) :
    after.storeIn slot = c.storeIn slot := by
  cases h <;> rfl

theorem ContextFails.storeIn_eq (fails : c.ContextFails fs e) (slot : SlotId) :
    (c.ensureContext fs).value.1.storeIn slot = c.storeIn slot := by
  rw [fails.ensured.eq_value]
  rfl

theorem StoreFails.storeIn_eq (fails : c.StoreFails fs e) (slot : SlotId) :
    (c.ensureContext fs).value.1.storeIn slot = none := by
  obtain ⟨⟨held, ready⟩, -⟩ := id fails
  rw [(fails.ensured ready).eq_value]
  exact ite_self none

/-- The verifier of a context that is held reads the store of the configuration, also once the paths
of lists have changed. If the next request for a context fails then, whatever that verifier rejected
before the request is turned away after it exactly if the request failed at the context. -/
theorem rejection_kept_iff (role : Role) (ops : List Operation) (file dir : Option FilePath) :
    let c := Configuration.run { role } ops
    let changed := (c.perform (.setCrls file dir)).1
    ∀ context, c.context = some context →
      changed.storeIn context.slot = c.store
        ∧ ∀ fs after e, (changed.ensureContext fs).value = (after, .error e) →
          ∀ report p server now cert reason,
            context.verifier.Rejects fs c.store p server now cert reason →
              ((∃ failure, (context.verifier.verify fs (after.storeIn context.slot) report p server
                  now).value.1 = .error failure) ↔ changed.ContextFails fs e) := by
  intro c changed context held
  have kept : changed.storeIn context.slot = c.store := by
    have run : ((Recorded.new role).run ops).configuration = c :=
      Recorded.configuration_run (Recorded.new role) ops
    have slot : context.slot = c.slot := by
      rw [← run] at held ⊢
      exact (coherent_run role ops).slot_eq held
    calc
      changed.storeIn context.slot = c.storeIn context.slot :=
        (c.pathChange_setCrls file dir).storeIn_eq context.slot
      _ = c.store := if_pos slot
  refine ⟨kept, fun fs after e failed report p server now cert reason rejects => ?_⟩
  have isAfter : after = (changed.ensureContext fs).value.1 := by rw [failed]
  constructor
  · rintro ⟨failure, refused⟩
    have step := changed.ensured fs
    rw [failed] at step
    rcases step.fails with fails | fails
    · exact fails
    · -- The slot is empty, so that the path is all that counts.
      obtain ⟨⟨path, found⟩, -⟩ := rejects
      rw [isAfter, fails.storeIn_eq, Verifier.verify_of_empty_slot found] at refused
      exact nomatch refused
  · intro fails
    rw [isAfter, fails.storeIn_eq, kept, Verifier.verify_fst_eq, rejects.outcome_eq]
    exact ⟨_, rfl⟩

end Configuration

/-! ### Lists that are gone -/

namespace MissingLists

open PeerTrust.Configuration

/-- A certificate for a client, issued by Test CA. -/
def clientCert : Bytes :=
  TestAuthority.ofWords 331 [
    0x308201473081efa003020102020110300a06082a8648ce3d04030230293110300e06035504030c07,
    0x5465737420434131153013060355040a0c0c4e4554434f4e4620546573743020170d323030313031,
    0x3030303030305a180f32303939303130313030303030305a3011310f300d06035504030c06636c69,
    0x656e743059301306072a8648ce3d020106082a8648ce3d03010703420004358224a4880530bbc860,
    0x3433b45d2450ab9e7fd36c5ce55aa7f640cca88b81f1567d4b977cbfc33e297b4c19140a104bd008,
    0xb688b4b04f2b98d741823e2ebdd1a31e301c301a0603551d110413301182096c6f63616c686f7374,
    0x87047f000001300a06082a8648ce3d04030203470030440220376da8ad3db79477f4adb1ddd24622,
    0xe17c9d56aadae5d140b283ea789ec197600220053250764a53d34b9b079daf87f794333dc88c0b0d,
    0xecfeaf0fc06958a332c7430000000000000000000000000000000000000000000000000000000000]

/-- The key of the client. -/
def clientKey : Bytes :=
  TestAuthority.ofWords 138 [
    0x308187020100301306072a8648ce3d020106082a8648ce3d030107046d306b020101042053c03920,
    0x33b085bb824f8b6138f55fdc9ca9b0174870b15a6d3aca2b51f3f9d5a14403420004358224a48805,
    0x30bbc8603433b45d2450ab9e7fd36c5ce55aa7f640cca88b81f1567d4b977cbfc33e297b4c19140a,
    0x104bd008b688b4b04f2b98d741823e2ebdd100000000000000000000000000000000000000000000]

/-- The credentials of the client, Test CA and its list, which has expired. -/
def files : FileSystem :=
  ⟨[], [(["cert"], .file (Pem.armour .certificate clientCert)),
    (["key"], .file (Pem.armour .privateKey clientKey)),
    (["ca"], .file (Pem.armour .certificate TestAuthority.root)),
    (["c"], .file TestAuthority.expiredList)]⟩

/-- The paths set. -/
def settings : List Operation :=
  [.setCredentials (some ⟨"cert"⟩) (some ⟨"key"⟩), .setAnchors (some ⟨"ca"⟩) none,
    .setCrls (some ⟨"c"⟩) none]

/-- The configuration with the paths set. -/
def configured : Configuration := Configuration.run { role := .client } settings

/-- The peer, whose anchor is Test CA. -/
def peer : Presented := ⟨TestAuthority.leaf, []⟩

/-- Context and store can be built, and reject the anchor of the peer for its list. -/
theorem exists_rejects :
    ∃ context store server cert,
      (Context.build files configured.role configured.paths configured.slot).value = .ok context
        ∧ RevocationStore.build files configured.paths.crlFile configured.paths.crlDir = .ok store
        ∧ ServerName.ofText? "localhost" = some server
        ∧ context.verifier.Rejects files (some store) peer server TestAuthority.now cert
          .crlExpired
        ∧ cert.subject.display = "CN=Test CA, O=NETCONF Test" := by
  have rejected : ((Context.build files configured.role configured.paths
      configured.slot).value.toOption.any fun context =>
        (RevocationStore.build files configured.paths.crlFile
          configured.paths.crlDir).toOption.any fun store =>
            (ServerName.ofText? "localhost").any fun server =>
              (context.verifier.outcome files (some store) peer server
                TestAuthority.now).value.record
                  = some ⟨.failed .crlHasExpired, some "CN=Test CA, O=NETCONF Test"⟩) = true := by
    decide +kernel
  obtain ⟨context, made, rejected⟩ := toOption_any_eq_true_iff.mp rejected
  obtain ⟨store, stored, rejected⟩ := toOption_any_eq_true_iff.mp rejected
  obtain ⟨server, named, rejected⟩ := (Option.any_eq_true _ _).mp rejected
  have recorded := of_decide_eq_true rejected
  obtain ⟨cert, reason, rejects, subject⟩ := Verifier.exists_rejects_of_subject recorded rfl
  rw [rejects.outcome_eq] at recorded
  cases reason with
  | crlExpired => exact ⟨context, store, server, cert, made, stored, named, rejects, subject⟩
  | _ => cases recorded

section Built

variable {context : Context} {store : RevocationStore}

/-- A request that builds both. -/
theorem ensured_configured
    (made : (Context.build files configured.role configured.paths configured.slot).value
      = .ok context)
    (stored : RevocationStore.build files configured.paths.crlFile configured.paths.crlDir
      = .ok store) :
    Ensured files configured ((configured.withContext context).withStore store, .ok context) :=
  .done (.built rfl made) (.built rfl stored) rfl

theorem run_ensureContext
    (made : (Context.build files configured.role configured.paths configured.slot).value
      = .ok context)
    (stored : RevocationStore.build files configured.paths.crlFile configured.paths.crlDir
      = .ok store) :
    Configuration.run { role := .client } (settings ++ [.ensureContext files])
      = (configured.withContext context).withStore store := by
  rw [run_append, ← configured, run_cons, run_nil, perform_ensureContext,
    (ensured_configured made stored).eq_value]

end Built

/-- The paths of the certificate and the lists changed to one where there is no file. -/
def astray : TrustPaths :=
  { configured.paths with
    cert := some ⟨"missing"⟩
    key := none
    crlFile := some ⟨"missing"⟩ }

theorem store_missing : ∃ e, RevocationStore.build files (some ⟨"missing"⟩) none = .error e :=
  isOk_eq_false_iff.mp (by decide +kernel)

theorem context_missing : ∃ e, (Context.build files .client astray 0).value = .error e :=
  isOk_eq_false_iff.mp (by decide +kernel)

end MissingLists

open MissingLists in
/-- The path of the lists is changed to one where there is no file. The request for a context fails,
and the peer, who was rejected before, is accepted. -/
theorem Configuration.failed_request_undoes_rejection :
    ∃ context after e server cert reason path,
      let c := Configuration.run { role := .client } (settings ++ [.ensureContext files])
      let changed := (c.perform (.setCrls (some ⟨"missing"⟩) none)).1
      c.context = some context ∧ c.store ≠ none
        ∧ (changed.ensureContext files).value = (after, .error e)
        ∧ ServerName.ofText? "localhost" = some server
        ∧ context.verifier.Rejects files (changed.storeIn context.slot) peer server
          TestAuthority.now cert reason
        ∧ (context.verifier.verify files (after.storeIn context.slot) none peer server
          TestAuthority.now).value.1 = .ok path := by
  obtain ⟨context, store, server, cert, made, stored, named, rejects, -⟩ := exists_rejects
  obtain ⟨e, missing⟩ := store_missing
  obtain ⟨⟨path, found⟩, -⟩ := id rejects
  have slot : context.slot = configured.slot := Context.slot_eq_of_build made
  rw [run_ensureContext made stored]
  let changed := (((configured.withContext context).withStore store).perform
    (.setCrls (some ⟨"missing"⟩) none)).1
  have ready : changed.ContextReady files context := rfl
  have fails : changed.StoreFails files e := ⟨⟨context, ready⟩, rfl, missing⟩
  refine ⟨context, _, e, server, cert, .crlExpired, path, rfl, nofun,
    (fails.ensured ready).eq_value, named, ?_, ?_⟩
  · rw [slot]
    exact rejects
  · rw [slot]
    exact Verifier.verify_of_empty_slot found files none

open MissingLists in
/-- The path of the certificate is changed as well, again to one where there is no file. The request
fails at the context, and the peer is still rejected. -/
theorem Configuration.rejection_kept_without_certificate :
    ∃ context after e server cert reason failure,
      let c := Configuration.run { role := .client }
        (settings ++ [.ensureContext files] ++ [.setCredentials (some ⟨"missing"⟩) none])
      let changed := (c.perform (.setCrls (some ⟨"missing"⟩) none)).1
      c.context = some context ∧ (changed.ensureContext files).value = (after, .error e)
        ∧ context.verifier.Rejects files c.store peer server TestAuthority.now cert reason
        ∧ (context.verifier.verify files (after.storeIn context.slot) none peer server
          TestAuthority.now).value.1 = .error failure := by
  obtain ⟨context, store, server, cert, made, stored, -, rejects, -⟩ := exists_rejects
  obtain ⟨e, missing⟩ := context_missing
  have kept := rejection_kept_iff .client
    (settings ++ [.ensureContext files] ++ [.setCredentials (some ⟨"missing"⟩) none])
    (some ⟨"missing"⟩) none
  rw [run_append, run_ensureContext made stored] at kept ⊢
  let changed := (((((configured.withContext context).withStore store).perform
    (.setCredentials (some ⟨"missing"⟩) none)).1).perform (.setCrls (some ⟨"missing"⟩) none)).1
  have fails : changed.ContextFails files e := ⟨rfl, missing⟩
  obtain ⟨-, kept⟩ := kept context rfl
  obtain ⟨failure, refused⟩ := (kept files _ e fails.ensured.eq_value none peer server
    TestAuthority.now cert .crlExpired rejects).mpr fails
  exact ⟨context, _, e, server, cert, .crlExpired, failure, rfl, fails.ensured.eq_value, rejects,
    refused⟩

end PeerTrust
