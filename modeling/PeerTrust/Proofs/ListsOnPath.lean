import PeerTrust.Proofs.FoundPaths
import PeerTrust.Proofs.Verdicts
import PeerTrust.Proofs.Verification

/-!
# Revocation lists along a path

A check looks at the list of a certificate's issuer for the serial number only. That the list is in
order, signed by the issuer and not expired, is looked at when the issuer itself is put to the store.
Along a path this is so for all certificates below another presented one, but for the last it depends
on what stands behind the certificate that was presented last, which the peer chooses.

## Main definitions

* `RevocationStore.IssuerListInOrder` — the list of a certificate's issuer may be relied on
* `Verifier.AnchorCovered` — the certificates put to the store make up for the anchor of the path

## Main results

* `Verifier.inner_lists_in_order` — lists between presented certificates of a path are in order
* `Verifier.lists_in_order_iff_anchorCovered` — those of anchors are exactly if these are covered
-/

namespace PeerTrust

/-! ### Lists along a path -/

/-- Where a list is found for the issuer of the lower certificate of a link, it may be relied on,
given the key of the upper one. -/
def RevocationStore.IssuerListInOrder (fs : FileSystem) (store : RevocationStore) (now : Moment)
    (link : Bytes × Bytes) : Prop :=
  ∀ cert list, Certificate.ofBytes? link.1 = some cert →
    (store.find fs cert.issuer).value = some list →
      ∃ issuer, Certificate.ofBytes? link.2 = some issuer ∧ list.InOrder issuer.publicKey now

namespace Verifier

variable {role : Role} {anchors : List Bytes} {v : Verifier} {fs : FileSystem}
  {store : RevocationStore} {report : Option Report} {p : Presented} {server : ServerName}
  {now : Moment} {path : CertPath}

/-- A verifier over anchors judges by the search for a path. -/
theorem preVerify_of_ofAnchors (made : ofAnchors role anchors = .ok v) :
    ∃ usable, v.preVerify = Certification.preVerify usable := by
  unfold ofAnchors at made
  obtain ⟨usable, -, made⟩ := bind_eq_ok_iff.mp made
  split at made
  · cases made
  · obtain rfl := Except.ok.inj made
    exact ⟨usable, rfl⟩

theorem verify_eq_ok_iff :
    (v.verify fs (some store) report p server now).value.1 = .ok path ↔
      v.preVerify p.endEntity p.others server now = .ok path
        ∧ ∃ chain, p.all.mapM Certificate.ofBytes? = some chain
          ∧ ∀ cert ∈ v.visited chain, (store.check fs cert now).value = .accept := by
  rw [verify_fst_eq, outcome_ok_iff]
  simp

/-- Lists between presented certificates of a path that is accepted are in order, since the issuers
are put to the store themselves. -/
theorem inner_lists_in_order (made : ofAnchors role anchors = .ok v)
    (accepted : (v.verify fs (some store) report p server now).value.1 = .ok path) :
    ∀ link ∈ path.inner, store.IssuerListInOrder fs now link := by
  obtain ⟨found, chain, readable, checked⟩ := verify_eq_ok_iff.mp accepted
  obtain ⟨usable, searches⟩ := preVerify_of_ofAnchors made
  rw [searches] at found
  obtain ⟨certs, -, isPath, read, linked⟩ := Certification.preVerify_eq_ok found
  intro link mem
  rw [CertPath.inner, isPath, ← List.map_tail, List.zip_map] at mem
  obtain ⟨⟨lower, upper⟩, neighbours, rfl⟩ := List.mem_map.mp mem
  have named : lower.issuer = upper.subject := CertPath.rel_of_mem_zip_tail linked neighbours
  obtain ⟨memLower, memUpper⟩ := List.of_mem_zip neighbours
  obtain ⟨isLower, readLower⟩ := read lower memLower
  obtain ⟨isUpper, readUpper⟩ := read upper (List.mem_of_mem_tail memUpper)
  intro cert list isCert isList
  -- The upper certificate is presented, so that it was read and put to the store.
  obtain ⟨issuer, memIssuer, isIssuer⟩ := exists_mem_of_mapM_eq_some readable isUpper
  refine ⟨issuer, isIssuer, ?_⟩
  -- Their names have the same bytes, and so are the same name to the store.
  have sameName : cert.issuer.canonical = issuer.subject.canonical := by
    apply Name.canonical_congr
    rw [(Certification.Certificate.names_agree readLower isCert).1,
      (Certification.Certificate.names_agree readUpper isIssuer).2, named]
  have visited : issuer ∈ v.visited chain := List.mem_append_left _ memIssuer
  exact RevocationStore.inOrder_of_check_accept (checked issuer visited) sameName.symm isList

/-- Some certificate put to the store bears the name that the last certificate of the path was issued
under, and whatever list the keys of all such certificates signed, the key of the anchor signed. -/
def AnchorCovered (v : Verifier) (p : Presented) (path : CertPath) : Prop :=
  ∀ chain last, p.all.mapM Certificate.ofBytes? = some chain →
    path.certificates.getLast?.bind Certificate.ofBytes? = some last →
      (∃ cert ∈ v.visited chain, cert.subject.canonical = last.issuer.canonical)
        ∧ ∀ list : RevocationList,
            (∀ cert ∈ v.visited chain, cert.subject.canonical = last.issuer.canonical →
              list.signatureResult cert.publicKey = .valid) →
            ∃ anchor, Certificate.ofBytes? path.anchor = some anchor
              ∧ list.signatureResult anchor.publicKey = .valid

/-- An anchor that is put to the store itself is covered. -/
theorem anchorCovered_of_visited {anchor : Certificate}
    (isAnchor : Certificate.ofBytes? path.anchor = some anchor)
    (visited : ∀ chain, p.all.mapM Certificate.ofBytes? = some chain → anchor ∈ v.visited chain)
    (named : ∀ last, path.certificates.getLast?.bind Certificate.ofBytes? = some last →
      anchor.subject.canonical = last.issuer.canonical) : v.AnchorCovered p path := by
  intro chain last readable isLast
  have mem := visited chain readable
  have named := named last isLast
  exact ⟨⟨anchor, mem, named⟩, fun list signed => ⟨anchor, isAnchor, signed anchor mem named⟩⟩

/-- If the anchor is covered, the list above the last certificate of an accepted path is in order. -/
theorem last_list_in_order (covered : v.AnchorCovered p path)
    (accepted : (v.verify fs (some store) report p server now).value.1 = .ok path) {der : Bytes}
    (isLast : path.certificates.getLast? = some der) :
    store.IssuerListInOrder fs now (der, path.anchor) := by
  obtain ⟨-, chain, readable, checked⟩ := verify_eq_ok_iff.mp accepted
  intro last list isCert isList
  -- Whoever bears the issuer's name answers for the issuer's list.
  have own (cert : Certificate) (mem : cert ∈ v.visited chain)
      (named : cert.subject.canonical = last.issuer.canonical) :
      list.InOrder cert.publicKey now :=
    RevocationStore.inOrder_of_check_accept (checked cert mem) named isList
  obtain ⟨⟨cert, mem, named⟩, signed⟩ :=
    covered chain last readable (Option.bind_eq_some_iff.mpr ⟨der, isLast, isCert⟩)
  obtain ⟨anchor, isAnchor, valid⟩ := signed list fun cert mem named => (own cert mem named).1
  exact ⟨anchor, isAnchor, valid, (own cert mem named).2⟩

end Verifier

/-! ### Lists that stand in for others -/

/-- A list of an issuer that names nobody and that nobody signed. -/
def RevocationList.bare (issuer : Name) (algorithm : AlgorithmIdentifier) (now : Moment) :
    RevocationList :=
  { issuer, thisUpdate := now, nextUpdate := none, serials := [], algorithm, signature := [],
    signed := [] }

/-- The signature of a list on one of another issuer that names nobody and is due now. -/
def RevocationList.reissued (list : RevocationList) (issuer : Name) (now : Moment) :
    RevocationList :=
  { list with issuer, nextUpdate := some now, serials := [] }

/-- A store over a file of a single list. -/
def RevocationStore.ofList (list : RevocationList) : RevocationStore := ⟨[.file ⟨""⟩ [list]]⟩

namespace RevocationStore

variable {fs : FileSystem} {now : Moment} {cert : Certificate} {list found : RevocationList}
  {name : Name}

theorem find_ofList_eq_some_iff :
    ((ofList list).find fs name).value = some found ↔
      list = found ∧ list.issuer.canonical = name.canonical := by
  by_cases named : list.issuer.canonical = name.canonical <;>
    simp [ofList, find, findIn, CrlSource.find, RevocationList.isIssuedBy, named]

/-- A single list rejects those who bear its issuer's name, if it is not in order, and those it
names. -/
theorem check_ofList_eq_accept_iff :
    ((ofList list).check fs cert now).value = .accept ↔
      (list.issuer.canonical = cert.subject.canonical → list.InOrder cert.publicKey now)
        ∧ (list.issuer.canonical = cert.issuer.canonical → list.revokes cert.serial = false) := by
  simp only [check_eq_accept_iff, find_ofList_eq_some_iff, and_imp, forall_eq']

/-- A single list that names nobody rejects nobody but for not being in order. -/
theorem check_ofList_accept (empty : list.serials = [])
    (own : list.issuer.canonical = cert.subject.canonical → list.InOrder cert.publicKey now) :
    ((ofList list).check fs cert now).value = .accept := by
  refine check_ofList_eq_accept_iff.mpr ⟨own, fun _ => ?_⟩
  simp [RevocationList.revokes, empty]

end RevocationStore

namespace Verifier

variable {v : Verifier} {p : Presented} {server : ServerName} {now : Moment} {path : CertPath}

/-- Whatever the store is, if the peer is accepted with this path, then the lists of the issuers
along it may be relied on. -/
def ListsAlwaysInOrder (v : Verifier) (p : Presented) (server : ServerName) (now : Moment)
    (path : CertPath) : Prop :=
  ∀ fs store report, (v.verify fs (some store) report p server now).value.1 = .ok path →
    ∀ link ∈ path.links, store.IssuerListInOrder fs now link

/-- If lists along the path are always in order, then the anchor signed whatever list gets past the
certificates that bear the name of the issuer of the last certificate. -/
theorem anchor_signed {chain : List Certificate} {last : Certificate} (list : RevocationList)
    (always : v.ListsAlwaysInOrder p server now path)
    (found : v.preVerify p.endEntity p.others server now = .ok path)
    (readable : p.all.mapM Certificate.ofBytes? = some chain)
    (isLast : path.certificates.getLast?.bind Certificate.ofBytes? = some last)
    (named : list.issuer = last.issuer) (empty : list.serials = [])
    (own : ∀ cert ∈ v.visited chain, cert.subject.canonical = last.issuer.canonical →
      list.InOrder cert.publicKey now) :
    ∃ anchor, Certificate.ofBytes? path.anchor = some anchor
      ∧ list.InOrder anchor.publicKey now := by
  -- The list alone in a store rejects nobody, and so the peer is accepted.
  have accepted : (v.verify .empty (some (.ofList list)) none p server now).value.1 = .ok path := by
    refine verify_eq_ok_iff.mpr ⟨found, chain, readable, fun cert mem => ?_⟩
    refine RevocationStore.check_ofList_accept empty fun same => own cert mem ?_
    rw [← same, named]
  obtain ⟨der, isDer, isCert⟩ := Option.bind_eq_some_iff.mp isLast
  have link : (der, path.anchor) ∈ path.links := CertPath.mem_links_iff.mpr (.inr ⟨der, isDer, rfl⟩)
  refine always _ _ _ accepted _ link last list isCert ?_
  exact RevocationStore.find_ofList_eq_some_iff.mpr ⟨rfl, by rw [named]⟩

/-- Were the anchor not covered, there would be a list that is not in order and is relied on. -/
theorem anchorCovered_of_always (always : v.ListsAlwaysInOrder p server now path)
    (found : v.preVerify p.endEntity p.others server now = .ok path) : v.AnchorCovered p path := by
  intro chain last readable isLast
  constructor
  · by_contra uncovered
    -- A list that does not say when the next one is due gets past all who are visited.
    obtain ⟨anchor, -, -, next, due, -⟩ :=
      anchor_signed (.bare last.issuer last.algorithm now) always found readable isLast rfl rfl
        fun cert mem named => absurd ⟨cert, mem, named⟩ uncovered
    exact nomatch due
  · intro list signed
    -- The signature does not depend on what the list says.
    obtain ⟨anchor, isAnchor, valid, -⟩ :=
      anchor_signed (list.reissued last.issuer now) always found readable isLast rfl rfl
        fun cert mem named => ⟨signed cert mem named, now, rfl, Int.le_refl now⟩
    exact ⟨anchor, isAnchor, valid⟩

/-- Along a path that is accepted, the lists of issuers that were presented are in order. Those of
anchors are so in every store exactly if the anchor is covered by what is put to the store. -/
theorem lists_in_order_iff_anchorCovered (role : Role) (anchors : List Bytes) (p : Presented)
    (server : ServerName) (now : Moment) :
    (∀ v fs store report path, ofAnchors role anchors = .ok v →
        (v.verify fs (some store) report p server now).value.1 = .ok path →
          ∀ link ∈ path.inner, store.IssuerListInOrder fs now link)
      ∧ ∀ v path, ofAnchors role anchors = .ok v →
          v.preVerify p.endEntity p.others server now = .ok path →
            (v.ListsAlwaysInOrder p server now path ↔ v.AnchorCovered p path) := by
  refine ⟨fun v fs store report path made accepted => inner_lists_in_order made accepted, ?_⟩
  intro v path made found
  constructor
  · intro always
    exact anchorCovered_of_always always found
  · intro covered fs store report accepted link mem
    rcases CertPath.mem_links_iff.mp mem with inside | ⟨der, isLast, rfl⟩
    · exact inner_lists_in_order made accepted link inside
    · exact last_list_in_order covered accepted isLast

end Verifier

/-! ### A peer that adds a stray certificate -/

namespace StrayCertificate

open TestAuthority (ofWords expiredList)

/-- A certificate that issued itself and has nothing to do with the others. -/
def stray : Bytes :=
  ofWords 308 [
    0x308201303081d6a003020102020101300a06082a8648ce3d04030230163114301206035504030c0b,
    0x537472616e6765722043413020170d3230303130313030303030305a180f32303939303130313030,
    0x303030305a30163114301206035504030c0b537472616e6765722043413059301306072a8648ce3d,
    0x020106082a8648ce3d03010703420004ab4d7b9b528074f5aef52bf809e57ba7f084e3ef1311ebab,
    0xab8ba9694d3a93ba8b89717c7e611e4b3883b790e0426bcb413754e0400e85d7dde0d0e335222c46,
    0xa3133011300f0603551d130101ff040530030101ff300a06082a8648ce3d04030203490030460221,
    0x00ef2aab9653954059bcfe7022ed5fe3c52627542947a24543f9d4a6e6ba680072022100c5ca4c91,
    0xb173cdfbbaa19c9f8cecf2f10d2839f916360a38682a560f2de4cac7000000000000000000000000]

/-- The list in a file. -/
def files : FileSystem := ⟨[], [(["c"], .file expiredList)]⟩

end StrayCertificate

/-- Whether the peer is accepted although the list of some issuer along its path has expired. -/
def Verifier.reliesOnExpired (v : Verifier) (fs : FileSystem) (store : RevocationStore)
    (p : Presented) (server : ServerName) (now : Moment) : Bool :=
  match (v.verify fs (some store) none p server now).value.1 with
  | .ok path => path.links.any fun link =>
      (Certificate.ofBytes? link.1).any fun cert =>
        (store.find fs cert.issuer).value.any fun list => list.nextUpdate.any (· < now)
  | .error _ => false

theorem Verifier.exists_of_reliesOnExpired {v : Verifier} {fs : FileSystem}
    {store : RevocationStore} {p : Presented} {server : ServerName} {now : Moment}
    (relies : v.reliesOnExpired fs store p server now = true) :
    ∃ path, (v.verify fs (some store) none p server now).value.1 = .ok path
      ∧ ¬∀ link ∈ path.links, store.IssuerListInOrder fs now link := by
  unfold reliesOnExpired at relies
  split at relies
  case h_1 path accepted =>
    obtain ⟨link, mem, relies⟩ := List.any_eq_true.mp relies
    obtain ⟨cert, isCert, relies⟩ := (Option.any_eq_true _ _).mp relies
    obtain ⟨list, isList, relies⟩ := (Option.any_eq_true _ _).mp relies
    obtain ⟨next, isNext, past⟩ := (Option.any_eq_true _ _).mp relies
    refine ⟨path, accepted, fun always => ?_⟩
    obtain ⟨_, -, -, due, isDue, notOver⟩ := always link mem cert list isCert isList
    obtain rfl : next = due := Option.some.inj (isNext.symm.trans isDue)
    exact Int.not_lt.mpr notOver (of_decide_eq_true past)
  case h_2 => cases relies

open TestAuthority StrayCertificate in
/-- The stray certificate keeps the anchor from being put to the store, and the peer is accepted in
spite of the expired list. -/
theorem stray_certificate_hides_expired_list :
    ∃ v store server path, Verifier.ofAnchors .client [root] = .ok v
      ∧ RevocationStore.build files (some ⟨"c"⟩) none = .ok store
      ∧ ServerName.ofText? "localhost" = some server
      ∧ (v.verify files (some store) none ⟨leaf, [stray]⟩ server now).value.1 = .ok path
      ∧ ¬∀ link ∈ path.links, store.IssuerListInOrder files now link := by
  have relies : ((Verifier.ofAnchors .client [root]).toOption.any fun v =>
      (RevocationStore.build files (some ⟨"c"⟩) none).toOption.any fun store =>
        (ServerName.ofText? "localhost").any fun server =>
          v.reliesOnExpired files store ⟨leaf, [stray]⟩ server now) = true := by
    decide +kernel
  obtain ⟨v, made, relies⟩ := toOption_any_eq_true_iff.mp relies
  obtain ⟨store, built, relies⟩ := toOption_any_eq_true_iff.mp relies
  obtain ⟨server, named, relies⟩ := (Option.any_eq_true _ _).mp relies
  obtain ⟨path, accepted, relies⟩ := Verifier.exists_of_reliesOnExpired relies
  exact ⟨v, store, server, path, made, built, named, accepted, relies⟩

end PeerTrust
