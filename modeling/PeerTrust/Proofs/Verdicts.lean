import PeerTrust.Proofs.Checks
import PeerTrust.Proofs.Magnitudes
import PeerTrust.Proofs.Steps

/-!
# What a verdict means

The lists that a store looks through for a name stand in a sequence: those of its file, in order,
and then those of the numbered files under the hash of the name. The first of them that was issued
under the name counts, and no other. A certificate is rejected for the first of four reasons that
applies, given the list that counts for its own name and the one that counts for its issuer's.

## Main definitions

* `RevocationList.inFile`, `CrlSource.numberedFiles` — the lists of a file, the files under a hash
* `RevocationStore.sequence`, `RevocationStore.first` — the lists in order, and the one that counts
* `RejectReason.Applies`, `RejectReason.IsFirst` — when a reason to reject applies, and comes first

## Main results

* `RevocationStore.find_eq_first` — the list that is looked up is the one that counts
* `CrlSource.numberedFiles_of_gap` — no file behind a gap is looked at
* `RevocationStore.verdict_exact` — a verdict gives the first reason, if there is any
-/

namespace PeerTrust

/-! ### The list that counts -/

/-- The lists of a file. One that cannot be read or parsed holds none. -/
def RevocationList.inFile (fs : FileSystem) (path : FilePath) : List RevocationList :=
  match RevocationList.load fs path with
  | .ok lists => lists
  | .error _ => []

namespace CrlSource

variable {fs : FileSystem} {dir : FilePath} {hash : UInt32} {name : Name}

/-- The files under a hash, by index, up to the first index at which there is no file. Indices are
numbers of 32 bits short of the last one. -/
def numberedFiles (fs : FileSystem) (dir : FilePath) (hash : UInt32) : List FilePath :=
  ((List.range maxFiles).map (hashedPath dir hash)).takeWhile fun path => fs.isFile path

theorem filesFrom_eq_takeWhile (room index : Nat) :
    filesFrom fs dir hash room index
      = ((List.range' index room).map (hashedPath dir hash)).takeWhile
          fun path => fs.isFile path := by
  induction room generalizing index with
  | zero => rfl
  | succ room ih =>
    rw [List.range'_succ, List.map_cons, List.takeWhile_cons, ← ih]
    rfl

/-- Files that follow the first gap are not among them. -/
theorem numberedFiles_of_gap {gap : Nat} (room : gap < maxFiles)
    (before : ∀ index < gap, fs.isFile (hashedPath dir hash index) = true)
    (missing : fs.isFile (hashedPath dir hash gap) = false) :
    numberedFiles fs dir hash = (List.range gap).map (hashedPath dir hash) := by
  have all : ∀ path ∈ (List.range gap).map (hashedPath dir hash), fs.isFile path = true := by
    simpa [List.mem_range] using before
  obtain ⟨rest, more⟩ : ∃ rest, maxFiles = gap + (rest + 1) := ⟨maxFiles - gap - 1, by omega⟩
  rw [numberedFiles, more, List.range_add, List.range_succ_eq_map, List.map_append,
    List.takeWhile_append_of_pos all, List.map_cons, List.map_cons, Nat.add_zero,
    List.takeWhile_cons_of_neg (by simp [missing]), List.append_nil]

theorem candidates_eq_numberedFiles : candidates fs dir hash = numberedFiles fs dir hash := by
  rw [candidates, filesFrom_eq_takeWhile, numberedFiles, List.range_eq_range']

/-- A walk along files finds the first list that all their lists in a row hold. -/
theorem walk_eq_find? (paths : List FilePath) :
    (walk fs name paths).value
      = (paths.flatMap (RevocationList.inFile fs)).find? (·.isIssuedBy name) := by
  induction paths with
  | nil => rfl
  | cons path rest ih =>
    rw [List.flatMap_cons, List.find?_append, ← ih, walk, RevocationList.inFile]
    cases RevocationList.load fs path with
    | error problem => rfl
    | ok lists =>
      dsimp only
      cases lists.find? (·.isIssuedBy name) <;> rfl

/-- The lists of a source that are looked through under a hash. -/
def lists (fs : FileSystem) (hash : UInt32) : CrlSource → List RevocationList
  | file _ lists => lists
  | hashedDir dir => (numberedFiles fs dir hash).flatMap (RevocationList.inFile fs)

theorem find_eq_find? (source : CrlSource) :
    (source.find fs name).value = (source.lists fs name.hash).find? (·.isIssuedBy name) := by
  cases source with
  | file path lists => rfl
  | hashedDir dir => rw [find, walk_eq_find?, candidates_eq_numberedFiles, lists]

end CrlSource

namespace RevocationStore

variable {built fs : FileSystem} {crlFile crlDir : Option FilePath} {store : RevocationStore}

theorem findIn_eq_find? (name : Name) (sources : List CrlSource) :
    (findIn fs name sources).value
      = (sources.flatMap (·.lists fs name.hash)).find? (·.isIssuedBy name) := by
  induction sources with
  | nil => rfl
  | cons source rest ih =>
    rw [List.flatMap_cons, List.find?_append, ← ih, ← source.find_eq_find?, findIn,
      Logged.value_bind]
    cases (source.find fs name).value <;> rfl

theorem fileSource_eq_ok {path : FilePath} {source : CrlSource}
    (made : fileSource built path = .ok source) :
    source = .file path (RevocationList.inFile built path) := by
  unfold fileSource at made
  unfold RevocationList.inFile
  cases loaded : RevocationList.load built path with
  | error problem => simp [loaded] at made
  | ok lists => simpa [loaded, eq_comm] using made

theorem dirSource_eq_ok {path : FilePath} {source : CrlSource}
    (made : dirSource built path = .ok source) : source = .hashedDir path := by
  unfold dirSource at made
  split at made
  · exact (Except.ok.inj made).symm
  · cases made

/-- A store holds the lists of the file as they were when it was built, and the directory. -/
theorem sources_of_build (made : build built crlFile crlDir = .ok store) :
    store.sources
      = (crlFile.toList.map fun path => .file path (RevocationList.inFile built path))
        ++ crlDir.toList.map .hashedDir := by
  unfold build at made
  obtain ⟨files, loaded, made⟩ := bind_eq_ok_iff.mp made
  obtain ⟨dirs, opened, made⟩ := bind_eq_ok_iff.mp made
  obtain rfl := Except.ok.inj made
  rw [eq_map_of_mapM_eq_ok (fun _ _ => fileSource_eq_ok) loaded,
    eq_map_of_mapM_eq_ok (fun _ _ => dirSource_eq_ok) opened]

/-- The lists that are looked through for a name: those of the file when the store was built, and
those in the directory now. -/
def sequence (built fs : FileSystem) (crlFile crlDir : Option FilePath) (name : Name) :
    List RevocationList :=
  crlFile.toList.flatMap (RevocationList.inFile built)
    ++ crlDir.toList.flatMap fun dir =>
        (CrlSource.numberedFiles fs dir name.hash).flatMap (RevocationList.inFile fs)

/-- The list that counts for a name: the first that was issued under it. -/
def first (built fs : FileSystem) (crlFile crlDir : Option FilePath) (name : Name) :
    Option RevocationList :=
  (sequence built fs crlFile crlDir name).find? fun list =>
    list.issuer.canonical = name.canonical

theorem find_eq_first (made : build built crlFile crlDir = .ok store) (name : Name) :
    (store.find fs name).value = first built fs crlFile crlDir name := by
  rw [find, findIn_eq_find?, sources_of_build made, first, sequence, List.flatMap_append,
    List.flatMap_map, List.flatMap_map]
  rfl

end RevocationStore

/-! ### Reasons to reject -/

namespace RejectReason

/-- When a reason to reject a certificate applies, given the list that counts for its own name and
the one that counts for its issuer's. -/
def Applies (own above : Option RevocationList) (cert : Certificate) (now : Moment) :
    RejectReason → Prop
  | .crlSignatureInvalid =>
    ∃ list, own = some list ∧ list.signatureResult cert.publicKey ≠ .valid
  | .crlFieldMissing => ∃ list, own = some list ∧ list.nextUpdate = none
  | .crlExpired => ∃ list next, own = some list ∧ list.nextUpdate = some next ∧ next < now
  | .certificateRevoked =>
    ∃ list serial, above = some list ∧ serial ∈ list.serials
      ∧ Bytes.toNat serial = Bytes.toNat cert.serial

/-- The place of a reason among the four. -/
def order : RejectReason → Nat
  | .crlSignatureInvalid => 0
  | .crlFieldMissing => 1
  | .crlExpired => 2
  | .certificateRevoked => 3

/-- The reason applies, and none that comes before it does. -/
def IsFirst (own above : Option RevocationList) (cert : Certificate) (now : Moment)
    (reason : RejectReason) : Prop :=
  reason.Applies own above cert now
    ∧ ∀ other : RejectReason, other.Applies own above cert now → reason.order ≤ other.order

theorem order_injective {reason other : RejectReason} (same : reason.order = other.order) :
    reason = other := by
  cases reason <;> cases other <;> first | rfl | cases same

section

variable {own above : Option RevocationList} {list : RevocationList} {cert : Certificate}
  {now : Moment} {reason other : RejectReason}

theorem IsFirst.unique (h : reason.IsFirst own above cert now)
    (h' : other.IsFirst own above cert now) : reason = other := by
  have notAfter := h.2 other h'.1
  have notBefore := h'.2 reason h.1
  exact order_injective (Nat.le_antisymm notAfter notBefore)

theorem applies_certificateRevoked_iff :
    certificateRevoked.Applies own above cert now ↔
      ∃ list, above = some list ∧ list.revokes cert.serial = true := by
  simp only [Applies, RevocationList.revokes_iff, Bytes.significant_eq_significant_iff,
    exists_and_left]

/-- Of a list that is in order, or of no list, none of the first three reasons comes. -/
theorem eq_certificateRevoked_of_applies
    (inOrder : ∀ list, own = some list → list.InOrder cert.publicKey now)
    (applies : reason.Applies own above cert now) : reason = .certificateRevoked := by
  cases reason with
  | crlSignatureInvalid =>
    obtain ⟨list, isOwn, invalid⟩ := applies
    exact absurd (inOrder list isOwn).1 invalid
  | crlFieldMissing =>
    obtain ⟨list, isOwn, missing⟩ := applies
    obtain ⟨-, next, due, -⟩ := inOrder list isOwn
    exact nomatch missing.symm.trans due
  | crlExpired =>
    obtain ⟨list, next, isOwn, due, past⟩ := applies
    obtain ⟨-, other, sameDue, notOver⟩ := inOrder list isOwn
    obtain rfl : next = other := Option.some.inj (due.symm.trans sameDue)
    exact absurd past (Int.not_lt.mpr notOver)
  | certificateRevoked => rfl

end

end RejectReason

namespace RevocationStore

open RejectReason (IsFirst Applies)

variable {built fs : FileSystem} {crlFile crlDir : Option FilePath} {store : RevocationStore}
  {cert : Certificate} {now : Moment} {list : RevocationList} {above : Option RevocationList}
  {reason : RejectReason}

/-- What is wrong with the certificate's own list comes before anything in another list. -/
theorem isFirst_of_checkOwn (rejected : (checkOwn list cert now).value = .reject reason) :
    reason.IsFirst (some list) above cert now := by
  unfold checkOwn at rejected
  rw [Logged.value_bind] at rejected
  cases signed : (list.isSignedBy cert.publicKey).value with
  | false =>
    obtain rfl : RejectReason.crlSignatureInvalid = reason := by simpa [signed] using rejected
    have invalid : list.signatureResult cert.publicKey ≠ .valid := by
      rw [Ne, ← RevocationList.isSignedBy_eq_true_iff, signed]
      exact Bool.false_ne_true
    exact ⟨⟨list, rfl, invalid⟩, fun _ _ => Nat.zero_le _⟩
  | true =>
    have valid := RevocationList.isSignedBy_eq_true_iff.mp signed
    cases due : list.nextUpdate with
    | none =>
      obtain rfl : RejectReason.crlFieldMissing = reason := by simpa [signed, due] using rejected
      -- Only the signature comes before a missing date, and it is valid.
      refine ⟨⟨list, rfl, due⟩, fun other applies => ?_⟩
      cases other with
      | crlSignatureInvalid =>
        obtain ⟨_, ⟨⟩, invalid⟩ := applies
        exact absurd valid invalid
      | crlFieldMissing | crlExpired | certificateRevoked => decide
    | some next =>
      by_cases past : next < now
      · obtain rfl : RejectReason.crlExpired = reason := by
          simpa [signed, due, past] using rejected
        refine ⟨⟨list, next, rfl, due, past⟩, fun other applies => ?_⟩
        cases other with
        | crlSignatureInvalid =>
          obtain ⟨_, ⟨⟩, invalid⟩ := applies
          exact absurd valid invalid
        | crlFieldMissing =>
          obtain ⟨_, ⟨⟩, missing⟩ := applies
          exact nomatch missing.symm.trans due
        | crlExpired | certificateRevoked => decide
      · simp [signed, due, past] at rejected

theorem checkFound_eq_reject {name : Name} {check : RevocationList → Logged Revocation.Verdict}
    (rejected : (checkFound fs store name check).value = .reject reason) :
    ∃ list, (store.find fs name).value = some list ∧ (check list).value = .reject reason := by
  unfold checkFound at rejected
  rw [Logged.value_bind] at rejected
  cases found : (store.find fs name).value with
  | none => simp [found] at rejected
  | some list => exact ⟨list, rfl, by simpa [found] using rejected⟩

theorem checkListed_eq_reject (rejected : (checkListed list cert).value = .reject reason) :
    reason = .certificateRevoked ∧ list.revokes cert.serial = true := by
  unfold checkListed at rejected
  split at rejected
  case isTrue listed => exact ⟨(Revocation.Verdict.reject.inj rejected).symm, listed⟩
  case isFalse => cases rejected

/-- A certificate is rejected for the first reason that applies. -/
theorem isFirst_of_check (rejected : (store.check fs cert now).value = .reject reason) :
    reason.IsFirst (store.find fs cert.subject).value (store.find fs cert.issuer).value cert
      now := by
  unfold check at rejected
  rw [Logged.value_bind] at rejected
  cases own : (checkFound fs store cert.subject (checkOwn · cert now)).value with
  | reject first =>
    obtain rfl : first = reason := by simpa [own] using rejected
    obtain ⟨list, found, refused⟩ := checkFound_eq_reject own
    rw [found]
    exact isFirst_of_checkOwn refused
  | accept =>
    simp only [own] at rejected
    obtain ⟨list, found, refused⟩ := checkFound_eq_reject rejected
    obtain ⟨rfl, listed⟩ := checkListed_eq_reject refused
    refine ⟨RejectReason.applies_certificateRevoked_iff.mpr ⟨list, found, listed⟩, ?_⟩
    intro other applies
    have inOrder := fun list found =>
      checkOwn_eq_accept_iff.mp (checkFound_eq_accept_iff.mp own list found)
    obtain rfl := RejectReason.eq_certificateRevoked_of_applies inOrder applies
    exact Nat.le_refl _

/-- A certificate that is accepted gives no reason to reject it. -/
theorem not_applies_of_check (accepted : (store.check fs cert now).value = .accept)
    (reason : RejectReason) :
    ¬reason.Applies (store.find fs cert.subject).value (store.find fs cert.issuer).value cert
      now := by
  obtain ⟨inOrder, unlisted⟩ := check_eq_accept_iff.mp accepted
  intro applies
  obtain rfl := RejectReason.eq_certificateRevoked_of_applies inOrder applies
  obtain ⟨list, found, listed⟩ := RejectReason.applies_certificateRevoked_iff.mp applies
  exact Bool.false_ne_true ((unlisted list found).symm.trans listed)

/-- The verdict of a store over an optional file and an optional directory. It rejects a certificate
for a reason exactly if that is the first to apply, and accepts it exactly if none does, so that it
never accepts one that the list of its issuer names. -/
theorem verdict_exact (made : build built crlFile crlDir = .ok store) (fs : FileSystem)
    (cert : Certificate) (now : Moment) :
    let own := first built fs crlFile crlDir cert.subject
    let above := first built fs crlFile crlDir cert.issuer
    (∀ reason, (store.check fs cert now).value = .reject reason ↔
        reason.IsFirst own above cert now)
      ∧ ((store.check fs cert now).value = .accept ↔
        ∀ reason : RejectReason, ¬reason.Applies own above cert now)
      ∧ (∀ list serial, above = some list → serial ∈ list.serials →
        Bytes.toNat serial = Bytes.toNat cert.serial →
          (store.check fs cert now).value ≠ .accept) := by
  intro own above
  have rejects {reason : RejectReason}
      (rejected : (store.check fs cert now).value = .reject reason) :
      reason.IsFirst own above cert now := by
    have isFirst := isFirst_of_check rejected
    rwa [find_eq_first made, find_eq_first made] at isFirst
  have accepts (accepted : (store.check fs cert now).value = .accept) (reason : RejectReason) :
      ¬reason.Applies own above cert now := by
    have clear := not_applies_of_check accepted reason
    rwa [find_eq_first made, find_eq_first made] at clear
  refine ⟨fun reason => ⟨rejects, fun isFirst => ?_⟩, ⟨accepts, ?_⟩, ?_⟩
  · cases verdict : (store.check fs cert now).value with
    | accept => exact absurd isFirst.1 (accepts verdict reason)
    | reject other => rw [(rejects verdict).unique isFirst]
  · intro clear
    cases verdict : (store.check fs cert now).value with
    | accept => rfl
    | reject reason => exact absurd (rejects verdict).1 (clear reason)
  · intro list serial isAbove mem sameValue accepted
    exact accepts accepted .certificateRevoked ⟨list, serial, isAbove, mem, sameValue⟩

end RevocationStore

/-! ### Certificates of a test authority -/

namespace TestAuthority

/-- Bytes written as words of forty bytes, the last of which is filled up with zeros. -/
def ofWords (length : Nat) (words : List Nat) : Bytes :=
  (words.flatMap fun word => (Bytes.ofNatLittle 40 word).reverse).take length

/-- The trust anchor, Test CA. -/
def root : Bytes :=
  ofWords 346 [
    0x308201563081fca003020102020101300a06082a8648ce3d04030230293110300e06035504030c07,
    0x5465737420434131153013060355040a0c0c4e4554434f4e4620546573743020170d323030313031,
    0x3030303030305a180f32303939303130313030303030305a30293110300e06035504030c07546573,
    0x7420434131153013060355040a0c0c4e4554434f4e4620546573743059301306072a8648ce3d0201,
    0x06082a8648ce3d030107034200043362f6d38338c2bef6bb9b6ce74d5edc26353c95b226f52cbecb,
    0x407aaedb35bd201ae0066aecb3a929fa3ead7f70c02fcffb27eda6bbf5c9c0284a3fd8ec916da313,
    0x3011300f0603551d130101ff040530030101ff300a06082a8648ce3d0403020349003046022100cf,
    0x5d837435aaa4ce9c534cdb741aceb88c9abb0bec102d8153abe2ef594792470221008df90442608a,
    0x10e91d5566db1f54ec305ef09dd19894cb2157d756fa74b1fb0a0000000000000000000000000000]

/-- A certificate for localhost, issued by the anchor. -/
def leaf : Bytes :=
  ofWords 333 [
    0x308201493081efa003020102020106300a06082a8648ce3d04030230293110300e06035504030c07,
    0x5465737420434131153013060355040a0c0c4e4554434f4e4620546573743020170d323030313031,
    0x3030303030305a180f32303939303130313030303030305a3011310f300d06035504030c06736572,
    0x7665723059301306072a8648ce3d020106082a8648ce3d030107034200049208ed6e38bc86a1afe6,
    0x0357407afb77eefb20ad34335d0e1319adbb487f1ec48be73b972beb1488bb17b9c249e35fe0609b,
    0x41440a3999766b7da39f8ed88502a31e301c301a0603551d110413301182096c6f63616c686f7374,
    0x87047f000001300a06082a8648ce3d040302034900304602210097210b514c1bf4f360b5ec388328,
    0x04ba500dd6d5b1da726ed13b3bc8f79a32fa022100ed66587efebe51b04acce5fa885d58a3c492db,
    0x2102b29cd7c0c794d729f1a6ec000000000000000000000000000000000000000000000000000000]

/-- A list of Test CA that was due to be replaced at the beginning of 2021. -/
def expiredList : Bytes :=
  ofWords 178 [
    0x3081af3058020101300a06082a8648ce3d04030230293110300e06035504030c0754657374204341,
    0x31153013060355040a0c0c4e4554434f4e462054657374170d3230303130313030303030305a170d,
    0x3231303130313030303030305a300a06082a8648ce3d0403020347003044022034000c38e8c8acd1,
    0x103980ff63af3641afd3e466e49faccea101c359caf1c98902207ae6114dd30d5482a672373b2e38,
    0x2eb4b22fc9ab2c222335028065b3451a642700000000000000000000000000000000000000000000]

/-- A moment in November 2023. -/
def now : Moment := 1700000000

end TestAuthority

/-! ### Lists that nobody signed -/

namespace NamelessIssuer

/-- A list of an issuer without a name, over serial 5. Nobody signed it. -/
def list : Bytes :=
  let algorithm := Der.encode 0x30 [0x06, 0x01, 0x2a]
  let day := Der.encode 0x17 (Bytes.ofAscii "200101000000Z")
  let entry := Der.encode 0x30 ([0x02, 0x01, 0x05] ++ day)
  let body := Der.encode 0x30 (algorithm ++ [0x30, 0x00] ++ day ++ Der.encode 0x30 entry)
  Der.encode 0x30 (body ++ algorithm ++ [0x03, 0x01, 0x00])

end NamelessIssuer

namespace ForgedList

/-- A list in the name of Test CA over serials 1, which is its own, and 6, which is that of a
certificate it issued. Test CA did not sign the list, which does not tell when the next is due. -/
def list : Bytes :=
  let algorithm := Der.encode 0x30
    (Der.encode 0x06 [0x2a, 0x86, 0x48, 0xce, 0x3d, 0x04, 0x03, 0x02])
  let part (kind : UInt8) (text : String) := Der.encode 0x31 (Der.encode 0x30
    (Der.encode 0x06 [0x55, 0x04, kind] ++ Der.encode 0x0c (Bytes.ofAscii text)))
  let issuer := Der.encode 0x30 (part 0x03 "Test CA" ++ part 0x0a "NETCONF Test")
  let day := Der.encode 0x17 (Bytes.ofAscii "200101000000Z")
  let entry (serial : UInt8) := Der.encode 0x30 (Der.encode 0x02 [serial] ++ day)
  let entries := Der.encode 0x30 (entry 1 ++ entry 6)
  let body := Der.encode 0x30 (Der.encode 0x02 [1] ++ algorithm ++ issuer ++ day ++ entries)
  let signature := Der.encode 0x30 (Der.encode 0x02 [1] ++ Der.encode 0x02 [1])
  Der.encode 0x30 (body ++ algorithm ++ Der.encode 0x03 (0x00 :: signature))

/-- A list of somebody else in a file, and an empty directory. -/
def before : FileSystem := ⟨[], [(["c"], .file NamelessIssuer.list), (["d"], .directory)]⟩

/-- The forged list under the hash of the name of Test CA, behind a file that is no list. -/
def files : FileSystem :=
  { before with
    entries := before.entries ++ [
      (["d", "2ab920ce.r0"], .file (Bytes.ofAscii "no list")),
      (["d", "2ab920ce.r1"], .file list)] }

end ForgedList

open RejectReason ForgedList TestAuthority in
/-- A list is filed that Test CA did not sign and that names its certificate. There the signature
comes first. A certificate that Test CA issued is rejected as revoked, for there is no list in the
name of its subject. -/
theorem RevocationStore.signature_before_revocation :
    ∃ store anchor issued own, build before (some ⟨"c"⟩) (some ⟨"d"⟩) = .ok store
      ∧ Certificate.ofBytes? root = some anchor ∧ Certificate.ofBytes? leaf = some issued
      ∧ first before files (some ⟨"c"⟩) (some ⟨"d"⟩) anchor.subject = some own
      ∧ certificateRevoked.Applies (some own) (some own) anchor now
      ∧ (store.check files anchor now).value = .reject .crlSignatureInvalid
      ∧ (store.check files issued now).value = .reject .certificateRevoked := by
  -- All that depends on these files and certificates is computed here, and nothing else is.
  have faults : ((build before (some ⟨"c"⟩) (some ⟨"d"⟩)).toOption.any fun store =>
      (Certificate.ofBytes? root).any fun anchor => (Certificate.ofBytes? leaf).any fun issued =>
        (store.find files anchor.subject).value.any fun own =>
          decide ((store.find files issued.subject).value = none
            ∧ (store.find files issued.issuer).value = some own
            ∧ own.signatureResult anchor.publicKey ≠ .valid
            ∧ own.revokes anchor.serial = true ∧ own.revokes issued.serial = true)) = true := by
    decide +kernel
  obtain ⟨store, built, faults⟩ := toOption_any_eq_true_iff.mp faults
  obtain ⟨anchor, isAnchor, faults⟩ := (Option.any_eq_true _ _).mp faults
  obtain ⟨issued, isIssued, faults⟩ := (Option.any_eq_true _ _).mp faults
  obtain ⟨own, isOwn, faults⟩ := (Option.any_eq_true _ _).mp faults
  obtain ⟨noOwn, isAbove, invalid, listed, listed'⟩ := of_decide_eq_true faults
  rw [find_eq_first built] at isOwn noOwn isAbove
  refine ⟨store, anchor, issued, own, built, isAnchor, isIssued, isOwn,
    applies_certificateRevoked_iff.mpr ⟨own, rfl, listed⟩, ?_, ?_⟩
  · exact ((verdict_exact built files anchor now).1 _).mpr
      ⟨⟨own, isOwn, invalid⟩, fun _ _ => Nat.zero_le _⟩
  · refine ((verdict_exact built files issued now).1 _).mpr
      ⟨applies_certificateRevoked_iff.mpr ⟨own, isAbove, listed'⟩, fun other applies => ?_⟩
    rw [noOwn] at applies
    have inOrder : ∀ list : RevocationList, none = some list → list.InOrder issued.publicKey now :=
      nofun
    obtain rfl := eq_certificateRevoked_of_applies inOrder applies
    exact Nat.le_refl _

end PeerTrust
