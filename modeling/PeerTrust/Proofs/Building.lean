import PeerTrust.Proofs.Steps
import PeerTrust.Trust.Context

/-!
# What a context was built from

## Main results

* `Context.build_eq_ok_iff` — a context comes of credentials, anchors and a verifier over them
-/

namespace PeerTrust.Context

variable {fs : FileSystem} {role : Role} {paths : TrustPaths} {slot : SlotId} {context : Context}

theorem ofMaterial_eq_ok_iff {keyPath : FilePath} {chain : List Bytes} {key : PrivateKey}
    {anchors : List Bytes} :
    ofMaterial role slot keyPath chain key anchors = .ok context ↔
      ∃ verifier, Verifier.ofAnchors role anchors = .ok verifier
        ∧ chain.head?.any key.fits = true ∧ context = { chain, key, verifier, slot } := by
  unfold ofMaterial
  rw [bind_eq_ok_iff]
  refine exists_congr fun verifier => and_congr mapError_eq_ok_iff ?_
  by_cases fits : chain.head?.any key.fits = true
  · simp [fits, pure, Except.pure, eq_comm]
  · simp [fits, throw, throwThe, MonadExceptOf.throw]

/-- A context comes of a chain and a key that fits it, and of the verifier over the anchors. -/
theorem build_eq_ok_iff :
    (build fs role paths slot).value = .ok context ↔
      ∃ cert chain key anchors verifier, paths.cert = some cert
        ∧ loadCredentials fs cert (paths.key.getD cert) = .ok (chain, key)
        ∧ (loadAnchors fs paths.caFile paths.caDir).value = .ok anchors
        ∧ Verifier.ofAnchors role anchors = .ok verifier
        ∧ chain.head?.any key.fits = true
        ∧ context = { chain, key, verifier, slot } := by
  unfold build
  cases hasCert : paths.cert with
  | none => simp
  | some cert =>
    cases credentials : loadCredentials fs cert (paths.key.getD cert) with
    | error e => simp [credentials]
    | ok material =>
      obtain ⟨chain, key⟩ := material
      cases loaded : (loadAnchors fs paths.caFile paths.caDir).value with
      | error e => simp [credentials, loaded]
      | ok anchors =>
        simp only [Logged.value_bind, Logged.value_pure, loaded, credentials, ofMaterial_eq_ok_iff]
        constructor
        · rintro ⟨verifier, trusting, fits, rfl⟩
          exact ⟨cert, chain, key, anchors, verifier, rfl, credentials, rfl, trusting, fits, rfl⟩
        · rintro ⟨_, _, _, _, verifier, ⟨⟩, read, ⟨⟩, trusting, fits, rfl⟩
          -- Both speak of one reading of the same files.
          obtain ⟨rfl, rfl⟩ := Prod.mk.inj (Except.ok.inj (credentials.symm.trans read))
          exact ⟨verifier, trusting, fits, rfl⟩

theorem slot_eq_of_build (h : (build fs role paths slot).value = .ok context) :
    context.slot = slot := by
  obtain ⟨_, _, _, _, _, -, -, -, -, -, rfl⟩ := build_eq_ok_iff.mp h
  rfl

end PeerTrust.Context
