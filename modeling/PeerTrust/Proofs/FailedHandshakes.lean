import PeerTrust.Proofs.CheckedPeers
import PeerTrust.Proofs.Footprints
import PeerTrust.Proofs.ListsOnPath
import PeerTrust.Proofs.Outcomes

/-!
# How failed handshakes surface

An attempt that reaches a peer fails because of a revocation exactly if the store of the role
rejects a certificate of that peer, and then it names the reason and the subject. Only a protocol
layer could make up such a failure, once the handshake is over. Whatever else goes wrong in the
handshake is a failed handshake and no more. What earlier attempts met plays no part in it.

## Main definitions

* `Verifier.RejectsPeer`, `Verifier.AcceptsPeer` — what verification can come to for a peer
* `Shaken` — what a handshake comes to
* `Surfaces` — what an attempt comes to
* `ProtocolLayer.SpeaksForItself` — a protocol layer that makes up no rejects

## Main results

* `shaken` — a handshake fails with a reject exactly if verification rejects
* `Client.rejects_surface_exactly` — and so does an attempt, in every history
-/

namespace PeerTrust

/-- What a peer shows of itself, if it comes to that. -/
def Peer.presented? : Peer → Option Presented
  | .server presented | .unproven presented => some presented
  | .stranger => none

/-- Whether the peer goes through with a handshake in which it is accepted. -/
def Peer.isProven : Peer → Bool
  | .server _ => true
  | .unproven _ | .stranger => false

/-- A path search knows of no revocations, and so reports none. -/
theorem Certification.rejectReason?_of_preVerify {anchors : List Anchor} {endEntity : Bytes}
    {others : List Bytes} {server : ServerName} {now : Moment} {failure : TlsFailure}
    (noPath : preVerify anchors endEntity others server now = .error failure) :
    (VerifyCode.ofFailure failure).rejectReason? = none := by
  obtain ⟨problem, -, rfl⟩ := mapError_eq_error_iff.mp noPath
  cases problem <;> rfl

namespace Verifier

/-- The store rejects this certificate among what the peer shows. -/
def RejectsPeer (v : Verifier) (fs : FileSystem) (slot : Option RevocationStore) (peer : Peer)
    (server : ServerName) (now : Moment) (cert : Certificate) (reason : RejectReason) : Prop :=
  ∃ presented, peer.presented? = some presented
    ∧ v.Rejects fs slot presented server now cert reason

/-- What the peer shows is accepted, and the peer goes through with the handshake. -/
def AcceptsPeer (v : Verifier) (fs : FileSystem) (slot : Option RevocationStore) (peer : Peer)
    (server : ServerName) (now : Moment) : Prop :=
  ∃ presented path, peer = .server presented ∧ v.Accepts fs slot presented server now path

variable {v : Verifier} {fs : FileSystem} {slot : Option RevocationStore} {peer : Peer}
  {presented : Presented} {server : ServerName} {now : Moment} {cert other : Certificate}
  {reason otherReason : RejectReason}

theorem RejectsPeer.unique (first : v.RejectsPeer fs slot peer server now cert reason)
    (second : v.RejectsPeer fs slot peer server now other otherReason) :
    cert = other ∧ reason = otherReason := by
  obtain ⟨presented, shown, first⟩ := first
  obtain ⟨_, again, second⟩ := second
  obtain rfl := Option.some.inj (shown.symm.trans again)
  exact first.unique second

theorem RejectsPeer.not_acceptsPeer (rejects : v.RejectsPeer fs slot peer server now cert reason) :
    ¬v.AcceptsPeer fs slot peer server now := by
  obtain ⟨presented, shown, rejects⟩ := rejects
  rintro ⟨_, path, rfl, accepts⟩
  obtain rfl := Option.some.inj shown
  exact rejects.not_accepts accepts

theorem not_rejectsPeer (shown : peer.presented? = some presented)
    (unrejected : ∀ cert reason, ¬v.Rejects fs slot presented server now cert reason) :
    ∀ cert reason, ¬v.RejectsPeer fs slot peer server now cert reason := by
  rintro cert reason ⟨_, again, rejects⟩
  obtain rfl := Option.some.inj (shown.symm.trans again)
  exact unrejected cert reason rejects

theorem not_acceptsPeer (shown : peer.presented? = some presented)
    (unaccepted : ∀ path, ¬v.Accepts fs slot presented server now path) :
    ¬v.AcceptsPeer fs slot peer server now := by
  rintro ⟨_, path, rfl, accepts⟩
  obtain rfl := Option.some.inj shown
  exact unaccepted path accepts

end Verifier

/-! ### One handshake -/

/-- What a handshake can come to, by what verification comes to. -/
inductive Shaken (v : Verifier) (fs : FileSystem) (slot : Option RevocationStore) (peer : Peer)
    (server : ServerName) (now : Moment) : Except Error PeerVerdict → Prop
  | rejected {cert : Certificate} {reason : RejectReason}
      (rejects : v.RejectsPeer fs slot peer server now cert reason) :
      Shaken v fs slot peer server now (.error (.rejected reason cert.subject.display))
  | failed (failure : TlsFailure)
      (unrejected : ∀ cert reason, ¬v.RejectsPeer fs slot peer server now cert reason)
      (unaccepted : ¬v.AcceptsPeer fs slot peer server now) :
      Shaken v fs slot peer server now (.error (.handshakeFailed failure.message))
  | done (accepts : v.AcceptsPeer fs slot peer server now) :
      Shaken v fs slot peer server now (.ok .verified)

section Handshake

variable {fs : FileSystem} {c : Configuration} {context : Context} {server : ServerName}
  {now : Moment} {role : Role} {anchors : List Bytes} {presented : Presented} {peer : Peer}
  {slot : Option RevocationStore} {v : Verifier} {outcome : Verifier.Outcome}

/-- What comes of a handshake with a peer that is proven or not, once it has been verified. -/
def handshakeResult (proven : Bool) (outcome : Verifier.Outcome) : Except Error PeerVerdict :=
  let report := outcome.record.getD {}
  match outcome.result with
  | .error failure => .error (handshakeError report failure)
  | .ok _ =>
    if proven then .ok report.verdict else .error (handshakeError report brokenOff)

theorem shakeHands_result (shown : peer.presented? = some presented) :
    (shakeHands fs c context server now peer).result
      = handshakeResult peer.isProven
          (context.verifier.outcome fs (c.storeIn context.slot) presented server now).value := by
  cases peer with
  | stranger => cases shown
  | server other | unproven other =>
    obtain rfl := Option.some.inj shown
    unfold handshakeResult
    cases accepted : (context.verifier.outcome fs (c.storeIn context.slot) other server
        now).value.result <;>
      simp [shakeHands, Context.meet, Attempt.ofLogged, Verifier.verify, accepted, Except.bind,
        Peer.isProven]

/-- A failure that is recorded under no code of a revocation is only a failed handshake. -/
theorem handshakeError_of_no_reason {report : Report} {failure : TlsFailure}
    (unrelated : ∀ code, report.verdict = .failed code → code.rejectReason? = none) :
    handshakeError report failure = .handshakeFailed failure.message := by
  unfold handshakeError
  cases recorded : report.verdict with
  | notChecked | verified => rfl
  | failed code => simp only [unrelated code recorded]

theorem handshakeError_ofReject (reason : RejectReason) (subject : String)
    (failure : TlsFailure) :
    handshakeError ⟨.failed (.ofReject reason), some subject⟩ failure
      = .rejected reason subject := by
  cases reason <;> rfl

/-- How a verification shows in the handshake with a peer that got as far as being verified. -/
theorem Verifier.Ending.shaken (made : Verifier.ofAnchors role anchors = .ok v)
    (ends : v.Ending fs slot presented server now outcome)
    (shown : peer.presented? = some presented) :
    Shaken v fs slot peer server now (handshakeResult peer.isProven outcome) := by
  cases ends with
  | refused noPath =>
    -- What a path search fails with is recorded under no code of a revocation.
    obtain ⟨usable, searches⟩ := preVerify_of_ofAnchors made
    have unrelated := Certification.rejectReason?_of_preVerify (searches ▸ noPath)
    simp only [handshakeResult, Option.getD_some]
    rw [handshakeError_of_no_reason (by rintro _ ⟨⟩; exact unrelated)]
    refine .failed _ (not_rejectsPeer shown fun _ _ rejects => rejects.not_refused noPath) ?_
    exact not_acceptsPeer shown fun _ accepts => nomatch noPath.symm.trans accepts.1
  | unread stops =>
    refine .failed (.certificate .badEncoding) ?_ ?_
    · exact not_rejectsPeer shown fun _ _ rejects => rejects.not_stopsUnread stops
    · exact not_acceptsPeer shown fun _ accepts => accepts.not_stopsUnread stops
  | rejected rejects =>
    simp only [handshakeResult, Option.getD_some, handshakeError_ofReject]
    exact .rejected ⟨presented, shown, rejects⟩
  | accepted accepts =>
    cases peer with
    | server other =>
      obtain rfl := Option.some.inj shown
      exact .done ⟨other, _, rfl, accepts⟩
    | unproven other =>
      -- The peer is accepted, but does not go through with the handshake.
      refine .failed brokenOff ?_ ?_
      · exact not_rejectsPeer shown fun _ _ rejects => rejects.not_accepts accepts
      · rintro ⟨_, _, ⟨⟩, -⟩
    | stranger => cases shown

/-- A handshake comes to nothing else. -/
theorem shaken (made : Verifier.ofAnchors role anchors = .ok context.verifier) (peer : Peer) :
    Shaken context.verifier fs (c.storeIn context.slot) peer server now
      (shakeHands fs c context server now peer).result := by
  cases peer with
  | server presented | unproven presented =>
    rw [shakeHands_result rfl]
    exact (context.verifier.ending ..).shaken made rfl
  | stranger =>
    refine .failed brokenOff ?_ ?_
    · rintro _ _ ⟨_, ⟨⟩, -⟩
    · rintro ⟨_, _, ⟨⟩, -⟩

end Handshake

/-! ### One attempt -/

/-- A protocol layer speaks for itself: it does not fail as if a peer had been rejected. -/
def ProtocolLayer.SpeaksForItself (protocol : ProtocolLayer) : Prop :=
  (∀ e, protocol.createContext = .error e → e.rejectReason? = none)
    ∧ ∀ session e, protocol.performHandshake session = .error e → e.rejectReason? = none

theorem ProtocolLayer.channelOnly_speaksForItself (searchDir : Option FilePath) :
    (ProtocolLayer.channelOnly searchDir).SpeaksForItself := by
  constructor
  · rintro e ⟨⟩
  · rintro session e ⟨⟩

/-- What an attempt that reached a peer comes to, by what verification comes to. -/
structure Surfaces (v : Verifier) (fs : FileSystem) (slot : Option RevocationStore) (peer : Peer)
    (server : ServerName) (now : Moment) (protocol : ProtocolLayer) (schema : Option Schema)
    (host : String) (port : UInt16) (result : Except Error Session) : Prop where
  /-- The attempt fails with the reason for which a certificate is rejected, and names it. -/
  rejected : ∀ cert reason, v.RejectsPeer fs slot peer server now cert reason →
    result = .error (.rejected reason cert.subject.display)
  /-- Any other handshake that does not come to its end has failed, for no reason of that kind. -/
  failed : (∀ cert reason, ¬v.RejectsPeer fs slot peer server now cert reason) →
    ¬v.AcceptsPeer fs slot peer server now →
      ∃ text, result = .error (.handshakeFailed text)
        ∧ (Error.handshakeFailed text).rejectReason? = none
  /-- After a handshake everything is up to the protocol layer. -/
  accepted : v.AcceptsPeer fs slot peer server now →
    result = (establish protocol {} schema .verified).result.map (·.withPeer host port)
  /-- An attempt fails as if a certificate were rejected exactly if one is, or if the protocol layer
  fails so once the handshake is over. -/
  rejected_iff : ∀ reason subject, result = .error (.rejected reason subject) ↔
    (∃ cert, v.RejectsPeer fs slot peer server now cert reason ∧ cert.subject.display = subject)
      ∨ v.AcceptsPeer fs slot peer server now
        ∧ (establish protocol {} schema .verified).result = .error (.rejected reason subject)
  /-- With a layer that speaks for itself, only a reject that took place makes an attempt fail so. -/
  rejected_only : protocol.SpeaksForItself → ∀ reason subject,
    result = .error (.rejected reason subject) ↔
      ∃ cert, v.RejectsPeer fs slot peer server now cert reason ∧ cert.subject.display = subject

section Attempt

variable {fs : FileSystem} {c : Configuration} {context : Context} {server : ServerName}
  {now : Moment} {peer : Peer} {protocol : ProtocolLayer} {schema : Option Schema}
  {host : String} {role : Role} {anchors : List Bytes}

theorem meetPeer_result :
    (meetPeer fs now protocol c context server peer schema).result
      = (shakeHands fs c context server now peer).result.bind fun verdict =>
          (establish protocol {} schema verdict).result := by
  unfold meetPeer
  rw [Attempt.result_bind_ok rfl]
  cases shaken : (shakeHands fs c context server now peer).result with
  | error e =>
    rw [Attempt.bind_error shaken]
    rfl
  | ok verdict =>
    rw [Attempt.result_bind_ok shaken, Attempt.result_bind_ok rfl,
      Attempt.result_bind_ok (a := ()) (by cases verdict <;> rfl)]
    rfl

/-- A session that a protocol layer which speaks for itself refuses is not refused as a reject. -/
theorem ProtocolLayer.SpeaksForItself.rejectReason?_of_establish (own : protocol.SpeaksForItself)
    {channel : Channel} {verdict : PeerVerdict} {e : Error}
    (refused : (establish protocol channel schema verdict).result = .error e) :
    e.rejectReason? = none := by
  unfold establish at refused
  rcases Attempt.result_bind_eq_error.mp refused with choosing | ⟨chosen, -, refused⟩
  · cases schema with
    | some schema => exact nomatch choosing
    | none => exact own.1 e choosing
  rcases Attempt.result_bind_eq_error.mp refused with acting | ⟨_, -, refused⟩
  · exact nomatch acting
  rcases Attempt.result_bind_eq_error.mp refused with handed | ⟨_, -, refused⟩
  · exact own.2 _ e handed
  exact nomatch refused

variable {v : Verifier} {slot : Option RevocationStore} {port : UInt16}
  {handshake : Except Error PeerVerdict}

/-- What an attempt comes to whose handshake has come to this. -/
def afterHandshake (protocol : ProtocolLayer) (schema : Option Schema) (host : String)
    (port : UInt16) (handshake : Except Error PeerVerdict) : Except Error Session :=
  (handshake.bind fun verdict => (establish protocol {} schema verdict).result).map
    (·.withPeer host port)

/-- A reject that an attempt fails with comes from the handshake or from the protocol layer. -/
theorem Shaken.rejected_iff {reason : RejectReason} {subject : String}
    (h : Shaken v fs slot peer server now handshake) :
    afterHandshake protocol schema host port handshake = .error (.rejected reason subject) ↔
      (∃ cert, v.RejectsPeer fs slot peer server now cert reason ∧ cert.subject.display = subject)
        ∨ v.AcceptsPeer fs slot peer server now
          ∧ (establish protocol {} schema .verified).result
            = .error (.rejected reason subject) := by
  cases h with
  | rejected rejects =>
    rw [or_iff_left fun ⟨accepts, _⟩ => rejects.not_acceptsPeer accepts]
    constructor
    · rintro ⟨⟩
      exact ⟨_, rejects, rfl⟩
    · rintro ⟨cert, also, rfl⟩
      obtain ⟨rfl, rfl⟩ := rejects.unique also
      rfl
  | failed failure unrejected unaccepted =>
    refine iff_of_false nofun ?_
    rintro (⟨cert, rejects, -⟩ | ⟨accepts, -⟩)
    · exact unrejected cert reason rejects
    · exact unaccepted accepts
  | done accepts =>
    rw [or_iff_right fun ⟨cert, rejects, _⟩ => rejects.not_acceptsPeer accepts,
      and_iff_right accepts]
    exact map_eq_error_iff

/-- A handshake shows in the attempt that it is part of. -/
theorem Shaken.surfaces (h : Shaken v fs slot peer server now handshake) :
    Surfaces v fs slot peer server now protocol schema host port
      (afterHandshake protocol schema host port handshake) where
  rejected cert reason rejects := h.rejected_iff.mpr (.inl ⟨cert, rejects, rfl⟩)
  failed unrejected unaccepted := by
    cases h with
    | rejected rejects => exact absurd rejects (unrejected _ _)
    | failed failure => exact ⟨failure.message, rfl, rfl⟩
    | done accepts => exact absurd accepts unaccepted
  accepted accepts := by
    cases h with
    | rejected rejects => exact absurd accepts rejects.not_acceptsPeer
    | failed _ _ unaccepted => exact absurd accepts unaccepted
    | done => rfl
  rejected_iff _ _ := h.rejected_iff
  rejected_only own reason subject := by
    -- A layer that speaks for itself does not fail so.
    rw [h.rejected_iff, or_iff_left]
    rintro ⟨-, refused⟩
    exact nomatch own.rejectReason?_of_establish refused

end Attempt

/-! ### In every history -/

namespace Client

section History

open PeerTrust.Configuration (Coherent Recorded)

variable {r : Recorded} {fs : FileSystem} {c : Configuration} {host : String} {context : Context}
  {server : ServerName}

/-- A context that a handshake was prepared with is in place, looks for lists in the slot of its
configuration, and trusts anchors. -/
theorem context_of_prepared (coherent : Coherent r)
    (after : r.configuration = (c.prepare fs host).1)
    (prepared : (c.prepare fs host).2.result = .ok (context, server)) :
    r.configuration.context = some context
      ∧ r.configuration.storeIn context.slot = r.configuration.store
      ∧ ∃ role anchors, Verifier.ofAnchors role anchors = .ok context.verifier := by
  obtain ⟨-, step⟩ := Configuration.prepare_eq_ok prepared
  rw [← after] at step
  obtain ⟨holds, -, -⟩ := step.needs_eq_false
  obtain ⟨_, -, built, -⟩ := coherent.context context holds
  refine ⟨holds, if_pos (Context.slot_eq_of_build built), ?_⟩
  obtain ⟨_, _, _, anchors, verifier, -, -, -, trusting, -, rfl⟩ := Context.build_eq_ok_iff.mp built
  exact ⟨_, anchors, trusting⟩

/-- Once a handshake is prepared, meeting a peer shows what comes of it. -/
theorem surfaces_of_prepared (coherent : Coherent r)
    (after : r.configuration = (c.prepare fs host).1)
    (prepared : (c.prepare fs host).2.result = .ok (context, server)) (now : Moment) (peer : Peer)
    (protocol : ProtocolLayer) (schema : Option Schema) (port : UInt16) :
    r.configuration.context = some context
      ∧ Surfaces context.verifier fs r.configuration.store peer server now protocol schema host port
        ((meetPeer fs now protocol r.configuration context server peer schema).result.map
          (·.withPeer host port)) := by
  obtain ⟨holds, store, role, anchors, made⟩ := context_of_prepared coherent after prepared
  rw [meetPeer_result, ← store]
  exact ⟨holds, (shaken made peer).surfaces⟩

variable {d : Client} {now : Moment} {peer : Peer} {protocol : ProtocolLayer}
  {schema : Option Schema}

/-- An attempt to connect leaves the configuration as preparing it does. -/
theorem trust_connect (d : Client) (fs : FileSystem) (now : Moment) (transport : Transport)
    (protocol : ProtocolLayer) (host : Option String) (port : UInt16) (schema : Option Schema) :
    (d.connect fs now transport protocol host port schema).1.trust .client
      = ((d.trust .client).prepare fs (resolveHost host)).1 := rfl

/-- An attempt that reaches a peer comes to what meeting it comes to. -/
theorem connect_result {transport : Transport} {host : Option String} {port : UInt16}
    (prepared : ((d.trust .client).prepare fs (resolveHost host)).2.result = .ok (context, server))
    (reached : transport (resolveHost host) (resolvePort port) = .ok peer) :
    let attempted := d.connect fs now transport protocol host port schema
    attempted.2.result
      = (meetPeer fs now protocol (attempted.1.trust .client) context server peer schema).result.map
          (·.withPeer (resolveHost host) (resolvePort port)) := by
  refine (Attempt.result_bind_ok rfl _).trans ?_
  refine (Attempt.result_bind_ok prepared _).trans ?_
  refine (Attempt.result_bind_ok rfl _).trans ?_
  refine (Attempt.result_bind_ok rfl _).trans ?_
  refine (Attempt.result_bind_ok reached _).trans ?_
  exact Attempt.result_bind_pure _ _

theorem acceptCallHome_result {port : UInt16}
    (prepared : ((d.trust .callHome).prepare fs host).2.result = .ok (context, server)) :
    let attempted := d.acceptCallHome fs now protocol peer host port schema
    attempted.2.result
      = (meetPeer fs now protocol (attempted.1.trust .callHome) context server peer
          schema).result.map (·.withPeer host port) := by
  refine (Attempt.result_bind_ok rfl _).trans ?_
  refine (Attempt.result_bind_ok prepared _).trans ?_
  exact Attempt.result_bind_pure _ _

end History

/-- After any operations on a client, an attempt of either role that reaches a peer fails with a
reject exactly if the store of that role rejects what the peer presents, and with a failed handshake
if anything else is wrong with it. It makes no difference to an attempt whom earlier ones met, when,
or what came of them. -/
theorem rejects_surface_exactly (ops : List Operation) :
    (∀ fs now transport protocol host port schema context server peer,
        (((run {} ops).trust .client).prepare fs (resolveHost host)).2.result
            = .ok (context, server) →
          transport (resolveHost host) (resolvePort port) = .ok peer →
            let attempted := (run {} ops).connect fs now transport protocol host port schema
            (attempted.1.trust .client).context = some context
              ∧ Surfaces context.verifier fs (attempted.1.trust .client).store peer server now
                  protocol schema (resolveHost host) (resolvePort port) attempted.2.result)
      ∧ (∀ fs now protocol peer host port schema context server,
          (((run {} ops).trust .callHome).prepare fs host).2.result = .ok (context, server) →
            let attempted := (run {} ops).acceptCallHome fs now protocol peer host port schema
            (attempted.1.trust .callHome).context = some context
              ∧ Surfaces context.verifier fs (attempted.1.trust .callHome).store peer server now
                  protocol schema host port attempted.2.result)
      ∧ ∀ other : List Operation,
          (other.filterMap (·.footprint .client) = ops.filterMap (·.footprint .client) →
            ∀ fs now transport protocol host port schema,
              ((run {} other).connect fs now transport protocol host port schema).2
                = ((run {} ops).connect fs now transport protocol host port schema).2)
          ∧ (other.filterMap (·.footprint .callHome) = ops.filterMap (·.footprint .callHome) →
            ∀ fs now protocol peer host port schema,
              ((run {} other).acceptCallHome fs now protocol peer host port schema).2
                = ((run {} ops).acceptCallHome fs now protocol peer host port schema).2) := by
  refine ⟨?_, ?_, fun other => ⟨?_, ?_⟩⟩
  · intro fs now transport protocol host port schema context server peer prepared reached attempted
    -- The ledger that goes on to the attempt has the configuration that the attempt leaves.
    obtain ⟨coherent, -⟩ := coherent_ledger .client
      (ops ++ [.connect fs now transport protocol host port schema])
    have after : (ledger .client (ops ++ [.connect fs now transport protocol host port
        schema])).configuration = attempted.1.trust .client :=
      configuration_ledger_concat ..
    have surfaces := surfaces_of_prepared coherent after prepared now peer protocol schema
      (resolvePort port)
    rwa [after, ← connect_result prepared reached] at surfaces
  · intro fs now protocol peer host port schema context server prepared attempted
    obtain ⟨coherent, -⟩ := coherent_ledger .callHome
      (ops ++ [.acceptCallHome fs now protocol peer host port schema])
    have after : (ledger .callHome (ops ++ [.acceptCallHome fs now protocol peer host port
        schema])).configuration = attempted.1.trust .callHome :=
      configuration_ledger_concat ..
    have surfaces := surfaces_of_prepared coherent after prepared now peer protocol schema port
    rwa [after, ← acceptCallHome_result prepared] at surfaces
  · intro same fs now transport protocol host port schema
    exact connect_snd_eq fs now transport protocol schema (trust_run_eq same) host port
  · intro same fs now protocol peer host port schema
    exact acceptCallHome_snd_eq fs now protocol schema (trust_run_eq same) peer host port

end Client

open MissingLists in
/-- A client trusts Test CA, whose list has expired. Its attempt to connect to a peer with a
certificate of Test CA fails, and tells that it was Test CA that was rejected. -/
theorem Client.expired_list_surfaces :
    let client := run {} (settings.map (.trust .client))
    let attempted := client.connect files TestAuthority.now (fun _ _ => .ok (.server peer))
      (.channelOnly none) none 0 none
    (∃ context server cert,
        ((client.trust .client).prepare files (resolveHost none)).2.result = .ok (context, server)
          ∧ context.verifier.RejectsPeer files (attempted.1.trust .client).store (.server peer)
            server TestAuthority.now cert .crlExpired)
      ∧ (ProtocolLayer.channelOnly none).SpeaksForItself
      ∧ attempted.2.result = .error (.rejected .crlExpired "CN=Test CA, O=NETCONF Test") := by
  intro client attempted
  obtain ⟨context, store, server, cert, made, stored, named, rejects, subject⟩ := exists_rejects
  have started : client.trust .client = configured := rfl
  have unnamed : resolveHost none = "localhost" := rfl
  obtain ⟨after, prepared⟩ := Configuration.prepare_of_ensured (c := client.trust .client) rfl
    (unnamed ▸ named) (started ▸ (ensured_configured made stored).eq_value)
  have own := ProtocolLayer.channelOnly_speaksForItself none
  have kept : attempted.1.trust .client = (configured.withContext context).withStore store :=
    (trust_connect ..).trans after
  have rejectsPeer : context.verifier.RejectsPeer files (attempted.1.trust .client).store
      (.server peer) server TestAuthority.now cert .crlExpired := by
    rw [kept]
    exact ⟨peer, rfl, rejects⟩
  obtain ⟨connecting, -⟩ := rejects_surface_exactly (settings.map (.trust .client))
  obtain ⟨-, surfaces⟩ := connecting files TestAuthority.now (fun _ _ => .ok (.server peer))
    (.channelOnly none) none 0 none context server (.server peer) prepared rfl
  exact ⟨⟨context, server, cert, prepared, rejectsPeer⟩, own,
    (surfaces.rejected_only own _ _).mpr ⟨cert, rejectsPeer, subject⟩⟩

end PeerTrust
