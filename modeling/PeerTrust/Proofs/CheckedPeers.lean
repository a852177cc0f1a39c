import PeerTrust.Proofs.ConnectedHosts
import PeerTrust.Proofs.HandedOutContexts
import PeerTrust.Proofs.Ledger
import PeerTrust.Proofs.Verification

/-!
# No session without a checked peer

An attempt that ends in a session has brought the context of its role up to date, and has put what
the peer presented to the verifier and to the store of that role. What they were built from is read
off the ledger of the role.

## Main definitions

* `Client.PeerChecked` — what an attempt that ends in a session has checked

## Main results

* `meetPeer_eq_ok` — a session comes of a peer that was verified in this handshake
* `Configuration.prepare_eq_ok` — a handshake is prepared with a context that is up to date
* `Client.session_peer_checked` — in every history, for either role
-/

namespace PeerTrust

/-! ### One attempt -/

section Attempt

variable {fs : FileSystem} {c : Configuration} {context : Context} {server : ServerName}
  {now : Moment} {peer : Peer} {host : String} {protocol : ProtocolLayer} {schema : Option Schema}

/-- What is accepted is recorded as verified. -/
theorem Verifier.outcome_record_of_ok {v : Verifier} {slot : Option RevocationStore}
    {p : Presented} {path : CertPath}
    (accepted : (v.outcome fs slot p server now).value.result = .ok path) :
    (v.outcome fs slot p server now).value.record = some ⟨.verified, none⟩ := by
  -- Whatever gives a path records the verdict with it.
  revert accepted
  unfold Verifier.outcome
  cases v.preVerify p.endEntity p.others server now with
  | error failure => exact fun accepted => nomatch accepted
  | ok found =>
    cases slot with
    | none => exact fun _ => rfl
    | some store =>
      unfold Verifier.checkRevocation
      cases p.all.mapM Certificate.ofBytes? with
      | none => exact fun accepted => nomatch accepted
      | some chain =>
        simp only [Logged.value_bind]
        cases (Verifier.firstReject v.role fs store now 0 (v.visited chain)).value with
        | none => exact fun _ => rfl
        | some rejection => exact fun accepted => nomatch accepted

/-- A handshake succeeds with a server that is accepted, and with the outcome of this handshake. -/
theorem shakeHands_eq_ok {verdict : PeerVerdict}
    (done : (shakeHands fs c context server now peer).result = .ok verdict) :
    verdict = .verified ∧ ∃ presented path, peer = .server presented
      ∧ (context.verifier.outcome fs (c.storeIn context.slot) presented server now).value.result
          = .ok path := by
  cases peer with
  | stranger => simp [shakeHands, Context.meet, Attempt.ofLogged] at done
  | unproven presented =>
    cases accepted : (context.verifier.outcome fs (c.storeIn context.slot) presented server
        now).value.result <;>
      simp [shakeHands, Context.meet, Attempt.ofLogged, Verifier.verify, accepted, Except.bind]
        at done
  | server presented =>
    cases accepted : (context.verifier.outcome fs (c.storeIn context.slot) presented server
        now).value.result with
    | error failure =>
      simp [shakeHands, Context.meet, Attempt.ofLogged, Verifier.verify, accepted] at done
    | ok path =>
      have record := Verifier.outcome_record_of_ok accepted
      refine ⟨?_, presented, path, rfl, accepted⟩
      simpa [shakeHands, Context.meet, Attempt.ofLogged, Verifier.verify, accepted, record,
        eq_comm] using done

theorem establish_eq_ok {channel : Channel} {verdict : PeerVerdict} {session : Session}
    (done : (establish protocol channel schema verdict).result = .ok session) :
    session.status = .running ∧ session.verdict = verdict := by
  unfold establish at done
  obtain ⟨_, -, done⟩ := Attempt.result_bind_eq_ok.mp done
  obtain ⟨_, -, done⟩ := Attempt.result_bind_eq_ok.mp done
  obtain ⟨_, -, done⟩ := Attempt.result_bind_eq_ok.mp done
  obtain ⟨_, -, done⟩ := Attempt.result_bind_eq_ok.mp done
  obtain rfl := Except.ok.inj done
  exact ⟨rfl, rfl⟩

/-- A session comes of a peer that was verified in this handshake. -/
theorem meetPeer_eq_ok {session : Session}
    (done : (meetPeer fs now protocol c context server peer schema).result = .ok session) :
    session.status = .running ∧ session.verdict = .verified
      ∧ ∃ presented path, peer = .server presented
        ∧ (context.verifier.outcome fs (c.storeIn context.slot) presented server now).value.result
            = .ok path := by
  unfold meetPeer at done
  -- Entering a stage and judging the verdict succeed always.
  obtain ⟨_, -, done⟩ := Attempt.result_bind_eq_ok.mp done
  obtain ⟨verdict, shaken, done⟩ := Attempt.result_bind_eq_ok.mp done
  obtain ⟨_, -, done⟩ := Attempt.result_bind_eq_ok.mp done
  obtain ⟨_, -, done⟩ := Attempt.result_bind_eq_ok.mp done
  obtain ⟨running, sameVerdict⟩ := establish_eq_ok done
  obtain ⟨verified, accepted⟩ := shakeHands_eq_ok shaken
  exact ⟨running, sameVerdict.trans verified, accepted⟩

/-- A handshake is prepared with a context that is up to date. -/
theorem Configuration.prepare_eq_ok
    (prepared : (c.prepare fs host).2.result = .ok (context, server)) :
    ServerName.ofText? host = some server
      ∧ Ensured fs c ((c.prepare fs host).1, .ok context) := by
  unfold prepare at prepared ⊢
  cases allowed : c.requireCredentials with
  | error e => simp [allowed, Attempt.ofExcept] at prepared
  | ok =>
    cases named : ServerName.ofText? host with
    | none => simp [allowed, named, Attempt.ofExcept] at prepared
    | some found =>
      have step := c.ensured fs
      simp only [allowed, named, Attempt.ofLogged] at prepared ⊢
      generalize (c.ensureContext fs).value = ensured at step prepared ⊢
      obtain ⟨after, result⟩ := ensured
      cases result with
      | error e => simp [Except.map] at prepared
      | ok built =>
        obtain ⟨rfl, rfl⟩ : built = context ∧ found = server := by
          simpa [Except.map] using prepared
        exact ⟨rfl, step⟩

/-- With credentials and a server name, it takes no more than a context that is up to date. -/
theorem Configuration.prepare_of_ensured {after : Configuration}
    (allowed : c.requireCredentials = .ok ()) (named : ServerName.ofText? host = some server)
    (ensured : (c.ensureContext fs).value = (after, .ok context)) :
    (c.prepare fs host).1 = after ∧ (c.prepare fs host).2.result = .ok (context, server) := by
  simp [prepare, allowed, named, ensured, Attempt.ofLogged, Except.map]

end Attempt

/-! ### In every history -/

namespace Client

/-- There was a path for what a server presented under a name, to the anchors of the paths set now,
as these were when the context was built. -/
def PathChecked (role : Role) (r : Configuration.Recorded) (context : Context)
    (presented : Presented) (server : ServerName) (now : Moment) : Prop :=
  ∃ origin anchors path, r.contextFrom = some origin
    ∧ origin.paths.SameMaterial r.configuration.paths
    ∧ (loadAnchors origin.files origin.paths.caFile origin.paths.caDir).value = .ok anchors
    ∧ Verifier.ofAnchors role anchors = .ok context.verifier
    ∧ context.verifier.preVerify presented.endEntity presented.others server now = .ok path

/-- Where lists are configured, all certificates that are put to a store were accepted by the one
over the paths of lists set now. -/
def CrlsChecked (r : Configuration.Recorded) (fs : FileSystem) (context : Context)
    (presented : Presented) (now : Moment) : Prop :=
  r.configuration.paths.hasCrl = true →
    ∃ store origin chain, r.configuration.store = some store ∧ r.storeFrom = some origin
      ∧ origin.paths.SameCrls r.configuration.paths
      ∧ RevocationStore.build origin.files origin.paths.crlFile origin.paths.crlDir = .ok store
      ∧ presented.all.mapM Certificate.ofBytes? = some chain
      ∧ ∀ cert ∈ context.verifier.visited chain, (store.check fs cert now).value = .accept

/-- What an attempt that ended in a session has checked, by the record of its role. -/
structure PeerChecked (role : Role) (r : Configuration.Recorded) (fs : FileSystem) (now : Moment)
    (peer : Peer) (host : String) (port : UInt16) (session : Session) : Prop where
  checked : ∃ presented server context, peer = .server presented
    ∧ ServerName.ofText? host = some server
    ∧ r.configuration.context = some context
    ∧ PathChecked role r context presented server now
    ∧ CrlsChecked r fs context presented now
  session : session.status = .running ∧ session.verdict = .verified
    ∧ session.host = some host ∧ session.port = port

section History

open PeerTrust.Configuration (Coherent Ensured Recorded)

variable {role : Role} {r : Recorded} {fs : FileSystem} {now : Moment} {context : Context}
  {server : ServerName} {presented : Presented} {path : CertPath}

/-- A context in place and up to date has the verifier over the anchors of the paths set now. -/
theorem pathChecked_of_coherent (coherent : Coherent r) (mine : r.configuration.role = role)
    (holds : r.configuration.context = some context)
    (fresh : r.configuration.needsContext = false)
    (found : context.verifier.preVerify presented.endEntity presented.others server now
      = .ok path) :
    PathChecked role r context presented server now := by
  obtain ⟨origin, recorded, built, same⟩ := coherent.context context holds
  obtain ⟨-, clean⟩ := Configuration.needsContext_eq_false_iff.mp fresh
  rw [mine] at built
  obtain ⟨_, _, _, anchors, verifier, -, -, loaded, trusting, -, made⟩ :=
    Context.build_eq_ok_iff.mp built
  refine ⟨origin, anchors, path, recorded, same clean, loaded, ?_, found⟩
  rw [made, trusting]

/-- A store in place and up to date is the one that the verifier reads. -/
theorem crlsChecked_of_coherent (coherent : Coherent r)
    (slot : context.slot = r.configuration.slot) (fresh : r.configuration.needsStore = false)
    (accepted : r.configuration.storeIn context.slot = none
      ∨ ∃ store chain, r.configuration.storeIn context.slot = some store
        ∧ presented.all.mapM Certificate.ofBytes? = some chain
        ∧ ∀ cert ∈ context.verifier.visited chain, (store.check fs cert now).value = .accept) :
    CrlsChecked r fs context presented now := by
  intro configured
  obtain ⟨clean, stored⟩ := Configuration.needsStore_eq_false_iff.mp fresh
  rw [Configuration.storeIn, if_pos slot] at accepted
  rcases accepted with missing | ⟨store, chain, holds, readable, accepted⟩
  · -- With lists configured, a slot that is up to date is not empty.
    exact absurd ((stored missing).symm.trans configured) Bool.false_ne_true
  · obtain ⟨origin, recorded, built, same⟩ := coherent.store store holds
    exact ⟨store, origin, chain, holds, recorded, same clean, built, readable, accepted⟩

/-- A prepared handshake that leads to a session has checked its peer. -/
theorem peerChecked_of_meetPeer {c : Configuration} {host : String} {peer : Peer}
    {protocol : ProtocolLayer} {schema : Option Schema} {session : Session} (port : UInt16)
    (coherent : Coherent r) (mine : r.configuration.role = role)
    (after : r.configuration = (c.prepare fs host).1)
    (prepared : (c.prepare fs host).2.result = .ok (context, server))
    (met : (meetPeer fs now protocol r.configuration context server peer schema).result
      = .ok session) :
    PeerChecked role r fs now peer host port (session.withPeer host port) := by
  obtain ⟨named, step⟩ := Configuration.prepare_eq_ok prepared
  -- Meeting the peer changes nothing, so that the record of the attempt is that of preparing it.
  rw [← after] at step
  obtain ⟨holds, fresh, storeFresh⟩ := step.needs_eq_false
  obtain ⟨running, verified, presented, path, isServer, accepted⟩ := meetPeer_eq_ok met
  obtain ⟨found, stored⟩ := Verifier.outcome_ok_iff.mp accepted
  obtain ⟨_, -, built, -⟩ := coherent.context context holds
  have slot := Context.slot_eq_of_build built
  exact
    { checked := ⟨presented, server, context, isServer, named, holds,
        pathChecked_of_coherent coherent mine holds fresh found,
        crlsChecked_of_coherent coherent slot storeFresh stored⟩
      session := ⟨running, verified, rfl, rfl⟩ }

end History

/-- After any operations on a client, an attempt of either role that ends in a session has checked
its peer: against the anchors and the lists of the paths that are set for that role, at the time of
the attempt, and under the host that the session names. To connect, that is the text given without
the white space at its ends, or `localhost` if nothing is left of it, and 6513 stands for port 0. -/
theorem session_peer_checked (ops : List Operation) :
    (∀ fs now transport protocol host port schema session,
        let attempted := (Client.run {} ops).connect fs now transport protocol host port schema
        let r := ledger .client (ops ++ [.connect fs now transport protocol host port schema])
        let number := if port = 0 then 6513 else port
        attempted.2.result = .ok session →
          r.configuration = attempted.1.trust .client
            ∧ ∃ name peer, ConnectsUnder host name ∧ transport name number = .ok peer
              ∧ PeerChecked .client r fs now peer name number session)
      ∧ (∀ fs now protocol peer host port schema session,
          let attempted :=
            (Client.run {} ops).acceptCallHome fs now protocol peer host port schema
          let r := ledger .callHome (ops ++ [.acceptCallHome fs now protocol peer host port schema])
          attempted.2.result = .ok session →
            r.configuration = attempted.1.trust .callHome
              ∧ PeerChecked .callHome r fs now peer host port session) := by
  constructor
  · intro fs now transport protocol host port schema session attempted r number done
    have after : r.configuration = attempted.1.trust .client := by
      rw [configuration_ledger, run_append]
      rfl
    obtain ⟨coherent, mine⟩ : Configuration.Coherent r ∧ r.configuration.role = .client :=
      coherent_ledger _ _
    -- A session comes of steps all of which succeeded, and the last of them met the peer.
    obtain ⟨_, -, done⟩ := Attempt.result_bind_eq_ok.mp done
    obtain ⟨⟨context, server⟩, prepared, done⟩ := Attempt.result_bind_eq_ok.mp done
    obtain ⟨_, -, done⟩ := Attempt.result_bind_eq_ok.mp done
    obtain ⟨_, -, done⟩ := Attempt.result_bind_eq_ok.mp done
    obtain ⟨peer, reached, done⟩ := Attempt.result_bind_eq_ok.mp done
    obtain ⟨met, meeting, done⟩ := Attempt.result_bind_eq_ok.mp done
    obtain rfl := Except.ok.inj done
    refine ⟨after, _, peer, connectsUnder_iff.mpr rfl, reached, ?_⟩
    exact peerChecked_of_meetPeer _ coherent mine after prepared (by rw [after]; exact meeting)
  · intro fs now protocol peer host port schema session attempted r done
    have after : r.configuration = attempted.1.trust .callHome := by
      rw [configuration_ledger, run_append]
      rfl
    obtain ⟨coherent, mine⟩ : Configuration.Coherent r ∧ r.configuration.role = .callHome :=
      coherent_ledger _ _
    obtain ⟨_, -, done⟩ := Attempt.result_bind_eq_ok.mp done
    obtain ⟨⟨context, server⟩, prepared, done⟩ := Attempt.result_bind_eq_ok.mp done
    obtain ⟨met, meeting, done⟩ := Attempt.result_bind_eq_ok.mp done
    obtain rfl := Except.ok.inj done
    refine ⟨after, ?_⟩
    exact peerChecked_of_meetPeer _ coherent mine after prepared (by rw [after]; exact meeting)

end Client

/-! ### A client that connects to an address -/

namespace OneAddress

open PeerTrust.MissingLists (files settings peer)

/-- A moment in June 2020, when the list of Test CA has not expired. -/
def now : Moment := 1590969600

/-- A network in which the peer answers at one address only. -/
def transport : Transport := fun name number =>
  if name = "127.0.0.1" ∧ number = 6513 then .ok (.server peer) else .error (.socketError "unknown")

/-- The paths set for a client that connects. -/
def operations : List Client.Operation := settings.map (.trust .client)

end OneAddress

open OneAddress MissingLists in
/-- An address with white space around it, and port 0. The session names the address and the port
6513, and its peer was checked under them. -/
theorem Client.session_under_trimmed_address :
    let attempt : Operation :=
      .connect files now transport (.channelOnly none) (some " 127.0.0.1\t") 0 none
    ∃ session,
      ((Client.run {} operations).connect files now transport (.channelOnly none)
          (some " 127.0.0.1\t") 0 none).2.result = .ok session
        ∧ ConnectsUnder (some " 127.0.0.1\t") "127.0.0.1"
        ∧ session.host = some "127.0.0.1" ∧ session.port = 6513
        ∧ PeerChecked .client (ledger .client (operations ++ [attempt])) files now (.server peer)
          "127.0.0.1" 6513 session := by
  have succeeds : ((Client.run {} operations).connect files now transport (.channelOnly none)
      (some " 127.0.0.1\t") 0 none).2.result.toOption.any (fun _ => true) = true := by
    decide +kernel
  obtain ⟨session, done, -⟩ := toOption_any_eq_true_iff.mp succeeds
  obtain ⟨connecting, -⟩ := session_peer_checked operations
  obtain ⟨-, name, other, under, reached, checked⟩ := connecting _ _ _ _ _ _ _ _ done
  -- Nobody else answers in this network.
  obtain ⟨⟨rfl, -⟩, rfl⟩ :
      (name = "127.0.0.1" ∧ (6513 : UInt16) = 6513) ∧ Peer.server peer = other := by
    by_cases known : name = "127.0.0.1" ∧ (6513 : UInt16) = 6513
    · exact ⟨known, Except.ok.inj ((if_pos known).symm.trans reached)⟩
    · exact nomatch (if_neg known).symm.trans reached
  obtain ⟨-, -, hostKept, portKept⟩ := checked.session
  exact ⟨session, done, under, hostKept, portKept, checked⟩

end PeerTrust
