import SlmodemSipBridge.Bridge.UserAgent
import SlmodemSipBridge.Sip.Drawn

/-!
# What the peer of the bridge receives

Each request that the bridge sends in a run, decoded from its octets: the message it
was meant to be, with the length it announces, and in an INVITE an offer that leads
back to the client's own address.
-/

namespace SlmodemSipBridge.Bridge

open Rust Transition Media Rtp Sip Envelope

/-! ## Where the bridge is -/

/-- The client nonce that an event brings, if it does, is a digest. -/
def BridgeEvent.Hexed : BridgeEvent → Prop
  | .register e => e.Hexed
  | .invite e _ => e.Hexed
  | _ => True

/-- What the bridge holds can be sent. -/
def Phase.Drawn (c : SipClient) : Phase → Prop
  | .registering r => RegisterState.Drawn r
  | .setup _ _ invite => InviteState.Drawn c invite
  | .relaying _ call _ _ => call.Placed c
  | .hangingUp call _ => call.Placed c
  | .byeSent call _ => call.Placed c
  | _ => True

/-- The observation is no request, or a proper one. -/
def BridgeShown.Proper (c : SipClient) : BridgeShown → Prop
  | .sip (.sent _ request) => request.Proper c
  | _ => True

theorem proper_map_sip {c : SipClient} {acts : List SipShown} (h : AllProper c acts) :
    ∀ o ∈ acts.map BridgeShown.sip, o.Proper c := by
  rw [List.forall_mem_map]
  intro o ho
  cases o with
  | sent site request => exact h site request ho
  | read call resp => trivial
  | answered call resp => trivial

/-- A step shows proper requests only, and the bridge goes on with what it can send. -/
def Fits (c : SipClient) (phase : Phase) (shown : List BridgeShown) : Prop :=
  (∀ o ∈ shown, o.Proper c) ∧ phase.Drawn c

theorem Parked.fits {next : BridgeNext} (h : Parked next) (c : SipClient)
    {shown : List BridgeShown} (hshown : ∀ o ∈ shown, o.Proper c) :
    Fits c next.1 (shown ++ next.2) := by
  cases h with
  | waiting =>
      exact ⟨List.forall_mem_append.mpr ⟨hshown, List.forall_mem_singleton.mpr trivial⟩, trivial⟩
  | returned result =>
      exact ⟨List.forall_mem_append.mpr ⟨hshown, List.forall_mem_singleton.mpr trivial⟩, trivial⟩
  | panicked why =>
      exact ⟨List.forall_mem_append.mpr ⟨hshown, List.forall_mem_singleton.mpr trivial⟩, trivial⟩

theorem setupEnd_fits {c : SipClient} {call : Call} {ackSent : Bool} {next : BridgeNext}
    (hcall : call.Placed c) (h : SetupEnd call ackSent next) {shown : List BridgeShown}
    (hshown : ∀ o ∈ shown, o.Proper c) : Fits c next.1 (shown ++ next.2) := by
  cases h with
  | noRemoteRtp hrtp => exact ⟨by simpa using hshown, hcall⟩
  | ackUnsent remoteRtp hrtp hstate hack =>
      exact ⟨List.forall_mem_append.mpr ⟨hshown, List.forall_mem_singleton.mpr trivial⟩, trivial⟩
  | acked session remoteRtp hrtp hstate hack hsession =>
      exact ⟨List.forall_mem_append.mpr ⟨hshown, List.forall_mem_singleton.mpr hcall⟩, hcall⟩
  | unanswered session remoteRtp polling hrtp hstate hpolling hsession =>
      exact ⟨by simpa using hshown, hcall⟩

theorem relayedTo_drawn {c : SipClient} {session : Session} {call : Call} (hcall : call.Placed c)
    (polling : Bool) (relay : Relay) : (relayedTo session call polling relay).Drawn c := by
  cases relay with
  | running loops => exact hcall
  | returned result => cases result <;> exact hcall
  | panicked why => trivial

/-- The offer of an INVITE is that of the socket that was bound for it. -/
theorem binding_fits {config : Config} {b b' : BridgeState} {e : BridgeEvent}
    {shown : List BridgeShown} {dial : DialString} {session : Session}
    (hphase : b.phase = .binding dial session)
    (h : (bridgeMachine config).step b e = some (b', shown)) :
    Fits config.client b'.phase shown := by
  obtain ⟨calls, phase⟩ := b
  obtain rfl : phase = .binding dial session := hphase
  change bridgeStep config ⟨calls, .binding dial session⟩ e = some (b', shown) at h
  have hstopped : ∀ o ∈ [BridgeShown.stopped], o.Proper config.client :=
    List.forall_mem_singleton.mpr trivial
  cases e with
  | rtpBound port sessionId =>
      cases port with
      | none =>
          simp only [bridgeStep, phaseStep, stopWith, Option.some.injEq, Prod.mk.injEq] at h
          obtain ⟨rfl, rfl⟩ := h
          exact ⟨hstopped, trivial⟩
      | some port =>
          simp only [bridgeStep, phaseStep, boundTo, Option.some.injEq, Prod.mk.injEq] at h
          cases hoffer : Sdp.buildOffer config.client.localIp port sessionId with
          | error why =>
              simp only [hoffer, panicWith] at h
              obtain ⟨rfl, rfl⟩ := h
              exact ⟨hstopped, trivial⟩
          | ok offer =>
              simp only [hoffer] at h
              obtain ⟨rfl, rfl⟩ := h
              exact ⟨by simp, dial, port, sessionId, rfl, hoffer⟩
  | _ => simp [bridgeStep, phaseStep] at h

theorem registeredTo_fits {c : SipClient} {r : RegisterState} (hr : r.Drawn)
    {shown : List BridgeShown} (hshown : ∀ o ∈ shown, o.Proper c) :
    Fits c (registeredTo r).1 (shown ++ (registeredTo r).2) := by
  have hstopped : ∀ o ∈ shown ++ [.stopped], o.Proper c :=
    List.forall_mem_append.mpr ⟨hshown, List.forall_mem_singleton.mpr trivial⟩
  have hquiet : ∀ o ∈ shown ++ [], o.Proper c := by simpa using hshown
  cases r with
  | returned result =>
      cases result with
      | ok _ => exact ⟨hquiet, trivial⟩
      | error error => exact ⟨hstopped, trivial⟩
  | panicked why => exact ⟨hstopped, trivial⟩
  | called => exact ⟨hquiet, hr⟩
  | awaiting callId tag => exact ⟨hquiet, hr⟩
  | looping deadline => exact ⟨hquiet, hr⟩
  | receiving deadline => exact ⟨hquiet, hr⟩

/-! ## Every step -/

section Steps

variable {config : Config} (hc : config.client.Presentable)
include hc

theorem phase_fits {phase phase' : Phase} {e : BridgeEvent} {shown : List BridgeShown}
    (he : e.Hexed) (hnot : ∀ r, phase ≠ .registering r)
    (hbinding : ∀ dial session, phase = .binding dial session → Fits config.client phase' shown)
    (hphase : phase.Drawn config.client) (h : PhaseStepped config phase e phase' shown) :
    Fits config.client phase' shown := by
  have hnone : ∀ o ∈ ([] : List BridgeShown), o.Proper config.client := by simp
  cases h with
  | registers r e next shown hshown hnext => exact absurd rfl (hnot r)
  | readied written next hnext => exact hnext.fits config.client hnone
  | waits lineBuf e lineBuf' => exact ⟨hnone, trivial⟩
  | waitEnds lineBuf e next hnext => exact hnext.fits config.client hnone
  | dials lineBuf e dial session tail hsession =>
      exact ⟨List.forall_mem_singleton.mpr trivial, trivial⟩
  | binds dial session port sessionId args => exact hbinding dial session rfl
  | bindFails dial session port sessionId next hnext => exact hnext.fits config.client hnone
  | invites session drain invite invite' e ackSent shown hstep hreturned hpanicked =>
      obtain ⟨hproper, hdrawn⟩ := invite_proper hc he hphase hstep
      exact ⟨proper_map_sip hproper, hdrawn⟩
  | inviteFails session drain invite invite' e ackSent shown next hstep hfail hnext =>
      obtain ⟨hproper, -⟩ := invite_proper hc he hphase hstep
      exact hnext.fits config.client (proper_map_sip hproper)
  | inviteReturns session drain invite e ackSent shown call next hstep hnext =>
      obtain ⟨hproper, hcall⟩ := invite_proper hc he hphase hstep
      exact setupEnd_fits hcall hnext (proper_map_sip hproper)
  | drains session drain drain' invite e dropped he' hdrain =>
      exact ⟨List.forall_mem_map.mpr fun _ _ => trivial, hphase⟩
  | drainFails session drain invite e dropped next he' hnext =>
      exact hnext.fits config.client (List.forall_mem_map.mpr fun _ _ => trivial)
  | relays session call polling relay relay' e media hstep =>
      rw [relayStops_of_step hstep, List.append_nil]
      exact ⟨List.forall_mem_map.mpr fun _ _ => trivial, relayedTo_drawn hphase polling relay'⟩
  | pollSilent session call relay ackSent => exact ⟨hnone, hphase⟩
  | polls session call relay data ackSent polling polled acks hresponse hpolling =>
      have hcall : call.Placed config.client := hphase
      have hpolled : (call.polledBy (fromUtf8Lossy data.val)).Placed config.client :=
        (hcall.tagged _).at _ _
      rcases hresponse.silent_or_answered with ⟨-, hsame, rfl⟩ | ⟨-, -, hanswered, -, rfl⟩
      · rw [hsame]
        exact ⟨List.forall_mem_singleton.mpr trivial, hcall⟩
      · rw [hanswered]
        refine ⟨?_, hpolled⟩
        cases ackSent with
        | true =>
            simp only [if_true, List.map_cons, List.map_nil, List.forall_mem_cons]
            exact ⟨trivial, trivial, hpolled, by simp⟩
        | false =>
            simp only [Bool.false_eq_true, if_false, List.map_cons, List.map_nil,
              List.forall_mem_cons]
            exact ⟨trivial, trivial, by simp⟩
  | pollCrashes session call relay data ackSent why hresponse =>
      exact ⟨by simp [BridgeShown.Proper], trivial⟩
  | byes call after branchHash =>
      exact ⟨List.forall_mem_singleton.mpr ⟨hphase, word_branch branchHash⟩, hphase⟩
  | byeFails call after branchHash next hnext => exact hnext.fits config.client hnone
  | byeSilent call after next hnext => exact hnext.fits config.client hnone
  | byeAnswered call after data next hnext =>
      have hread : ∀ o ∈ [BridgeShown.sip (.read (some call) (fromUtf8Lossy data.val))],
          o.Proper config.client := List.forall_mem_singleton.mpr trivial
      exact hnext.fits config.client hread

theorem bridge_fits {b b' : BridgeState} {e : BridgeEvent} {shown : List BridgeShown}
    (he : e.Hexed) (hok : b.phase.Ok) (hphase : b.phase.Drawn config.client)
    (h : (bridgeMachine config).step b e = some (b', shown)) :
    Fits config.client b'.phase shown := by
  by_cases hregistering : ∃ r, b.phase = .registering r
  · obtain ⟨r, hr⟩ := hregistering
    obtain ⟨e', r', acts, rfl, hstep, hnext, rfl⟩ := registering_of_step hr h
    rw [hr] at hphase
    obtain ⟨hproper, hdrawn⟩ := register_proper hc he hphase hstep
    rw [hnext]
    exact registeredTo_fits hdrawn (proper_map_sip hproper)
  · exact phase_fits hc he (fun r hr => hregistering ⟨r, hr⟩)
      (fun dial session hbinding => binding_fits hbinding h) hphase (bridgeStep_ok hok h).1

/-- Every request of a run is proper. -/
theorem proper_of_run {events : List BridgeEvent} {b : BridgeState} {trace : List BridgeShown}
    (hevents : ∀ e ∈ events, e.Hexed)
    (hrun : (bridgeMachine config).run bridgeStart events = some (b, trace)) :
    ∀ o ∈ trace, o.Proper config.client := by
  have hevery := (bridgeMachine config).guarded_of_forall_mem hevents bridgeStart
  refine ((bridgeMachine config).invariant_run
    (I := fun b before => (∀ o ∈ before, o.Proper config.client) ∧ b.phase.Ok ∧
      b.phase.Drawn config.client) ?_ []
    ⟨by simp, bridgeStart_ok, trivial⟩ hevery hrun).1
  rintro b before e b' shown ⟨hbefore, hok, hdrawn⟩ hstep he
  obtain ⟨hshown, hdrawn'⟩ := bridge_fits hc he hok hdrawn hstep
  exact ⟨List.forall_mem_append.mpr ⟨hbefore, hshown⟩, (bridgeStep_ok hok hstep).2, hdrawn'⟩

end Steps

/-! ## What is received -/

/-- A request reaches its peer: the octets are read as the message it was meant to be,
with as many octets in its body as it announces, and the offer of an INVITE leads back
to the client's address and a port. -/
structure Delivered (c : SipClient) (request : Request) : Prop where
  read : readDatagram (utf8Bytes (c.wire request)) = some (c.message request)
  length : (c.message request).value (lit "Content-Length") =
    some (decimal (utf8Bytes (c.message request).body).length)
  offer : ∀ r, request = .invite r → ∃ (dial : DialString) (port : UInt16), 0 < port ∧
    (c.message request).start = requestLine (lit "INVITE") (c.inviteUri dial.text) ∧
    Sdp.parseAnswer (c.message request).body = .ok (.ok ⟨c.localIp, port⟩)

/-- No header but the last is taken for the Content-Length. -/
theorem value_length {c : SipClient} {request : Request} (h : request.Legible) :
    (c.message request).value (lit "Content-Length") =
      some (decimal (byteLen (c.message request).body)) := by
  cases request with
  | register r => cases hauth : r.auth <;> simp only [SipClient.message, hauth] <;> rfl
  | invite r =>
      cases hauth : r.auth with
      | none =>
          simp only [SipClient.message, hauth]
          rfl
      | some auth =>
          have hname := (h.2.2.2.2 auth hauth).1
          obtain ⟨name, value⟩ := auth
          simp only [SipClient.message, hauth]
          rcases List.mem_pair.mp hname with rfl | rfl <;> rfl
  | ack call =>
      simp only [SipClient.message, SipClient.callMessage]
      rfl
  | bye call branch =>
      simp only [SipClient.message, SipClient.callMessage]
      rfl

/-- Whatever the trunk and slmodemd do, every request of a run reaches its peer. -/
theorem bridge_delivered {config : Config} (hc : config.client.Presentable)
    {events : List BridgeEvent} {b : BridgeState} {trace : List BridgeShown}
    (hevents : ∀ e ∈ events, e.Hexed)
    (hrun : (bridgeMachine config).run bridgeStart events = some (b, trace))
    {site : Site} {request : Request} (hsent : .sip (.sent site request) ∈ trace) :
    Delivered config.client request := by
  have hproper : request.Proper config.client := proper_of_run hc hevents hrun _ hsent
  refine ⟨readDatagram_wire hc.toLegible hproper.legible, ?_, ?_⟩
  · rw [utf8Bytes_length]
    exact value_length hproper.legible
  · rintro r rfl
    obtain ⟨-, ⟨dial, port, sessionId, huri, hoffer⟩, -⟩ := hproper
    have hport : 0 < port := by
      by_contra hzero
      simp [Sdp.buildOffer, hzero, assert, bind, Except.bind] at hoffer
    rw [Sdp.buildOffer_eq sessionId hport, Except.ok.injEq] at hoffer
    refine ⟨dial, port, hport, congrArg (requestLine (lit "INVITE")) huri, ?_⟩
    change Sdp.parseAnswer r.sdp = .ok (.ok ⟨config.client.localIp, port⟩)
    rw [← hoffer]
    exact Sdp.parseAnswer_offer sessionId

/-! ## A call that is challenged -/

/-- The first INVITE is challenged, and the second one answers the challenge. -/
def trunkRetried : List BridgeEvent :=
  trunkSetup ++ [.invite (.received (some trunkChallenge) answerInputs) true]

theorem hexed_trunkRetried : ∀ e ∈ trunkRetried, e.Hexed := by
  have hnil : IsHex [] := List.forall_mem_nil _
  simp [trunkRetried, trunkSetup, BridgeEvent.Hexed, RegisterEvent.Hexed, InviteEvent.Hexed,
    answerInputs, hnil]

/-- The requests of the challenged call. -/
theorem run_trunkRetried :
    ∃ t trace,
      (bridgeMachine trunkConfig).run bridgeStart trunkRetried = some (t, trace) ∧
        trace.filterMap BridgeShown.site = [.register, .invite, .challengeAck, .authInvite] := by
  have hsites : ((bridgeMachine trunkConfig).run bridgeStart trunkRetried).map
      (fun end_ => end_.2.filterMap BridgeShown.site) =
        some [.register, .invite, .challengeAck, .authInvite] := by
    decide +kernel
  obtain ⟨⟨t, trace⟩, hrun, hlist⟩ := Option.map_eq_some_iff.mp hsites
  exact ⟨t, trace, hrun, hlist⟩

theorem bridge_delivered_retried :
    ∃ t trace,
      (bridgeMachine trunkConfig).run bridgeStart trunkRetried = some (t, trace) ∧
        trace.filterMap BridgeShown.site = [.register, .invite, .challengeAck, .authInvite] ∧
        ∀ site request, .sip (.sent site request) ∈ trace → Delivered trunkClient request := by
  obtain ⟨t, trace, hrun, hsites⟩ := run_trunkRetried
  exact ⟨t, trace, hrun, hsites, fun site request hsent =>
    bridge_delivered presentable_trunk hexed_trunkRetried hrun hsent⟩

end SlmodemSipBridge.Bridge
