import SlmodemSipBridge.Bridge.Served
import SlmodemSipBridge.Sip.Conversation
import SlmodemSipBridge.Sip.Enrolment

/-!
# Calls that are connected

Where everyone cooperates, the bridge makes progress: a registrar that grants the
registration makes it wait for a dial string, and a trunk that connects the call makes
it relay to the endpoint that was announced, however the setup is interleaved with
slmodemd's audio and the silence.
-/

namespace SlmodemSipBridge.Bridge

open Rust Transition Media Rtp Sip

/-! ## The registration -/

section Registration

variable {config : Config}

/-- What is to succeed has not failed. -/
theorem registeredTo_of_run {r : RegisterState} {es : List RegisterEvent} {acts : List SipShown}
    (h : (registerMachine config.client).run r es = some (.returned (.ok ()), acts)) :
    (registeredTo r).2 = [] := by
  have hhalted : (∀ e, (registerMachine config.client).step r e = none) →
      r = .returned (.ok ()) := fun hhalt =>
    ((registerMachine config.client).run_of_halted hhalt h).1.symm
  cases r with
  | returned result =>
      obtain rfl := RegisterState.returned.inj (hhalted fun e => by cases e <;> rfl)
      rfl
  | panicked why =>
      have heq := hhalted fun e => by cases e <;> rfl
      contradiction
  | _ => rfl

/-- A registration that succeeds makes the bridge ready. -/
theorem registering_run (calls : ℕ) {r : RegisterState} {es : List RegisterEvent}
    {acts : List SipShown}
    (h : (registerMachine config.client).run r es = some (.returned (.ok ()), acts)) :
    (bridgeMachine config).run ⟨calls, (registeredTo r).1⟩ (es.map .register) =
      some (⟨calls, .ready⟩, acts.map .sip) := by
  induction es generalizing r acts with
  | nil =>
      obtain ⟨rfl, rfl⟩ := (registerMachine config.client).run_nil_eq_some_iff.mp h
      rfl
  | cons e es ih =>
      obtain ⟨r', shown, later, hstep, hrest, rfl⟩ :=
        (registerMachine config.client).run_cons_eq_some_iff.mp h
      have hphase : (registeredTo r).1 = .registering r := by
        cases r with
        | returned result => cases e <;> simp [registerMachine, registerStep] at hstep
        | panicked why => cases e <;> simp [registerMachine, registerStep] at hstep
        | _ => rfl
      have hown : (bridgeMachine config).step ⟨calls, .registering r⟩ (.register e) =
          some (⟨calls, (registeredTo r').1⟩, shown.map .sip) := by
        change registerStep config.client r e = some (r', shown) at hstep
        simp only [bridgeMachine, bridgeStep, phaseStep, hstep, BridgeNext.after,
          registeredTo_of_run hrest, List.append_nil]
      rw [hphase, List.map_cons, List.map_append]
      exact (bridgeMachine config).run_cons_of_step hown (ih hrest)

end Registration

/-! ## The setup -/

/-- The event of `invite` in an event of the bridge. -/
def BridgeEvent.inviteEvent : BridgeEvent → Option InviteEvent
  | .invite e _ => some e
  | _ => none

/-- The events of `invite` among those of the bridge. -/
def invitesOf (es : List BridgeEvent) : List InviteEvent := es.filterMap BridgeEvent.inviteEvent

/-- How many events are not events of `invite`. -/
def drainsOf (es : List BridgeEvent) : ℕ := es.countP fun e => e.inviteEvent.isNone

/-- During a setup slmodemd sends audio and takes silence, and the bridge can send. -/
def BridgeEvent.Undisturbed : BridgeEvent → Prop
  | .invite _ ackSent => ackSent = true
  | .setupRead (some data) => data.val ≠ []
  | .setupTick written => written = true
  | _ => False

/-- `invite` has not ended. -/
def InviteLive : InviteState → Prop
  | .returned _ => False
  | .panicked _ => False
  | _ => True

section Setup

variable {config : Config} {calls : ℕ} {session : Session}

theorem live_of_step {c : SipClient} {s s' : InviteState} {e : InviteEvent}
    {acts : List SipShown} (h : (inviteMachine c).step s e = some (s', acts)) : InviteLive s := by
  cases s with
  | returned result => cases e <;> simp [inviteMachine, inviteStep] at h
  | panicked why => cases e <;> simp [inviteMachine, inviteStep] at h
  | _ => trivial

theorem invitedTo_of_live {drain : Drain (Except InviteError Call)} {ackSent : Bool}
    {s : InviteState} (h : InviteLive s) :
    invitedTo calls session drain ackSent s = (.setup session drain s, []) := by
  cases s with
  | returned result => exact h.elim
  | panicked why => exact h.elim
  | _ => rfl

/-- A step of `invite` that does not end it is one of the setup. -/
theorem setup_step_invite {drain : Drain (Except InviteError Call)} {s s' : InviteState}
    {e : InviteEvent} {ackSent : Bool} {acts : List SipShown} (hlive : InviteLive s')
    (h : (inviteMachine config.client).step s e = some (s', acts)) :
    (bridgeMachine config).step ⟨calls, .setup session drain s⟩ (.invite e ackSent) =
      some (⟨calls, .setup session drain s'⟩, acts.map .sip) := by
  change inviteStep config.client s e = some (s', acts) at h
  simp only [bridgeMachine, bridgeStep, phaseStep, h, invitedTo_of_live hlive, BridgeNext.after,
    List.append_nil]

/-- An undisturbed step of the drain leaves `invite` as it is. -/
theorem setup_step_drain {iterations drainedBytes : ℕ} {invite : InviteState} {e : BridgeEvent}
    (hquiet : e.Undisturbed) (hdrain : e.inviteEvent = none)
    (hcount : iterations < drainIterationsLimit) :
    ∃ drained shown, (bridgeMachine config).step
        ⟨calls, .setup session (.draining iterations drainedBytes) invite⟩ e =
      some (⟨calls, .setup session (.draining (iterations + 1) drained) invite⟩, shown) := by
  cases e with
  | setupRead read =>
      cases read with
      | none => exact hquiet.elim
      | some data =>
          have hdata : data.val ≠ [] := hquiet
          refine ⟨drainedBytes + data.val.length, [.drained data.val], ?_⟩
          simp [bridgeMachine, bridgeStep, phaseStep, drainStep, hdata,
            drainHead_eq_draining _ hcount, drainedTo, BridgeNext.after]
  | setupTick written =>
      obtain rfl : written = true := hquiet
      refine ⟨drainedBytes, [], ?_⟩
      simp [bridgeMachine, bridgeStep, phaseStep, drainStep, drainHead_eq_draining _ hcount,
        drainedTo, BridgeNext.after]
  | invite e ackSent => simp [BridgeEvent.inviteEvent] at hdrain
  | _ => exact hquiet.elim

/-- While the drain has iterations left, `invite` runs in the setup as it does alone. -/
theorem setup_run {iterations drainedBytes : ℕ} {s s' : InviteState} {acts : List SipShown}
    {es : List BridgeEvent} (hquiet : ∀ e ∈ es, e.Undisturbed)
    (hcount : iterations + drainsOf es ≤ drainIterationsLimit) (hlive : InviteLive s')
    (hrun : (inviteMachine config.client).run s (invitesOf es) = some (s', acts)) :
    ∃ drained trace, (bridgeMachine config).run
        ⟨calls, .setup session (.draining iterations drainedBytes) s⟩ es =
      some (⟨calls, .setup session (.draining (iterations + drainsOf es) drained) s'⟩,
        trace) := by
  induction es generalizing iterations drainedBytes s acts with
  | nil =>
      obtain ⟨rfl, -⟩ := (inviteMachine config.client).run_nil_eq_some_iff.mp hrun
      exact ⟨drainedBytes, [], rfl⟩
  | cons e es ih =>
      rw [List.forall_mem_cons] at hquiet
      cases hinvite : e.inviteEvent with
      | none =>
          have hmore : drainsOf (e :: es) = drainsOf es + 1 := by simp [drainsOf, hinvite]
          have hsame : invitesOf (e :: es) = invitesOf es := by simp [invitesOf, hinvite]
          rw [hmore] at hcount ⊢
          rw [hsame] at hrun
          have hleft : iterations < drainIterationsLimit := by omega
          obtain ⟨drained, shown, hstep⟩ :=
            @setup_step_drain config calls session iterations drainedBytes s e hquiet.1 hinvite
              hleft
          have hcount' : iterations + 1 + drainsOf es ≤ drainIterationsLimit := by omega
          obtain ⟨drained', trace, hrest⟩ :=
            @ih (iterations + 1) drained s acts hquiet.2 hcount' hrun
          refine ⟨drained', shown ++ trace, ?_⟩
          have hcounted : iterations + (drainsOf es + 1) = iterations + 1 + drainsOf es := by omega
          rw [hcounted]
          exact (bridgeMachine config).run_cons_of_step hstep hrest
      | some inner =>
          have hmore : drainsOf (e :: es) = drainsOf es := by simp [drainsOf, hinvite]
          have hsame : invitesOf (e :: es) = inner :: invitesOf es := by simp [invitesOf, hinvite]
          obtain ⟨ackSent, rfl⟩ : ∃ ackSent, e = .invite inner ackSent := by
            cases e <;> simp [BridgeEvent.inviteEvent] at hinvite
            exact ⟨_, congrArg (BridgeEvent.invite · _) hinvite⟩
          rw [hmore] at hcount ⊢
          rw [hsame] at hrun
          obtain ⟨s₁, shown, later, hstep, hrest, -⟩ :=
            (inviteMachine config.client).run_cons_eq_some_iff.mp hrun
          have hlive₁ : InviteLive s₁ := (inviteMachine config.client).first_of_run
            (fun _ _ _ _ => live_of_step) hlive hrest
          obtain ⟨drained, trace, hrun'⟩ :=
            @ih iterations drainedBytes s₁ later hquiet.2 hcount hrest
          exact ⟨drained, _, (bridgeMachine config).run_cons_of_step
            (setup_step_invite hlive₁ hstep) hrun'⟩

end Setup

/-! ## Calls -/

/-- What `invite` is called with for a dial string and an RTP port. -/
def callArgs (config : Config) (dial : DialString) (port : UInt16) (sessionId : ℕ) :
    InviteArgs where
  dial := dial.text
  sdpOffer := joinLines (Sdp.offerLines config.client.localIp port sessionId)
  inviteTimeout := config.inviteTimeout

/-- The events of a setup in which everyone cooperates: slmodemd does, within the
iterations of the drain, and the trunk, within those of the response loop, connects the
call by the reply. -/
structure Cooperates (config : Config) (args : InviteArgs) (final : Reply) (ids : InviteStart)
    (ts : List Turn) (es : List BridgeEvent) : Prop where
  sent : ids.sent = true
  representable : Representable args ids
  converses : Converses config.client (ids.deadlineBase + args.inviteTimeout) final
    (firstInvite config.client args ids) none ts
  turns : ts.length ≤ responseLoopLimit
  invites : invitesOf es = .start ids :: ts.flatMap Turn.events
  last : ∃ before e, es = before ++ [.invite e true]
  quiet : ∀ e ∈ es, e.Undisturbed
  drains : drainsOf es < drainIterationsLimit

/-- The call that the reply connects is relayed to the endpoint of its answer, after an ACK
if it is answered. -/
def RelaysTo (final : Reply) (request : InviteRequest) (phase : Phase)
    (trace : List BridgeShown) : Prop :=
  ∃ session call endpoint, phase = .relaying session call (call.state = .earlyMedia)
      (relayStart (createRtpSender rtpSsrc) endpoint) ∧
    call.ConnectedBy final request ∧ final.answer.map Answer.endpoint = some endpoint ∧
    (final.status = 200 → ∃ before, trace = before ++ [.sip (.sent .answerAck (.ack call))])

theorem RelaysTo.after {final : Reply} {request : InviteRequest} {phase : Phase}
    {trace : List BridgeShown} (h : RelaysTo final request phase trace)
    (before : List BridgeShown) : RelaysTo final request phase (before ++ trace) := by
  obtain ⟨session, call, endpoint, hphase, hcall, hendpoint, hack⟩ := h
  refine ⟨session, call, endpoint, hphase, hcall, hendpoint, fun h200 => ?_⟩
  obtain ⟨before', rfl⟩ := hack h200
  exact ⟨before ++ before', (List.append_assoc before before' _).symm⟩

/-- A call with an endpoint is relayed. -/
theorem proceedWith_relays (dial : Str) {final : Reply} {call : Call} {request : InviteRequest}
    (hcall : call.ConnectedBy final request) (hanswer : final.answer.isSome) :
    RelaysTo final request (proceedWith ⟨dial, .connectingMedia⟩ call true).1
      (proceedWith ⟨dial, .connectingMedia⟩ call true).2 := by
  obtain ⟨answer, hanswer⟩ := Option.isSome_iff_exists.mp hanswer
  have hendpoint : call.remoteRtp = some answer.endpoint := by
    rw [hcall.endpoint, hanswer]
    rfl
  have hsession : (⟨dial, .connectingMedia⟩ : Session).transition .mediaActive =
      .ok ⟨dial, .mediaActive⟩ := rfl
  have hknown : final.answer.map Answer.endpoint = some answer.endpoint := by simp [hanswer]
  have hstate := hcall.state
  by_cases h200 : final.status = 200
  · rw [if_pos h200] at hstate
    simp only [proceedWith, hendpoint, hstate, if_true, relayTo, hsession, BridgeNext.after,
      List.append_nil]
    exact ⟨⟨dial, .mediaActive⟩, call, answer.endpoint, by simp [hstate], hcall, hknown,
      fun _ => ⟨[], rfl⟩⟩
  · rw [if_neg h200] at hstate
    simp only [proceedWith, hendpoint, hstate, reduceCtorEq, if_false, relayTo, hsession]
    exact ⟨⟨dial, .mediaActive⟩, call, answer.endpoint, by simp [hstate], hcall, hknown,
      fun h => absurd h h200⟩

section Steps

variable {config : Config} {dial : DialString} {port : UInt16} {sessionId : ℕ}

/-- A dial string is counted. -/
theorem dial_step (calls : ℕ) {lineBuf tail : List UInt8} {e : WaitEvent} {ds : Str}
    (hwait : waitStep lineBuf e = .dialled ds tail) (hdial : DialString.parse ds = .ok dial) :
    (bridgeMachine config).step ⟨calls, .waiting lineBuf⟩ (.wait e) =
      some (⟨calls + 1, .binding dial ⟨dial.text, .originating⟩⟩, [.dialled tail]) := by
  have hsession : (Session.new dial.text).transition .originating =
      .ok ⟨dial.text, .originating⟩ := rfl
  simp only [bridgeMachine, bridgeStep, hwait, dialledWith, hdial, hsession]

/-- With a port `invite` is called, under the drain. -/
theorem bind_step (hport : 0 < port) (calls : ℕ) (session : Session) :
    (bridgeMachine config).step ⟨calls, .binding dial session⟩ (.rtpBound (some port) sessionId) =
      some (⟨calls, .setup session (.draining 1 0)
        (.called (callArgs config dial port sessionId))⟩, []) := by
  have hstart : (drainStart : Drain (Except InviteError Call)) = .draining 1 0 :=
    drainHead_eq_draining 0 (by decide)
  simp only [bridgeMachine, bridgeStep, phaseStep, boundTo, Sdp.buildOffer_eq sessionId hport,
    hstart, callArgs]

/-- The drain takes the call that `invite` returns. -/
theorem returned_step {calls iterations drainedBytes : ℕ} {dial : Str} {s : InviteState}
    {e : InviteEvent} {call : Call} {acts : List SipShown}
    (h : (inviteMachine config.client).step s e = some (.returned (.ok call), acts)) :
    (bridgeMachine config).step
        ⟨calls, .setup ⟨dial, .originating⟩ (.draining iterations drainedBytes) s⟩
        (.invite e true) =
      some (⟨calls, (proceedWith ⟨dial, .connectingMedia⟩ call true).1⟩,
        acts.map .sip ++ (proceedWith ⟨dial, .connectingMedia⟩ call true).2) := by
  have hsession : (⟨dial, .originating⟩ : Session).transition .connectingMedia =
      .ok ⟨dial, .connectingMedia⟩ := rfl
  change inviteStep config.client s e = some (.returned (.ok call), acts) at h
  simp only [bridgeMachine, bridgeStep, phaseStep, h, invitedTo, drainStep, drainedTo, hsession,
    BridgeNext.after]

end Steps

section Calls

variable {config : Config} (hc : config.client.Presentable) (hplain : config.client.Configured)
  {dial : DialString} {port : UInt16} (hport : 0 < port) {sessionId : ℕ} {final : Reply}
  {ids : InviteStart} {ts : List Turn} {es : List BridgeEvent}
include hc hplain hport

/-- `invite` returns the call of a setup in which everyone cooperates. -/
theorem Cooperates.returns
    (h : Cooperates config (callArgs config dial port sessionId) final ids ts es) :
    ∃ call acts, (inviteMachine config.client).run
        (.called (callArgs config dial port sessionId)) (invitesOf es) =
      some (.returned (.ok call), acts) ∧
        call.ConnectedBy final
          (firstInvite config.client (callArgs config dial port sessionId) ids) := by
  have hargs : (InviteState.called (callArgs config dial port sessionId)).Drawn config.client :=
    ⟨dial, port, sessionId, rfl, Sdp.buildOffer_eq sessionId hport⟩
  have hproper := inviteStart_proper hc ids hargs
  have hstart : (inviteMachine config.client).step
      (.called (callArgs config dial port sessionId)) (.start ids) =
        some (inviteStart config.client (callArgs config dial port sessionId) ids) := rfl
  have hout := inviteStart_outcome config.client (callArgs config dial port sessionId) ids
  generalize inviteStart config.client (callArgs config dial port sessionId) ids = out
    at hout hproper hstart
  cases hout with
  | undialable why hdial => exact absurd hdial dial.ne
  | unsent hsent => simp [h.sent] at hsent
  | overflowed hsent hdeadline => exact absurd h.representable hdeadline
  | sent hsent _ =>
      have hinvite := hproper.1 .invite _ List.mem_cons_self
      have hawaits : InviteLoop.Awaits config.client
          (ids.deadlineBase + (callArgs config dial port sessionId).inviteTimeout)
          (firstInvite config.client (callArgs config dial port sessionId) ids) none
          (firstLoop config.client (callArgs config dial port sessionId) ids) :=
        { drawn := hproper.2
          proper := hinvite
          callId := rfl
          localTag := rfl
          uri := rfl
          cseq := rfl
          sdp := rfl
          deadline := rfl
          first := fun _ => rfl
          earlier := nofun }
      obtain ⟨call, acts, hrun, hcall⟩ := h.converses.returns hc hplain hawaits
        (by simpa [firstLoop] using h.turns)
      rw [h.invites]
      exact ⟨call, _, (inviteMachine config.client).run_cons_of_step hstart hrun, hcall⟩

end Calls

/-! ## A trunk that cooperates -/

/-- The challenge of the trunk. -/
def trunkPosed : Posed where
  digest := ⟨lit "r", lit "n", none, none⟩
  params := [.quoted .realm (lit "r"), .quoted .nonce (lit "n")]

/-- The trunk poses its challenge. -/
def trunkDemand (status : ℕ) : Reply where
  status := status
  reason := lit "Unauthorized"
  tag := some (lit "t")
  challenge := some trunkPosed
  answer := none

/-- The trunk answers the call. -/
def trunkAccept : Reply := { trunkProgress with status := 200, reason := lit "OK" }

theorem sound_trunkDemand {status : ℕ} (h : 100 ≤ status ∧ status < 700) :
    (trunkDemand status).Sound where
  status := h
  reason := by
    change IsAscii (lit "Unauthorized") ∧ '\n' ∉ lit "Unauthorized"
    decide
  tag := by
    rintro tag ⟨⟩
    decide
  challenge := by
    rintro posed ⟨⟩
    have hvalue : ∀ name value, trunkPosed.digest.value name = some value →
        value = lit "r" ∨ value = lit "n" := by
      rintro (_ | _ | _ | _) value ⟨⟩
      · exact Or.inl rfl
      · exact Or.inr rfl
    constructor
    · exact ⟨false, List.Perm.refl _⟩
    · intro name value hname
      rcases hvalue name value hname with rfl | rfl <;> decide
    · intro name value hname
      rcases hvalue name value hname with rfl | rfl <;> decide
    · intro name value other hother
      rcases hvalue other value hother with rfl | rfl <;> cases name <;> decide
  answer := nofun

theorem sound_trunkAccept : trunkAccept.Sound where
  status := by decide
  reason := by decide
  tag := sound_trunkProgress.tag
  challenge := nofun
  answer := sound_trunkProgress.answer

/-- The second REGISTER. -/
def trunkAuthRegister : RegisterRequest :=
  authRegister trunkClient (generateCallId 1 2) (generateTag 3) trunkPosed.digest ⟨[], 5, true, 0⟩

/-- The registrar poses its challenge. -/
def demandData : Datagram :=
  ⟨utf8Bytes ((trunkDemand 401).message
    (trunkClient.message (.register trunkRegistration))).text, by decide +kernel⟩

/-- The registrar welcomes the client that knows the password. -/
def grantData : Datagram :=
  ⟨utf8Bytes (trunkWelcome.message (trunkClient.message (.register trunkAuthRegister))).text,
    by decide +kernel⟩

/-- The proxy poses its challenge. -/
def proxyData : Datagram :=
  ⟨utf8Bytes ((trunkDemand 407).message (trunkClient.message (.invite trunkInvite))).text,
    by decide +kernel⟩

/-- The INVITE that answers it. -/
def trunkAuthInvite : InviteRequest :=
  trunkInvite.answering trunkClient 407 trunkPosed.digest answerInputs

/-- The proxy answers the INVITE with credentials. -/
def acceptData : Datagram :=
  ⟨utf8Bytes (trunkAccept.message (trunkClient.message (.invite trunkAuthInvite))).text,
    by decide +kernel⟩

/-- The proxy poses its challenge, repeats it, and connects the call. -/
def trunkTurns : List Turn :=
  [some proxyData, some proxyData, some acceptData].map fun data =>
    ⟨headAt 0, data, answerInputs⟩

/-- The turns, with a frame of silence and a sample of audio between them. -/
def trunkSchedule : List BridgeEvent :=
  [.invite (.start trunkStart) true, .setupTick true, .invite (.head (headAt 0)) true,
    .invite (.received (some proxyData) answerInputs) true, .invite (.head (headAt 0)) true,
    .invite (.received (some proxyData) answerInputs) true,
    .setupRead (some ⟨[1, 2], by decide⟩), .invite (.head (headAt 0)) true,
    .invite (.received (some acceptData) answerInputs) true]

theorem cooperates_trunk :
    Cooperates trunkConfig (callArgs trunkConfig ⟨lit "5", by decide, by decide⟩ 4000 7)
      trunkAccept trunkStart trunkTurns trunkSchedule where
  sent := rfl
  representable := by decide
  converses := by
    have hdemand : IsReply trunkClient (.invite trunkInvite) (trunkDemand 407) proxyData :=
      ⟨sound_trunkDemand (by decide), rfl⟩
    have haccept : IsReply trunkClient (.invite trunkAuthInvite) trunkAccept acceptData :=
      ⟨sound_trunkAccept, rfl⟩
    have htime : ∀ data, (⟨headAt 0, data, answerInputs⟩ : Turn).InTime (60 * 10 ^ 9) :=
      fun _ => ⟨by simp [headAt], rfl, rfl, rfl, List.forall_mem_nil _⟩
    exact .challenged (trunkDemand 407) trunkPosed (htime _) ⟨proxyData, rfl, hdemand⟩
      (Or.inr rfl) rfl (.late (trunkDemand 407) (htime _) ⟨proxyData, rfl, hdemand⟩
        (.connected (htime _) ⟨acceptData, rfl, haccept⟩ ⟨Or.inr (Or.inr rfl), rfl⟩))
  turns := by decide
  invites := rfl
  last := ⟨trunkSchedule.dropLast, _, rfl⟩
  quiet := by simp [trunkSchedule, BridgeEvent.Undisturbed]
  drains := by decide

end SlmodemSipBridge.Bridge
