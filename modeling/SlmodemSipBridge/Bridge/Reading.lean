import SlmodemSipBridge.Bridge.Steps

/-!
# The steps that read a response, and the others

The steps of the bridge once more, by what they have to do with the responses
that come for its calls: a step reads one of them, for `invite`, for
`poll_answer` or while a BYE is waited for, or it reads none.
-/

namespace SlmodemSipBridge.Bridge

open Rust Transition Media Rtp Sip

/-! ## What is read -/

/-- A response that is read for the current call: by `invite`, by `poll_answer`
or by the wait for the response to a BYE. -/
inductive Consumed where
  | byInvite (l : InviteLoop) (resp : Str) (inputs : AnswerInputs) (ackSent : Bool)
  | byPoll (call : Call) (resp : Str) (ackSent : Bool)
  | byBye (call : Call) (resp : Str)

/-- The call that a response is read for. -/
def Consumed.call : Consumed → Call
  | .byInvite l _ _ _ => l.call
  | .byPoll call _ _ => call
  | .byBye call _ => call

/-- The response that is read. -/
def Consumed.resp : Consumed → Str
  | .byInvite _ resp _ _ => resp
  | .byPoll _ resp _ => resp
  | .byBye _ resp => resp

/-- The response that an event reads for the current call. -/
def consumed : Phase → BridgeEvent → Option Consumed
  | .setup _ _ (.receiving l), .invite (.received (some data) inputs) ackSent =>
      some (.byInvite l (fromUtf8Lossy data.val) inputs ackSent)
  | .relaying _ call true _, .poll (some data) ackSent =>
      some (.byPoll call (fromUtf8Lossy data.val) ackSent)
  | .byeSent call _, .byeResponse (some data) =>
      some (.byBye call (fromUtf8Lossy data.val))
  | _, _ => none

/-- The response that the step reads, if it reads one, has the property. -/
def Reads (P : Consumed → Prop) (b : BridgeState) (e : BridgeEvent) : Prop :=
  ∀ c, consumed b.phase e = some c → P c

instance (P : Consumed → Prop) [DecidablePred P] (b : BridgeState) (e : BridgeEvent) :
    Decidable (Reads P b e) :=
  match h : consumed b.phase e with
  | none => isTrue fun c hc => by simp [h] at hc
  | some c =>
      decidable_of_iff (P c)
        ⟨fun hP c' hc' => Option.some.inj (h ▸ hc') ▸ hP, fun hP => hP c h⟩

theorem reads_of_none {P : Consumed → Prop} {b : BridgeState} {e : BridgeEvent}
    (hc : consumed b.phase e = none) : Reads P b e := by
  intro c hsome
  simp [hc] at hsome

theorem reads_iff {P : Consumed → Prop} {b : BridgeState} {e : BridgeEvent}
    {c : Consumed} (hc : consumed b.phase e = some c) : Reads P b e ↔ P c := by
  simp [Reads, hc]

/-! ## The steps that read a response -/

/-- What reading a response for the current call leads to. -/
inductive ReadStepped (config : Config) :
    Phase → Consumed → Phase → List BridgeShown → Prop where
  | invites (session : Session) (drain : Drain (Except InviteError Call))
      (l l' : InviteLoop) (resp : Str) (inputs : AnswerInputs) (ackSent : Bool)
      (acks : List SipShown)
      (hresponse : ResponseOutcome config.client l resp inputs (.ok (.looping l', acks))) :
      ReadStepped config (.setup session drain (.receiving l))
        (.byInvite l resp inputs ackSent)
        (.setup session drain (.looping l'))
        (.sip (.read (some l.call) resp) :: acks.map .sip)
  | inviteFails (session : Session) (drain : Drain (Except InviteError Call))
      (l : InviteLoop) (resp : Str) (inputs : AnswerInputs) (ackSent : Bool)
      (error : InviteError) (acks : List SipShown) (next : BridgeNext)
      (hresponse : ResponseOutcome config.client l resp inputs
        (.ok (.returned (.error error), acks)))
      (hnext : Parked next) :
      ReadStepped config (.setup session drain (.receiving l))
        (.byInvite l resp inputs ackSent) next.1
        (.sip (.read (some l.call) resp) :: (acks.map .sip ++ next.2))
  | inviteCrashes (session : Session) (drain : Drain (Except InviteError Call))
      (l : InviteLoop) (resp : Str) (inputs : AnswerInputs) (ackSent : Bool)
      (why : Panic) (next : BridgeNext)
      (hresponse : ResponseOutcome config.client l resp inputs (.error why))
      (hnext : Parked next) :
      ReadStepped config (.setup session drain (.receiving l))
        (.byInvite l resp inputs ackSent) next.1
        (.sip (.read (some l.call) resp) :: next.2)
  | inviteReturns (session : Session) (drain : Drain (Except InviteError Call))
      (l : InviteLoop) (resp : Str) (inputs : AnswerInputs) (ackSent : Bool)
      (call : Call) (acks : List SipShown) (next : BridgeNext)
      (hresponse : ResponseOutcome config.client l resp inputs
        (.ok (.returned (.ok call), acks)))
      (hnext : SetupEnd call ackSent next) :
      ReadStepped config (.setup session drain (.receiving l))
        (.byInvite l resp inputs ackSent) next.1
        (.sip (.read (some l.call) resp) :: (acks.map .sip ++ next.2))
  | polls (session : Session) (call : Call) (relay : Relay) (resp : Str)
      (ackSent polling : Bool) (polled : Polled) (acks : List SipShown)
      (hresponse : PollOutcome call resp ackSent (.ok (polled, acks)))
      (hpolling : polling = true ↔ polled.result = .ok false) :
      ReadStepped config (.relaying session call true relay) (.byPoll call resp ackSent)
        (.relaying session polled.call polling relay)
        (.sip (.read (some call) resp) :: acks.map .sip)
  | pollCrashes (session : Session) (call : Call) (relay : Relay) (resp : Str)
      (ackSent : Bool) (why : Panic)
      (hresponse : PollOutcome call resp ackSent (.error why)) :
      ReadStepped config (.relaying session call true relay) (.byPoll call resp ackSent)
        (.panicked why) [.sip (.read (some call) resp), .stopped]
  | byeAnswered (call : Call) (after : AfterBye) (resp : Str) (next : BridgeNext)
      (hnext : Parked next) :
      ReadStepped config (.byeSent call after) (.byBye call resp) next.1
        (.sip (.read (some call) resp) :: next.2)

theorem readStepped_of_invite {config : Config} {session : Session}
    {drain : Drain (Except InviteError Call)} {l : InviteLoop} {data : Datagram}
    {inputs : AnswerInputs} {ackSent : Bool} {phase' : Phase} {shown : List BridgeShown}
    (h : PhaseStepped config (.setup session drain (.receiving l))
      (.invite (.received (some data) inputs) ackSent) phase' shown) :
    ReadStepped config (.setup session drain (.receiving l))
      (.byInvite l (fromUtf8Lossy data.val) inputs ackSent) phase' shown := by
  cases h with
  | invites _ _ _ invite' _ _ sipShown hstep hreturned hpanicked =>
      cases hstep with
      | response _ _ _ next acks hresponse =>
          rcases next_of_response hresponse with ⟨l', rfl⟩ | ⟨result, rfl⟩
          · exact .invites session drain l l' _ inputs ackSent acks hresponse
          · exact absurd rfl (hreturned result)
      | crash _ _ _ why hresponse => exact absurd rfl (hpanicked why)
  | inviteFails _ _ _ invite' _ _ sipShown next hstep hfail hnext =>
      cases hstep with
      | response _ _ _ _ acks hresponse =>
          rcases hfail with ⟨error, rfl⟩ | ⟨why, rfl⟩
          · exact .inviteFails session drain l _ inputs ackSent error acks next hresponse hnext
          · rcases next_of_response hresponse with ⟨l', hl'⟩ | ⟨result, hresult⟩
            · simp at hl'
            · simp at hresult
      | crash _ _ _ why hresponse =>
          exact .inviteCrashes session drain l _ inputs ackSent why next hresponse hnext
  | inviteReturns _ _ _ _ _ sipShown call next hstep hnext =>
      obtain ⟨l', data', inputs', acks, hl, hdata, hresponse, rfl⟩ :=
        response_of_returned hstep rfl
      simp only [InviteState.receiving.injEq] at hl
      simp only [InviteEvent.received.injEq, Option.some.injEq] at hdata
      obtain ⟨rfl, rfl⟩ := hdata
      subst hl
      exact .inviteReturns session drain l _ inputs ackSent call acks next hresponse hnext
  | drains _ _ _ _ _ _ he => exact absurd he id
  | drainFails _ _ _ _ _ _ he => exact absurd he id

theorem readStepped_of_stepped {config : Config} {phase phase' : Phase}
    {e : BridgeEvent} {shown : List BridgeShown} {c : Consumed}
    (h : PhaseStepped config phase e phase' shown) (hc : consumed phase e = some c) :
    ReadStepped config phase c phase' shown := by
  unfold consumed at hc
  split at hc
  · simp only [Option.some.injEq] at hc
    exact hc ▸ readStepped_of_invite h
  · simp only [Option.some.injEq] at hc
    subst hc
    cases h with
    | polls _ _ _ _ _ polling polled acks hresponse hpolling =>
        exact .polls _ _ _ _ _ polling polled acks hresponse hpolling
    | pollCrashes _ _ _ _ _ why hresponse => exact .pollCrashes _ _ _ _ _ why hresponse
  · simp only [Option.some.injEq] at hc
    subst hc
    cases h with
    | byeAnswered _ _ _ next hnext => exact .byeAnswered _ _ _ next hnext
  · simp at hc

/-! ## The steps that read none -/

/-- An observation that has nothing to do with an answer: the registration, an
INVITE, and what is taken from slmodemd before the relay starts. -/
inductive IsPlain : BridgeShown → Prop where
  | read (resp : Str) : IsPlain (.sip (.read none resp))
  | register (site : Site) (r : RegisterRequest) : IsPlain (.sip (.sent site (.register r)))
  | invite (site : Site) (r : InviteRequest) : IsPlain (.sip (.sent site (.invite r)))
  | dialled (tail : List UInt8) : IsPlain (.dialled tail)
  | drained (bytes : List UInt8) : IsPlain (.drained bytes)

/-- No call is set up, and there may come one. -/
inductive Phase.BeforeCall : Phase → Prop where
  | registering (r : RegisterState) : BeforeCall (.registering r)
  | ready : BeforeCall .ready
  | waiting (lineBuf : List UInt8) : BeforeCall (.waiting lineBuf)
  | binding (dial : DialString) (session : Session) : BeforeCall (.binding dial session)
  | setup (session : Session) (drain : Drain (Except InviteError Call))
      (invite : InviteState) : BeforeCall (.setup session drain invite)

/-- What a step that reads no response for a call leads to. -/
inductive Unread : Phase → Phase → List BridgeShown → Prop where
  | prepares (phase phase' : Phase) (shown : List BridgeShown)
      (hbefore : phase.BeforeCall) (hafter : phase'.BeforeCall)
      (hplain : ∀ o ∈ shown, IsPlain o) :
      Unread phase phase' shown
  | parks (phase : Phase) (shown : List BridgeShown) (next : BridgeNext)
      (hplain : ∀ o ∈ shown, IsPlain o) (hnext : Parked next) :
      Unread phase next.1 (shown ++ next.2)
  | relays (session : Session) (call : Call) (polling : Bool) (relay relay' : Relay)
      (e : RelayEvent) (shown : List RelayShown)
      (hstep : relayStep relay e = some (relay', shown)) :
      Unread (.relaying session call polling relay)
        (relayedTo session call polling relay')
        (shown.map .media ++ relayStops relay')
  | pollSilent (session : Session) (call : Call) (relay : Relay) :
      Unread (.relaying session call true relay) (.relaying session call true relay) []
  | byes (call : Call) (after : AfterBye) (branchHash : UInt64) :
      Unread (.hangingUp call after) (.byeSent call after)
        [.sip (.sent .bye (.bye call (generateBranch branchHash)))]

theorem IsRegistering.isPlain {o : SipShown} (h : IsRegistering o) : IsPlain (.sip o) := by
  cases o with
  | read call resp =>
      cases call with
      | none => exact .read resp
      | some call => exact absurd h id
  | sent site request =>
      cases request with
      | register r => exact .register site r
      | invite r => exact absurd h id
      | ack call => exact absurd h id
      | bye call branch => exact absurd h id
  | answered call resp => exact absurd h id

theorem isPlain_map_drained (dropped : List (List UInt8)) :
    ∀ o ∈ dropped.map BridgeShown.drained, IsPlain o := by
  intro o ho
  obtain ⟨bytes, -, rfl⟩ := List.mem_map.mp ho
  exact .drained bytes

/-- A step of `invite` that reads no response sends an INVITE at most. -/
theorem invite_isPlain {client : SipClient} {s s' : InviteState} {e : InviteEvent}
    {shown : List SipShown} (h : InviteStepped client s e s' shown)
    (hunread : ∀ l data inputs, s = .receiving l → e ≠ .received (some data) inputs) :
    ∀ o ∈ shown.map BridgeShown.sip, IsPlain o := by
  cases h with
  | start args ids =>
      have hout := inviteStart_outcome client args ids
      generalize inviteStart client args ids = out at hout ⊢
      cases hout with
      | undialable why hdial => simp
      | unsent hsent => simp
      | overflowed _ _ | sent _ _ => simpa using IsPlain.invite _ _
  | head l inputs =>
      have hout := inviteHead_outcome l inputs
      generalize inviteHead l inputs = out at hout ⊢
      cases hout with
      | retransmitted _ _ => simpa using IsPlain.invite _ _
      | _ => simp
  | silent l inputs => simp
  | response l data inputs next shown hresponse => exact absurd rfl (hunread l data inputs rfl)
  | crash l data inputs why hresponse => exact absurd rfl (hunread l data inputs rfl)

theorem invite_unread {session : Session} {drain : Drain (Except InviteError Call)}
    {invite : InviteState} {e : InviteEvent} {ackSent : Bool}
    (hc : consumed (.setup session drain invite) (.invite e ackSent) = none) :
    ∀ l data inputs, invite = .receiving l → e ≠ .received (some data) inputs := by
  rintro l data inputs rfl rfl
  simp [consumed] at hc

theorem unread_of_invite {config : Config} {session : Session}
    {drain : Drain (Except InviteError Call)} {invite : InviteState} {e : InviteEvent}
    {ackSent : Bool} {phase' : Phase} {shown : List BridgeShown}
    (h : PhaseStepped config (.setup session drain invite) (.invite e ackSent) phase'
      shown)
    (hunread : ∀ l data inputs, invite = .receiving l → e ≠ .received (some data) inputs) :
    Unread (.setup session drain invite) phase' shown := by
  cases h with
  | invites _ _ _ invite' _ _ sipShown hstep hreturned hpanicked =>
      exact .prepares _ _ _ (.setup _ _ _) (.setup _ _ _) (invite_isPlain hstep hunread)
  | inviteFails _ _ _ invite' _ _ sipShown next hstep hfail hnext =>
      exact .parks _ _ next (invite_isPlain hstep hunread) hnext
  | inviteReturns _ _ _ _ _ sipShown call next hstep hnext =>
      obtain ⟨l, data, inputs, acks, hl, hdata, -, -⟩ := response_of_returned hstep rfl
      exact absurd hdata (hunread l data inputs hl)
  | drains _ _ _ _ _ _ he => exact absurd he id
  | drainFails _ _ _ _ _ _ he => exact absurd he id

theorem unread_of_stepped {config : Config} {phase phase' : Phase} {e : BridgeEvent}
    {shown : List BridgeShown} (h : PhaseStepped config phase e phase' shown)
    (hc : consumed phase e = none) : Unread phase phase' shown := by
  have hnone : ∀ o ∈ ([] : List BridgeShown), IsPlain o := by simp
  cases h with
  | registers r e next sipShown hshown hnext =>
      have hplain : ∀ o ∈ sipShown.map BridgeShown.sip, IsPlain o := by
        intro o ho
        obtain ⟨o', ho', rfl⟩ := List.mem_map.mp ho
        exact (hshown o' ho').isPlain
      cases hnext with
      | running r' =>
          exact .prepares _ _ _ (.registering _) (.registering _) (by simpa using hplain)
      | ready => exact .prepares _ _ _ (.registering _) .ready (by simpa using hplain)
      | parked next hnext => exact .parks _ _ next hplain hnext
  | readied written next hnext => exact .parks _ [] next hnone hnext
  | waits lineBuf e lineBuf' => exact .prepares _ _ _ (.waiting _) (.waiting _) hnone
  | waitEnds lineBuf e next hnext => exact .parks _ [] next hnone hnext
  | dials lineBuf e dial session tail hsession =>
      exact .prepares _ _ _ (.waiting _) (.binding _ _)
        (by simpa using IsPlain.dialled tail)
  | binds dial session port sessionId args =>
      exact .prepares _ _ _ (.binding _ _) (.setup _ _ _) hnone
  | bindFails dial session port sessionId next hnext => exact .parks _ [] next hnone hnext
  | invites session drain invite invite' e ackSent sipShown hstep hreturned hpanicked =>
      exact unread_of_invite (.invites session drain invite invite' e ackSent sipShown hstep
        hreturned hpanicked) (invite_unread hc)
  | inviteFails session drain invite invite' e ackSent sipShown next hstep hfail hnext =>
      exact unread_of_invite (.inviteFails session drain invite invite' e ackSent sipShown
        next hstep hfail hnext) (invite_unread hc)
  | inviteReturns session drain invite e ackSent sipShown call next hstep hnext =>
      exact unread_of_invite (.inviteReturns session drain invite e ackSent sipShown call
        next hstep hnext) (invite_unread hc)
  | drains session drain drain' invite e dropped he hdrain =>
      exact .prepares _ _ _ (.setup _ _ _) (.setup _ _ _) (isPlain_map_drained dropped)
  | drainFails session drain invite e dropped next he hnext =>
      exact .parks _ _ next (isPlain_map_drained dropped) hnext
  | relays session call polling relay relay' e relayShown hstep =>
      exact .relays session call polling relay relay' e relayShown hstep
  | pollSilent session call relay ackSent => exact .pollSilent session call relay
  | polls _ _ _ _ _ _ _ _ _ _ => simp [consumed] at hc
  | pollCrashes _ _ _ _ _ _ _ => simp [consumed] at hc
  | byes call after branchHash => exact .byes call after branchHash
  | byeFails call after branchHash next hnext => exact .parks _ [] next hnone hnext
  | byeSilent call after next hnext => exact .parks _ [] next hnone hnext
  | byeAnswered _ _ _ _ _ => simp [consumed] at hc

end SlmodemSipBridge.Bridge
