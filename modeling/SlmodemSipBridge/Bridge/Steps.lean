import SlmodemSipBridge.Bridge.Run
import SlmodemSipBridge.Media.Outgoing
import SlmodemSipBridge.Sip.Outcome

/-!
# The steps of the bridge

What a step of the bridge can do, once and for all, and the invariant of its
states: the session is where the phase says, the drain and the relay are live
while they are waited for, and only a call in early media is polled.
-/

namespace SlmodemSipBridge.Bridge

open Rust Transition Media Rtp Sip

/-! ## The invariant -/

/-- `invite` is under way, and its call has neither an endpoint nor an answer. -/
def InviteUnderWay : InviteState → Prop
  | .called _ => True
  | .looping l => l.call.remoteRtp = none ∧ l.call.state = .trying
  | .receiving l => l.call.remoteRtp = none ∧ l.call.state = .trying
  | .returned _ => False
  | .panicked _ => False

/-- The session a BYE tears down is active. -/
def AfterBye.Ok : AfterBye → Prop
  | .teardown session => session.state = .mediaActive
  | _ => True

/-- What holds in each phase. -/
def Phase.Ok : Phase → Prop
  | .binding _ session => session.state = .originating
  | .setup session drain invite =>
      session.state = .originating ∧
        (∃ iterations drainedBytes, drain = .draining iterations drainedBytes) ∧
        InviteUnderWay invite
  | .relaying session call polling relay =>
      session.state = .mediaActive ∧ (∃ loops, relay = .running loops) ∧
        (polling = true → call.state = .earlyMedia)
  | .hangingUp _ next => next.Ok
  | .byeSent _ next => next.Ok
  | _ => True

/-- The call that `invite` is setting up. -/
def inviteCall : InviteState → Option Call
  | .looping l => some l.call
  | .receiving l => some l.call
  | _ => none

/-- The call of a phase. -/
def Phase.call : Phase → Option Call
  | .setup _ _ invite => inviteCall invite
  | .relaying _ call _ _ => some call
  | .hangingUp call _ => some call
  | .byeSent call _ => some call
  | _ => none

/-! ## The cases -/

/-- The bridge is done with a call: it waits for the next one, or ends. -/
inductive Parked : BridgeNext → Prop where
  | waiting : Parked (.waiting [], [.waiting])
  | returned (result : Except BridgeError Unit) : Parked (.returned result, [.stopped])
  | panicked (why : Panic) : Parked (.panicked why, [.stopped])

/-- What becomes of a call that is set up. -/
inductive SetupEnd (call : Call) (ackSent : Bool) : BridgeNext → Prop where
  | noRemoteRtp (hrtp : call.remoteRtp = none) :
      SetupEnd call ackSent (.hangingUp call .noRemoteRtp, [])
  | ackUnsent (remoteRtp : SocketAddr) (hrtp : call.remoteRtp = some remoteRtp)
      (hstate : call.state = .answered) (hack : ackSent = false) :
      SetupEnd call ackSent (.returned (.error .ackFailed), [.stopped])
  | acked (session : Session) (remoteRtp : SocketAddr)
      (hrtp : call.remoteRtp = some remoteRtp) (hstate : call.state = .answered)
      (hack : ackSent = true) (hsession : session.state = .mediaActive) :
      SetupEnd call ackSent
        (.relaying session call false
          (relayStart (createRtpSender rtpSsrc) remoteRtp),
          [.sip (.sent .answerAck (.ack call))])
  | unanswered (session : Session) (remoteRtp : SocketAddr) (polling : Bool)
      (hrtp : call.remoteRtp = some remoteRtp) (hstate : call.state ≠ .answered)
      (hpolling : polling = true → call.state = .earlyMedia)
      (hsession : session.state = .mediaActive) :
      SetupEnd call ackSent
        (.relaying session call polling
          (relayStart (createRtpSender rtpSsrc) remoteRtp), [])

/-- An observation of the registration. -/
def IsRegistering : SipShown → Prop
  | .read none _ => True
  | .sent _ (.register _) => True
  | _ => False

/-- What a step of the registration leads to. -/
inductive RegisterNext : BridgeNext → Prop where
  | running (r : RegisterState) : RegisterNext (.registering r, [])
  | ready : RegisterNext (.ready, [])
  | parked (next : BridgeNext) (hnext : Parked next) : RegisterNext next

/-- The events of the drain. -/
def BridgeEvent.IsDrain : BridgeEvent → Prop
  | .setupRead _ => True
  | .setupTick _ => True
  | _ => False

/-- The steps of the bridge, from phase to phase. -/
inductive PhaseStepped (config : Config) :
    Phase → BridgeEvent → Phase → List BridgeShown → Prop where
  | registers (r : RegisterState) (e : RegisterEvent) (next : BridgeNext)
      (shown : List SipShown) (hshown : ∀ o ∈ shown, IsRegistering o)
      (hnext : RegisterNext next) :
      PhaseStepped config (.registering r) (.register e) next.1
        (shown.map .sip ++ next.2)
  | readied (written : Bool) (next : BridgeNext) (hnext : Parked next) :
      PhaseStepped config .ready (.readyWritten written) next.1 next.2
  | waits (lineBuf : List UInt8) (e : WaitEvent) (lineBuf' : List UInt8) :
      PhaseStepped config (.waiting lineBuf) (.wait e) (.waiting lineBuf') []
  | waitEnds (lineBuf : List UInt8) (e : WaitEvent) (next : BridgeNext)
      (hnext : Parked next) :
      PhaseStepped config (.waiting lineBuf) (.wait e) next.1 next.2
  | dials (lineBuf : List UInt8) (e : WaitEvent) (dial : DialString)
      (session : Session) (tail : List UInt8)
      (hsession : session.state = .originating) :
      PhaseStepped config (.waiting lineBuf) (.wait e) (.binding dial session)
        [.dialled tail]
  | binds (dial : DialString) (session : Session) (port : Option UInt16)
      (sessionId : ℕ) (args : InviteArgs) :
      PhaseStepped config (.binding dial session) (.rtpBound port sessionId)
        (.setup session drainStart (.called args)) []
  | bindFails (dial : DialString) (session : Session) (port : Option UInt16)
      (sessionId : ℕ) (next : BridgeNext) (hnext : Parked next) :
      PhaseStepped config (.binding dial session) (.rtpBound port sessionId)
        next.1 next.2
  | invites (session : Session) (drain : Drain (Except InviteError Call))
      (invite invite' : InviteState) (e : InviteEvent) (ackSent : Bool)
      (shown : List SipShown)
      (hstep : InviteStepped config.client invite e invite' shown)
      (hreturned : ∀ result, invite' ≠ .returned result)
      (hpanicked : ∀ why, invite' ≠ .panicked why) :
      PhaseStepped config (.setup session drain invite) (.invite e ackSent)
        (.setup session drain invite') (shown.map .sip)
  | inviteFails (session : Session) (drain : Drain (Except InviteError Call))
      (invite invite' : InviteState) (e : InviteEvent) (ackSent : Bool)
      (shown : List SipShown) (next : BridgeNext)
      (hstep : InviteStepped config.client invite e invite' shown)
      (hfail : (∃ error, invite' = .returned (.error error)) ∨
        ∃ why, invite' = .panicked why)
      (hnext : Parked next) :
      PhaseStepped config (.setup session drain invite) (.invite e ackSent)
        next.1 (shown.map .sip ++ next.2)
  | inviteReturns (session : Session) (drain : Drain (Except InviteError Call))
      (invite : InviteState) (e : InviteEvent) (ackSent : Bool)
      (shown : List SipShown) (call : Call) (next : BridgeNext)
      (hstep : InviteStepped config.client invite e (.returned (.ok call)) shown)
      (hnext : SetupEnd call ackSent next) :
      PhaseStepped config (.setup session drain invite) (.invite e ackSent)
        next.1 (shown.map .sip ++ next.2)
  | drains (session : Session) (drain drain' : Drain (Except InviteError Call))
      (invite : InviteState) (e : BridgeEvent) (dropped : List (List UInt8))
      (he : e.IsDrain)
      (hdrain : ∃ iterations drainedBytes, drain' = .draining iterations drainedBytes) :
      PhaseStepped config (.setup session drain invite) e
        (.setup session drain' invite) (dropped.map .drained)
  | drainFails (session : Session) (drain : Drain (Except InviteError Call))
      (invite : InviteState) (e : BridgeEvent) (dropped : List (List UInt8))
      (next : BridgeNext) (he : e.IsDrain) (hnext : Parked next) :
      PhaseStepped config (.setup session drain invite) e
        next.1 (dropped.map .drained ++ next.2)
  | relays (session : Session) (call : Call) (polling : Bool) (relay relay' : Relay)
      (e : RelayEvent) (shown : List RelayShown)
      (hstep : relayStep relay e = some (relay', shown)) :
      PhaseStepped config (.relaying session call polling relay) (.media e)
        (relayedTo session call polling relay')
        (shown.map .media ++ relayStops relay')
  | pollSilent (session : Session) (call : Call) (relay : Relay) (ackSent : Bool) :
      PhaseStepped config (.relaying session call true relay) (.poll none ackSent)
        (.relaying session call true relay) []
  | polls (session : Session) (call : Call) (relay : Relay) (data : Datagram)
      (ackSent polling : Bool) (polled : Polled) (acks : List SipShown)
      (hresponse : PollOutcome call (fromUtf8Lossy data.val) ackSent
        (.ok (polled, acks)))
      (hpolling : polling = true ↔ polled.result = .ok false) :
      PhaseStepped config (.relaying session call true relay) (.poll (some data) ackSent)
        (.relaying session polled.call polling relay)
        (.sip (.read (some call) (fromUtf8Lossy data.val)) :: acks.map .sip)
  | pollCrashes (session : Session) (call : Call) (relay : Relay) (data : Datagram)
      (ackSent : Bool) (why : Panic)
      (hresponse : PollOutcome call (fromUtf8Lossy data.val) ackSent (.error why)) :
      PhaseStepped config (.relaying session call true relay) (.poll (some data) ackSent)
        (.panicked why)
        [.sip (.read (some call) (fromUtf8Lossy data.val)), .stopped]
  | byes (call : Call) (after : AfterBye) (branchHash : UInt64) :
      PhaseStepped config (.hangingUp call after) (.bye branchHash true)
        (.byeSent call after)
        [.sip (.sent .bye (.bye call (generateBranch branchHash)))]
  | byeFails (call : Call) (after : AfterBye) (branchHash : UInt64)
      (next : BridgeNext) (hnext : Parked next) :
      PhaseStepped config (.hangingUp call after) (.bye branchHash false)
        next.1 next.2
  | byeSilent (call : Call) (after : AfterBye) (next : BridgeNext)
      (hnext : Parked next) :
      PhaseStepped config (.byeSent call after) (.byeResponse none) next.1 next.2
  | byeAnswered (call : Call) (after : AfterBye) (data : Datagram)
      (next : BridgeNext) (hnext : Parked next) :
      PhaseStepped config (.byeSent call after) (.byeResponse (some data)) next.1
        (.sip (.read (some call) (fromUtf8Lossy data.val)) :: next.2)

/-! ## Every step is one of them -/

theorem loopHead_cases (calls : ℕ) :
    loopHead calls = (.waiting [], [.waiting]) ∨
      ∃ why, loopHead calls = (.panicked why, [.stopped]) := by
  unfold loopHead
  cases assert (calls < callsLimit)
      "exceeded call limit of 1000 — aborting to prevent runaway loop" with
  | ok _ => exact Or.inl rfl
  | error why => exact Or.inr ⟨why, rfl⟩

theorem loopHead_parked (calls : ℕ) : Parked (loopHead calls) := by
  rcases loopHead_cases calls with hwaits | ⟨why, hpanics⟩
  · rw [hwaits]
    exact .waiting
  · rw [hpanics]
    exact .panicked why

theorem transition_eq_ok {session : Session} {source : SessionState} (next : SessionState)
    (hstate : session.state = source) (hvalid : isValidTransition source next = true) :
    session.transition next = .ok { session with state := next } := by
  rw [Session.transition, hstate, if_pos hvalid]

theorem byeDone_parked (calls : ℕ) {next : AfterBye} (hnext : next.Ok) :
    Parked (byeDone calls next) := by
  cases next with
  | noRemoteRtp => exact loopHead_parked calls
  | relayFailed error => exact .returned _
  | teardown session =>
      have hfirst := transition_eq_ok .terminating hnext rfl
      have hsecond : Session.transition { session with state := .terminating } .terminated =
          .ok { session with state := .terminated } := transition_eq_ok .terminated rfl rfl
      simp only [byeDone, hfirst, hsecond]
      exact loopHead_parked calls

/-- A relay does not end the bridge. -/
theorem relayStops_of_step {relay relay' : Relay} {e : RelayEvent}
    {shown : List RelayShown} (h : relayStep relay e = some (relay', shown)) :
    relayStops relay' = [] := by
  cases relay' with
  | running loops => rfl
  | returned result => rfl
  | panicked why => exact absurd rfl (relayStep_ne_panicked h why)

theorem registerFirst_registering {client : SipClient} {callId tag resp : Str}
    {retry : RegisterRetry} {next : RegisterState} {shown : List SipShown}
    (h : registerFirst client callId tag resp retry = .ok (next, shown)) :
    ∀ o ∈ shown, IsRegistering o := by
  have hquiet : ∀ s : RegisterState,
      (pure (s, []) : Checked (RegisterState × List SipShown)) = .ok (next, shown) →
        ∀ o ∈ shown, IsRegistering o := by
    intro s hs
    simp only [pure, Except.pure, Except.ok.injEq, Prod.mk.injEq] at hs
    simp [← hs.2]
  unfold registerFirst at h
  by_cases h200 : parseStatusCode resp = some 200
  · simp only [h200, if_true] at h
    exact hquiet _ h
  simp only [if_neg h200] at h
  by_cases h401 : parseStatusCode resp ≠ some 401
  · simp only [if_pos h401] at h
    exact hquiet _ h
  simp only [if_neg h401] at h
  cases hlookup : extractHeader resp (lit "WWW-Authenticate") with
  | error why => simp [hlookup, bind, Except.bind] at h
  | ok found =>
      simp only [hlookup, bind, Except.bind] at h
      cases found with
      | none => exact hquiet _ h
      | some value =>
          obtain ⟨parsed, hparsed⟩ := parseDigestChallenge_total value
          simp only [hparsed] at h
          cases parsed with
          | error e => exact hquiet _ h
          | ok digest =>
              cases hsent : retry.sent with
              | false =>
                  simp only [hsent, Bool.false_eq_true, if_false] at h
                  exact hquiet _ h
              | true =>
                  simp only [hsent, if_true, pure, Except.pure, Except.ok.injEq,
                    Prod.mk.injEq] at h
                  rw [← h.2]
                  simp [IsRegistering]

/-- The registration shows nothing but its own traffic. -/
theorem registerStep_registering {client : SipClient} {r next : RegisterState}
    {e : RegisterEvent} {shown : List SipShown}
    (h : registerStep client r e = some (next, shown)) :
    ∀ o ∈ shown, IsRegistering o := by
  unfold registerStep at h
  split at h
  · next ids =>
    cases hsent : ids.sent <;>
      simp only [hsent, Bool.false_eq_true, if_false, if_true, Option.some.injEq,
        Prod.mk.injEq] at h <;>
      simp [← h.2, IsRegistering]
  · next callId tag datagram retry =>
    cases datagram with
    | none =>
        simp only [Option.some.injEq, Prod.mk.injEq] at h
        simp [← h.2]
    | some data =>
        simp only at h
        cases hfirst : registerFirst client callId tag (fromUtf8Lossy data.val) retry with
        | error why =>
            simp only [hfirst, Option.some.injEq, Prod.mk.injEq] at h
            simp [← h.2, IsRegistering]
        | ok out =>
            simp only [hfirst, Option.some.injEq, Prod.mk.injEq] at h
            have hrest := @registerFirst_registering _ _ _ _ _ out.1 out.2 hfirst
            rw [← h.2]
            intro o ho
            rcases List.mem_cons.mp ho with rfl | ho
            · trivial
            · exact hrest o ho
  · next deadline now =>
    split at h <;>
      simp only [Option.some.injEq, Prod.mk.injEq] at h <;> simp [← h.2]
  · next deadline datagram =>
    cases datagram with
    | none =>
        simp only [Option.some.injEq, Prod.mk.injEq] at h
        simp [← h.2]
    | some data =>
        simp only at h
        cases hsecond : registerSecond deadline (fromUtf8Lossy data.val) <;>
          simp only [hsecond, Option.some.injEq, Prod.mk.injEq] at h <;>
          simp [← h.2, IsRegistering]
  · simp at h

theorem dialledWith_stepped (config : Config) (lineBuf : List UInt8) (e : WaitEvent)
    (calls : ℕ) (ds : Str) (tail : List UInt8) :
    PhaseStepped config (.waiting lineBuf) (.wait e) (dialledWith calls ds tail).1
      (dialledWith calls ds tail).2 := by
  unfold dialledWith
  cases DialString.parse ds with
  | error error => exact .waitEnds lineBuf e _ (loopHead_parked calls)
  | ok dial =>
      have hsession : (Session.new dial.text).transition .originating =
          .ok { Session.new dial.text with state := .originating } :=
        transition_eq_ok .originating rfl rfl
      simp only [hsession]
      exact .dials lineBuf e dial _ tail rfl

theorem proceedWith_end {session : Session} {call : Call} {ackSent : Bool}
    (hsession : session.state = .connectingMedia) :
    SetupEnd call ackSent (proceedWith session call ackSent) := by
  have hactive := transition_eq_ok .mediaActive hsession rfl
  unfold proceedWith
  cases hrtp : call.remoteRtp with
  | none => exact .noRemoteRtp hrtp
  | some remoteRtp =>
      by_cases hstate : call.state = .answered
      · simp only [if_pos hstate]
        cases ackSent with
        | false => exact .ackUnsent remoteRtp hrtp hstate rfl
        | true =>
            simp only [if_true, relayTo, hactive, BridgeNext.after]
            have hpoll : decide (call.state = .earlyMedia) = false := by
              simp [hstate]
            rw [hpoll]
            exact .acked _ remoteRtp hrtp hstate rfl rfl
      · simp only [if_neg hstate, relayTo, hactive]
        exact .unanswered _ remoteRtp _ hrtp hstate of_decide_eq_true rfl

theorem drainStep_draining {ρ : Type} {iterations drainedBytes : ℕ}
    {e : DrainEvent ρ} {drain' : Drain ρ} {dropped : List (List UInt8)}
    (h : drainStep (.draining iterations drainedBytes) e = some (drain', dropped))
    (he : ∀ result, e ≠ .setupDone result) :
    (∃ n d, drain' = .draining n d) ∨ (∃ error, drain' = .returned (.error error)) ∨
      ∃ why, drain' = .panicked why := by
  have hhead : ∀ d, (∃ n d', (drainHead iterations d : Drain ρ) = .draining n d') ∨
      (∃ error, (drainHead iterations d : Drain ρ) = .returned (.error error)) ∨
        ∃ why, (drainHead iterations d : Drain ρ) = .panicked why := by
    intro d
    by_cases hlimit : iterations < drainIterationsLimit
    · exact Or.inl ⟨_, _, drainHead_eq_draining d hlimit⟩
    · exact Or.inr (Or.inr (drainHead_eq_panicked d hlimit))
  cases e with
  | setupDone result => exact absurd rfl (he result)
  | slRead read =>
      cases read with
      | none =>
          simp only [drainStep, Option.some.injEq, Prod.mk.injEq] at h
          exact Or.inr (Or.inl ⟨_, h.1.symm⟩)
      | some data =>
          simp only [drainStep] at h
          split at h
          · simp only [Option.some.injEq, Prod.mk.injEq] at h
            exact Or.inr (Or.inl ⟨_, h.1.symm⟩)
          · simp only [Option.some.injEq, Prod.mk.injEq] at h
            exact h.1 ▸ hhead _
  | silenceTick written =>
      simp only [drainStep] at h
      split at h
      · simp only [Option.some.injEq, Prod.mk.injEq] at h
        exact h.1 ▸ hhead _
      · simp only [Option.some.injEq, Prod.mk.injEq] at h
        exact Or.inr (Or.inl ⟨_, h.1.symm⟩)

/-- A read or a tick during setup. -/
theorem drainedTo_stepped (config : Config) (calls : ℕ) (session : Session)
    (drain : Drain (Except InviteError Call)) (invite : InviteState)
    (e : BridgeEvent) (he : e.IsDrain) {drain' : Drain (Except InviteError Call)}
    (dropped : List (List UInt8))
    (hdrain : (∃ n d, drain' = .draining n d) ∨
      (∃ error, drain' = .returned (.error error)) ∨ ∃ why, drain' = .panicked why) :
    PhaseStepped config (.setup session drain invite) e
      (drainedTo calls session invite false drain').1
      (dropped.map .drained ++ (drainedTo calls session invite false drain').2) := by
  rcases hdrain with ⟨n, d, rfl⟩ | ⟨error, rfl⟩ | ⟨why, rfl⟩
  · simp only [drainedTo, List.append_nil]
    exact .drains session drain _ invite e dropped he ⟨n, d, rfl⟩
  · exact .drainFails session drain invite e dropped _ he (loopHead_parked calls)
  · exact .drainFails session drain invite e dropped _ he (.panicked why)

/-- A step of `invite` under the drain. -/
theorem invitedTo_stepped (config : Config) (calls : ℕ) (session : Session)
    (iterations drainedBytes : ℕ) (invite invite' : InviteState) (e : InviteEvent)
    (ackSent : Bool) (shown : List SipShown) (hsession : session.state = .originating)
    (hstep : InviteStepped config.client invite e invite' shown) :
    PhaseStepped config
      (.setup session (.draining iterations drainedBytes) invite) (.invite e ackSent)
      (invitedTo calls session (.draining iterations drainedBytes) ackSent invite').1
      (shown.map .sip ++
        (invitedTo calls session (.draining iterations drainedBytes) ackSent
          invite').2) := by
  have hmedia := transition_eq_ok .connectingMedia hsession rfl
  cases invite' with
  | returned result =>
      cases result with
      | error error =>
          exact .inviteFails session _ invite _ e ackSent shown _ hstep
            (Or.inl ⟨error, rfl⟩) (loopHead_parked calls)
      | ok call =>
          simp only [invitedTo, drainStep, drainedTo, hmedia]
          exact .inviteReturns session _ invite e ackSent shown call _ hstep
            (proceedWith_end rfl)
  | panicked why =>
      exact .inviteFails session _ invite _ e ackSent shown _ hstep
        (Or.inr ⟨why, rfl⟩) (.panicked why)
  | called args =>
      simp only [invitedTo, List.append_nil]
      exact .invites session _ invite _ e ackSent shown hstep (by simp) (by simp)
  | looping l =>
      simp only [invitedTo, List.append_nil]
      exact .invites session _ invite _ e ackSent shown hstep (by simp) (by simp)
  | receiving l =>
      simp only [invitedTo, List.append_nil]
      exact .invites session _ invite _ e ackSent shown hstep (by simp) (by simp)

/-- A poll of a call in early media. -/
theorem polledTo_stepped (config : Config) (session : Session) (call : Call)
    (relay : Relay) (datagram : Option Datagram) (ackSent : Bool)
    (hstate : call.state = .earlyMedia) :
    PhaseStepped config (.relaying session call true relay) (.poll datagram ackSent)
      (polledTo session call relay datagram ackSent).1
      (polledTo session call relay datagram ackSent).2 := by
  unfold polledTo
  rw [decide_eq_true hstate, assert_true]
  cases datagram with
  | none => exact .pollSilent session call relay ackSent
  | some data =>
      have hout := pollResponse_outcome call (fromUtf8Lossy data.val) ackSent
      cases hresponse : pollResponse call (fromUtf8Lossy data.val) ackSent with
      | error why =>
          rw [hresponse] at hout
          simp only [hresponse]
          exact .pollCrashes session call relay data ackSent why hout
      | ok out =>
          rw [hresponse] at hout
          simp only [hresponse]
          refine .polls session call relay data ackSent _ out.1 out.2 hout ?_
          split
          · next h => exact iff_of_true rfl h
          · next h => exact iff_of_false (by simp) h

theorem registeredTo_next (r : RegisterState) : RegisterNext (registeredTo r) := by
  cases r with
  | returned result =>
      cases result with
      | error error => exact .parked _ (.returned _)
      | ok _ => exact .ready
  | panicked why => exact .parked _ (.panicked why)
  | called => exact .running _
  | awaiting _ _ => exact .running _
  | looping _ => exact .running _
  | receiving _ => exact .running _

theorem phaseStep_stepped {config : Config} {calls : ℕ} {phase : Phase}
    {e : BridgeEvent} {out : BridgeNext} (hok : phase.Ok)
    (h : phaseStep config calls phase e = some out) :
    PhaseStepped config phase e out.1 out.2 := by
  unfold phaseStep at h
  split at h
  · next r e =>
    cases hstep : registerStep config.client r e with
    | none => simp [hstep] at h
    | some next =>
        simp only [hstep, Option.some.injEq] at h
        exact h ▸ .registers r e _ next.2 (registerStep_registering hstep)
          (registeredTo_next next.1)
  · next written =>
    cases written with
    | true =>
        simp only [if_true, Option.some.injEq] at h
        exact h ▸ .readied true _ (loopHead_parked calls)
    | false =>
        simp only [Bool.false_eq_true, if_false, Option.some.injEq] at h
        exact h ▸ .readied false _ (.returned _)
  · next dial session port sessionId =>
    cases port with
    | none =>
        simp only [Option.some.injEq] at h
        exact h ▸ .bindFails dial session none sessionId _ (.returned _)
    | some port =>
        simp only [Option.some.injEq] at h
        subst h
        unfold boundTo
        cases Sdp.buildOffer config.client.localIp port sessionId with
        | error why => exact .bindFails dial session _ sessionId _ (.panicked why)
        | ok sdpOffer => exact .binds dial session _ sessionId _
  · next session drain invite e ackSent =>
    obtain ⟨hsession, ⟨iterations, drainedBytes, rfl⟩, -⟩ := hok
    cases hstep : inviteStep config.client invite e with
    | none => simp [hstep] at h
    | some next =>
        simp only [hstep, Option.some.injEq] at h
        subst h
        exact invitedTo_stepped config calls session iterations drainedBytes invite
          next.1 e ackSent next.2 hsession (inviteStepped_of_step hstep)
  · next session drain invite read =>
    obtain ⟨-, ⟨iterations, drainedBytes, rfl⟩, -⟩ := hok
    cases hstep : drainStep
        (.draining iterations drainedBytes : Drain (Except InviteError Call))
        (.slRead read) with
    | none => simp [hstep] at h
    | some next =>
        simp only [hstep, Option.some.injEq] at h
        subst h
        exact drainedTo_stepped config calls session _ invite (.setupRead read) trivial
          next.2 (drainStep_draining hstep (by simp))
  · next session drain invite written =>
    obtain ⟨-, ⟨iterations, drainedBytes, rfl⟩, -⟩ := hok
    cases hstep : drainStep
        (.draining iterations drainedBytes : Drain (Except InviteError Call))
        (.silenceTick written) with
    | none => simp [hstep] at h
    | some next =>
        simp only [hstep, Option.some.injEq] at h
        subst h
        exact drainedTo_stepped config calls session _ invite (.setupTick written) trivial
          next.2 (drainStep_draining hstep (by simp))
  · next session call polling relay e =>
    cases hstep : relayStep relay e with
    | none => simp [hstep] at h
    | some next =>
        simp only [hstep, Option.some.injEq] at h
        exact h ▸ .relays session call polling relay next.1 e next.2 hstep
  · next session call relay datagram ackSent =>
    simp only [Option.some.injEq] at h
    exact h ▸ polledTo_stepped config session call relay datagram ackSent (hok.2.2 rfl)
  · next call after branchHash sent =>
    cases sent with
    | true =>
        simp only [if_true, Option.some.injEq] at h
        exact h ▸ .byes call after branchHash
    | false =>
        simp only [Bool.false_eq_true, if_false, Option.some.injEq] at h
        exact h ▸ .byeFails call after branchHash _ (byeDone_parked calls hok)
  · next call after datagram =>
    cases datagram with
    | none =>
        simp only [Option.some.injEq] at h
        exact h ▸ .byeSilent call after _ (byeDone_parked calls hok)
    | some data =>
        simp only [Option.some.injEq] at h
        exact h ▸ .byeAnswered call after data _ (byeDone_parked calls hok)
  · simp at h

/-- Every step of the bridge is one of the cases. -/
theorem phaseStepped_of_step {config : Config} {b b' : BridgeState} {e : BridgeEvent}
    {shown : List BridgeShown} (hok : b.phase.Ok)
    (h : (bridgeMachine config).step b e = some (b', shown)) :
    PhaseStepped config b.phase e b'.phase shown := by
  obtain ⟨calls, phase⟩ := b
  change bridgeStep config ⟨calls, phase⟩ e = some (b', shown) at h
  unfold bridgeStep at h
  split at h
  · next lineBuf e heq =>
    subst heq
    cases hwait : waitStep lineBuf e with
    | waiting lineBuf' =>
        simp only [hwait, Option.some.injEq, Prod.mk.injEq] at h
        obtain ⟨rfl, rfl⟩ := h
        exact .waits lineBuf e lineBuf'
    | closed =>
        simp only [hwait, Option.some.injEq, Prod.mk.injEq] at h
        obtain ⟨rfl, rfl⟩ := h
        exact .waitEnds lineBuf e _ (.returned _)
    | dialled ds tail =>
        simp only [hwait, Option.some.injEq, Prod.mk.injEq] at h
        obtain ⟨rfl, rfl⟩ := h
        exact dialledWith_stepped config lineBuf e (calls + 1) ds tail
  · next e _ _ heq =>
    cases hstep : phaseStep config calls phase e with
    | none => simp [hstep] at h
    | some next =>
        simp only [hstep, Option.some.injEq, Prod.mk.injEq] at h
        obtain ⟨rfl, rfl⟩ := h
        exact phaseStep_stepped hok hstep

/-! ## The invariant holds in every state -/

theorem Parked.ok {next : BridgeNext} (h : Parked next) : next.1.Ok := by
  cases h <;> trivial

theorem SetupEnd.ok {call : Call} {ackSent : Bool} {next : BridgeNext}
    (h : SetupEnd call ackSent next) : next.1.Ok := by
  cases h with
  | noRemoteRtp _ => trivial
  | ackUnsent _ _ _ _ => trivial
  | acked session remoteRtp hrtp hstate hack hsession =>
      exact ⟨hsession, ⟨_, rfl⟩, by simp⟩
  | unanswered session remoteRtp polling hrtp hstate hpolling hsession =>
      exact ⟨hsession, ⟨_, rfl⟩, hpolling⟩

/-- While `invite` runs its call has no endpoint and no answer. -/
theorem inviteUnderWay_of_stepped {client : SipClient} {s s' : InviteState}
    {e : InviteEvent} {shown : List SipShown} (hs : InviteUnderWay s)
    (h : InviteStepped client s e s' shown) (hreturned : ∀ result, s' ≠ .returned result)
    (hpanicked : ∀ why, s' ≠ .panicked why) : InviteUnderWay s' := by
  cases h with
  | start args ids =>
      have hout := inviteStart_outcome client args ids
      generalize inviteStart client args ids = out at hreturned hpanicked hout ⊢
      cases hout with
      | undialable why hdial => exact absurd rfl (hpanicked why)
      | unsent hsent => exact absurd rfl (hreturned _)
      | overflowed _ _ => exact absurd rfl (hpanicked _)
      | sent hsent _ => exact ⟨rfl, rfl⟩
  | head l inputs =>
      have hout := inviteHead_outcome l inputs
      generalize inviteHead l inputs = out at hreturned hpanicked hout ⊢
      cases hout with
      | exceeded why _ => exact absurd rfl (hpanicked why)
      | timedOut _ => exact absurd rfl (hreturned _)
      | retransmitted _ _ => exact hs
      | unsent _ _ => exact absurd rfl (hreturned _)
      | quiet _ => exact hs
  | silent l inputs => exact hs
  | response l data inputs next shown hresponse =>
      cases hresponse with
      | unparsed _ => exact hs
      | stale _ _ _ => exact hs
      | admitted status _ _ hdispatch =>
          cases hdispatch with
          | trying _ => exact hs
          | ringing _ _ => exact hs
          | earlyMedia _ _ _ => exact absurd rfl (hreturned _)
          | answered _ => exact absurd rfl (hreturned _)
          | rejected _ _ _ => exact absurd rfl (hreturned _)
          | rejectedUnsent _ _ _ => exact absurd rfl (hreturned _)
          | unexpected _ => exact hs
          | challenged _ _ hchallenge =>
              cases hchallenge with
              | again _ => exact absurd rfl (hreturned _)
              | unusable _ _ _ _ => exact absurd rfl (hreturned _)
              | ackUnsent _ _ _ _ _ => exact absurd rfl (hreturned _)
              | retryUnsent _ _ _ _ _ _ => exact absurd rfl (hreturned _)
              | retried _ _ _ _ _ _ => exact hs
  | crash l data inputs why hresponse => exact absurd rfl (hpanicked why)

/-- A call that is set up stays the call of the phase. -/
theorem SetupEnd.call_eq {call call' : Call} {ackSent : Bool} {next : BridgeNext}
    (h : SetupEnd call ackSent next) (hcall : next.1.call = some call') :
    call' = call := by
  cases h with
  | noRemoteRtp _ => simpa [Phase.call] using hcall.symm
  | ackUnsent _ _ _ _ => simp [Phase.call] at hcall
  | acked _ _ _ _ _ _ => simpa [Phase.call] using hcall.symm
  | unanswered _ _ _ _ _ _ _ => simpa [Phase.call] using hcall.symm

/-- So does the call of a relay. -/
theorem relayedTo_call_eq {session : Session} {call call' : Call} {polling : Bool}
    {relay : Relay} (hcall : (relayedTo session call polling relay).call = some call') :
    call' = call := by
  cases relay with
  | running loops => simpa [relayedTo, Phase.call] using hcall.symm
  | returned result =>
      cases result <;> simpa [relayedTo, Phase.call] using hcall.symm
  | panicked why => simp [relayedTo, Phase.call] at hcall

theorem Parked.call_eq {next : BridgeNext} (h : Parked next) : next.1.call = none := by
  cases h <;> rfl

theorem PhaseStepped.ok {config : Config} {phase phase' : Phase} {e : BridgeEvent}
    {shown : List BridgeShown} (hok : phase.Ok)
    (h : PhaseStepped config phase e phase' shown) : phase'.Ok := by
  cases h with
  | registers r e next shown hshown hnext =>
      cases hnext with
      | running r => trivial
      | ready => trivial
      | parked _ hnext => exact hnext.ok
  | readied written next hnext => exact hnext.ok
  | waits lineBuf e lineBuf' => trivial
  | waitEnds lineBuf e next hnext => exact hnext.ok
  | dials lineBuf e dial session tail hsession => exact hsession
  | binds dial session port sessionId args =>
      exact ⟨hok, ⟨1, 0, drainHead_eq_draining 0 (by decide)⟩, trivial⟩
  | bindFails dial session port sessionId next hnext => exact hnext.ok
  | invites session drain invite invite' e ackSent shown hstep hreturned hpanicked =>
      exact ⟨hok.1, hok.2.1, inviteUnderWay_of_stepped hok.2.2 hstep hreturned hpanicked⟩
  | inviteFails _ _ _ _ _ _ _ next _ _ hnext => exact hnext.ok
  | inviteReturns _ _ _ _ _ _ _ next _ hnext => exact hnext.ok
  | drains session drain drain' invite e dropped he hdrain =>
      exact ⟨hok.1, hdrain, hok.2.2⟩
  | drainFails _ _ _ _ _ next _ hnext => exact hnext.ok
  | relays session call polling relay relay' e shown hstep =>
      cases relay' with
      | running loops => exact ⟨hok.1, ⟨loops, rfl⟩, hok.2.2⟩
      | returned result =>
          cases result with
          | error error => trivial
          | ok totals => exact hok.1
      | panicked why => trivial
  | pollSilent session call relay ackSent => exact hok
  | polls session call relay data ackSent polling polled acks hresponse hpolling =>
      refine ⟨hok.1, hok.2.1, ?_⟩
      intro htrue
      rcases hresponse.silent_or_answered with ⟨-, hcall, -⟩ | ⟨-, -, -, hdone, -⟩
      · rw [hcall]
        exact hok.2.2 rfl
      · exact absurd (hpolling.mp htrue) hdone
  | pollCrashes _ _ _ _ _ _ _ => trivial
  | byes call after branchHash => exact hok
  | byeFails _ _ _ next hnext => exact hnext.ok
  | byeSilent _ _ next hnext => exact hnext.ok
  | byeAnswered _ _ _ next hnext => exact hnext.ok

/-- The bridge starts where the invariant holds. -/
theorem bridgeStart_ok : bridgeStart.phase.Ok := trivial

/-- A step from the invariant is one of the cases and keeps it. -/
theorem bridgeStep_ok {config : Config} {b b' : BridgeState} {e : BridgeEvent}
    {shown : List BridgeShown} (hok : b.phase.Ok)
    (h : (bridgeMachine config).step b e = some (b', shown)) :
    PhaseStepped config b.phase e b'.phase shown ∧ b'.phase.Ok :=
  ⟨phaseStepped_of_step hok h, (phaseStepped_of_step hok h).ok hok⟩

end SlmodemSipBridge.Bridge
