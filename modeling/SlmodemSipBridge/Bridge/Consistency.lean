import SlmodemSipBridge.Bridge.Steps

/-!
# The state of a call, from the client to the bridge

`invite` returns a call in one of two shapes, each owed to the response that
ended its loop.  `run` relies on them: it polls a call in early media only, it
moves its session on without a check of its own, and it gives up a call
without an endpoint as an answered one.
-/

namespace SlmodemSipBridge.Bridge

open Rust Sdp Transition Media Rtp Sip

/-! ## The response that sets a call up -/

/-- The response has an SDP that is accepted, with this endpoint. -/
def Offers (resp : Str) (endpoint : SocketAddr) : Prop :=
  ∃ sdp answer, extractSdpBody resp = .ok (some sdp) ∧
    parseAnswer sdp = .ok (.ok answer) ∧ endpoint = ⟨answer.addr, answer.port⟩

theorem offers_iff {resp : Str} {endpoint : SocketAddr} :
    Offers resp endpoint ↔ acceptedEndpoint resp = some endpoint := by
  have hread := sdpEndpoint_eq resp
  obtain ⟨body, hbody⟩ := extractSdpBody_total resp
  unfold Offers
  simp only [sdpEndpoint, hbody, bind, Except.bind] at hread
  cases body with
  | none =>
      simp only [pure, Except.pure, Except.ok.injEq] at hread
      simp [hbody, ← hread]
  | some sdp =>
      obtain ⟨parsed, hparsed⟩ := parseAnswer_total sdp
      simp only [hparsed] at hread
      cases parsed with
      | error error =>
          simp only [pure, Except.pure, Except.ok.injEq] at hread
          simp [hbody, hparsed, ← hread]
      | ok answer =>
          simp only [pure, Except.pure, Except.ok.injEq] at hread
          simp [hbody, hparsed, ← hread, eq_comm]

/-- How a response leaves the call that it sets up. -/
inductive SetUpBy (resp : Str) (call : Call) : Prop where
  /-- A 180 or 183 whose SDP is accepted. -/
  | earlyMedia (status : ℕ) (endpoint : SocketAddr)
      (hstatus : parseStatusCode resp = some status)
      (hprovisional : status = 180 ∨ status = 183)
      (hstate : call.state = .earlyMedia) (hrtp : call.remoteRtp = some endpoint)
      (hoffers : Offers resp endpoint) : SetUpBy resp call
  /-- A 200, with its own endpoint or none. -/
  | answered (hstatus : parseStatusCode resp = some 200)
      (hstate : call.state = .answered)
      (hrtp : ∀ endpoint, call.remoteRtp = some endpoint ↔ Offers resp endpoint) :
      SetUpBy resp call

/-- The last response read passes the filter and sets the call up. -/
def SetUpByLast (call : Call) (trace : List SipShown) : Prop :=
  ∃ before heard resp after, trace = before ++ .read heard resp :: after ∧
    (∀ o ∈ after, ∀ heard' resp', o ≠ .read heard' resp') ∧
    isStale call.cseq resp = .ok false ∧ SetUpBy resp call

/-- A response that sets the call of a loop without endpoint up. -/
theorem setUpByLast_of_accepted {l : InviteLoop} {resp : Str} {call : Call}
    {rest : List SipShown} (hnone : l.call.remoteRtp = none)
    (h : AcceptedBy l resp call rest) :
    SetUpByLast call (.read (some l.call) resp :: rest) := by
  cases h with
  | earlyMedia status endpoint hadmitted hstatus hsome =>
      refine ⟨[], some l.call, resp, [], rfl, by simp, hadmitted.fresh, ?_⟩
      exact .earlyMedia status endpoint hadmitted.status_eq hstatus rfl rfl
        (offers_iff.mpr hsome)
  | answered hadmitted =>
      refine ⟨[], some l.call, resp, _, rfl, by simp, hadmitted.fresh, ?_⟩
      apply SetUpBy.answered hadmitted.status_eq rfl
      intro endpoint
      rw [offers_iff, Call.answeredBy, Call.tagged, hnone, Option.or_none]

theorem SetUpByLast.append {call : Call} {trace : List SipShown}
    (h : SetUpByLast call trace) (shown : List SipShown) :
    SetUpByLast call (shown ++ trace) := by
  obtain ⟨before, heard, resp, after, rfl, hlast, hfresh, hsetUp⟩ := h
  exact ⟨shown ++ before, heard, resp, after, (List.append_assoc _ _ _).symm, hlast,
    hfresh, hsetUp⟩

theorem inviteStep_of_returned {client : SipClient} (result : Except InviteError Call)
    (e : InviteEvent) : (inviteMachine client).step (.returned result) e = none := by
  cases e <;> rfl

theorem inviteStep_of_panicked {client : SipClient} (why : Panic) (e : InviteEvent) :
    (inviteMachine client).step (.panicked why) e = none := by
  cases e <;> rfl

/-- While `invite` is under way its call has neither endpoint nor answer, so the
response that ends it settles both. -/
theorem setUpByLast_of_run {client : SipClient} {s : InviteState}
    (hs : InviteUnderWay s) {events : List InviteEvent} {call : Call}
    {trace : List SipShown}
    (hrun : (inviteMachine client).run s events = some (.returned (.ok call), trace)) :
    SetUpByLast call trace := by
  induction events generalizing s trace with
  | nil =>
      obtain ⟨rfl, -⟩ := (inviteMachine client).run_nil_eq_some_iff.mp hrun
      exact hs.elim
  | cons e events ih =>
      obtain ⟨s', shown, later, hstep, hrest, rfl⟩ :=
        (inviteMachine client).run_cons_eq_some_iff.mp hrun
      have hstepped := inviteStepped_of_step hstep
      by_cases hreturned : ∃ result, s' = .returned result
      · obtain ⟨result, rfl⟩ := hreturned
        obtain ⟨hend, rfl⟩ :=
          (inviteMachine client).run_of_halted (inviteStep_of_returned result) hrest
        rw [InviteState.returned.injEq] at hend
        subst hend
        obtain ⟨l, data, inputs, rest, rfl, rfl, hresponse, rfl⟩ :=
          response_of_returned hstepped rfl
        rw [List.append_nil]
        exact setUpByLast_of_accepted hs.1 (acceptedBy_of_outcome hresponse)
      by_cases hpanicked : ∃ why, s' = .panicked why
      · obtain ⟨why, rfl⟩ := hpanicked
        obtain ⟨hend, -⟩ :=
          (inviteMachine client).run_of_halted (inviteStep_of_panicked why) hrest
        simp at hend
      have hs' := inviteUnderWay_of_stepped hs hstepped (not_exists.mp hreturned)
        (not_exists.mp hpanicked)
      exact (ih hs' hrest).append shown

/-! ## The transitions of the session -/

/-- No transition of the session was refused. -/
def Phase.Moved (phase : Phase) : Prop :=
  ∀ error, phase ≠ .returned (.error (.session error))

theorem loopHead_moved (calls : ℕ) : (loopHead calls).1.Moved := by
  intro error
  rcases loopHead_cases calls with hwaits | ⟨why, hpanics⟩
  · simp [hwaits]
  · simp [hpanics]

theorem registeredTo_moved (r : RegisterState) : (registeredTo r).1.Moved := by
  unfold registeredTo
  intro error
  split <;> simp [stopWith, panicWith]

theorem dialledWith_moved (calls : ℕ) (ds : Str) (tail : List UInt8) :
    (dialledWith calls ds tail).1.Moved := by
  unfold dialledWith
  cases DialString.parse ds with
  | error error => exact loopHead_moved calls
  | ok dial =>
      have hsession : (Session.new dial.text).transition .originating =
          .ok { Session.new dial.text with state := .originating } :=
        transition_eq_ok .originating rfl rfl
      simp [hsession, Phase.Moved]

theorem boundTo_moved (config : Config) (dial : DialString) (session : Session)
    (port : UInt16) (sessionId : ℕ) :
    (boundTo config dial session port sessionId).1.Moved := by
  unfold boundTo
  intro error
  split <;> simp [panicWith]

theorem SetupEnd.moved {call : Call} {ackSent : Bool} {next : BridgeNext}
    (h : SetupEnd call ackSent next) : next.1.Moved := by
  cases h <;> simp [Phase.Moved]

theorem drainedTo_moved (calls : ℕ) {session : Session} (invite : InviteState)
    (ackSent : Bool) (drain : Drain (Except InviteError Call))
    (hsession : session.state = .originating) :
    (drainedTo calls session invite ackSent drain).1.Moved := by
  have hmedia := transition_eq_ok .connectingMedia hsession rfl
  unfold drainedTo
  split
  · simp [panicWith, Phase.Moved]
  · simp only [hmedia]
    exact (proceedWith_end rfl).moved
  · exact loopHead_moved calls
  · simp [Phase.Moved]

theorem invitedTo_moved (calls : ℕ) {session : Session}
    (drain : Drain (Except InviteError Call)) (ackSent : Bool) (invite : InviteState)
    (hsession : session.state = .originating) :
    (invitedTo calls session drain ackSent invite).1.Moved := by
  unfold invitedTo
  split
  · simp [panicWith, Phase.Moved]
  · split
    · exact drainedTo_moved calls _ ackSent _ hsession
    · simp [Phase.Moved]
  · simp [Phase.Moved]

theorem relayedTo_moved (session : Session) (call : Call) (polling : Bool)
    (relay : Relay) : (relayedTo session call polling relay).Moved := by
  unfold relayedTo
  intro error
  split <;> simp

theorem polledTo_moved (session : Session) (call : Call) (relay : Relay)
    (datagram : Option Datagram) (ackSent : Bool) :
    (polledTo session call relay datagram ackSent).1.Moved := by
  unfold polledTo
  intro error
  split
  · simp [panicWith]
  · cases datagram with
    | none => simp
    | some data =>
        cases hresponse : pollResponse call (fromUtf8Lossy data.val) ackSent <;>
          simp [hresponse, panicWith, BridgeNext.after]

theorem byeDone_moved (calls : ℕ) {next : AfterBye} (hnext : next.Ok) :
    (byeDone calls next).1.Moved := by
  cases next with
  | noRemoteRtp => exact loopHead_moved calls
  | relayFailed error => simp [byeDone, stopWith, Phase.Moved]
  | teardown session =>
      have hfirst := transition_eq_ok .terminating hnext rfl
      have hsecond : Session.transition { session with state := .terminating } .terminated =
          .ok { session with state := .terminated } := transition_eq_ok .terminated rfl rfl
      simp only [byeDone, hfirst, hsecond]
      exact loopHead_moved calls

/-- An end that is not for a transition. -/
theorem stopWith_moved {failure : BridgeError} (h : ∀ error, failure ≠ .session error) :
    (stopWith (.error failure)).1.Moved := by
  intro error
  simpa [stopWith] using h error

/-- What the step leads to is what it is said to lead to. -/
theorem moved_of_some_eq {next out : BridgeNext} (h : some next = some out)
    (hnext : next.1.Moved) : out.1.Moved := by
  rw [Option.some.injEq] at h
  exact h ▸ hnext

theorem phaseStep_moved {config : Config} {calls : ℕ} {phase : Phase}
    {e : BridgeEvent} {out : BridgeNext} (hok : phase.Ok)
    (h : phaseStep config calls phase e = some out) : out.1.Moved := by
  unfold phaseStep at h
  split at h
  · split at h
    · simp at h
    · exact moved_of_some_eq h (registeredTo_moved _)
  · split at h
    · exact moved_of_some_eq h (loopHead_moved calls)
    · exact moved_of_some_eq h (stopWith_moved (by simp))
  · split at h
    · exact moved_of_some_eq h (stopWith_moved (by simp))
    · exact moved_of_some_eq h (boundTo_moved config _ _ _ _)
  · split at h
    · simp at h
    · exact moved_of_some_eq h (invitedTo_moved calls _ _ _ hok.1)
  · split at h
    · simp at h
    · exact moved_of_some_eq h (drainedTo_moved calls _ _ _ hok.1)
  · split at h
    · simp at h
    · exact moved_of_some_eq h (drainedTo_moved calls _ _ _ hok.1)
  · split at h
    · simp at h
    · exact moved_of_some_eq h (relayedTo_moved _ _ _ _)
  · exact moved_of_some_eq h (polledTo_moved _ _ _ _ _)
  · split at h
    · rw [Option.some.injEq] at h
      subst h
      simp [Phase.Moved]
    · exact moved_of_some_eq h (byeDone_moved calls hok)
  · split at h
    · exact moved_of_some_eq h (byeDone_moved calls hok)
    · exact moved_of_some_eq h (byeDone_moved calls hok)
  · simp at h

theorem bridgeStep_moved {config : Config} {b b' : BridgeState} {e : BridgeEvent}
    {shown : List BridgeShown} (hok : b.phase.Ok)
    (h : (bridgeMachine config).step b e = some (b', shown)) : b'.phase.Moved := by
  change bridgeStep config b e = some (b', shown) at h
  unfold bridgeStep at h
  split at h
  · split at h
    · rw [Option.some.injEq, Prod.mk.injEq] at h
      rw [← h.1]
      simp [Phase.Moved]
    · rw [Option.some.injEq, Prod.mk.injEq] at h
      rw [← h.1]
      simp [Phase.Moved]
    · rw [Option.some.injEq, Prod.mk.injEq] at h
      rw [← h.1]
      exact dialledWith_moved _ _ _
  · split at h
    · simp at h
    · next next shown' hstep =>
      rw [Option.some.injEq, Prod.mk.injEq] at h
      rw [← h.1]
      exact phaseStep_moved hok hstep

/-! ## The calls of a run -/

/-- A call given up for want of an endpoint is answered. -/
def Phase.Dropped : Phase → Prop
  | .hangingUp call .noRemoteRtp => call.state = .answered
  | .byeSent call .noRemoteRtp => call.state = .answered
  | _ => True

theorem Parked.dropped {next : BridgeNext} (h : Parked next) : next.1.Dropped := by
  cases h <;> trivial

/-- Only an answered call is set up without an endpoint. -/
theorem SetupEnd.dropped {call : Call} {ackSent : Bool} {next : BridgeNext} {l : InviteLoop}
    {resp : Str} {rest : List SipShown} (haccepted : AcceptedBy l resp call rest)
    (h : SetupEnd call ackSent next) : next.1.Dropped := by
  cases h with
  | noRemoteRtp hrtp =>
      cases haccepted with
      | earlyMedia status endpoint _ _ _ => simp at hrtp
      | answered hadmitted => exact rfl
  | ackUnsent _ _ _ _ => trivial
  | acked _ _ _ _ _ _ => trivial
  | unanswered _ _ _ _ _ _ _ => trivial

theorem relayedTo_dropped (session : Session) (call : Call) (polling : Bool)
    (relay : Relay) : (relayedTo session call polling relay).Dropped := by
  unfold relayedTo
  split <;> trivial

theorem PhaseStepped.dropped {config : Config} {phase phase' : Phase} {e : BridgeEvent}
    {shown : List BridgeShown} (hdropped : phase.Dropped)
    (h : PhaseStepped config phase e phase' shown) : phase'.Dropped := by
  cases h with
  | registers r e next shown hshown hnext =>
      cases hnext with
      | running r => trivial
      | ready => trivial
      | parked _ hnext => exact hnext.dropped
  | readied written next hnext => exact hnext.dropped
  | waits lineBuf e lineBuf' => trivial
  | waitEnds lineBuf e next hnext => exact hnext.dropped
  | dials lineBuf e dial session tail hsession => trivial
  | binds dial session port sessionId args => trivial
  | bindFails dial session port sessionId next hnext => exact hnext.dropped
  | invites session drain invite invite' e ackSent shown hstep hreturned hpanicked => trivial
  | inviteFails _ _ _ _ _ _ _ next _ _ hnext => exact hnext.dropped
  | inviteReturns session drain invite e ackSent shown call next hstep hnext =>
      obtain ⟨l, data, inputs, rest, -, -, hresponse, -⟩ := response_of_returned hstep rfl
      exact hnext.dropped (acceptedBy_of_outcome hresponse)
  | drains session drain drain' invite e dropped he hdrain => trivial
  | drainFails _ _ _ _ _ next _ hnext => exact hnext.dropped
  | relays session call polling relay relay' e shown hstep =>
      exact relayedTo_dropped session call polling relay'
  | pollSilent session call relay ackSent => trivial
  | polls session call relay data ackSent polling polled acks hresponse hpolling => trivial
  | pollCrashes _ _ _ _ _ _ _ => trivial
  | byes call after branchHash =>
      cases after with
      | noRemoteRtp => exact hdropped
      | relayFailed error => trivial
      | teardown session => trivial
  | byeFails _ _ _ next hnext => exact hnext.dropped
  | byeSilent _ _ next hnext => exact hnext.dropped
  | byeAnswered _ _ _ next hnext => exact hnext.dropped

/-- What `run` relies on, wherever it is. -/
structure Phase.Consistent (phase : Phase) : Prop where
  /-- The assertion of `poll_answer` holds wherever it may be reached. -/
  polled : ∀ session call relay, phase = .relaying session call true relay →
    call.state = .earlyMedia
  /-- No transition of the session was refused. -/
  moved : ∀ error, phase ≠ .returned (.error (.session error))
  /-- The exit for want of an endpoint is taken for answered calls. -/
  dropped : ∀ call, phase = .hangingUp call .noRemoteRtp → call.state = .answered

/-- The states of calls and sessions, over every run of the client and of the bridge. -/
theorem bridge_callsConsistent (config : Config) :
    (∀ (args : InviteArgs) (events : List InviteEvent) (call : Call)
        (trace : List SipShown),
      (inviteMachine config.client).run (.called args) events =
          some (.returned (.ok call), trace) →
        SetUpByLast call trace) ∧
      ∀ (events : List BridgeEvent) (b : BridgeState) (trace : List BridgeShown),
        (bridgeMachine config).run bridgeStart events = some (b, trace) →
          b.phase.Consistent := by
  constructor
  · intro args events call trace hrun
    have hstart : InviteUnderWay (.called args) := trivial
    exact setUpByLast_of_run hstart hrun
  · intro events b trace hrun
    have hinvariant : b.phase.Ok ∧ b.phase.Moved ∧ b.phase.Dropped := by
      apply (bridgeMachine config).invariant_of_step
        (I := fun b => b.phase.Ok ∧ b.phase.Moved ∧ b.phase.Dropped) ?_ ?_ hrun
      · rintro b e b' shown ⟨hok, -, hdropped⟩ hstep
        obtain ⟨hstepped, hok'⟩ := bridgeStep_ok hok hstep
        exact ⟨hok', bridgeStep_moved hok hstep, hstepped.dropped hdropped⟩
      · exact ⟨bridgeStart_ok, by simp [bridgeStart, Phase.Moved], trivial⟩
    obtain ⟨hok, hmoved, hdropped⟩ := hinvariant
    refine ⟨?_, hmoved, ?_⟩
    · intro session call relay hphase
      rw [hphase] at hok
      exact hok.2.2 rfl
    · intro call hphase
      rw [hphase] at hdropped
      exact hdropped

/-- `invite` of a call whose early media comes at once. -/
def earlyMediaAtOnce : List InviteEvent :=
  [.start trunkStart, .head (headAt 0), .received (some trunkEarlyMedia) answerInputs]

theorem bridge_callsConsistent_ringing :
    (∃ call trace,
      (inviteMachine trunkClient).run (.called trunkArgs) earlyMediaAtOnce =
          some (.returned (.ok call), trace) ∧
        call.state = .earlyMedia ∧ SetUpByLast call trace) ∧
      ∃ b trace,
        (bridgeMachine trunkConfig).run bridgeStart trunkRinging = some (b, trace) ∧
          b.phase.call.map Call.state = some .earlyMedia ∧ b.phase.Consistent := by
  obtain ⟨hinvite, hbridge⟩ := bridge_callsConsistent trunkConfig
  constructor
  · have hreturned :
        ((inviteMachine trunkClient).run (.called trunkArgs) earlyMediaAtOnce).bind
          (fun end_ => end_.1.returnedCall.map Call.state) = some .earlyMedia := by
      decide +kernel
    obtain ⟨⟨t, trace⟩, hrun, hstate⟩ := Option.bind_eq_some_iff.mp hreturned
    obtain ⟨call, hcall, hearly⟩ := Option.map_eq_some_iff.mp hstate
    obtain rfl := returnedCall_eq_some_iff.mp hcall
    exact ⟨call, trace, hrun, hearly, hinvite trunkArgs _ call trace hrun⟩
  · have hringing :
        ((bridgeMachine trunkConfig).run bridgeStart trunkRinging).map
          (fun end_ => end_.1.phase.call.map Call.state) = some (some .earlyMedia) := by
      decide +kernel
    obtain ⟨⟨b, trace⟩, hrun, hstate⟩ := Option.map_eq_some_iff.mp hringing
    exact ⟨b, trace, hrun, hstate, hbridge _ b trace hrun⟩

end SlmodemSipBridge.Bridge
