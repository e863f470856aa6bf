import SlmodemSipBridge.Bridge.Steps
import SlmodemSipBridge.Media.Hangup
import SlmodemSipBridge.Sip.Registration

/-!
# The bridge as a user agent client

What a user agent client may do that registers once and then makes one call after
another, as an automaton over what the bridge shows: which request may follow
which, with which numbers and identifiers, and when media may flow.  Every run of
the bridge keeps to it, however `invite`, the drain, the relay and the polls are
interleaved.
-/

namespace SlmodemSipBridge.Bridge

open Rust Transition Media Rtp Sip

/-! ## The user agent -/

/-- How far a call is confirmed: it is not answered, its answer wants an ACK, or it
has been acknowledged. -/
inductive Confirmation where
  | early
  | answered (call : Call)
  | acked (call : Call)

/-- Where a user agent is.  `first` is the first INVITE of the call and `latest` the
one that awaits a response; `remote` is where the media goes. -/
inductive AgentState where
  | opening
  | registering (request : RegisterRequest)
  | registered
  | idle
  | dialled
  | inviting (first latest : InviteRequest)
  | challenged (first : InviteRequest)
  | established (latest : InviteRequest) (remote : Option SocketAddr)
      (confirmation : Confirmation)
  | ended (latest : InviteRequest)
  | stopped

/-- The call has the identifiers of an INVITE and is in its transaction. -/
structure CallOf (latest : InviteRequest) (call : Call) : Prop where
  callId : call.callId = latest.callId
  localTag : call.localTag = latest.localTag
  cseq : call.cseq = latest.cseq
  branch : call.viaBranch = latest.branch
  uri : call.inviteUri = latest.uri

/-- A confirmed call is the one that was answered. -/
def Confirmation.Of (call : Call) : Confirmation → Prop
  | .early => True
  | .answered call' => call' = call
  | .acked call' => call' = call

/-- The second REGISTER: the first one with credentials, in a new transaction. -/
structure AuthorizedRegister (first second : RegisterRequest) : Prop where
  unauthorized : first.auth = none
  authorized : second.auth.isSome = true
  cseq : second.cseq = first.cseq + 1
  callId : second.callId = first.callId
  tag : second.tag = first.tag

/-- The second INVITE: the first one with credentials, in a new transaction. -/
structure AuthorizedInvite (first second : InviteRequest) : Prop where
  unauthorized : first.auth = none
  authorized : second.auth.isSome = true
  cseq : second.cseq = first.cseq + 1
  callId : second.callId = first.callId
  localTag : second.localTag = first.localTag
  uri : second.uri = first.uri
  sdp : second.sdp = first.sdp

/-- The endpoint that a provisional response to the INVITE in progress offers. -/
def earlyOffer (cseq : ℕ) (resp : Str) : Option SocketAddr :=
  if (parseStatusCode resp = some 180 ∨ parseStatusCode resp = some 183) ∧
      isStale cseq resp = .ok false then acceptedEndpoint resp
  else none

/-- The user agent after an observation. -/
def AgentState.next : AgentState → BridgeShown → AgentState
  | _, .stopped => .stopped
  | _, .waiting => .idle
  | _, .dialled _ => .dialled
  | _, .sip (.sent _ (.register request)) => .registering request
  | .registering request, .sip (.read _ resp) =>
      if parseStatusCode resp = some 200 then .registered else .registering request
  | .inviting first latest, .sip (.read _ resp) =>
      match earlyOffer latest.cseq resp with
      | some remote => .established latest (some remote) .early
      | none => .inviting first latest
  | .inviting first _, .sip (.sent .challengeAck _) => .challenged first
  | .inviting _ latest, .sip (.sent .errorAck _) => .ended latest
  | .inviting _ latest, .sip (.answered call _) =>
      .established latest call.remoteRtp (.answered call)
  | .challenged first, .sip (.sent .authInvite (.invite invite)) => .inviting first invite
  | .established latest remote _, .sip (.answered call _) =>
      .established latest remote (.answered call)
  | .established latest remote _, .sip (.sent _ (.ack call)) =>
      .established latest remote (.acked call)
  | .established latest _ _, .sip (.sent .bye _) => .ended latest
  | .dialled, .sip (.sent _ (.invite invite)) => .inviting invite invite
  | q, _ => q

/-- What the user agent may show. -/
def AgentState.allows : AgentState → BridgeShown → Prop
  | .stopped, _ => False
  | _, .stopped => True
  | .opening, .sip (.sent .register (.register request)) =>
      request.cseq = 1 ∧ request.auth = none
  | .registering _, .sip (.read none _) => True
  | .registering first, .sip (.sent .registerAuth (.register second)) =>
      AuthorizedRegister first second
  | .registered, .sip (.read none _) => True
  | .registered, .waiting => True
  | .idle, .waiting => True
  | .idle, .dialled _ => True
  | .dialled, .sip (.sent .invite (.invite invite)) => invite.cseq = 1 ∧ invite.auth = none
  | .dialled, .drained _ => True
  | .dialled, .waiting => True
  | .inviting _ latest, .sip (.read (some call) _) => CallOf latest call
  | .inviting first _, .sip (.sent .retransmit (.invite invite)) => invite = first
  | .inviting first latest, .sip (.sent .challengeAck (.ack call)) =>
      latest = first ∧ CallOf latest call
  | .inviting _ latest, .sip (.sent .errorAck (.ack call)) => CallOf latest call
  | .inviting _ latest, .sip (.answered call _) => CallOf latest call
  | .inviting _ _, .drained _ => True
  | .inviting _ _, .waiting => True
  | .challenged first, .sip (.sent .authInvite (.invite invite)) =>
      AuthorizedInvite first invite
  | .challenged _, .waiting => True
  | .established latest _ _, .sip (.read (some call) _) => CallOf latest call
  | .established latest _ .early, .sip (.answered call _) => CallOf latest call
  | .established _ (some _) (.answered call), .sip (.sent .answerAck (.ack call')) =>
      call' = call
  | .established _ (some _) (.answered call), .sip (.sent .pollAck (.ack call')) =>
      call' = call
  | .established _ (some remote) _, .media (.packet _ endpoint) => endpoint = remote
  | .established _ (some _) _, .media _ => True
  | .established latest _ confirmation, .sip (.sent .bye (.bye call _)) =>
      CallOf latest call ∧ confirmation.Of call
  | .established _ _ _, .waiting => True
  | .ended latest, .sip (.read (some call) _) => CallOf latest call
  | .ended _, .waiting => True
  | _, _ => False

/-- The user agent as a monitor. -/
def userAgent : Monitor AgentState BridgeShown where
  next := AgentState.next
  allows := AgentState.allows

/-! ## Where the bridge is as a user agent -/

/-- The user agent may wait for a call. -/
def AgentState.Settled (q : AgentState) : Prop := q.allows .waiting ∧ q.allows .stopped

/-- The user agent awaits a response to the INVITE of a loop. -/
def Awaits (l : InviteLoop) (q : AgentState) : Prop :=
  ∃ latest, q = .inviting l.invite latest ∧ CallOf latest l.call ∧
    l.invite.auth = none ∧ l.invite.cseq = 1 ∧ (l.authRetryDone = false → latest = l.invite)

/-- The user agent has the call, which is confirmed as far as its state says. -/
def HasCall (call : Call) (q : AgentState) : Prop :=
  ∃ latest confirmation, q = .established latest call.remoteRtp confirmation ∧
    CallOf latest call ∧
    (call.state = .answered → confirmation = .answered call) ∧
    (call.state ≠ .answered → confirmation = .early)

/-- Where `register` is as a user agent. -/
def Registers : RegisterState → AgentState → Prop
  | .called, q => q = .opening
  | .awaiting callId tag, q => ∃ request, q = .registering request ∧
      request.callId = callId ∧ request.tag = tag ∧ request.cseq = 1 ∧ request.auth = none
  | .returned (.ok ()), q => q = .registered
  | .returned (.error _), q => q.allows .stopped
  | .panicked _, q => q.allows .stopped
  | _, q => q = .registered ∨ ∃ request, q = .registering request

/-- Where `invite` is as a user agent. -/
def Invites : InviteState → AgentState → Prop
  | .called _, q => q = .dialled
  | .looping l, q => Awaits l q
  | .receiving l, q => Awaits l q
  | .returned (.ok call), q => HasCall call q
  | .returned (.error _), q => q.Settled
  | .panicked _, q => q.Settled

/-- Where the bridge is as a user agent. -/
def Follows : Phase → AgentState → Prop
  | .registering r, q => Registers r q
  | .ready, q => q = .registered
  | .waiting _, q => q = .idle
  | .binding _ _, q => q = .dialled
  | .setup _ _ invite, q => Invites invite q
  | .relaying _ call polling relay, q => ∃ latest remote confirmation,
      q = .established latest (some remote) confirmation ∧ CallOf latest call ∧
        confirmation.Of call ∧ (polling = true → confirmation = .early) ∧
        ∀ loops, relay = .running loops → loops.remoteRtp = remote
  | .hangingUp call _, q => ∃ latest remote confirmation,
      q = .established latest remote confirmation ∧ CallOf latest call ∧
        confirmation.Of call
  | .byeSent call _, q => ∃ latest, q = .ended latest ∧ CallOf latest call
  | .returned _, q => q = .stopped
  | .panicked _, q => q = .stopped

/-- The user agent lets the observations pass and is where the phase is. -/
def Keeps (q : AgentState) (phase : Phase) (shown : List BridgeShown) : Prop :=
  userAgent.Accepts q shown ∧ Follows phase (userAgent.after q shown)

/-- What is accepted first, and then what follows. -/
theorem Keeps.after {q : AgentState} {phase : Phase} {shown later : List BridgeShown}
    (hshown : userAgent.Accepts q shown) (hlater : Keeps (userAgent.after q shown) phase later) :
    Keeps q phase (shown ++ later) := by
  constructor
  · exact (userAgent.accepts_append q shown later).mpr ⟨hshown, hlater.1⟩
  · rw [userAgent.after_append]
    exact hlater.2

theorem stopped_follows {q : AgentState} (hq : q.allows .stopped) {phase : Phase}
    (hphase : Follows phase .stopped) : Keeps q phase [.stopped] := by
  have hafter : userAgent.after q [.stopped] = .stopped := by
    cases q <;> rfl
  refine ⟨⟨hq, trivial⟩, ?_⟩
  rw [hafter]
  exact hphase

theorem Parked.keeps {next : BridgeNext} (h : Parked next) {q : AgentState}
    (hq : q.Settled) : Keeps q next.1 next.2 := by
  cases h with
  | waiting =>
      refine ⟨⟨hq.1, trivial⟩, ?_⟩
      cases q <;> rfl
  | returned result => exact stopped_follows hq.2 rfl
  | panicked why => exact stopped_follows hq.2 rfl

/-! ## The registration -/

/-- A step of the registration, with what becomes of it. -/
theorem registering_of_step {config : Config} {b b' : BridgeState} {e : BridgeEvent}
    {shown : List BridgeShown} {r : RegisterState} (hphase : b.phase = .registering r)
    (h : (bridgeMachine config).step b e = some (b', shown)) :
    ∃ e' r' acts, e = .register e' ∧ (registerMachine config.client).step r e' = some (r', acts) ∧
      b'.phase = (registeredTo r').1 ∧ shown = acts.map .sip ++ (registeredTo r').2 := by
  obtain ⟨calls, phase⟩ := b
  obtain rfl : phase = .registering r := hphase
  change bridgeStep config ⟨calls, .registering r⟩ e = some (b', shown) at h
  cases e with
  | register e' =>
      cases hstep : registerStep config.client r e' with
      | none => simp [bridgeStep, phaseStep, hstep] at h
      | some next =>
          obtain ⟨r', acts⟩ := next
          simp only [bridgeStep, phaseStep, hstep, Option.some.injEq, Prod.mk.injEq] at h
          obtain ⟨rfl, rfl⟩ := h
          exact ⟨e', r', acts, rfl, hstep, rfl, rfl⟩
  | _ => simp [bridgeStep, phaseStep] at h

/-- The user agent has sent a REGISTER, which may have been answered. -/
def AgentState.Outstanding (q : AgentState) : Prop :=
  q = .registered ∨ ∃ request, q = .registering request

theorem AgentState.Outstanding.allows_stopped {q : AgentState} (h : q.Outstanding) :
    q.allows .stopped := by
  rcases h with rfl | ⟨request, rfl⟩ <;> trivial

/-- A response to a REGISTER is read, and a 200 answers it. -/
theorem AgentState.Outstanding.read {q : AgentState} (h : q.Outstanding) (resp : Str) :
    q.allows (.sip (.read none resp)) ∧ (q.next (.sip (.read none resp))).Outstanding ∧
      (parseStatusCode resp = some 200 → q.next (.sip (.read none resp)) = .registered) := by
  rcases h with rfl | ⟨request, rfl⟩
  · exact ⟨trivial, Or.inl rfl, fun _ => rfl⟩
  · refine ⟨trivial, ?_, fun h200 => if_pos h200⟩
    by_cases h200 : parseStatusCode resp = some 200
    · exact Or.inl (if_pos h200)
    · exact Or.inr ⟨request, if_neg h200⟩

/-- The first REGISTER. -/
theorem registerStart_keeps {client : SipClient} {ids : RegisterStart} {r' : RegisterState}
    {acts : List SipShown}
    (h : (registerMachine client).step .called (.start ids) = some (r', acts)) :
    userAgent.Accepts .opening (acts.map .sip) ∧
      Registers r' (userAgent.after .opening (acts.map .sip)) := by
  cases hsent : ids.sent with
  | true =>
      simp only [registerMachine, registerStep, hsent, if_true, Option.some.injEq,
        Prod.mk.injEq] at h
      obtain ⟨rfl, rfl⟩ := h
      exact ⟨⟨⟨rfl, rfl⟩, trivial⟩, _, rfl, rfl, rfl, rfl, rfl⟩
  | false =>
      simp only [registerMachine, registerStep, hsent, Bool.false_eq_true, if_false,
        Option.some.injEq, Prod.mk.injEq] at h
      obtain ⟨rfl, rfl⟩ := h
      exact ⟨trivial, trivial⟩

/-- A verdict on a response that was read when the REGISTER was outstanding. -/
theorem registerFirst_keeps {client : SipClient} {callId tag resp : Str}
    {datagram : Option Datagram} {retry : RegisterRetry} {r' : RegisterState}
    {acts : List SipShown} {q : AgentState}
    (hq : Registers (.awaiting callId tag) q)
    (h : Verdict client (.awaiting callId tag) (.first datagram retry) resp r' acts) :
    userAgent.Accepts q (.sip (.read none resp) :: acts.map .sip) ∧
      Registers r' (userAgent.after q (.sip (.read none resp) :: acts.map .sip)) := by
  obtain ⟨request, rfl, hcallId, htag, hcseq, hauth⟩ := hq
  obtain ⟨hread, hnext, h200⟩ :=
    AgentState.Outstanding.read (Or.inr ⟨request, rfl⟩) resp
  cases h with
  | accepted hstatus => exact ⟨⟨hread, trivial⟩, h200 hstatus⟩
  | retried hstatus hchallenge hsent =>
      have hsame : userAgent.next (.registering request) (.sip (.read none resp)) =
          .registering request := by
        refine if_neg ?_
        rw [hstatus]
        decide
      refine ⟨⟨hread, ?_, trivial⟩, Or.inr ⟨_, rfl⟩⟩
      rw [hsame]
      exact
        { unauthorized := hauth
          authorized := rfl
          cseq := by rw [hcseq]; rfl
          callId := hcallId.symm
          tag := htag.symm }
  | unsent hstatus hchallenge hsent => exact ⟨⟨hread, trivial⟩, hnext.allows_stopped⟩
  | refused hstatus hother => exact ⟨⟨hread, trivial⟩, hnext.allows_stopped⟩

theorem register_keeps {client : SipClient} {r r' : RegisterState} {e : RegisterEvent}
    {acts : List SipShown} {q : AgentState} (hq : Registers r q)
    (h : (registerMachine client).step r e = some (r', acts)) :
    userAgent.Accepts q (acts.map .sip) ∧ Registers r' (userAgent.after q (acts.map .sip)) := by
  cases registerStepped_of_step h with
  | started ids request =>
      obtain rfl : q = .opening := hq
      exact registerStart_keeps h
  | unsent ids =>
      obtain rfl : q = .opening := hq
      exact registerStart_keeps h
  | noResponse callId tag retry =>
      obtain ⟨request, rfl, -⟩ := hq
      exact ⟨trivial, trivial⟩
  | first callId tag data retry acts hfirst =>
      exact registerFirst_keeps hq (registerFirst_eq_ok client (some data) retry hfirst).2
  | firstPanics callId tag data retry why hfirst =>
      obtain ⟨request, rfl, -⟩ := hq
      obtain ⟨hread, hnext, -⟩ := AgentState.Outstanding.read
        (q := .registering request) (Or.inr ⟨request, rfl⟩) (fromUtf8Lossy data.val)
      exact ⟨⟨hread, trivial⟩, hnext.allows_stopped⟩
  | timedOut deadline now hlate =>
      exact ⟨trivial, AgentState.Outstanding.allows_stopped hq⟩
  | receives deadline now hearly => exact ⟨trivial, hq⟩
  | silent deadline => exact ⟨trivial, hq⟩
  | second deadline data hsecond =>
      obtain ⟨hread, hnext, h200⟩ := AgentState.Outstanding.read hq (fromUtf8Lossy data.val)
      refine ⟨⟨hread, trivial⟩, ?_⟩
      obtain ⟨-, ⟨-, rfl⟩ | ⟨-, -, hverdict⟩⟩ :=
        registerSecond_eq_ok client (.received (some data)) hsecond
      · exact hnext
      · cases hverdict with
        | accepted hstatus => exact h200 hstatus
        | refused hstatus hother => exact hnext.allows_stopped
  | secondPanics deadline data why hsecond =>
      obtain ⟨hread, hnext, -⟩ := AgentState.Outstanding.read hq (fromUtf8Lossy data.val)
      exact ⟨⟨hread, trivial⟩, hnext.allows_stopped⟩

/-- The bridge goes on from the registration. -/
theorem registeredTo_keeps {r : RegisterState} {q : AgentState} (hq : Registers r q) :
    Keeps q (registeredTo r).1 (registeredTo r).2 := by
  cases r with
  | returned result =>
      cases result with
      | ok _ => exact ⟨trivial, hq⟩
      | error error => exact stopped_follows hq rfl
  | panicked why => exact stopped_follows hq rfl
  | called => exact ⟨trivial, hq⟩
  | awaiting callId tag => exact ⟨trivial, hq⟩
  | looping deadline => exact ⟨trivial, hq⟩
  | receiving deadline => exact ⟨trivial, hq⟩

/-! ## The INVITE -/

theorem Awaits.settled {l : InviteLoop} {q : AgentState} (h : Awaits l q) : q.Settled := by
  obtain ⟨latest, rfl, -⟩ := h
  exact ⟨trivial, trivial⟩

theorem inviteStart_keeps (client : SipClient) (args : InviteArgs) (ids : InviteStart) :
    userAgent.Accepts .dialled ((inviteStart client args ids).2.map .sip) ∧
      Invites (inviteStart client args ids).1
        (userAgent.after .dialled ((inviteStart client args ids).2.map .sip)) := by
  have hout := inviteStart_outcome client args ids
  generalize inviteStart client args ids = out at hout ⊢
  cases hout with
  | undialable why hdial => exact ⟨trivial, trivial, trivial⟩
  | unsent hsent => exact ⟨trivial, trivial, trivial⟩
  | overflowed _ _ => exact ⟨⟨⟨rfl, rfl⟩, trivial⟩, trivial, trivial⟩
  | sent hsent _ =>
      refine ⟨⟨⟨rfl, rfl⟩, trivial⟩, firstInvite client args ids, rfl, ?_, rfl, rfl, fun _ => rfl⟩
      exact ⟨rfl, rfl, rfl, rfl, rfl⟩

theorem inviteHead_keeps {l : InviteLoop} (inputs : HeadInputs) {q : AgentState}
    (hq : Awaits l q) :
    userAgent.Accepts q ((inviteHead l inputs).2.map .sip) ∧
      Invites (inviteHead l inputs).1
        (userAgent.after q ((inviteHead l inputs).2.map .sip)) := by
  have hout := inviteHead_outcome l inputs
  generalize inviteHead l inputs = out at hout ⊢
  cases hout with
  | exceeded why hlimit => exact ⟨trivial, hq.settled⟩
  | timedOut hlate => exact ⟨trivial, hq.settled⟩
  | retransmitted hdue hsent =>
      obtain ⟨latest, rfl, hrest⟩ := hq
      exact ⟨⟨rfl, trivial⟩, latest, rfl, hrest⟩
  | unsent hdue hsent => exact ⟨trivial, hq.settled⟩
  | quiet hidle => exact ⟨trivial, hq⟩

/-- Unless a response offers an endpoint early, the INVITE is still in progress. -/
theorem read_of_awaits {l : InviteLoop} {q : AgentState} {resp : Str} (hq : Awaits l q)
    (hoffer : earlyOffer l.call.cseq resp = none) :
    q.allows (.sip (.read (some l.call) resp)) ∧
      q.next (.sip (.read (some l.call) resp)) = q := by
  obtain ⟨latest, rfl, hcall, -⟩ := hq
  refine ⟨hcall, ?_⟩
  rw [hcall.cseq] at hoffer
  simp [AgentState.next, hoffer]

/-- Whatever a response offers, the user agent may wait for the next call then. -/
theorem read_of_awaits_settled {l : InviteLoop} {q : AgentState} (resp : Str)
    (hq : Awaits l q) :
    q.allows (.sip (.read (some l.call) resp)) ∧
      (q.next (.sip (.read (some l.call) resp))).Settled := by
  obtain ⟨latest, rfl, hcall, -⟩ := hq
  refine ⟨hcall, ?_⟩
  cases hoffer : earlyOffer latest.cseq resp with
  | none => simp [AgentState.next, hoffer, AgentState.Settled, AgentState.allows]
  | some remote => simp [AgentState.next, hoffer, AgentState.Settled, AgentState.allows]

theorem earlyOffer_of_status {resp : Str} {status : ℕ} (cseq : ℕ)
    (hstatus : parseStatusCode resp = some status) (hother : ¬ (status = 180 ∨ status = 183)) :
    earlyOffer cseq resp = none := by
  refine if_neg ?_
  rintro ⟨hearly, -⟩
  simp only [hstatus, Option.some.injEq] at hearly
  exact hother hearly

theorem CallOf.tagged {latest : InviteRequest} {call : Call} (h : CallOf latest call)
    (resp : Str) : CallOf latest (call.tagged resp) :=
  ⟨h.callId, h.localTag, h.cseq, h.branch, h.uri⟩

/-- The loop that goes on with the call of a response awaits the same INVITE. -/
theorem Awaits.goesOn {l l' : InviteLoop} {q : AgentState} {resp : Str} (h : Awaits l q)
    (hcall : l'.call = l.call.tagged resp) (hinvite : l'.invite = l.invite)
    (hdone : l'.authRetryDone = l.authRetryDone) : Awaits l' q := by
  obtain ⟨latest, rfl, hof, hauth, hcseq, hfirst⟩ := h
  refine ⟨latest, by rw [hinvite], ?_, by rw [hinvite]; exact hauth,
    by rw [hinvite]; exact hcseq, ?_⟩
  · rw [hcall]
    exact hof.tagged resp
  · rw [hdone, hinvite]
    exact hfirst

/-- What follows a response that leaves the INVITE in progress. -/
theorem keeps_of_read {l : InviteLoop} {q : AgentState} {resp : Str} {next : InviteState}
    {acts : List SipShown} (hq : Awaits l q) (hoffer : earlyOffer l.call.cseq resp = none)
    (hacts : userAgent.Accepts q (acts.map .sip) ∧
      Invites next (userAgent.after q (acts.map .sip))) :
    userAgent.Accepts q (.sip (.read (some l.call) resp) :: acts.map .sip) ∧
      Invites next (userAgent.after q (.sip (.read (some l.call) resp) :: acts.map .sip)) := by
  obtain ⟨hread, hnext⟩ := read_of_awaits hq hoffer
  have hsame : userAgent.next q (.sip (.read (some l.call) resp)) = q := hnext
  rw [userAgent.accepts_cons, userAgent.after_cons, hsame]
  exact ⟨⟨hread, hacts.1⟩, hacts.2⟩

/-- The answer to a challenge. -/
theorem challenge_keeps {client : SipClient} {l : InviteLoop} {status : ℕ} {resp : Str}
    {inputs : AnswerInputs} {next : InviteState} {acts : List SipShown} {q : AgentState}
    (hq : Awaits l q)
    (h : ChallengeOutcome client l status resp inputs (.ok (next, acts))) :
    userAgent.Accepts q (acts.map .sip) ∧
      Invites next (userAgent.after q (acts.map .sip)) := by
  cases h with
  | again hdone => exact ⟨trivial, hq.settled⟩
  | unusable error hfirst hread hnone => exact ⟨trivial, hq.settled⟩
  | ackUnsent digest hfirst hread husable hack => exact ⟨trivial, hq.settled⟩
  | retryUnsent digest hfirst hread husable hack hinvite =>
      obtain ⟨latest, rfl, hcall, hauth, hcseq, hlatest⟩ := hq
      exact ⟨⟨⟨hlatest hfirst, hcall⟩, trivial⟩, trivial, trivial⟩
  | retried digest hfirst hread husable hack hinvite =>
      obtain ⟨latest, rfl, hcall, hauth, hcseq, hlatest⟩ := hq
      obtain rfl : latest = l.invite := hlatest hfirst
      have hretry : AuthorizedInvite l.invite (retryInvite client l status digest inputs) :=
        { unauthorized := hauth
          authorized := rfl
          cseq := congrArg (· + 1) hcall.cseq
          callId := hcall.callId
          localTag := hcall.localTag
          uri := hcall.uri
          sdp := rfl }
      refine ⟨⟨⟨rfl, hcall⟩, hretry, trivial⟩, _, rfl, ⟨rfl, rfl, rfl, rfl, rfl⟩, hauth,
        hcseq, ?_⟩
      intro hnot
      simp [InviteLoop.afterRetry, InviteLoop.restarted] at hnot

/-- A response that is not dropped. -/
theorem dispatch_keeps {client : SipClient} {l : InviteLoop} {status : ℕ} {resp : Str}
    {inputs : AnswerInputs} {next : InviteState} {acts : List SipShown} {q : AgentState}
    (hq : Awaits l q) (hadmitted : Admitted l resp status)
    (h : DispatchOutcome client (l.tagged resp) status resp inputs (.ok (next, acts))) :
    userAgent.Accepts q (.sip (.read (some l.call) resp) :: acts.map .sip) ∧
      Invites next (userAgent.after q (.sip (.read (some l.call) resp) :: acts.map .sip)) := by
  have htagged : Awaits (l.tagged resp) q := hq.goesOn rfl rfl rfl
  have hquiet : ¬ (status = 180 ∨ status = 183) → earlyOffer l.call.cseq resp = none :=
    earlyOffer_of_status _ hadmitted.status_eq
  cases h with
  | trying hstatus =>
      exact keeps_of_read hq (hquiet (by omega)) ⟨trivial, hq.goesOn rfl rfl rfl⟩
  | ringing hstatus hnone =>
      have hoffer : earlyOffer l.call.cseq resp = none := by
        rw [earlyOffer, hnone, ite_self]
      exact keeps_of_read hq hoffer ⟨trivial, hq.goesOn rfl rfl rfl⟩
  | earlyMedia rtpAddr hstatus hsome =>
      obtain ⟨latest, rfl, hcall, -⟩ := hq
      have hoffer : earlyOffer latest.cseq resp = some rtpAddr := by
        rw [earlyOffer, ← hcall.cseq, if_pos, hsome]
        refine ⟨?_, hadmitted.fresh⟩
        rw [hadmitted.status_eq, Option.some.injEq, Option.some.injEq]
        exact hstatus
      have hnext : userAgent.next (.inviting l.invite latest)
          (.sip (.read (some l.call) resp)) = .established latest (some rtpAddr) .early := by
        simp [userAgent, AgentState.next, hoffer]
      refine ⟨⟨hcall, trivial⟩, latest, .early, hnext, ⟨hcall.callId, hcall.localTag,
        hcall.cseq, hcall.branch, hcall.uri⟩, ?_, fun _ => rfl⟩
      intro hstate
      simp at hstate
  | answered hstatus =>
      refine keeps_of_read hq (hquiet (by omega)) ?_
      obtain ⟨latest, rfl, hcall, -⟩ := hq
      have hof : CallOf latest ((l.tagged resp).call.answeredBy resp) :=
        ⟨hcall.callId, hcall.localTag, hcall.cseq, hcall.branch, hcall.uri⟩
      exact ⟨⟨hof, trivial⟩, latest, _, rfl, hof, fun _ => rfl, fun hstate => absurd rfl hstate⟩
  | challenged _ hstatus hout =>
      exact keeps_of_read hq (hquiet (by omega)) (challenge_keeps htagged hout)
  | rejected hstatus hother hack =>
      refine keeps_of_read hq (hquiet (by omega)) ?_
      obtain ⟨latest, rfl, hcall, -⟩ := htagged
      exact ⟨⟨hcall, trivial⟩, trivial, trivial⟩
  | rejectedUnsent hstatus hother hack =>
      exact keeps_of_read hq (hquiet (by omega)) ⟨trivial, hq.settled⟩
  | unexpected hstatus =>
      exact keeps_of_read hq (hquiet (by omega)) ⟨trivial, htagged⟩

theorem response_keeps {client : SipClient} {l : InviteLoop} {resp : Str}
    {inputs : AnswerInputs} {next : InviteState} {acts : List SipShown} {q : AgentState}
    (hq : Awaits l q) (h : ResponseOutcome client l resp inputs (.ok (next, acts))) :
    userAgent.Accepts q (.sip (.read (some l.call) resp) :: acts.map .sip) ∧
      Invites next (userAgent.after q (.sip (.read (some l.call) resp) :: acts.map .sip)) := by
  cases h with
  | unparsed hstatus =>
      have hoffer : earlyOffer l.call.cseq resp = none := by
        simp [earlyOffer, hstatus]
      exact keeps_of_read hq hoffer ⟨trivial, hq⟩
  | stale status hstatus hstale =>
      have hoffer : earlyOffer l.call.cseq resp = none := by
        simp [earlyOffer, hstale]
      exact keeps_of_read hq hoffer ⟨trivial, hq⟩
  | admitted status _ hadmitted hout => exact dispatch_keeps hq hadmitted hout

theorem invite_keeps {client : SipClient} {invite invite' : InviteState} {e : InviteEvent}
    {acts : List SipShown} {q : AgentState} (hq : Invites invite q)
    (h : InviteStepped client invite e invite' acts) :
    userAgent.Accepts q (acts.map .sip) ∧
      Invites invite' (userAgent.after q (acts.map .sip)) := by
  cases h with
  | start args ids =>
      obtain rfl : q = .dialled := hq
      exact inviteStart_keeps client args ids
  | head l inputs => exact inviteHead_keeps inputs hq
  | silent l inputs => exact ⟨trivial, hq⟩
  | response l data inputs next shown hresponse => exact response_keeps hq hresponse
  | crash l data inputs why hresponse =>
      obtain ⟨hread, hnext⟩ := read_of_awaits_settled (fromUtf8Lossy data.val) hq
      exact ⟨⟨hread, trivial⟩, hnext⟩

/-! ## The relay and the polls -/

theorem established_settled (latest : InviteRequest) (remote : Option SocketAddr)
    (confirmation : Confirmation) :
    (AgentState.established latest remote confirmation).Settled :=
  ⟨trivial, trivial⟩

/-- Once a call is set up, its endpoint is that of the relay. -/
theorem setupEnd_keeps {call : Call} {ackSent : Bool} {next : BridgeNext} {q : AgentState}
    (hq : HasCall call q) (h : SetupEnd call ackSent next) : Keeps q next.1 next.2 := by
  obtain ⟨latest, confirmation, rfl, hcall, hanswered, hearly⟩ := hq
  have hof : confirmation.Of call := by
    by_cases hstate : call.state = .answered
    · rw [hanswered hstate]
      rfl
    · rw [hearly hstate]
      trivial
  cases h with
  | noRemoteRtp hrtp => exact ⟨trivial, latest, _, confirmation, rfl, hcall, hof⟩
  | ackUnsent remoteRtp hrtp hstate hack =>
      exact stopped_follows (established_settled _ _ _).2 rfl
  | acked session remoteRtp hrtp hstate hack hsession =>
      rw [hanswered hstate, hrtp]
      refine ⟨⟨rfl, trivial⟩, latest, remoteRtp, .acked call, rfl, hcall, rfl, by simp, ?_⟩
      intro loops hloops
      rw [← Relay.running.inj hloops]
  | unanswered session remoteRtp polling hrtp hstate hpolling hsession =>
      rw [hearly hstate, hrtp]
      refine ⟨trivial, latest, remoteRtp, .early, rfl, hcall, trivial, fun _ => rfl, ?_⟩
      intro loops hloops
      rw [← Relay.running.inj hloops]

/-- The media of a call is let pass, and changes nothing. -/
theorem media_accepted (latest : InviteRequest) {remote : SocketAddr}
    (confirmation : Confirmation) {media : List RelayShown}
    (h : ∀ packet endpoint, .packet packet endpoint ∈ media → endpoint = remote) :
    userAgent.Accepts (.established latest (some remote) confirmation)
        (media.map .media) ∧
      userAgent.after (.established latest (some remote) confirmation) (media.map .media) =
        .established latest (some remote) confirmation := by
  induction media with
  | nil => exact ⟨trivial, rfl⟩
  | cons o media ih =>
      obtain ⟨haccepts, hafter⟩ :=
        ih fun packet endpoint hmem => h packet endpoint (List.mem_cons_of_mem o hmem)
      cases o with
      | packet packet endpoint =>
          exact ⟨⟨h packet endpoint List.mem_cons_self, haccepts⟩, hafter⟩
      | taken bytes => exact ⟨⟨trivial, haccepts⟩, hafter⟩
      | written slin => exact ⟨⟨trivial, haccepts⟩, hafter⟩

/-- A response that is read during early media. -/
theorem polls_keeps {session : Session} {call : Call} {relay : Relay} {resp : Str}
    {ackSent polling : Bool} {polled : Polled} {acks : List SipShown} {q : AgentState}
    (hq : Follows (.relaying session call true relay) q)
    (hresponse : PollOutcome call resp ackSent (.ok (polled, acks)))
    (hpolling : polling = true ↔ polled.result = .ok false) :
    Keeps q (.relaying session polled.call polling relay)
      (.sip (.read (some call) resp) :: acks.map .sip) := by
  obtain ⟨latest, remote, confirmation, rfl, hcall, hof, hearly, hremote⟩ := hq
  obtain rfl := hearly rfl
  have hkeeps : Keeps (.established latest (some remote) .early)
      (.relaying session polled.call polling relay) (acks.map .sip) := by
    rcases hresponse.silent_or_answered with ⟨-, hsame, rfl⟩ | ⟨-, -, hanswered, hdone, rfl⟩
    · rw [hsame]
      exact ⟨trivial, latest, remote, .early, rfl, hcall, trivial, fun _ => rfl, hremote⟩
    · have hpolled : CallOf latest (call.polledBy resp) :=
        ⟨hcall.callId, hcall.localTag, hcall.cseq, hcall.branch, hcall.uri⟩
      have hended : polling = true → False := fun htrue => hdone (hpolling.mp htrue)
      rw [hanswered]
      cases ackSent with
      | true =>
          exact ⟨⟨hpolled, rfl, trivial⟩, latest, remote, .acked _, rfl, hpolled, rfl,
            fun htrue => (hended htrue).elim, hremote⟩
      | false =>
          exact ⟨⟨hpolled, trivial⟩, latest, remote, .answered _, rfl, hpolled, rfl,
            fun htrue => (hended htrue).elim, hremote⟩
  exact ⟨⟨hcall, hkeeps.1⟩, hkeeps.2⟩

/-! ## Every step -/

theorem drained_accepted {q : AgentState} (hdrained : ∀ bytes, q.allows (.drained bytes))
    (hsame : ∀ bytes, q.next (.drained bytes) = q) (dropped : List (List UInt8)) :
    userAgent.Accepts q (dropped.map .drained) ∧
      userAgent.after q (dropped.map .drained) = q := by
  induction dropped with
  | nil => exact ⟨trivial, rfl⟩
  | cons bytes dropped ih =>
      have hnext : userAgent.next q (.drained bytes) = q := hsame bytes
      rw [List.map_cons, userAgent.accepts_cons, userAgent.after_cons, hnext]
      exact ⟨⟨hdrained bytes, ih.1⟩, ih.2⟩

/-- While `invite` is under way, the drain changes nothing. -/
theorem Invites.drained {invite : InviteState} {q : AgentState} (hq : Invites invite q)
    (hway : InviteUnderWay invite) (dropped : List (List UInt8)) :
    userAgent.Accepts q (dropped.map .drained) ∧
      userAgent.after q (dropped.map .drained) = q ∧ q.Settled := by
  have hawaits : ∀ l, Awaits l q → (∀ bytes, q.allows (.drained bytes)) ∧
      (∀ bytes, q.next (.drained bytes) = q) ∧ q.Settled := by
    rintro l ⟨latest, rfl, -⟩
    exact ⟨fun _ => trivial, fun _ => rfl, trivial, trivial⟩
  have hkept : (∀ bytes, q.allows (.drained bytes)) ∧
      (∀ bytes, q.next (.drained bytes) = q) ∧ q.Settled := by
    cases invite with
    | called args =>
        obtain rfl : q = .dialled := hq
        exact ⟨fun _ => trivial, fun _ => rfl, trivial, trivial⟩
    | looping l => exact hawaits l hq
    | receiving l => exact hawaits l hq
    | returned result => exact hway.elim
    | panicked why => exact hway.elim
  obtain ⟨hdrained, hsame, hsettled⟩ := hkept
  obtain ⟨haccepts, hafter⟩ := drained_accepted hdrained hsame dropped
  exact ⟨haccepts, hafter, hsettled⟩

theorem phase_keeps {config : Config} {phase phase' : Phase} {e : BridgeEvent}
    {q : AgentState} {shown : List BridgeShown} (hok : phase.Ok)
    (hnot : ∀ r, phase ≠ .registering r) (hq : Follows phase q)
    (h : PhaseStepped config phase e phase' shown) : Keeps q phase' shown := by
  cases h with
  | registers r e next shown hshown hnext => exact absurd rfl (hnot r)
  | readied written next hnext =>
      obtain rfl : q = .registered := hq
      exact hnext.keeps ⟨trivial, trivial⟩
  | waits lineBuf e lineBuf' => exact ⟨trivial, hq⟩
  | waitEnds lineBuf e next hnext =>
      obtain rfl : q = .idle := hq
      exact hnext.keeps ⟨trivial, trivial⟩
  | dials lineBuf e dial session tail hsession =>
      obtain rfl : q = .idle := hq
      exact ⟨⟨trivial, trivial⟩, rfl⟩
  | binds dial session port sessionId args => exact ⟨trivial, hq⟩
  | bindFails dial session port sessionId next hnext =>
      obtain rfl : q = .dialled := hq
      exact hnext.keeps ⟨trivial, trivial⟩
  | invites session drain invite invite' e ackSent shown hstep hreturned hpanicked =>
      exact invite_keeps hq hstep
  | inviteFails session drain invite invite' e ackSent shown next hstep hfail hnext =>
      obtain ⟨haccepts, hinvites⟩ := invite_keeps hq hstep
      refine Keeps.after haccepts (hnext.keeps ?_)
      rcases hfail with ⟨error, rfl⟩ | ⟨why, rfl⟩ <;> exact hinvites
  | inviteReturns session drain invite e ackSent shown call next hstep hnext =>
      obtain ⟨haccepts, hinvites⟩ := invite_keeps hq hstep
      exact Keeps.after haccepts (setupEnd_keeps hinvites hnext)
  | drains session drain drain' invite e dropped he hdrain =>
      obtain ⟨haccepts, hafter, -⟩ := Invites.drained hq hok.2.2 dropped
      refine ⟨haccepts, ?_⟩
      rw [hafter]
      exact hq
  | drainFails session drain invite e dropped next he hnext =>
      obtain ⟨haccepts, hafter, hsettled⟩ := Invites.drained hq hok.2.2 dropped
      refine Keeps.after haccepts ?_
      rw [hafter]
      exact hnext.keeps hsettled
  | relays session call polling relay relay' e media hstep =>
      obtain ⟨latest, remote, confirmation, rfl, hcall, hof, hearly, hremote⟩ := hq
      obtain ⟨loops, rfl⟩ := hok.2.1
      have hhere : loops.remoteRtp = remote := hremote loops rfl
      have hsent : ∀ packet endpoint, .packet packet endpoint ∈ media → endpoint = remote := by
        intro packet endpoint hmem
        rw [packet_mem_relayStep hstep hmem, hhere]
      obtain ⟨haccepts, hafter⟩ := media_accepted latest confirmation hsent
      rw [relayStops_of_step hstep, List.append_nil]
      refine ⟨haccepts, ?_⟩
      rw [hafter]
      cases relay' with
      | running loops' =>
          refine ⟨latest, remote, confirmation, rfl, hcall, hof, hearly, ?_⟩
          rintro _ ⟨⟩
          rw [relayStep_remoteRtp hstep, hhere]
      | returned result =>
          cases result <;> exact ⟨latest, _, confirmation, rfl, hcall, hof⟩
      | panicked why => exact absurd rfl (relayStep_ne_panicked hstep why)
  | pollSilent session call relay ackSent => exact ⟨trivial, hq⟩
  | polls session call relay data ackSent polling polled acks hresponse hpolling =>
      exact polls_keeps hq hresponse hpolling
  | pollCrashes session call relay data ackSent why hresponse =>
      obtain ⟨latest, remote, confirmation, rfl, hcall, -⟩ := hq
      exact ⟨⟨hcall, trivial, trivial⟩, rfl⟩
  | byes call after branchHash =>
      obtain ⟨latest, remote, confirmation, rfl, hcall, hof⟩ := hq
      exact ⟨⟨⟨hcall, hof⟩, trivial⟩, latest, rfl, hcall⟩
  | byeFails call after branchHash next hnext =>
      obtain ⟨latest, remote, confirmation, rfl, hcall, hof⟩ := hq
      exact hnext.keeps (established_settled _ _ _)
  | byeSilent call after next hnext =>
      obtain ⟨latest, rfl, hcall⟩ := hq
      exact hnext.keeps ⟨trivial, trivial⟩
  | byeAnswered call after data next hnext =>
      obtain ⟨latest, rfl, hcall⟩ := hq
      have hended : AgentState.Settled (.ended latest) := ⟨trivial, trivial⟩
      exact ⟨⟨hcall, (hnext.keeps hended).1⟩, (hnext.keeps hended).2⟩

theorem bridge_keeps {config : Config} {b b' : BridgeState} {e : BridgeEvent}
    {q : AgentState} {shown : List BridgeShown} (hok : b.phase.Ok)
    (hq : Follows b.phase q) (h : (bridgeMachine config).step b e = some (b', shown)) :
    Keeps q b'.phase shown := by
  by_cases hphase : ∃ r, b.phase = .registering r
  · obtain ⟨r, hr⟩ := hphase
    obtain ⟨e', r', acts, -, hstep, hnext, rfl⟩ := registering_of_step hr h
    rw [hr] at hq
    obtain ⟨haccepts, hregisters⟩ := register_keeps hq hstep
    rw [hnext]
    exact Keeps.after haccepts (registeredTo_keeps hregisters)
  · exact phase_keeps hok (fun r hr => hphase ⟨r, hr⟩) hq (bridgeStep_ok hok h).1

/-- A run of the bridge is one of the user agent, which ends where the bridge is. -/
theorem userAgent_run {config : Config} {events : List BridgeEvent} {b : BridgeState}
    {trace : List BridgeShown}
    (hrun : (bridgeMachine config).run bridgeStart events = some (b, trace)) :
    userAgent.Accepts .opening trace ∧ b.phase.Ok ∧
      Follows b.phase (userAgent.after .opening trace) := by
  have hstart : Follows bridgeStart.phase .opening := rfl
  refine userAgent.accepts_run (R := fun b q => b.phase.Ok ∧ Follows b.phase q) ?_
    ⟨bridgeStart_ok, hstart⟩ hrun
  rintro b q e b' shown ⟨hok, hq⟩ hstep
  obtain ⟨haccepts, hfollows⟩ := bridge_keeps hok hq hstep
  exact ⟨haccepts, (bridgeStep_ok hok hstep).2, hfollows⟩

/-- Every run of the bridge is one of the user agent. -/
theorem bridge_isUserAgent {config : Config} {events : List BridgeEvent} {b : BridgeState}
    {trace : List BridgeShown}
    (hrun : (bridgeMachine config).run bridgeStart events = some (b, trace)) :
    userAgent.Accepts .opening trace :=
  (userAgent_run hrun).1

/-- The site of a request, if the observation is one. -/
def BridgeShown.site : BridgeShown → Option Site
  | .sip (.sent site _) => some site
  | _ => none

/-- The call is answered, a sample is sent, and both streams end. -/
def trunkWholeCall : List BridgeEvent :=
  trunkAnswered ++
    [.media (.slRead (some oneSample) true), .media (.slRead (some ⟨[], length_noBytes⟩) true),
      .media (.rtpReceived none true), .bye 9 true, .byeResponse none]

/-- The requests of the whole call. -/
theorem run_trunkWholeCall :
    ∃ t trace,
      (bridgeMachine trunkConfig).run bridgeStart trunkWholeCall = some (t, trace) ∧
        trace.filterMap BridgeShown.site = [.register, .invite, .answerAck, .bye] := by
  have hsites : ((bridgeMachine trunkConfig).run bridgeStart trunkWholeCall).map
      (fun end_ => end_.2.filterMap BridgeShown.site) =
        some [.register, .invite, .answerAck, .bye] := by
    decide +kernel
  obtain ⟨⟨t, trace⟩, hrun, hlist⟩ := Option.map_eq_some_iff.mp hsites
  exact ⟨t, trace, hrun, hlist⟩

theorem bridge_isUserAgent_hungUp :
    ∃ t trace,
      (bridgeMachine trunkConfig).run bridgeStart trunkWholeCall = some (t, trace) ∧
        trace.filterMap BridgeShown.site = [.register, .invite, .answerAck, .bye] ∧
        userAgent.Accepts .opening trace := by
  obtain ⟨t, trace, hrun, hsites⟩ := run_trunkWholeCall
  exact ⟨t, trace, hrun, hsites, bridge_isUserAgent hrun⟩

end SlmodemSipBridge.Bridge
