import SlmodemSipBridge.Bridge.Dialogue
import SlmodemSipBridge.Support.Amortized

/-!
# The traffic of a bridge is bounded

However the trunk and slmodemd behave, a bridge sends two REGISTERs at most and a
fixed number of requests between one dial command and the next, and it takes a thousand
dial commands at most.  A phase keeps the requests that it may still send; the call
count pays for the waits.
-/

namespace SlmodemSipBridge.Bridge

open Rust Transition Media Rtp Sip

/-! ## What is counted -/

/-- A request that is sent. -/
def requestCost : BridgeShown → ℕ
  | .sip (.sent _ _) => 1
  | _ => 0

/-- A REGISTER that is sent. -/
def registerCost : BridgeShown → ℕ
  | .sip (.sent _ (.register _)) => 1
  | _ => 0

/-- A dial command that is accepted. -/
def dialCost : BridgeShown → ℕ
  | .dialled _ => 1
  | _ => 0

/-- A wait for a dial command. -/
def waitCost : BridgeShown → ℕ
  | .waiting => 1
  | _ => 0

/-- The requests of a call: an INVITE and one with credentials, each retransmitted, the
ACK of the challenge, another ACK and a BYE. -/
def requestsPerCall : ℕ := 2 * (1 + inviteRetransmitLimit) + 3

/-- The requests that `register` may still send. -/
def RegisterState.requestsLeft : RegisterState → ℕ
  | .called => 2
  | .awaiting _ _ => 1
  | _ => 0

/-- The requests that an INVITE in progress may still take, itself included if it has
no credentials yet. -/
def InviteLoop.requestsLeft (l : InviteLoop) : ℕ :=
  (if l.authRetryDone then 0 else inviteRetransmitLimit + 2) +
    (inviteRetransmitLimit - l.retransmitCount)

/-- The requests that a call may still take while `invite` runs. -/
def InviteState.requestsLeft : InviteState → ℕ
  | .called _ => requestsPerCall
  | .looping l => InviteLoop.requestsLeft l + 2
  | .receiving l => InviteLoop.requestsLeft l + 2
  | .returned (.ok _) => 2
  | _ => 0

/-- The requests that the bridge may still send before the next dial command. -/
def Phase.requestsLeft : Phase → ℕ
  | .registering r => RegisterState.requestsLeft r
  | .binding _ _ => requestsPerCall
  | .setup _ _ invite => InviteState.requestsLeft invite
  | .relaying _ _ polling _ => if polling then 2 else 1
  | .hangingUp _ _ => 1
  | _ => 0

/-! ## What a step costs -/

theorem Parked.cost_eq {next : BridgeNext} (h : Parked next) :
    cost requestCost next.2 + next.1.requestsLeft = 0 := by
  cases h <;> rfl

/-- A verdict on the first response sends the second REGISTER at most. -/
theorem Verdict.cost_le {client : SipClient} {callId tag msg : Str} {e : RegisterEvent}
    {next : RegisterState} {acts : List SipShown}
    (h : Verdict client (.awaiting callId tag) e msg next acts) :
    cost requestCost (acts.map .sip) + RegisterState.requestsLeft next ≤ 1 := by
  cases h <;> simp [requestCost, RegisterState.requestsLeft]

theorem register_cost {client : SipClient} {r r' : RegisterState} {e : RegisterEvent}
    {acts : List SipShown} (h : RegisterStepped client r e r' acts) :
    cost requestCost (acts.map .sip) + RegisterState.requestsLeft r' ≤
      RegisterState.requestsLeft r := by
  cases h with
  | started ids request => exact le_rfl
  | unsent ids => exact Nat.zero_le _
  | noResponse callId tag retry => exact Nat.zero_le _
  | first callId tag data retry acts hfirst =>
      have hverdict := (registerFirst_eq_ok client (some data) retry hfirst).2
      have hle := Verdict.cost_le hverdict
      rw [List.map_cons, cost_cons]
      exact le_trans (by simp [requestCost]) hle
  | firstPanics callId tag data retry why hfirst => exact Nat.zero_le _
  | timedOut deadline now hlate => exact le_rfl
  | receives deadline now hearly => exact le_rfl
  | silent deadline => exact le_rfl
  | second deadline data hsecond =>
      obtain ⟨-, ⟨-, rfl⟩ | ⟨-, ⟨result, rfl⟩, -⟩⟩ :=
        registerSecond_eq_ok client (.received (some data)) hsecond
      · exact le_rfl
      · exact le_rfl
  | secondPanics deadline data why hsecond => exact le_rfl

theorem registeredTo_cost (r : RegisterState) :
    cost requestCost (registeredTo r).2 + (registeredTo r).1.requestsLeft =
      RegisterState.requestsLeft r := by
  cases r with
  | returned result => cases result <;> rfl
  | _ => rfl

/-- A retransmission is one of those left. -/
theorem requestsLeft_retransmitted {l : InviteLoop} (inputs : HeadInputs)
    (hcount : l.retransmitCount < inviteRetransmitLimit) :
    InviteLoop.requestsLeft (l.counted.retransmitted inputs) + 1 =
      InviteLoop.requestsLeft l := by
  have hdone : (l.counted.retransmitted inputs).authRetryDone = l.authRetryDone := rfl
  have hnext : (l.counted.retransmitted inputs).retransmitCount = l.retransmitCount + 1 := rfl
  rw [InviteLoop.requestsLeft, InviteLoop.requestsLeft, hdone, hnext]
  omega

/-- A response takes the ACK of a challenge and the INVITE that answers it, or a last
ACK, or nothing. -/
theorem response_cost {client : SipClient} {l : InviteLoop} {resp : Str}
    {inputs : AnswerInputs} {next : InviteState} {acts : List SipShown}
    (h : ResponseOutcome client l resp inputs (.ok (next, acts))) :
    cost requestCost (acts.map .sip) + InviteState.requestsLeft next ≤
      InviteLoop.requestsLeft l + 2 := by
  cases h with
  | unparsed hstatus => simp [InviteState.requestsLeft]
  | stale status hstatus hstale => simp [InviteState.requestsLeft]
  | admitted status _ hadmitted hdispatch =>
      cases hdispatch with
      | trying hstatus => exact le_of_eq (Nat.zero_add _)
      | ringing hstatus hnone => exact le_of_eq (Nat.zero_add _)
      | earlyMedia rtpAddr hstatus hsome => simp [InviteState.requestsLeft]
      | answered hstatus => simp [InviteState.requestsLeft, requestCost]
      | rejected hstatus hother hack => simp [InviteState.requestsLeft, requestCost]
      | rejectedUnsent hstatus hother hack => simp [InviteState.requestsLeft]
      | unexpected hstatus => exact le_of_eq (Nat.zero_add _)
      | challenged _ hstatus hchallenge =>
          cases hchallenge with
          | again hdone => simp [InviteState.requestsLeft]
          | unusable error hfirst hread hnone => simp [InviteState.requestsLeft]
          | ackUnsent digest hfirst hread husable hack => simp [InviteState.requestsLeft]
          | retryUnsent digest hfirst hread husable hack hinvite =>
              simp [InviteState.requestsLeft, requestCost]
          | retried digest hfirst hread husable hack hinvite =>
              have hundone : l.authRetryDone = false := hfirst
              simp only [List.map_cons, List.map_nil, cost_cons, cost_nil, requestCost,
                InviteState.requestsLeft, InviteLoop.requestsLeft, InviteLoop.afterRetry,
                InviteLoop.restarted, hundone]
              simp only [if_true, Bool.false_eq_true, if_false]
              omega

theorem invite_cost {client : SipClient} {s s' : InviteState} {e : InviteEvent}
    {acts : List SipShown} (h : InviteStepped client s e s' acts) :
    cost requestCost (acts.map .sip) + InviteState.requestsLeft s' ≤
      InviteState.requestsLeft s := by
  cases h with
  | start args ids =>
      have hout := inviteStart_outcome client args ids
      generalize inviteStart client args ids = out at hout ⊢
      cases hout with
      | undialable why hdial => exact Nat.zero_le _
      | unsent hsent => exact Nat.zero_le _
      | overflowed _ _ => exact (by decide : 1 ≤ requestsPerCall)
      | sent hsent _ => exact le_refl requestsPerCall
  | head l inputs =>
      have hout := inviteHead_outcome l inputs
      generalize inviteHead l inputs = out at hout ⊢
      cases hout with
      | exceeded why hlimit => exact Nat.zero_le _
      | timedOut hlate => exact Nat.zero_le _
      | retransmitted hdue hsent =>
          have hleft := requestsLeft_retransmitted inputs hdue.expired.2.1
          simp only [List.map_cons, List.map_nil, cost_cons, cost_nil, requestCost,
            InviteState.requestsLeft]
          omega
      | unsent hdue hsent => exact Nat.zero_le _
      | quiet hidle => exact le_of_eq (Nat.zero_add _)
  | silent l inputs => exact le_of_eq (Nat.zero_add _)
  | response l data inputs next shown hresponse =>
      rw [List.map_cons, cost_cons]
      exact le_trans (by simp [requestCost]) (response_cost hresponse)
  | crash l data inputs why hresponse => exact Nat.zero_le _

theorem setupEnd_cost {call : Call} {ackSent : Bool} {next : BridgeNext}
    (h : SetupEnd call ackSent next) :
    cost requestCost next.2 + next.1.requestsLeft ≤ 2 := by
  cases h with
  | noRemoteRtp hrtp => exact Nat.le_succ 1
  | ackUnsent remoteRtp hrtp hstate hack => exact Nat.zero_le 2
  | acked session remoteRtp hrtp hstate hack hsession => exact le_rfl
  | unanswered session remoteRtp polling hrtp hstate hpolling hsession =>
      cases polling <;> simp [Phase.requestsLeft]

theorem relayedTo_left (session : Session) (call : Call) (polling : Bool) (relay : Relay) :
    (relayedTo session call polling relay).requestsLeft ≤ if polling then 2 else 1 := by
  cases relay with
  | running loops => exact le_rfl
  | returned result => cases result <;> cases polling <;> simp [relayedTo, Phase.requestsLeft]
  | panicked why => exact Nat.zero_le _

theorem poll_cost {call : Call} {resp : Str} {ackSent polling : Bool} {polled : Polled}
    {acks : List SipShown}
    (hresponse : PollOutcome call resp ackSent (.ok (polled, acks)))
    (hpolling : polling = true ↔ polled.result = .ok false) :
    cost requestCost (acks.map .sip) + (if polling then 2 else 1) ≤ 2 := by
  rcases hresponse.silent_or_answered with ⟨-, -, rfl⟩ | ⟨-, -, -, hdone, rfl⟩
  · cases polling <;> decide
  · have hended : polling = false := by
      by_contra htrue
      exact hdone (hpolling.mp (by simpa using htrue))
    rw [hended]
    cases ackSent <;> simp [requestCost]

/-- A step of the bridge that takes no dial command pays for its requests. -/
theorem phase_cost {config : Config} {phase phase' : Phase} {e : BridgeEvent}
    {shown : List BridgeShown} (hnot : ∀ r, phase ≠ .registering r)
    (h : PhaseStepped config phase e phase' shown) (hnone : cost dialCost shown = 0) :
    cost requestCost shown + phase'.requestsLeft ≤ phase.requestsLeft := by
  have hparked : ∀ {next : BridgeNext} (acts : List BridgeShown), Parked next →
      cost requestCost acts ≤ phase.requestsLeft →
        cost requestCost (acts ++ next.2) + next.1.requestsLeft ≤ phase.requestsLeft := by
    intro next acts hnext hacts
    have hfree := hnext.cost_eq
    rw [cost_append]
    omega
  have hdropped : ∀ dropped : List (List UInt8),
      cost requestCost (dropped.map .drained) = 0 := by
    intro dropped
    apply cost_eq_zero
    intro o ho
    obtain ⟨bytes, -, rfl⟩ := List.mem_map.mp ho
    rfl
  have hmedia : ∀ media : List RelayShown, cost requestCost (media.map .media) = 0 := by
    intro media
    apply cost_eq_zero
    intro o ho
    obtain ⟨o', -, rfl⟩ := List.mem_map.mp ho
    rfl
  cases h with
  | registers r e next shown hshown hnext => exact absurd rfl (hnot r)
  | readied written next hnext => exact hparked [] hnext (Nat.zero_le _)
  | waits lineBuf e lineBuf' => exact le_rfl
  | waitEnds lineBuf e next hnext =>
      exact hparked [] hnext (Nat.zero_le _)
  | dials lineBuf e dial session tail hsession =>
      exact absurd hnone (by simp [dialCost])
  | binds dial session port sessionId args => exact le_of_eq (Nat.zero_add _)
  | bindFails dial session port sessionId next hnext =>
      exact hparked [] hnext (Nat.zero_le _)
  | invites session drain invite invite' e ackSent acts hstep hreturned hpanicked =>
      exact invite_cost hstep
  | inviteFails session drain invite invite' e ackSent acts next hstep hfail hnext =>
      have hpaid := invite_cost hstep
      exact hparked _ hnext (le_trans (Nat.le_add_right _ _) hpaid)
  | inviteReturns session drain invite e ackSent acts call next hstep hnext =>
      have hpaid : cost requestCost (acts.map .sip) + 2 ≤ InviteState.requestsLeft invite :=
        invite_cost hstep
      have hend := setupEnd_cost hnext
      change _ ≤ InviteState.requestsLeft invite
      rw [cost_append]
      omega
  | drains session drain drain' invite e dropped he hdrain =>
      rw [hdropped, Nat.zero_add]
      rfl
  | drainFails session drain invite e dropped next he hnext =>
      refine hparked _ hnext ?_
      rw [hdropped]
      exact Nat.zero_le _
  | relays session call polling relay relay' e media hstep =>
      rw [relayStops_of_step hstep, List.append_nil, hmedia, Nat.zero_add]
      exact relayedTo_left session call polling relay'
  | pollSilent session call relay ackSent => exact le_rfl
  | polls session call relay data ackSent polling polled acks hresponse hpolling =>
      rw [cost_cons]
      exact le_trans (by simp [requestCost, Phase.requestsLeft])
        (poll_cost hresponse hpolling)
  | pollCrashes session call relay data ackSent why hresponse => exact Nat.zero_le _
  | byes call after branchHash => exact le_rfl
  | byeFails call after branchHash next hnext =>
      exact hparked [] hnext (Nat.zero_le _)
  | byeSilent call after next hnext =>
      exact hparked [] hnext (Nat.zero_le _)
  | byeAnswered call after data next hnext =>
      exact hparked [.sip (.read (some call) (fromUtf8Lossy data.val))] hnext (Nat.zero_le _)

/-! ## The call count -/

/-- Neither a wait nor a dial command is shown. -/
def Busy (shown : List BridgeShown) : Prop :=
  cost waitCost shown = 0 ∧ cost dialCost shown = 0

/-- A step within the call count waits for a dial command only below the limit, and
shows it. -/
def Waits (calls : ℕ) (next : BridgeNext) : Prop :=
  (Busy next.2 ∧ ∀ lineBuf, next.1 ≠ .waiting lineBuf) ∨
    (cost waitCost next.2 = 1 ∧ cost dialCost next.2 = 0 ∧ calls < callsLimit ∧
      next.1 = .waiting [])

theorem Busy.append {shown later : List BridgeShown} (h : Busy shown) (hlater : Busy later) :
    Busy (shown ++ later) := by
  constructor
  · rw [cost_append, h.1, hlater.1]
  · rw [cost_append, h.2, hlater.2]

/-- What is shown of the parts of the bridge. -/
theorem busy_map {α : Type} (f : α → BridgeShown)
    (hf : ∀ a, waitCost (f a) = 0 ∧ dialCost (f a) = 0) (list : List α) :
    Busy (list.map f) := by
  constructor <;> apply cost_eq_zero
  · intro o ho
    obtain ⟨a, -, rfl⟩ := List.mem_map.mp ho
    exact (hf a).1
  · intro o ho
    obtain ⟨a, -, rfl⟩ := List.mem_map.mp ho
    exact (hf a).2

theorem loopHead_waits (calls : ℕ) : Waits calls (loopHead calls) := by
  by_cases hcalls : calls < callsLimit
  · have hhead : loopHead calls = (.waiting [], [.waiting]) := by
      simp [loopHead, hcalls]
    rw [hhead]
    exact Or.inr ⟨rfl, rfl, hcalls, rfl⟩
  · have hhead : ∃ why, loopHead calls = panicWith why := by
      simp [loopHead, hcalls]
    obtain ⟨why, hwhy⟩ := hhead
    rw [hwhy]
    exact Or.inl ⟨⟨rfl, rfl⟩, nofun⟩

theorem stopWith_waits (calls : ℕ) (result : Except BridgeError Unit) :
    Waits calls (stopWith result) := Or.inl ⟨⟨rfl, rfl⟩, nofun⟩

theorem panicWith_waits (calls : ℕ) (why : Panic) : Waits calls (panicWith why) :=
  Or.inl ⟨⟨rfl, rfl⟩, nofun⟩

theorem Waits.after {calls : ℕ} {next : BridgeNext} (h : Waits calls next)
    {shown : List BridgeShown} (hshown : Busy shown) : Waits calls (next.after shown) := by
  rcases h with ⟨hbusy, hnot⟩ | ⟨hwait, hdial, hcalls, hwaiting⟩
  · exact Or.inl ⟨hshown.append hbusy, hnot⟩
  · refine Or.inr ⟨?_, ?_, hcalls, hwaiting⟩
    · rw [BridgeNext.after, cost_append, hshown.1, hwait]
    · rw [BridgeNext.after, cost_append, hshown.2, hdial]

theorem registeredTo_waits (calls : ℕ) (r : RegisterState) :
    Waits calls (registeredTo r) := by
  cases r with
  | returned result => cases result <;> exact Or.inl ⟨⟨rfl, rfl⟩, nofun⟩
  | _ => exact Or.inl ⟨⟨rfl, rfl⟩, nofun⟩

theorem relayTo_waits (calls : ℕ) (session : Session) (call : Call)
    (remoteRtp : SocketAddr) : Waits calls (relayTo session call remoteRtp) := by
  unfold relayTo
  split
  · exact stopWith_waits calls _
  · exact Or.inl ⟨⟨rfl, rfl⟩, nofun⟩

theorem proceedWith_waits (calls : ℕ) (session : Session) (call : Call) (ackSent : Bool) :
    Waits calls (proceedWith session call ackSent) := by
  unfold proceedWith
  cases call.remoteRtp with
  | none => exact Or.inl ⟨⟨rfl, rfl⟩, nofun⟩
  | some remoteRtp =>
      dsimp only
      split
      · split
        · exact (relayTo_waits calls session call remoteRtp).after ⟨rfl, rfl⟩
        · exact stopWith_waits calls _
      · exact relayTo_waits calls session call remoteRtp

theorem drainedTo_waits (calls : ℕ) (session : Session) (invite : InviteState)
    (ackSent : Bool) (drain : Drain (Except InviteError Call)) :
    Waits calls (drainedTo calls session invite ackSent drain) := by
  unfold drainedTo
  split
  · exact panicWith_waits calls _
  · split
    · exact stopWith_waits calls _
    · exact proceedWith_waits calls _ _ ackSent
  · exact loopHead_waits calls
  · exact Or.inl ⟨⟨rfl, rfl⟩, nofun⟩

theorem invitedTo_waits (calls : ℕ) (session : Session)
    (drain : Drain (Except InviteError Call)) (ackSent : Bool) (invite : InviteState) :
    Waits calls (invitedTo calls session drain ackSent invite) := by
  unfold invitedTo
  split
  · exact panicWith_waits calls _
  · split
    · exact drainedTo_waits calls session _ ackSent _
    · exact Or.inl ⟨⟨rfl, rfl⟩, nofun⟩
  · exact Or.inl ⟨⟨rfl, rfl⟩, nofun⟩

theorem boundTo_waits (calls : ℕ) (config : Config) (dial : DialString) (session : Session)
    (port : UInt16) (sessionId : ℕ) :
    Waits calls (boundTo config dial session port sessionId) := by
  unfold boundTo
  split
  · exact panicWith_waits calls _
  · exact Or.inl ⟨⟨rfl, rfl⟩, nofun⟩

theorem polledTo_waits (calls : ℕ) (session : Session) (call : Call) (relay : Relay)
    (datagram : Option Datagram) (ackSent : Bool) :
    Waits calls (polledTo session call relay datagram ackSent) := by
  unfold polledTo
  split
  · exact panicWith_waits calls _
  · cases datagram with
    | none => exact Or.inl ⟨⟨rfl, rfl⟩, nofun⟩
    | some data =>
        dsimp only
        split
        · exact (panicWith_waits calls _).after ⟨rfl, rfl⟩
        · next polled acks hresponse =>
          have hacks := busy_map BridgeShown.sip (fun _ => ⟨rfl, rfl⟩) acks
          exact Or.inl ⟨Busy.append ⟨rfl, rfl⟩ hacks, nofun⟩

theorem byeDone_waits (calls : ℕ) (next : AfterBye) : Waits calls (byeDone calls next) := by
  cases next with
  | noRemoteRtp => exact loopHead_waits calls
  | relayFailed error => exact stopWith_waits calls _
  | teardown session =>
      simp only [byeDone]
      split
      · exact stopWith_waits calls _
      · split
        · exact stopWith_waits calls _
        · exact loopHead_waits calls

theorem relayedTo_ne_waiting (session : Session) (call : Call) (polling : Bool) (relay : Relay)
    (lineBuf : List UInt8) : relayedTo session call polling relay ≠ .waiting lineBuf := by
  cases relay with
  | running loops => exact nofun
  | returned result => cases result <;> exact nofun
  | panicked why => exact nofun

theorem phaseStep_waits {config : Config} {calls : ℕ} {phase : Phase} {e : BridgeEvent}
    {out : BridgeNext} (h : phaseStep config calls phase e = some out) : Waits calls out := by
  unfold phaseStep at h
  split at h
  · split at h
    · contradiction
    · next acts hstep =>
      obtain rfl := Option.some.inj h
      exact (registeredTo_waits calls _).after (busy_map _ (fun _ => ⟨rfl, rfl⟩) acts)
  · split at h
    · obtain rfl := Option.some.inj h
      exact loopHead_waits calls
    · obtain rfl := Option.some.inj h
      exact stopWith_waits calls _
  · split at h
    · obtain rfl := Option.some.inj h
      exact stopWith_waits calls _
    · obtain rfl := Option.some.inj h
      exact boundTo_waits calls config _ _ _ _
  · split at h
    · contradiction
    · next acts hstep =>
      obtain rfl := Option.some.inj h
      exact (invitedTo_waits calls _ _ _ _).after (busy_map _ (fun _ => ⟨rfl, rfl⟩) acts)
  · split at h
    · contradiction
    · next dropped hstep =>
      obtain rfl := Option.some.inj h
      exact (drainedTo_waits calls _ _ _ _).after (busy_map _ (fun _ => ⟨rfl, rfl⟩) dropped)
  · split at h
    · contradiction
    · next dropped hstep =>
      obtain rfl := Option.some.inj h
      exact (drainedTo_waits calls _ _ _ _).after (busy_map _ (fun _ => ⟨rfl, rfl⟩) dropped)
  · split at h
    · contradiction
    · next relay' media hstep =>
      obtain rfl := Option.some.inj h
      refine Or.inl ⟨(busy_map _ (fun _ => ⟨rfl, rfl⟩) media).append ?_,
        relayedTo_ne_waiting _ _ _ _⟩
      cases relay' <;> exact ⟨rfl, rfl⟩
  · obtain rfl := Option.some.inj h
    exact polledTo_waits calls _ _ _ _ _
  · split at h
    · obtain rfl := Option.some.inj h
      exact Or.inl ⟨⟨rfl, rfl⟩, nofun⟩
    · obtain rfl := Option.some.inj h
      exact byeDone_waits calls _
  · split at h
    · obtain rfl := Option.some.inj h
      exact byeDone_waits calls _
    · obtain rfl := Option.some.inj h
      exact (byeDone_waits calls _).after ⟨rfl, rfl⟩
  · contradiction

/-- The waits that a state can have behind it. -/
def waitsAllowed (b : BridgeState) : ℕ :=
  match b.phase with
  | .waiting _ => b.calls + 1
  | .returned _ => callsLimit
  | .panicked _ => callsLimit
  | _ => b.calls

/-- The waits and the dial commands so far keep to the call count. -/
structure Counted (b : BridgeState) (trace : List BridgeShown) : Prop where
  waits : cost waitCost trace ≤ waitsAllowed b
  dials : cost dialCost trace ≤ b.calls
  calls : b.calls ≤ callsLimit
  limit : waitsAllowed b ≤ callsLimit

/-- What a step within the call count does to it. -/
theorem counted_of_waits {calls : ℕ} {next : BridgeNext} {before : List BridgeShown}
    (hwaits : cost waitCost before ≤ calls) (hdials : cost dialCost before ≤ calls)
    (hcalls : calls ≤ callsLimit) (h : Waits calls next) :
    Counted ⟨calls, next.1⟩ (before ++ next.2) := by
  rcases h with ⟨⟨hwait, hdial⟩, hnot⟩ | ⟨hwait, hdial, hbelow, hwaiting⟩
  · have hallowed : calls ≤ waitsAllowed ⟨calls, next.1⟩ ∧
        waitsAllowed ⟨calls, next.1⟩ ≤ callsLimit := by
      unfold waitsAllowed
      split
      · next lineBuf hphase => exact absurd hphase (hnot lineBuf)
      · exact ⟨hcalls, le_rfl⟩
      · exact ⟨hcalls, le_rfl⟩
      · exact ⟨le_rfl, hcalls⟩
    refine ⟨?_, ?_, hcalls, hallowed.2⟩
    · rw [cost_append, hwait]
      exact le_trans hwaits hallowed.1
    · rw [cost_append, hdial]
      exact hdials
  · have hallowed : waitsAllowed ⟨calls, next.1⟩ = calls + 1 := by
      rw [hwaiting]
      rfl
    refine ⟨?_, ?_, hcalls, ?_⟩
    · rw [cost_append, hwait, hallowed]
      omega
    · rw [cost_append, hdial]
      exact hdials
    · rw [hallowed]
      exact hbelow

/-- A dial command, which has been counted. -/
theorem counted_of_dialled {calls : ℕ} {before : List BridgeShown} (ds : Str)
    (tail : List UInt8) (hwaits : cost waitCost before ≤ calls)
    (hdials : cost dialCost before + 1 ≤ calls) (hcalls : calls ≤ callsLimit) :
    Counted ⟨calls, (dialledWith calls ds tail).1⟩
      (before ++ (dialledWith calls ds tail).2) := by
  have hdials' : cost dialCost before ≤ calls := by omega
  unfold dialledWith
  split
  · exact counted_of_waits hwaits hdials' hcalls (loopHead_waits calls)
  · split
    · exact counted_of_waits hwaits hdials' hcalls (stopWith_waits calls _)
    · refine ⟨?_, ?_, hcalls, hcalls⟩
      · rw [cost_append]
        exact hwaits
      · rw [cost_append]
        exact hdials

theorem counted_step {config : Config} {b b' : BridgeState} {e : BridgeEvent}
    {before shown : List BridgeShown} (hcounted : Counted b before)
    (h : (bridgeMachine config).step b e = some (b', shown)) :
    Counted b' (before ++ shown) := by
  obtain ⟨calls, phase⟩ := b
  change bridgeStep config ⟨calls, phase⟩ e = some (b', shown) at h
  unfold bridgeStep at h
  split at h
  · next lineBuf e hphase =>
    subst hphase
    obtain ⟨hwaits, hdials, hcalls, hlimit⟩ := hcounted
    split at h
    · obtain ⟨rfl, rfl⟩ := Prod.mk.inj (Option.some.inj h)
      rw [List.append_nil]
      exact ⟨hwaits, hdials, hcalls, hlimit⟩
    · obtain ⟨rfl, rfl⟩ := Prod.mk.inj (Option.some.inj h)
      refine ⟨?_, ?_, hcalls, le_rfl⟩
      · rw [cost_append]
        exact le_trans hwaits hlimit
      · rw [cost_append]
        exact hdials
    · next ds tail hwait =>
      obtain ⟨rfl, rfl⟩ := Prod.mk.inj (Option.some.inj h)
      exact counted_of_dialled ds tail hwaits (Nat.succ_le_succ hdials) hlimit
  · next e _ _ hnot =>
    split at h
    · contradiction
    · next next acts hstep =>
      obtain ⟨rfl, rfl⟩ := Prod.mk.inj (Option.some.inj h)
      have hallowed : waitsAllowed ⟨calls, phase⟩ = calls := by
        cases phase with
        | waiting lineBuf => simp [phaseStep] at hstep
        | returned result => simp [phaseStep] at hstep
        | panicked why => simp [phaseStep] at hstep
        | _ => rfl
      have hwaits := hcounted.waits
      rw [hallowed] at hwaits
      exact counted_of_waits hwaits hcounted.dials hcounted.calls (phaseStep_waits hstep)

/-! ## Dial commands -/

theorem Parked.dials_eq {next : BridgeNext} (h : Parked next) : cost dialCost next.2 = 0 := by
  cases h <;> rfl

/-- A step shows an accepted dial command by itself, or none. -/
theorem dials_of_stepped {config : Config} {phase phase' : Phase} {e : BridgeEvent}
    {shown : List BridgeShown} (h : PhaseStepped config phase e phase' shown) :
    (∃ tail, shown = [.dialled tail] ∧ phase'.requestsLeft = requestsPerCall) ∨
      cost dialCost shown = 0 := by
  have hsip : ∀ acts : List SipShown, cost dialCost (acts.map .sip) = 0 :=
    fun acts => (busy_map BridgeShown.sip (fun _ => ⟨rfl, rfl⟩) acts).2
  have hdropped : ∀ dropped : List (List UInt8), cost dialCost (dropped.map .drained) = 0 :=
    fun dropped => (busy_map BridgeShown.drained (fun _ => ⟨rfl, rfl⟩) dropped).2
  have hmedia : ∀ media : List RelayShown, cost dialCost (media.map .media) = 0 :=
    fun media => (busy_map BridgeShown.media (fun _ => ⟨rfl, rfl⟩) media).2
  cases h with
  | registers r e next shown hshown hnext =>
      refine Or.inr ?_
      rw [cost_append, hsip]
      cases hnext with
      | running r => rfl
      | ready => rfl
      | parked _ hnext => rw [hnext.dials_eq]
  | readied written next hnext => exact Or.inr hnext.dials_eq
  | waits lineBuf e lineBuf' => exact Or.inr rfl
  | waitEnds lineBuf e next hnext => exact Or.inr hnext.dials_eq
  | dials lineBuf e dial session tail hsession => exact Or.inl ⟨tail, rfl, rfl⟩
  | binds dial session port sessionId args => exact Or.inr rfl
  | bindFails dial session port sessionId next hnext => exact Or.inr hnext.dials_eq
  | invites session drain invite invite' e ackSent acts hstep hreturned hpanicked =>
      exact Or.inr (hsip acts)
  | inviteFails session drain invite invite' e ackSent acts next hstep hfail hnext =>
      refine Or.inr ?_
      rw [cost_append, hsip, hnext.dials_eq]
  | inviteReturns session drain invite e ackSent acts call next hstep hnext =>
      refine Or.inr ?_
      rw [cost_append, hsip]
      cases hnext <;> rfl
  | drains session drain drain' invite e dropped he hdrain => exact Or.inr (hdropped dropped)
  | drainFails session drain invite e dropped next he hnext =>
      refine Or.inr ?_
      rw [cost_append, hdropped, hnext.dials_eq]
  | relays session call polling relay relay' e media hstep =>
      refine Or.inr ?_
      rw [relayStops_of_step hstep, List.append_nil, hmedia]
  | pollSilent session call relay ackSent => exact Or.inr rfl
  | polls session call relay data ackSent polling polled acks hresponse hpolling =>
      refine Or.inr ?_
      rw [cost_cons, hsip]
      rfl
  | pollCrashes session call relay data ackSent why hresponse => exact Or.inr rfl
  | byes call after branchHash => exact Or.inr rfl
  | byeFails call after branchHash next hnext => exact Or.inr hnext.dials_eq
  | byeSilent call after next hnext => exact Or.inr hnext.dials_eq
  | byeAnswered call after data next hnext =>
      refine Or.inr ?_
      rw [cost_cons, hnext.dials_eq]
      rfl

/-! ## The bounds -/

/-- The traffic that a trace shows is bounded. -/
structure Bounded (trace : List BridgeShown) : Prop where
  /-- Two REGISTERs. -/
  registers : cost registerCost trace ≤ 2
  /-- No request besides these before the first dial command. -/
  opening : ∀ before after, trace = before ++ after → cost dialCost before = 0 →
    cost requestCost before = cost registerCost before
  /-- So many requests between one dial command and the next. -/
  calls : ∀ before tail later after, trace = before ++ .dialled tail :: later ++ after →
    cost dialCost later = 0 → cost requestCost later ≤ requestsPerCall
  dials : cost dialCost trace ≤ callsLimit
  waits : cost waitCost trace ≤ callsLimit

/-- The requests that the bridge may still send, renewed by each dial command. -/
def requestAllowance : Monitor ℕ BridgeShown := allowance requestCost dialCost requestsPerCall

/-- A step of the bridge sends no more than its phase has left, and leaves the rest. -/
theorem allowance_step {config : Config} {b b' : BridgeState} {e : BridgeEvent}
    {shown : List BridgeShown} {n : ℕ} (hok : b.phase.Ok) (hleft : b.phase.requestsLeft ≤ n)
    (hstep : (bridgeMachine config).step b e = some (b', shown)) :
    requestAllowance.Accepts n shown ∧
      b'.phase.requestsLeft ≤ requestAllowance.after n shown := by
  obtain ⟨hstepped, -⟩ := bridgeStep_ok hok hstep
  rcases dials_of_stepped hstepped with ⟨tail, rfl, hrenewed⟩ | hnone
  · exact ⟨⟨Nat.zero_le n, trivial⟩, le_of_eq hrenewed⟩
  have hpaid : cost requestCost shown + b'.phase.requestsLeft ≤ b.phase.requestsLeft := by
    by_cases hphase : ∃ r, b.phase = .registering r
    · obtain ⟨r, hr⟩ := hphase
      obtain ⟨e', r', acts, -, hregister, hnext, rfl⟩ := registering_of_step hr hstep
      have hpaid := register_cost (registerStepped_of_step hregister)
      have hrest := registeredTo_cost r'
      rw [hr, hnext, cost_append]
      change _ ≤ RegisterState.requestsLeft r
      omega
    · exact phase_cost (fun r hr => hphase ⟨r, hr⟩) hstepped hnone
  have hspent : cost requestCost shown ≤ n := by omega
  refine ⟨(allowance_accepts_iff hnone).mpr hspent, ?_⟩
  rw [requestAllowance, allowance_after hnone]
  omega

theorem allowance_run {config : Config} {events : List BridgeEvent} {b : BridgeState}
    {trace : List BridgeShown}
    (hrun : (bridgeMachine config).run bridgeStart events = some (b, trace)) :
    requestAllowance.Accepts 2 trace := by
  refine (requestAllowance.accepts_run
    (R := fun b n => b.phase.Ok ∧ b.phase.requestsLeft ≤ n) ?_
    ⟨bridgeStart_ok, le_rfl⟩ hrun).1
  rintro b n e b' shown ⟨hok, hleft⟩ hstep
  obtain ⟨haccepts, hleft'⟩ := allowance_step hok hleft hstep
  exact ⟨haccepts, (bridgeStep_ok hok hstep).2, hleft'⟩

/-- What is no request costs none. -/
theorem costs_of_unsent {o : BridgeShown} (h : ∀ site request, o ≠ .sip (.sent site request)) :
    requestCost o = 0 ∧ registerCost o = 0 := by
  cases o with
  | sip o =>
      cases o with
      | sent site request => exact absurd rfl (h site request)
      | _ => exact ⟨rfl, rfl⟩
  | _ => exact ⟨rfl, rfl⟩

/-- The user agent has no call. -/
def AgentState.Callless : AgentState → Prop
  | .opening => True
  | .registering _ => True
  | .registered => True
  | .idle => True
  | .stopped => True
  | _ => False

/-- Until it takes a dial command a user agent only registers. -/
theorem callless_next {q : AgentState} {o : BridgeShown} (hq : q.Callless) (h : q.allows o)
    (hnone : dialCost o = 0) :
    requestCost o = registerCost o ∧ (q.next o).Callless := by
  by_cases hsent : ∃ site request, o = .sip (.sent site request)
  · obtain ⟨site, request, rfl⟩ := hsent
    cases maySend_of_allows h with
    | register request hcseq hauth => exact ⟨rfl, trivial⟩
    | registerAuth first second hsecond => exact ⟨rfl, trivial⟩
    | _ => exact hq.elim
  · obtain ⟨hrequest, hregister⟩ :=
      costs_of_unsent fun site request heq => hsent ⟨site, request, heq⟩
    refine ⟨hrequest.trans hregister.symm, ?_⟩
    cases o with
    | waiting => trivial
    | stopped => trivial
    | dialled tail => simp [dialCost] at hnone
    | media o => cases q <;> exact hq
    | drained bytes => cases q <;> exact hq
    | sip o =>
        cases o with
        | sent site request => exact absurd ⟨site, request, rfl⟩ hsent
        | answered call resp => cases q <;> exact hq
        | read call resp =>
            cases q with
            | registering request =>
                simp only [AgentState.next]
                split <;> trivial
            | inviting first latest => exact hq.elim
            | _ => exact hq

theorem callless_accepts {q : AgentState} {trace : List BridgeShown} (hq : q.Callless)
    (h : userAgent.Accepts q trace) (hnone : cost dialCost trace = 0) :
    cost requestCost trace = cost registerCost trace := by
  induction trace generalizing q with
  | nil => rfl
  | cons o trace ih =>
      rw [cost_cons, Nat.add_eq_zero_iff] at hnone
      obtain ⟨hrequest, hnext⟩ := callless_next hq h.1 hnone.1
      rw [cost_cons, cost_cons, hrequest, ih hnext h.2 hnone.2]

/-- The REGISTERs that a user agent may still send. -/
def AgentState.registersLeft : AgentState → ℕ
  | .opening => 2
  | .registering request => if request.auth = none then 1 else 0
  | _ => 0

theorem registers_paid (q : AgentState) (o : BridgeShown) (h : q.allows o) :
    registerCost o + (q.next o).registersLeft ≤ q.registersLeft := by
  by_cases hsent : ∃ site request, o = .sip (.sent site request)
  · obtain ⟨site, request, rfl⟩ := hsent
    cases maySend_of_allows h with
    | register request hcseq hauth =>
        simp [registerCost, AgentState.next, AgentState.registersLeft, hauth]
    | registerAuth first second hsecond =>
        obtain ⟨auth, hauth⟩ := Option.isSome_iff_exists.mp hsecond.authorized
        simp [registerCost, AgentState.next, AgentState.registersLeft, hsecond.unauthorized, hauth]
    | ack latest remote call site hsite =>
        rcases hsite with rfl | rfl
        · exact Nat.zero_le _
        · exact Nat.zero_le _
    | _ => exact Nat.zero_le _
  · have hfree := (costs_of_unsent fun site request heq => hsent ⟨site, request, heq⟩).2
    rw [hfree, Nat.zero_add]
    cases o with
    | waiting => exact Nat.zero_le _
    | stopped => exact Nat.zero_le _
    | dialled tail => exact Nat.zero_le _
    | media o => cases q <;> exact le_rfl
    | drained bytes => cases q <;> exact le_rfl
    | sip o =>
        cases o with
        | sent site request => exact absurd ⟨site, request, rfl⟩ hsent
        | answered call resp => cases q <;> exact le_rfl
        | read call resp =>
            cases q with
            | registering request =>
                simp only [AgentState.next]
                split
                · exact Nat.zero_le _
                · exact le_rfl
            | inviting first latest =>
                simp only [AgentState.next]
                split <;> exact le_rfl
            | _ => exact le_rfl

/-- Whatever the trunk and slmodemd do, a bridge sends a bounded number of requests. -/
theorem bridge_bounded {config : Config} {events : List BridgeEvent} {b : BridgeState}
    {trace : List BridgeShown}
    (hrun : (bridgeMachine config).run bridgeStart events = some (b, trace)) :
    Bounded trace := by
  have hcounted : Counted b trace := by
    refine (bridgeMachine config).trace_invariant (I := Counted) ?_ ?_ hrun
    · intro s before e s' shown hs hstep
      exact counted_step hs hstep
    · exact ⟨Nat.zero_le _, Nat.zero_le _, Nat.zero_le _, Nat.zero_le _⟩
  have hagent := (userAgent_run hrun).1
  have hregisters := userAgent.amortized_of_accepts registers_paid hagent
  have hallowed := allowance_run hrun
  constructor
  · exact le_trans (Nat.le_add_right _ _) hregisters
  · rintro before after rfl hnone
    have hopening : AgentState.opening.Callless := trivial
    exact callless_accepts hopening ((userAgent.accepts_append _ _ _).mp hagent).1 hnone
  · rintro before tail later after rfl hnone
    exact cost_le_of_allowance hallowed (by simp [dialCost]) hnone
  · exact le_trans hcounted.dials hcounted.calls
  · exact le_trans hcounted.waits hcounted.limit

/-- One call takes four requests here, the REGISTER included. -/
theorem bridge_bounded_hungUp :
    ∃ t trace,
      (bridgeMachine trunkConfig).run bridgeStart trunkWholeCall = some (t, trace) ∧
        cost requestCost trace = 4 ∧ cost registerCost trace = 1 ∧
        cost dialCost trace = 1 ∧ cost waitCost trace = 2 ∧ Bounded trace := by
  have hcosts : ((bridgeMachine trunkConfig).run bridgeStart trunkWholeCall).map
      (fun end_ => (cost requestCost end_.2, cost registerCost end_.2, cost dialCost end_.2,
        cost waitCost end_.2)) = some (4, 1, 1, 2) := by
    decide +kernel
  obtain ⟨⟨t, trace⟩, hrun, hspent⟩ := Option.map_eq_some_iff.mp hcosts
  simp only [Prod.mk.injEq] at hspent
  obtain ⟨hrequests, hregisters, hdials, hwaits⟩ := hspent
  exact ⟨t, trace, hrun, hrequests, hregisters, hdials, hwaits, bridge_bounded hrun⟩

end SlmodemSipBridge.Bridge
