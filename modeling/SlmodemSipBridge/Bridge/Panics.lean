import SlmodemSipBridge.Bridge.DialGrammar
import SlmodemSipBridge.Sip.Offer
import SlmodemSipBridge.Sip.Readable
import SlmodemSipBridge.Sip.Registration

/-!
# Where the bridge can panic

Every panic of a run: one of five guards of the source does not hold any more, or the
response that has just been read cannot be searched for a header.
-/

namespace SlmodemSipBridge.Bridge

open Rust Transition Media Rtp Sip

/-! ## The guards -/

/-- The assertions of the source that a run can violate, and the one addition that can
overflow. -/
inductive Guard where
  | calls
  | port
  | deadline
  | responses
  | drain

/-- The panic of a guard. -/
def Guard.panic : Guard → Panic
  | .calls => .assertion "exceeded call limit of 1000 — aborting to prevent runaway loop"
  | .port => .assertion "RTP port must be positive, got 0"
  | .deadline => .instantOverflow
  | .responses => .assertion "INVITE response loop exceeded 1000 iterations"
  | .drain => .assertion "drain loop exceeded 500 iterations — SIP setup stuck"

/-- A step violates a guard: the bridge has counted its last call, was given no port, waits
for an answer longer than its clock can count, or has used up the turns of one of its
loops. -/
def Guard.Violated (b : BridgeState) (e : BridgeEvent) (b' : BridgeState) : Guard → Prop
  | .calls => callsLimit ≤ b'.calls
  | .port => ∃ sessionId, e = .rtpBound (some 0) sessionId
  | .deadline => ∃ session drain args ids ackSent,
      b.phase = .setup session drain (.called args) ∧ e = .invite (.start ids) ackSent ∧
        instantLimit ≤ ids.deadlineBase + args.inviteTimeout
  | .responses => ∃ session drain l, b.phase = .setup session drain (.looping l) ∧
      responseLoopLimit ≤ l.iterations
  | .drain => ∃ session iterations drainedBytes invite,
      b.phase = .setup session (.draining iterations drainedBytes) invite ∧
        drainIterationsLimit ≤ iterations

/-- Why a step panics. -/
def PanicsBy (b : BridgeState) (e : BridgeEvent) (b' : BridgeState) (shown : List BridgeShown)
    (why : Panic) : Prop :=
  (∃ guard : Guard, guard.Violated b e b' ∧ why = guard.panic) ∨
    ∃ call resp, shown = [.sip (.read call resp), .stopped] ∧ ¬ ParsersReturn resp

/-! ## What the readers return -/

section Returns

variable {resp : Str} (h : ParsersReturn resp)
include h

theorem isStale_returns (cseq : ℕ) : ∃ stale, isStale cseq resp = .ok stale := by
  obtain ⟨num, hnum⟩ := h.cseqNum
  cases num with
  | none => exact ⟨false, by simp [isStale, hnum, bind, Except.bind, pure, Except.pure]⟩
  | some n =>
      exact ⟨n != cseq, by simp only [isStale, hnum, bind, Except.bind, pure, Except.pure]⟩

theorem rememberTag_returns (call : Call) (why : Panic) : call.rememberTag resp ≠ .error why := by
  intro herror
  obtain ⟨found, hfound⟩ := h.header _ to_mem_asked
  rw [(rememberTag_eq_error herror).2] at hfound
  contradiction

theorem registerFirst_returns (client : SipClient) (callId tag : Str) (retry : RegisterRetry)
    (why : Panic) : registerFirst client callId tag resp retry ≠ .error why := by
  intro herror
  obtain ⟨next, acts, hfirst, -⟩ := registerFirst_of_readable client none retry
    (fun _ => (extractHeader_ok_iff wwwAuthenticate_mem_asked resp).mp
      (h.header _ wwwAuthenticate_mem_asked))
  rw [herror] at hfirst
  contradiction

theorem registerSecond_returns (deadline : ℕ) (why : Panic) :
    registerSecond deadline resp ≠ .error why := by
  intro herror
  obtain ⟨stale, hstale⟩ := isStale_returns h 2
  simp only [registerSecond, hstale, bind, Except.bind, pure, Except.pure] at herror
  split at herror
  · contradiction
  · split at herror <;> contradiction

theorem inviteResponse_returns {client : SipClient} {l : InviteLoop} {inputs : AnswerInputs}
    {why : Panic} : ¬ ResponseOutcome client l resp inputs (.error why) := by
  intro hout
  cases hout with
  | badCseq status _ hstatus hpanic =>
      obtain ⟨stale, hstale⟩ := isStale_returns h l.call.cseq
      rw [hpanic] at hstale
      contradiction
  | badTo status _ hstatus hfresh hpanic => exact rememberTag_returns h l.call why hpanic
  | admitted status _ hadmitted hdispatch =>
      cases hdispatch with
      | challenged _ hstatus hchallenge =>
          cases hchallenge with
          | panicked _ hfirst hlookup =>
              obtain ⟨found, hfound⟩ := h.header _ (challengeHeader_mem_asked status)
              rw [hlookup] at hfound
              contradiction

theorem pollResponse_returns {call : Call} {ackSent : Bool} {why : Panic} :
    ¬ PollOutcome call resp ackSent (.error why) := by
  intro hout
  cases hout with
  | badTo _ hstatus hpanic => exact rememberTag_returns h call why hpanic

end Returns

/-! ## The parts of a step -/

theorem loopHead_panics {calls : ℕ} {why : Panic} (h : (loopHead calls).1 = .panicked why) :
    callsLimit ≤ calls ∧ why = Guard.calls.panic := by
  by_cases hcalls : calls < callsLimit
  · simp [loopHead, hcalls] at h
  · simp only [loopHead, hcalls, decide_false, assert_false, panicWith, Phase.panicked.injEq] at h
    exact ⟨Nat.le_of_not_lt hcalls, h.symm⟩

theorem byeDone_panics {calls : ℕ} {after : AfterBye} {why : Panic}
    (h : (byeDone calls after).1 = .panicked why) :
    callsLimit ≤ calls ∧ why = Guard.calls.panic := by
  cases after with
  | noRemoteRtp => exact loopHead_panics h
  | relayFailed error => simp [byeDone, stopWith] at h
  | teardown session =>
      simp only [byeDone] at h
      cases hfirst : session.transition .terminating with
      | error e => simp [hfirst, stopWith] at h
      | ok session =>
          simp only [hfirst] at h
          cases hsecond : session.transition .terminated with
          | error e => simp [hsecond, stopWith] at h
          | ok session => exact loopHead_panics (by simpa only [hsecond] using h)

theorem proceedWith_ne_panicked {session : Session} {call : Call} {ackSent : Bool} (why : Panic) :
    (proceedWith session call ackSent).1 ≠ .panicked why := by
  have hrelay : ∀ remoteRtp, (relayTo session call remoteRtp).1 ≠ .panicked why := by
    intro remoteRtp
    unfold relayTo
    split <;> simp [stopWith]
  unfold proceedWith
  split
  · simp
  · split
    · split
      · exact hrelay _
      · simp [stopWith]
    · exact hrelay _

theorem drainedTo_panics {calls : ℕ} {session : Session} {invite : InviteState} {ackSent : Bool}
    {drain : Drain (Except InviteError Call)} {why : Panic}
    (h : (drainedTo calls session invite ackSent drain).1 = .panicked why) :
    drain = .panicked why ∨ callsLimit ≤ calls ∧ why = Guard.calls.panic := by
  unfold drainedTo at h
  split at h
  · exact Or.inl (congrArg Drain.panicked (Phase.panicked.inj h))
  · split at h
    · simp [stopWith] at h
    · exact absurd h (proceedWith_ne_panicked why)
  · exact Or.inr (loopHead_panics h)
  · simp at h

theorem drainHead_panics {ρ : Type} {iterations drainedBytes : ℕ} {why : Panic}
    (h : (drainHead iterations drainedBytes : Drain ρ) = .panicked why) :
    drainIterationsLimit ≤ iterations ∧ why = Guard.drain.panic := by
  by_cases hlimit : iterations < drainIterationsLimit
  · simp [drainHead, hlimit] at h
  · simp only [drainHead, hlimit, decide_false, assert_false, Drain.panicked.injEq] at h
    exact ⟨Nat.le_of_not_lt hlimit, h.symm⟩

theorem drainStep_panics {ρ : Type} {iterations drainedBytes : ℕ} {e : DrainEvent ρ}
    {dropped : List (List UInt8)} {why : Panic}
    (h : drainStep (.draining iterations drainedBytes) e = some (.panicked why, dropped)) :
    drainIterationsLimit ≤ iterations ∧ why = Guard.drain.panic := by
  cases e with
  | setupDone result => simp [drainStep] at h
  | slRead read =>
      cases read with
      | none => simp [drainStep] at h
      | some data =>
          simp only [drainStep] at h
          split at h
          · simp at h
          · exact drainHead_panics (Prod.mk.inj (Option.some.inj h)).1
  | silenceTick written =>
      simp only [drainStep] at h
      split at h
      · exact drainHead_panics (Prod.mk.inj (Option.some.inj h)).1
      · simp at h

theorem inviteHead_panics {l : InviteLoop} {inputs : HeadInputs} {why : Panic}
    (h : (inviteHead l inputs).1 = .panicked why) :
    responseLoopLimit ≤ l.iterations ∧ why = Guard.responses.panic := by
  by_cases hlimit : l.iterations < responseLoopLimit
  · simp only [inviteHead, hlimit, decide_true, assert_true] at h
    split at h
    · simp at h
    · split at h
      · split at h <;> simp at h
      · simp at h
  · simp only [inviteHead, hlimit, decide_false, assert_false, InviteState.panicked.injEq] at h
    exact ⟨Nat.le_of_not_lt hlimit, h.symm⟩

/-- A dial string is not empty. -/
theorem dial_ne_nil {client : SipClient} {dial : DialString} {args : InviteArgs}
    (h : (InviteState.called args).IsFor client (client.inviteUri dial.text)) : args.dial ≠ [] := by
  have hdial : args.dial = dial.text := by
    simpa [InviteState.IsFor, SipClient.inviteUri] using h
  rw [hdial]
  exact dial.ne

theorem invite_panics {client : SipClient} {dial : DialString} {s s' : InviteState}
    {e : InviteEvent} {acts : List SipShown} {why : Panic}
    (hs : s.IsFor client (client.inviteUri dial.text)) (h : InviteStepped client s e s' acts)
    (hpanic : s' = .panicked why) :
    (∃ l, s = .looping l ∧ responseLoopLimit ≤ l.iterations ∧ why = Guard.responses.panic) ∨
      (∃ args ids, s = .called args ∧ e = .start ids ∧
        instantLimit ≤ ids.deadlineBase + args.inviteTimeout ∧ why = Guard.deadline.panic) ∨
      ∃ call resp, acts = [.read call resp] ∧ ¬ ParsersReturn resp := by
  cases h with
  | start args ids =>
      have hout := inviteStart_outcome client args ids
      generalize inviteStart client args ids = out at hout hpanic
      cases hout with
      | undialable _ hdial => exact absurd hdial (dial_ne_nil hs)
      | unsent hsent => simp at hpanic
      | overflowed hsent hdeadline =>
          exact Or.inr (Or.inl ⟨args, ids, rfl, rfl, Nat.le_of_not_lt hdeadline,
            (InviteState.panicked.inj hpanic).symm⟩)
      | sent hsent hdeadline => simp at hpanic
  | head l inputs =>
      obtain ⟨hlimit, hwhy⟩ := inviteHead_panics hpanic
      exact Or.inl ⟨l, rfl, hlimit, hwhy⟩
  | silent l inputs => simp at hpanic
  | response l data inputs next shown hresponse =>
      rcases next_of_response hresponse with ⟨l', rfl⟩ | ⟨result, rfl⟩ <;> simp at hpanic
  | crash l data inputs _ hresponse =>
      exact Or.inr (Or.inr
        ⟨_, _, rfl, fun hreturns => inviteResponse_returns hreturns hresponse⟩)

theorem register_panics {client : SipClient} {r r' : RegisterState} {e : RegisterEvent}
    {acts : List SipShown} {why : Panic}
    (h : (registerMachine client).step r e = some (r', acts)) (hpanic : r' = .panicked why) :
    ∃ resp, acts = [.read none resp] ∧ ¬ ParsersReturn resp := by
  cases registerStepped_of_step h with
  | first callId tag data retry acts hfirst =>
      cases (registerFirst_eq_ok client (some data) retry hfirst).2 <;> simp at hpanic
  | firstPanics callId tag data retry _ hfirst =>
      exact ⟨_, rfl, fun hreturns =>
        registerFirst_returns hreturns client callId tag retry _ hfirst⟩
  | second deadline data hsecond =>
      obtain ⟨-, ⟨-, hnext⟩ | ⟨-, ⟨result, hnext⟩, -⟩⟩ :=
        registerSecond_eq_ok client (.received (some data)) hsecond
      · simp [hnext] at hpanic
      · simp [hnext] at hpanic
  | secondPanics deadline data _ hsecond =>
      exact ⟨_, rfl, fun hreturns => registerSecond_returns hreturns deadline _ hsecond⟩
  | _ => simp at hpanic

/-! ## Every step -/

theorem panicsBy_calls {b b' : BridgeState} {e : BridgeEvent} {shown : List BridgeShown}
    {why : Panic} (h : callsLimit ≤ b'.calls ∧ why = Guard.calls.panic) :
    PanicsBy b e b' shown why :=
  Or.inl ⟨.calls, h.1, h.2⟩

theorem draining_panics {calls : ℕ} {session : Session}
    {drain drain' : Drain (Except InviteError Call)} {invite : InviteState} {e : BridgeEvent}
    {ev : DrainEvent (Except InviteError Call)} {dropped : List (List UInt8)}
    {b' : BridgeState} {shown : List BridgeShown} {why : Panic}
    (hdrain : ∃ iterations drainedBytes, drain = .draining iterations drainedBytes)
    (hstep : drainStep drain ev = some (drain', dropped))
    (hpanic : (drainedTo calls session invite false drain').1 = .panicked why)
    (hcalls : b'.calls = calls) :
    PanicsBy ⟨calls, .setup session drain invite⟩ e b' shown why := by
  obtain ⟨iterations, drainedBytes, rfl⟩ := hdrain
  rcases drainedTo_panics hpanic with rfl | hcount
  · obtain ⟨hlimit, hwhy⟩ := drainStep_panics hstep
    exact Or.inl ⟨.drain, ⟨session, _, _, invite, rfl, hlimit⟩, hwhy⟩
  · exact panicsBy_calls (hcalls ▸ hcount)

theorem setup_panics {config : Config} {calls : ℕ} {session : Session}
    {drain : Drain (Except InviteError Call)} {invite : InviteState} {dial : DialString}
    {e : InviteEvent} {ackSent : Bool} {invite' : InviteState} {acts : List SipShown} {why : Panic}
    (hinvite : invite.IsFor config.client (config.client.inviteUri dial.text))
    (hdrain : ∃ iterations drainedBytes, drain = .draining iterations drainedBytes)
    (hstep : InviteStepped config.client invite e invite' acts)
    (hpanic : (invitedTo calls session drain ackSent invite').1 = .panicked why) :
    PanicsBy ⟨calls, .setup session drain invite⟩ (.invite e ackSent)
      ⟨calls, (invitedTo calls session drain ackSent invite').1⟩
      (acts.map .sip ++ (invitedTo calls session drain ackSent invite').2) why := by
  obtain ⟨iterations, drainedBytes, rfl⟩ := hdrain
  cases invite' with
  | panicked why' =>
      obtain rfl : why' = why := by simpa [invitedTo, panicWith] using hpanic
      rcases invite_panics hinvite hstep rfl with
        ⟨l, rfl, hlimit, hwhy⟩ | ⟨args, ids, rfl, rfl, hlate, hwhy⟩ | ⟨call, resp, rfl, hnot⟩
      · exact Or.inl ⟨.responses, ⟨session, _, l, rfl, hlimit⟩, hwhy⟩
      · exact Or.inl ⟨.deadline, ⟨session, _, args, ids, ackSent, rfl, rfl, hlate⟩, hwhy⟩
      · exact Or.inr ⟨call, resp, rfl, hnot⟩
  | returned result =>
      simp only [invitedTo, drainStep] at hpanic
      rcases drainedTo_panics hpanic with hdrained | ⟨hcalls, hwhy⟩
      · contradiction
      · exact Or.inl ⟨.calls, hcalls, hwhy⟩
  | called args => simp [invitedTo] at hpanic
  | looping l => simp [invitedTo] at hpanic
  | receiving l => simp [invitedTo] at hpanic

theorem phaseStep_panics {config : Config} {calls : ℕ} {phase : Phase} {e : BridgeEvent}
    {next : BridgeNext} {why : Panic} (hok : phase.Ok) (hdialled : phase.Dialled config.client)
    (h : phaseStep config calls phase e = some next) (hpanic : next.1 = .panicked why) :
    PanicsBy ⟨calls, phase⟩ e ⟨calls, next.1⟩ next.2 why := by
  unfold phaseStep at h
  split at h
  · next r e =>
    cases hstep : registerStep config.client r e with
    | none => simp [hstep] at h
    | some out =>
        obtain ⟨r', acts⟩ := out
        simp only [hstep, Option.some.injEq] at h
        subst h
        cases r' with
        | panicked why' =>
            obtain ⟨resp, rfl, hnot⟩ := register_panics hstep rfl
            exact Or.inr ⟨none, resp, rfl, hnot⟩
        | returned result =>
            cases result <;> simp [registeredTo, stopWith, BridgeNext.after] at hpanic
        | _ => simp [registeredTo, BridgeNext.after] at hpanic
  · next written =>
    cases written with
    | true =>
        simp only [if_true, Option.some.injEq] at h
        subst h
        exact panicsBy_calls (loopHead_panics hpanic)
    | false =>
        simp only [Bool.false_eq_true, if_false, Option.some.injEq] at h
        subst h
        simp [stopWith] at hpanic
  · next dial session port sessionId =>
    cases port with
    | none =>
        simp only [Option.some.injEq] at h
        subst h
        simp [stopWith] at hpanic
    | some port =>
        simp only [Option.some.injEq] at h
        subst h
        by_cases hport : 0 < port
        · simp [boundTo, Sdp.buildOffer_eq _ hport] at hpanic
        · obtain rfl : port = 0 := by
            rw [← UInt16.toNat_inj]
            have hzero := UInt16.lt_iff_toNat_lt.not.mp hport
            simpa using hzero
          simp only [boundTo, Sdp.buildOffer, hport, decide_false, assert_false, bind, Except.bind,
            panicWith, Phase.panicked.injEq] at hpanic
          exact Or.inl ⟨.port, ⟨sessionId, rfl⟩, hpanic.symm⟩
  · next session drain invite e ackSent =>
    obtain ⟨dial, hinvite⟩ := hdialled
    cases hstep : inviteStep config.client invite e with
    | none => simp [hstep] at h
    | some out =>
        simp only [hstep, Option.some.injEq] at h
        subst h
        exact setup_panics hinvite hok.2.1 (inviteStepped_of_step hstep) hpanic
  · next session drain invite read =>
    cases hstep : drainStep drain (.slRead read) with
    | none => simp [hstep] at h
    | some out =>
        simp only [hstep, Option.some.injEq] at h
        subst h
        exact draining_panics hok.2.1 hstep hpanic rfl
  · next session drain invite written =>
    cases hstep : drainStep drain (.silenceTick written) with
    | none => simp [hstep] at h
    | some out =>
        simp only [hstep, Option.some.injEq] at h
        subst h
        exact draining_panics hok.2.1 hstep hpanic rfl
  · next session call polling relay e =>
    cases hstep : relayStep relay e with
    | none => simp [hstep] at h
    | some out =>
        obtain ⟨relay', media⟩ := out
        simp only [hstep, Option.some.injEq] at h
        subst h
        cases relay' with
        | panicked why' => exact absurd rfl (relayStep_ne_panicked hstep why')
        | returned result => cases result <;> simp [relayedTo] at hpanic
        | running loops => simp [relayedTo] at hpanic
  · next session call relay datagram ackSent =>
    simp only [Option.some.injEq] at h
    subst h
    have hstepped := polledTo_stepped config session call relay datagram ackSent (hok.2.2 rfl)
    generalize polledTo session call relay datagram ackSent = next at hstepped hpanic
    obtain ⟨phase', shown⟩ := next
    obtain rfl : phase' = .panicked why := hpanic
    cases hstepped with
    | pollCrashes _ _ _ data _ _ hresponse =>
        exact Or.inr ⟨_, _, rfl, fun hreturns => pollResponse_returns hreturns hresponse⟩
  · next call after branchHash sent =>
    cases sent with
    | true =>
        simp only [if_true, Option.some.injEq] at h
        subst h
        simp at hpanic
    | false =>
        simp only [Bool.false_eq_true, if_false, Option.some.injEq] at h
        subst h
        exact panicsBy_calls (byeDone_panics hpanic)
  · next call after datagram =>
    cases datagram with
    | none =>
        simp only [Option.some.injEq] at h
        subst h
        exact panicsBy_calls (byeDone_panics hpanic)
    | some data =>
        simp only [Option.some.injEq] at h
        subst h
        exact panicsBy_calls (byeDone_panics hpanic)
  · simp at h

/-- A step that panics violates a guard, or has read a response that cannot be searched. -/
theorem bridgeStep_panics {config : Config} {b b' : BridgeState} {e : BridgeEvent}
    {shown : List BridgeShown} {why : Panic} (hok : b.phase.Ok)
    (hdialled : b.phase.Dialled config.client)
    (h : (bridgeMachine config).step b e = some (b', shown)) (hpanic : b'.phase = .panicked why) :
    PanicsBy b e b' shown why := by
  obtain ⟨calls, phase⟩ := b
  change bridgeStep config ⟨calls, phase⟩ e = some (b', shown) at h
  unfold bridgeStep at h
  split at h
  · next lineBuf e heq =>
    subst heq
    cases hwait : waitStep lineBuf e with
    | waiting lineBuf' =>
        simp only [hwait, Option.some.injEq, Prod.mk.injEq] at h
        obtain ⟨rfl, -⟩ := h
        simp at hpanic
    | closed =>
        simp only [hwait, Option.some.injEq, Prod.mk.injEq] at h
        obtain ⟨rfl, -⟩ := h
        simp at hpanic
    | dialled ds tail =>
        simp only [hwait, Option.some.injEq, Prod.mk.injEq] at h
        obtain ⟨rfl, -⟩ := h
        unfold dialledWith at hpanic
        split at hpanic
        · exact panicsBy_calls (loopHead_panics hpanic)
        · split at hpanic <;> simp [stopWith] at hpanic
  · next e _ _ heq =>
    cases hstep : phaseStep config calls phase e with
    | none => simp [hstep] at h
    | some next =>
        simp only [hstep, Option.some.injEq, Prod.mk.injEq] at h
        obtain ⟨rfl, rfl⟩ := h
        exact phaseStep_panics hok hdialled hstep hpanic

/-- What the bridge dials in a run is an accepted dial string. -/
theorem dialled_of_run {config : Config} {events : List BridgeEvent} {b : BridgeState}
    {trace : List BridgeShown}
    (hrun : (bridgeMachine config).run bridgeStart events = some (b, trace)) :
    b.phase.Ok ∧ b.phase.Dialled config.client := by
  refine (bridgeMachine config).invariant_of_step
    (I := fun b => b.phase.Ok ∧ b.phase.Dialled config.client) ?_ ⟨bridgeStart_ok, trivial⟩ hrun
  rintro b e b' shown ⟨hok, hdialled⟩ hstep
  obtain ⟨hstepped, hok'⟩ := bridgeStep_ok hok hstep
  exact ⟨hok', (hstepped.dialled hdialled fun _ _ hphase => binding_dialled hphase hstep).2⟩

/-- The last step of a run that panics says why. -/
theorem panics_run {config : Config} {events : List BridgeEvent} {b : BridgeState}
    {trace : List BridgeShown} {why : Panic}
    (hrun : (bridgeMachine config).run bridgeStart events = some (b, trace))
    (hpanic : b.phase = .panicked why) :
    ∃ es e b₀ before shown, events = es ++ [e] ∧ trace = before ++ shown ∧
      (bridgeMachine config).run bridgeStart es = some (b₀, before) ∧
      PanicsBy b₀ e b shown why := by
  rcases List.eq_nil_or_concat events with rfl | ⟨es, e, rfl⟩
  · obtain ⟨rfl, -⟩ := (bridgeMachine config).run_nil_eq_some_iff.mp hrun
    contradiction
  · rw [List.concat_eq_append] at hrun ⊢
    obtain ⟨b₀, before, later, hbefore, hlast, rfl⟩ :=
      (bridgeMachine config).run_append_eq_some_iff.mp hrun
    obtain ⟨b', shown, rest, hstep, hnil, rfl⟩ :=
      (bridgeMachine config).run_cons_eq_some_iff.mp hlast
    obtain ⟨rfl, rfl⟩ := (bridgeMachine config).run_nil_eq_some_iff.mp hnil
    obtain ⟨hok, hdialled⟩ := dialled_of_run hbefore
    exact ⟨es, e, b₀, before, shown, rfl, by rw [List.append_nil], hbefore,
      bridgeStep_panics hok hdialled hstep hpanic⟩

/-- Nothing follows a panic. -/
theorem no_step_of_panicked (config : Config) {b : BridgeState} {why : Panic}
    (hpanic : b.phase = .panicked why) (e : BridgeEvent) :
    (bridgeMachine config).step b e = none := by
  obtain ⟨calls, phase⟩ := b
  obtain rfl : phase = .panicked why := hpanic
  rfl

/-- Whatever its peers do, the bridge panics only in its last step, and only at a step that
violates one of its guards, or at one that has just read a response in which the search
for a header compares a line across a character. -/
theorem bridge_panics {config : Config} {events : List BridgeEvent} {b : BridgeState}
    {trace : List BridgeShown} {why : Panic}
    (hrun : (bridgeMachine config).run bridgeStart events = some (b, trace))
    (hpanic : b.phase = .panicked why) :
    (∀ e, (bridgeMachine config).step b e = none) ∧
      ∃ es e b₀ before shown, events = es ++ [e] ∧ trace = before ++ shown ∧
        (bridgeMachine config).run bridgeStart es = some (b₀, before) ∧
        PanicsBy b₀ e b shown why :=
  ⟨no_step_of_panicked config hpanic, panics_run hrun hpanic⟩

/-- The panic that a phase is the end of. -/
def Phase.panic : Phase → Option Panic
  | .panicked why => some why
  | _ => none

/-- The answer to the INVITE has a line in front of its To header that cannot be
compared. -/
def trunkEuro : List BridgeEvent :=
  trunkSetup ++ [.invite (.received (some ⟨euroDatagram, by decide⟩) answerInputs) true]

theorem bridge_panics_euro :
    ∃ t trace why, (bridgeMachine trunkConfig).run bridgeStart trunkEuro = some (t, trace) ∧
      t.phase = .panicked why ∧ (∀ e, (bridgeMachine trunkConfig).step t e = none) ∧
        ∃ es e b₀ before shown, trunkEuro = es ++ [e] ∧ trace = before ++ shown ∧
          (bridgeMachine trunkConfig).run bridgeStart es = some (b₀, before) ∧
          PanicsBy b₀ e t shown why := by
  have hends : ((bridgeMachine trunkConfig).run bridgeStart trunkEuro).map
      (fun end_ => end_.1.phase.panic) = some (some .notCharBoundary) := by
    decide +kernel
  obtain ⟨⟨t, trace⟩, hrun, hpanic⟩ := Option.map_eq_some_iff.mp hends
  have hphase : t.phase = .panicked .notCharBoundary := by
    simp only [Phase.panic] at hpanic
    split at hpanic
    · next why heq => rw [heq, Option.some.inj hpanic]
    · contradiction
  exact ⟨t, trace, _, hrun, hphase, bridge_panics hrun hphase⟩

end SlmodemSipBridge.Bridge
