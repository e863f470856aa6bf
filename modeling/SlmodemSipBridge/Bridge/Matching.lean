import SlmodemSipBridge.Bridge.Reading

/-!
# Responses of other transactions

The filters of `invite` and `poll_answer` look at the CSeq number at most.  What
a response of another transaction does to a call, and which ones do nothing.
-/

namespace SlmodemSipBridge.Bridge

open Rust Transition Sip

/-- A call stands as it stood: in its state, remote tag and endpoint. -/
def SameStanding (call call' : Call) : Prop :=
  call'.state = call.state ∧ call'.remoteTag = call.remoteTag ∧
    call'.remoteRtp = call.remoteRtp

instance (call call' : Call) : Decidable (SameStanding call call') := by
  unfold SameStanding
  infer_instance

/-- `invite` goes on with the call as it stood.  A panic moves no call. -/
def InviteUnmoved (call : Call) : Checked (InviteState × List SipShown) → Prop
  | .ok (.looping l, _) => SameStanding call l.call
  | .ok _ => False
  | .error _ => True

instance (call : Call) : ∀ out, Decidable (InviteUnmoved call out)
  | .ok (.looping l, _) => inferInstanceAs (Decidable (SameStanding call l.call))
  | .ok (.called _, _) => isFalse id
  | .ok (.receiving _, _) => isFalse id
  | .ok (.returned _, _) => isFalse id
  | .ok (.panicked _, _) => isFalse id
  | .error _ => isTrue trivial

/-- `poll_answer` leaves the call as it stood and is called again. -/
def PollUnmoved (call : Call) : Checked (Polled × List SipShown) → Prop
  | .ok (⟨call', .ok false⟩, _) => SameStanding call call'
  | .ok _ => False
  | .error _ => True

instance (call : Call) : ∀ out, Decidable (PollUnmoved call out)
  | .ok (⟨call', .ok false⟩, _) => inferInstanceAs (Decidable (SameStanding call call'))
  | .ok (⟨_, .ok true⟩, _) => isFalse id
  | .ok (⟨_, .error _⟩, _) => isFalse id
  | .error _ => isTrue trivial

/-- A response that `invite` or `poll_answer` takes up moves the call only if it
belongs to the call's current INVITE transaction. -/
def MovedByOwnOnly (config : Config) : Consumed → Prop
  | .byInvite l resp inputs _ =>
      Belongs l.call resp ∨
        InviteUnmoved l.call (inviteResponse config.client l resp inputs)
  | .byPoll call resp ackSent =>
      Belongs call resp ∨ PollUnmoved call (pollResponse call resp ackSent)
  | .byBye _ _ => True

instance (config : Config) : DecidablePred (MovedByOwnOnly config)
  | .byInvite l resp inputs _ =>
      inferInstanceAs (Decidable (Belongs l.call resp ∨
        InviteUnmoved l.call (inviteResponse config.client l resp inputs)))
  | .byPoll call resp ackSent =>
      inferInstanceAs (Decidable (Belongs call resp ∨
        PollUnmoved call (pollResponse call resp ackSent)))
  | .byBye _ _ => isTrue trivial

/-! ## Responses without effect -/

/-- The search for the challenge panics. -/
def ChallengePanics (l : InviteLoop) (status : ℕ) (resp : Str) : Prop :=
  (status = 401 ∨ status = 407) ∧ l.authRetryDone = false ∧
    ∃ why, extractHeader resp (challengeHeader status) = .error why

/-- A first challenge that is answered. -/
def ChallengeAnswered (l : InviteLoop) (status : ℕ) (resp : Str)
    (inputs : AnswerInputs) : Prop :=
  (status = 401 ∨ status = 407) ∧ l.authRetryDone = false ∧
    (usableChallenge status resp).isSome = true ∧ inputs.ackSent = true ∧
    inputs.inviteSent = true

/-- A response that brings no tag, no endpoint and no answer, and rejects
nothing. -/
def Harmless (l : InviteLoop) (status : ℕ) (resp : Str) (inputs : AnswerInputs) :
    Prop :=
  (l.call.remoteTag ≠ none ∨ toTagOf resp = none) ∧ status ≠ 200 ∧
    (status = 180 ∨ status = 183 → acceptedEndpoint resp = none) ∧
    (400 ≤ status ∧ status < 700 → ChallengeAnswered l status resp inputs)

/-- What gets past the filter of `invite` is harmless. -/
def InviteSpared (l : InviteLoop) (resp : Str) (inputs : AnswerInputs) : Prop :=
  ∀ status, Admitted l resp status →
    ChallengePanics l status resp ∨ Harmless l status resp inputs

/-- `poll_answer` finds no status, a provisional one, or a 200 whose To header it
cannot read. -/
def PollSpared (call : Call) (resp : Str) : Prop :=
  ∀ status, parseStatusCode resp = some status →
    (100 ≤ status ∧ status < 200) ∨
      (status = 200 ∧ ∃ why, call.rememberTag resp = .error why)

/-- A response of another transaction is one without effect. -/
def ForeignSpared : Consumed → Prop
  | .byInvite l resp inputs _ => Belongs l.call resp ∨ InviteSpared l resp inputs
  | .byPoll call resp _ => Belongs call resp ∨ PollSpared call resp
  | .byBye _ _ => True

theorem tagged_remoteTag_eq_iff (call : Call) (resp : Str) :
    (call.tagged resp).remoteTag = call.remoteTag ↔
      call.remoteTag ≠ none ∨ toTagOf resp = none := by
  cases htag : call.remoteTag <;> simp [Call.tagged, htag]

theorem inviteSpared_iff {l : InviteLoop} {resp : Str} {inputs : AnswerInputs}
    {status : ℕ} (h : Admitted l resp status) :
    InviteSpared l resp inputs ↔
      ChallengePanics l status resp ∨ Harmless l status resp inputs := by
  constructor
  · intro hspared
    exact hspared status h
  · intro hcase status' h'
    exact h.status_unique h' ▸ hcase

/-- Where the search for the challenge ends, it does not panic. -/
theorem not_challengePanics {l : InviteLoop} {status : ℕ} {resp : Str}
    (hread : ∃ found, extractHeader resp (challengeHeader status) = .ok found) :
    ¬ ChallengePanics l status resp := by
  rintro ⟨-, -, why, hlookup⟩
  obtain ⟨found, hfound⟩ := hread
  simp [hfound] at hlookup

theorem inviteUnmoved_challenge_iff {client : SipClient} {l : InviteLoop} {status : ℕ}
    {resp : Str} {inputs : AnswerInputs} {out : Checked (InviteState × List SipShown)}
    (hstatus : status = 401 ∨ status = 407)
    (hout : ChallengeOutcome client (l.tagged resp) status resp inputs out) :
    InviteUnmoved l.call out ↔
      ChallengePanics l status resp ∨ Harmless l status resp inputs := by
  have hrange : 400 ≤ status ∧ status < 700 := by omega
  cases hout with
  | again hdone =>
      apply iff_of_false id
      rintro (⟨-, hfirst, -⟩ | ⟨-, -, -, hanswered⟩)
      · exact absurd hdone (by simp [InviteLoop.tagged, hfirst])
      · exact absurd hdone (by simp [InviteLoop.tagged, (hanswered hrange).2.1])
  | panicked why hfirst hlookup =>
      exact iff_of_true trivial (Or.inl ⟨hstatus, hfirst, why, hlookup⟩)
  | unusable error hfirst hread hnone =>
      apply iff_of_false id
      rintro (hpanics | ⟨-, -, -, hanswered⟩)
      · exact not_challengePanics hread hpanics
      · have husable := (hanswered hrange).2.2.1
        simp [hnone] at husable
  | ackUnsent digest hfirst hread husable hack =>
      apply iff_of_false id
      rintro (hpanics | ⟨-, -, -, hanswered⟩)
      · exact not_challengePanics hread hpanics
      · have hsent := (hanswered hrange).2.2.2.1
        simp [hack] at hsent
  | retryUnsent digest hfirst hread husable hack hinvite =>
      apply iff_of_false id
      rintro (hpanics | ⟨-, -, -, hanswered⟩)
      · exact not_challengePanics hread hpanics
      · have hsent := (hanswered hrange).2.2.2.2
        simp [hinvite] at hsent
  | retried digest hfirst hread husable hack hinvite =>
      change SameStanding l.call ((l.tagged resp).afterRetry inputs).call ↔ _
      have hstanding : SameStanding l.call ((l.tagged resp).afterRetry inputs).call ↔
          (l.call.tagged resp).remoteTag = l.call.remoteTag := by
        constructor
        · intro hsame
          exact hsame.2.1
        · intro htag
          exact ⟨rfl, htag, rfl⟩
      rw [hstanding, tagged_remoteTag_eq_iff]
      constructor
      · intro htag
        have hanswered : ChallengeAnswered l status resp inputs :=
          ⟨hstatus, hfirst, by simp [husable], hack, hinvite⟩
        exact Or.inr ⟨htag, by omega, by omega, fun _ => hanswered⟩
      · rintro (hpanics | ⟨htag, -⟩)
        · exact absurd hpanics (not_challengePanics hread)
        · exact htag

theorem inviteUnmoved_dispatch_iff {client : SipClient} {l : InviteLoop} {status : ℕ}
    {resp : Str} {inputs : AnswerInputs} {out : Checked (InviteState × List SipShown)}
    (hout : DispatchOutcome client (l.tagged resp) status resp inputs out) :
    InviteUnmoved l.call out ↔
      ChallengePanics l status resp ∨ Harmless l status resp inputs := by
  have hkept : ∀ l' : InviteLoop, l'.call = l.call.tagged resp →
      (SameStanding l.call l'.call ↔ l.call.remoteTag ≠ none ∨ toTagOf resp = none) := by
    intro l' hl'
    rw [← tagged_remoteTag_eq_iff, hl']
    constructor
    · intro hsame
      exact hsame.2.1
    · intro htag
      exact ⟨rfl, htag, rfl⟩
  cases hout with
  | trying hstatus =>
      rw [InviteUnmoved, hkept _ rfl]
      constructor
      · intro htag
        exact Or.inr ⟨htag, by omega, by omega, by omega⟩
      · rintro (⟨hauth, -⟩ | ⟨htag, -⟩)
        · omega
        · exact htag
  | ringing hstatus hnone =>
      rw [InviteUnmoved, hkept _ rfl]
      constructor
      · intro htag
        exact Or.inr ⟨htag, by omega, fun _ => hnone, by omega⟩
      · rintro (⟨hauth, -⟩ | ⟨htag, -⟩)
        · omega
        · exact htag
  | earlyMedia rtpAddr hstatus hsome =>
      apply iff_of_false id
      rintro (⟨hauth, -⟩ | ⟨-, -, hsdp, -⟩)
      · omega
      · simp [hsdp hstatus] at hsome
  | answered hstatus =>
      apply iff_of_false id
      rintro (⟨hauth, -⟩ | ⟨-, hne, -⟩)
      · omega
      · exact hne hstatus
  | challenged _ hstatus hchallenge => exact inviteUnmoved_challenge_iff hstatus hchallenge
  | rejected hstatus hother hack =>
      apply iff_of_false id
      rintro (⟨hauth, -⟩ | ⟨-, -, -, hanswered⟩)
      · omega
      · have hauth := (hanswered hstatus).1
        omega
  | rejectedUnsent hstatus hother hack =>
      apply iff_of_false id
      rintro (⟨hauth, -⟩ | ⟨-, -, -, hanswered⟩)
      · omega
      · have hauth := (hanswered hstatus).1
        omega
  | unexpected hstatus =>
      rw [InviteUnmoved, hkept _ rfl]
      constructor
      · intro htag
        exact Or.inr ⟨htag, by omega, by omega, fun h => absurd h hstatus.2.2.2.2⟩
      · rintro (⟨hauth, -⟩ | ⟨htag, -⟩)
        · omega
        · exact htag

/-- `invite` leaves the call as it stood exactly when the response is spared. -/
theorem inviteUnmoved_iff {client : SipClient} {l : InviteLoop} {resp : Str}
    {inputs : AnswerInputs} {out : Checked (InviteState × List SipShown)}
    (hout : ResponseOutcome client l resp inputs out) :
    InviteUnmoved l.call out ↔ InviteSpared l resp inputs := by
  have hsame : SameStanding l.call l.call := ⟨rfl, rfl, rfl⟩
  cases hout with
  | unparsed hstatus =>
      apply iff_of_true hsame
      intro status hadmitted
      simp [hadmitted.status_eq] at hstatus
  | stale status hstatus hstale =>
      apply iff_of_true hsame
      intro status hadmitted
      simp [hadmitted.fresh] at hstale
  | badCseq status why hstatus hpanic =>
      apply iff_of_true trivial
      intro status hadmitted
      simp [hadmitted.fresh] at hpanic
  | badTo status why hstatus hfresh hpanic =>
      apply iff_of_true trivial
      intro status hadmitted
      simp [hadmitted.remembered] at hpanic
  | admitted status out hadmitted hdispatch =>
      rw [inviteSpared_iff hadmitted]
      exact inviteUnmoved_dispatch_iff hdispatch

/-- `poll_answer` leaves the call as it stood exactly when the response is
spared. -/
theorem pollUnmoved_iff {call : Call} {resp : Str} {ackSent : Bool}
    {out : Checked (Polled × List SipShown)}
    (hout : PollOutcome call resp ackSent out) :
    PollUnmoved call out ↔ PollSpared call resp := by
  have hsame : SameStanding call call := ⟨rfl, rfl, rfl⟩
  have hone : ∀ {status status' : ℕ}, parseStatusCode resp = some status →
      parseStatusCode resp = some status' → status' = status := by
    intro status status' h h'
    simpa [h] using h'.symm
  cases hout with
  | unparsed hstatus =>
      apply iff_of_true hsame
      intro status h
      simp [hstatus] at h
  | provisional status hstatus hrange =>
      refine iff_of_true hsame fun status' h => Or.inl ?_
      exact hone hstatus h ▸ hrange
  | badTo why hstatus hpanic =>
      refine iff_of_true trivial fun status' h => Or.inr ?_
      exact ⟨hone hstatus h, why, hpanic⟩
  | answered hstatus hremembered hack =>
      apply iff_of_false id
      intro h
      rcases h 200 hstatus with hrange | ⟨-, why, hpanic⟩
      · omega
      · simp [hremembered] at hpanic
  | ackUnsent hstatus hremembered hack =>
      apply iff_of_false id
      intro h
      rcases h 200 hstatus with hrange | ⟨-, why, hpanic⟩
      · omega
      · simp [hremembered] at hpanic
  | failed status hstatus hother =>
      apply iff_of_false id
      intro h
      rcases h status hstatus with hrange | ⟨h200, -⟩
      · exact hother.1 hrange
      · exact hother.2 h200

theorem movedByOwnOnly_iff (config : Config) (c : Consumed) :
    MovedByOwnOnly config c ↔ ForeignSpared c := by
  cases c with
  | byInvite l resp inputs ackSent =>
      exact or_congr_right (inviteUnmoved_iff (inviteResponse_outcome _ _ _ _))
  | byPoll call resp ackSent =>
      exact or_congr_right (pollUnmoved_iff (pollResponse_outcome _ _ _))
  | byBye call resp => exact Iff.rfl

/-! ## How a call got where it is -/

/-- If the call of the phase is in early media or answered, a response of its
own transaction has been read. -/
def StandsByOwn (phase : Phase) (trace : List BridgeShown) : Prop :=
  ∀ call, phase.call = some call → call.state ≠ .trying →
    ∃ own resp, .sip (.read (some own) resp) ∈ trace ∧ Belongs own resp ∧
      own.callId = call.callId

theorem standsByOwn_of_call_eq_none {phase : Phase} (h : phase.call = none)
    (trace : List BridgeShown) : StandsByOwn phase trace := by
  intro call hcall
  simp [h] at hcall

/-- A later phase with the same call. -/
theorem StandsByOwn.mono {phase phase' : Phase} {before : List BridgeShown}
    (h : StandsByOwn phase before)
    (hcall : ∀ call', phase'.call = some call' → ∃ call, phase.call = some call ∧
      call.callId = call'.callId ∧ (call'.state ≠ .trying → call.state ≠ .trying))
    (shown : List BridgeShown) : StandsByOwn phase' (before ++ shown) := by
  intro call' hcall' hstate'
  obtain ⟨call, hsome, hid, hstate⟩ := hcall call' hcall'
  obtain ⟨own, resp, hread, hbelongs, hown⟩ := h call hsome (hstate hstate')
  exact ⟨own, resp, List.mem_append_left shown hread, hbelongs, hown.trans hid⟩

theorem standsByOwn_step {config : Config} {b b' : BridgeState} {e : BridgeEvent}
    {before shown : List BridgeShown} (hok : b.phase.Ok)
    (hstands : StandsByOwn b.phase before)
    (hstep : PhaseStepped config b.phase e b'.phase shown) (hspared : Reads ForeignSpared b e) :
    StandsByOwn b'.phase (before ++ shown) := by
  obtain ⟨calls, phase⟩ := b
  obtain ⟨calls', phase'⟩ := b'
  have hparked : ∀ {next : BridgeNext}, Parked next → StandsByOwn next.1 (before ++ shown) :=
    fun h => standsByOwn_of_call_eq_none h.call_eq _
  cases hstep with
  | registers r e next shown hshown hnext =>
      cases hnext with
      | running r => exact standsByOwn_of_call_eq_none rfl _
      | ready => exact standsByOwn_of_call_eq_none rfl _
      | parked _ hnext => exact hparked hnext
  | readied written next hnext => exact hparked hnext
  | waits lineBuf e lineBuf' => exact standsByOwn_of_call_eq_none rfl _
  | waitEnds lineBuf e next hnext => exact hparked hnext
  | dials lineBuf e dial session tail hsession => exact standsByOwn_of_call_eq_none rfl _
  | binds dial session port sessionId args => exact standsByOwn_of_call_eq_none rfl _
  | bindFails dial session port sessionId next hnext => exact hparked hnext
  | invites session drain invite invite' e ackSent shown hstep hreturned hpanicked =>
      -- During setup the call is neither in early media nor answered.
      have hway := inviteUnderWay_of_stepped hok.2.2 hstep hreturned hpanicked
      intro call hcall hstate
      cases invite' with
      | looping l =>
          simp only [Phase.call, inviteCall, Option.some.injEq] at hcall
          exact absurd (hcall ▸ hway.2) hstate
      | receiving l =>
          simp only [Phase.call, inviteCall, Option.some.injEq] at hcall
          exact absurd (hcall ▸ hway.2) hstate
      | called args => simp [Phase.call, inviteCall] at hcall
      | returned result => exact absurd rfl (hreturned result)
      | panicked why => exact absurd rfl (hpanicked why)
  | inviteFails _ _ _ _ _ _ _ next _ _ hnext => exact hparked hnext
  | inviteReturns session drain invite e ackSent shown call next hstep hnext =>
      obtain ⟨l, data, inputs, rest, rfl, rfl, hresponse, rfl⟩ :=
        response_of_returned hstep rfl
      intro call' hcall' hstate'
      obtain rfl := hnext.call_eq hcall'
      have hbelongs : Belongs l.call (fromUtf8Lossy data.val) := by
        rcases hspared _ rfl with hbelongs | hspared
        · exact hbelongs
        · exact absurd ((inviteUnmoved_iff hresponse).mpr hspared) id
      refine ⟨l.call, fromUtf8Lossy data.val, by simp, hbelongs, ?_⟩
      cases acceptedBy_of_outcome hresponse <;> rfl
  | drains session drain drain' invite e dropped he hdrain =>
      exact hstands.mono (fun call' hcall' => ⟨call', hcall', rfl, id⟩) _
  | drainFails _ _ _ _ _ next _ hnext => exact hparked hnext
  | relays session call polling relay relay' e shown hstep =>
      apply hstands.mono
      intro call' hcall'
      obtain rfl := relayedTo_call_eq hcall'
      exact ⟨call', rfl, rfl, id⟩
  | pollSilent session call relay ackSent =>
      exact hstands.mono (fun call' hcall' => ⟨call', hcall', rfl, id⟩) _
  | polls session call relay data ackSent polling polled acks hresponse hpolling =>
      apply hstands.mono
      intro call' hcall'
      simp only [Phase.call, Option.some.injEq] at hcall'
      subst hcall'
      have hearly : call.state ≠ .trying := by
        rw [hok.2.2 rfl]
        simp
      refine ⟨call, rfl, ?_, fun _ => hearly⟩
      cases hresponse <;> rfl
  | pollCrashes _ _ _ _ _ _ _ => exact standsByOwn_of_call_eq_none rfl _
  | byes call after branchHash =>
      exact hstands.mono (fun call' hcall' => ⟨call', hcall', rfl, id⟩) _
  | byeFails _ _ _ next hnext => exact hparked hnext
  | byeSilent _ _ next hnext => exact hparked hnext
  | byeAnswered _ _ _ next hnext => exact hparked hnext

/-! ## Whole runs -/

/-- Calls are moved by the responses of their own transaction only, in a whole
run, exactly when the responses of other transactions are without effect; and
then every call that is in early media or answered is so by a response of its
own. -/
theorem bridge_movedByOwnOnly_iff
    (config : Config) (events : List BridgeEvent) (t : BridgeState)
    (trace : List BridgeShown)
    (hrun : (bridgeMachine config).run bridgeStart events = some (t, trace)) :
    ((bridgeMachine config).Guarded (Reads (MovedByOwnOnly config)) bridgeStart events ↔
        (bridgeMachine config).Guarded (Reads ForeignSpared) bridgeStart events) ∧
      ((bridgeMachine config).Guarded (Reads ForeignSpared) bridgeStart events →
        StandsByOwn t.phase trace) := by
  constructor
  · refine (bridgeMachine config).every_congr (I := fun _ => True) ?_ trivial events
    intro b e b' shown _ _
    exact ⟨forall₂_congr fun c _ => movedByOwnOnly_iff config c, fun _ => trivial⟩
  · intro hguarded
    have hinvariant := (bridgeMachine config).invariant_run
      (I := fun b before => b.phase.Ok ∧ StandsByOwn b.phase before) ?_ []
      ⟨bridgeStart_ok, standsByOwn_of_call_eq_none rfl []⟩ hguarded hrun
    · exact hinvariant.2
    · rintro b before e b' shown ⟨hok, hstands⟩ hstep hspared
      obtain ⟨hstepped, hok'⟩ := bridgeStep_ok hok hstep
      exact ⟨hok', standsByOwn_step hok hstands hstepped hspared⟩

theorem bridge_movedByOwnOnly_answeredByTrunk :
    ∃ t trace,
      (bridgeMachine trunkConfig).run bridgeStart trunkAnswered = some (t, trace) ∧
        t.phase.call.map Call.state = some .answered ∧ StandsByOwn t.phase trace := by
  obtain ⟨hanswered, hown⟩ :
      ((bridgeMachine trunkConfig).run bridgeStart trunkAnswered).map
        (fun end_ => end_.1.phase.call.map Call.state) = some (some .answered) ∧
      (bridgeMachine trunkConfig).Guarded (Reads (MovedByOwnOnly trunkConfig)) bridgeStart
        trunkAnswered := by
    decide +kernel
  obtain ⟨⟨t, trace⟩, hrun, hstate⟩ := Option.map_eq_some_iff.mp hanswered
  obtain ⟨hiff, hstands⟩ :=
    bridge_movedByOwnOnly_iff trunkConfig trunkAnswered t trace hrun
  exact ⟨t, trace, hrun, hstate, hstands (hiff.mp hown)⟩

/-- The answer to the REGISTER comes a second time, after the INVITE. -/
def answeredByDuplicate : List BridgeEvent :=
  trunkSetup ++ [.invite (.received (some registerOk) answerInputs) true]

/-- The duplicate answers the call. -/
theorem bridge_movedByOwnOnly_answeredByDuplicate :
    ((bridgeMachine trunkConfig).run bridgeStart answeredByDuplicate).map
        (fun end_ => end_.1.phase.call.map Call.state) = some (some .answered) ∧
      ¬ (bridgeMachine trunkConfig).Guarded (Reads (MovedByOwnOnly trunkConfig)) bridgeStart
        answeredByDuplicate := by
  decide +kernel

end SlmodemSipBridge.Bridge
