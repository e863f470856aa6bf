import SlmodemSipBridge.Bridge.Reading

/-!
# Acknowledging the answer

A 200 to the INVITE of the current call may be read by `invite`, by `poll_answer`
or while the response to a BYE is waited for.  Which of them are acknowledged.
-/

namespace SlmodemSipBridge.Bridge

open Rust Transition Media Rtp Sip

/-- The response is a 200 to the call's INVITE. -/
def IsAnswer (call : Call) (resp : Str) : Prop :=
  parseStatusCode resp = some 200 ∧ Belongs call resp

instance (call : Call) (resp : Str) : Decidable (IsAnswer call resp) := by
  unfold IsAnswer
  infer_instance

/-- The Call-ID of the answer that waits for its ACK, once a response is read. -/
def pendingAfter (q : Option Str) (call : Call) (resp : Str) : Option Str :=
  if IsAnswer call resp then some call.callId else q

/-- Remembers an answer that is read until an ACK for its call is sent.  Meanwhile
neither a BYE nor the next dial string may come, nor may `run` end. -/
def ackMonitor : Monitor (Option Str) BridgeShown where
  next q
    | .sip (.read (some call) resp) => pendingAfter q call resp
    | .sip (.sent _ (.ack call)) => if q = some call.callId then none else q
    | _ => q
  allows q
    | .sip (.sent _ (.bye _ _)) => q = none
    | .waiting => q = none
    | .stopped => q = none
    | _ => True

/-- Every answer that is read is acknowledged in time. -/
def AnswersAcked (trace : List BridgeShown) : Prop :=
  ackMonitor.Accepts none trace ∧ ackMonitor.after none trace = none

instance : ∀ q o, Decidable (ackMonitor.allows q o)
  | q, .sip (.sent _ (.bye _ _)) => inferInstanceAs (Decidable (q = none))
  | _, .sip (.sent _ (.register _)) => isTrue trivial
  | _, .sip (.sent _ (.invite _)) => isTrue trivial
  | _, .sip (.sent _ (.ack _)) => isTrue trivial
  | _, .sip (.answered _ _) => isTrue trivial
  | _, .sip (.read _ _) => isTrue trivial
  | _, .media _ => isTrue trivial
  | _, .dialled _ => isTrue trivial
  | _, .drained _ => isTrue trivial
  | q, .waiting => inferInstanceAs (Decidable (q = none))
  | q, .stopped => inferInstanceAs (Decidable (q = none))

instance (trace : List BridgeShown) : Decidable (AnswersAcked trace) := by
  unfold AnswersAcked
  infer_instance

/-! ## When an answer is acknowledged -/

/-- The answer is read by `invite` and has an SDP that is accepted, or it is read by
`poll_answer`; no search for a header panics, and the ACK can be sent. -/
def AnswerServed : Consumed → Prop
  | .byInvite l resp _ ackSent =>
      Admitted l resp 200 ∧ (acceptedEndpoint resp).isSome = true ∧ ackSent = true
  | .byPoll call resp ackSent =>
      (∃ call', call.rememberTag resp = .ok call') ∧ ackSent = true
  | .byBye _ _ => False

/-- Every answer that is read gets its due. -/
def AnswerDue (c : Consumed) : Prop := IsAnswer c.call c.resp → AnswerServed c

/-- An answer waits for its ACK, and none will be sent any more. -/
def Unacknowledged (phase : Phase) (q : Option Str) : Prop :=
  q ≠ none ∧
    match phase with
    | .relaying _ _ polling _ => polling = false
    | .hangingUp _ _ => True
    | _ => False

theorem ackMonitor_accepts_read (q : Option Str) (call : Call) (resp : Str)
    (shown : List BridgeShown) :
    ackMonitor.Accepts q (.sip (.read (some call) resp) :: shown) ↔
      ackMonitor.Accepts (pendingAfter q call resp) shown :=
  and_iff_right trivial

theorem ackMonitor_after_read (q : Option Str) (call : Call) (resp : Str)
    (shown : List BridgeShown) :
    ackMonitor.after q (.sip (.read (some call) resp) :: shown) =
      ackMonitor.after (pendingAfter q call resp) shown :=
  rfl

theorem IsPlain.ackMonitor_ignores {o : BridgeShown} (h : IsPlain o) :
    ackMonitor.Ignores o := by
  cases h <;> exact fun q => ⟨trivial, rfl⟩

/-- The bridge is done with a call only if no answer waits. -/
theorem Parked.ackMonitor_iff {next : BridgeNext} (h : Parked next) (q : Option Str) :
    (ackMonitor.Accepts q next.2 ↔ q = none) ∧ ackMonitor.after q next.2 = q := by
  cases h with
  | waiting => exact ⟨and_iff_left trivial, rfl⟩
  | returned result => exact ⟨and_iff_left trivial, rfl⟩
  | panicked why => exact ⟨and_iff_left trivial, rfl⟩

theorem ackMonitor_ignores_media (relayShown : List RelayShown) :
    ∀ o ∈ relayShown.map BridgeShown.media, ackMonitor.Ignores o :=
  List.forall_mem_map.mpr fun _ _ _ => ⟨trivial, rfl⟩

/-! ## The steps that read no response -/

/-- While no answer waits, they are accepted. -/
theorem Unread.accepts {phase phase' : Phase} {shown : List BridgeShown}
    (h : Unread phase phase' shown) :
    ackMonitor.Accepts none shown ∧ ackMonitor.after none shown = none := by
  cases h with
  | prepares _ _ _ hbefore hafter hplain =>
      exact ackMonitor.accepts_of_ignored (fun o ho => (hplain o ho).ackMonitor_ignores) none
  | parks _ plain next hplain hnext =>
      obtain ⟨hiff, hsame⟩ :=
        ackMonitor.ignored_append (fun o ho => (hplain o ho).ackMonitor_ignores) none
          next.2
      obtain ⟨hpassed, hkept⟩ := hnext.ackMonitor_iff none
      rw [hiff, hsame]
      exact ⟨hpassed.mpr rfl, hkept⟩
  | relays session call polling relay relay' e relayShown hstep =>
      rw [relayStops_of_step hstep, List.append_nil]
      exact ackMonitor.accepts_of_ignored (ackMonitor_ignores_media relayShown) none
  | pollSilent session call relay => exact ⟨trivial, rfl⟩
  | byes call after branchHash => exact ⟨⟨rfl, trivial⟩, rfl⟩

/-- An answer that waits in vain goes on doing so. -/
theorem Unread.unacknowledged {phase phase' : Phase} {shown : List BridgeShown}
    {q : Option Str} (hlost : Unacknowledged phase q) (h : Unread phase phase' shown)
    (haccepts : ackMonitor.Accepts q shown) :
    Unacknowledged phase' (ackMonitor.after q shown) := by
  obtain ⟨hpending, hphase⟩ := hlost
  cases h with
  | prepares _ _ _ hbefore hafter hplain =>
      cases hbefore <;> exact absurd hphase id
  | parks _ plain next hplain hnext =>
      obtain ⟨hiff, -⟩ :=
        ackMonitor.ignored_append (fun o ho => (hplain o ho).ackMonitor_ignores) q next.2
      rw [hiff] at haccepts
      exact absurd ((hnext.ackMonitor_iff q).1.mp haccepts) hpending
  | relays session call polling relay relay' e relayShown hstep =>
      obtain ⟨-, hsame⟩ :=
        ackMonitor.accepts_of_ignored (ackMonitor_ignores_media relayShown) q
      rw [relayStops_of_step hstep, List.append_nil, hsame]
      cases relay' with
      | running loops => exact ⟨hpending, hphase⟩
      | returned result => cases result <;> exact ⟨hpending, trivial⟩
      | panicked why => exact absurd rfl (relayStep_ne_panicked hstep why)
  | pollSilent session call relay => exact absurd hphase (by simp)
  | byes call after branchHash => exact absurd haccepts.1 hpending

/-- Where an answer waits in vain, no response is read. -/
theorem ReadStepped.not_unacknowledged {config : Config} {phase phase' : Phase}
    {c : Consumed} {shown : List BridgeShown} {q : Option Str}
    (h : ReadStepped config phase c phase' shown) : ¬ Unacknowledged phase q := by
  rintro ⟨-, hphase⟩
  cases h with
  | polls _ _ _ _ _ _ _ _ _ _ => simp at hphase
  | pollCrashes _ _ _ _ _ _ _ => simp at hphase
  | _ => exact hphase

/-! ## The steps that read a response -/

theorem pendingAfter_of_answer {call : Call} {resp : Str} (h : IsAnswer call resp)
    (q : Option Str) : pendingAfter q call resp = some call.callId :=
  if_pos h

theorem pendingAfter_of_other {call : Call} {resp : Str} (h : ¬ IsAnswer call resp)
    (q : Option Str) : pendingAfter q call resp = q :=
  if_neg h

/-- While no answer waits, requests are accepted. -/
theorem accepts_sent {acks : List SipShown}
    (h : ∀ o ∈ acks, ∃ site request, o = .sent site request) :
    ackMonitor.Accepts none (acks.map .sip) ∧
      ackMonitor.after none (acks.map .sip) = none := by
  induction acks with
  | nil => exact ⟨trivial, rfl⟩
  | cons o acks ih =>
      obtain ⟨haccepts, hsame⟩ := ih fun o' ho' => h o' (List.mem_cons_of_mem o ho')
      obtain ⟨site, request, rfl⟩ := h o List.mem_cons_self
      cases request with
      | bye call branch => exact ⟨⟨rfl, haccepts⟩, hsame⟩
      | _ => exact ⟨⟨trivial, haccepts⟩, hsame⟩

/-- An answer that `invite` reads sets the call up, unless `invite` panics. -/
theorem not_isAnswer_of_response {client : SipClient} {l : InviteLoop} {resp : Str}
    {inputs : AnswerInputs} {next : InviteState} {acks : List SipShown}
    (h : ResponseOutcome client l resp inputs (.ok (next, acks)))
    (hnext : ∀ call, next ≠ .returned (.ok call)) : ¬ IsAnswer l.call resp := by
  rintro ⟨h200, hbelongs⟩
  rcases acks_of_response h hnext with
    ⟨status, _, _, hadmitted, hacked, -, -⟩ | ⟨-, hsilent⟩
  · have hstatus := hadmitted.status_eq.symm.trans h200
    have hrange := hacked.1
    rw [Option.some.injEq] at hstatus
    omega
  · cases h with
    | unparsed hnone => simp [h200] at hnone
    | stale status _ hstale => exact hbelongs.isStale_ne hstale
    | admitted status _ hadmitted hdispatch =>
        have hstatus := hadmitted.status_eq.symm.trans h200
        rw [Option.some.injEq] at hstatus
        exact (hsilent status hadmitted).1 hstatus

/-- A response that is no answer is read, and the bridge is done with the call. -/
theorem accepts_parked {call : Call} {resp : Str} {acks : List SipShown}
    {next : BridgeNext} (hother : ¬ IsAnswer call resp)
    (hacks : ∀ o ∈ acks, ∃ site request, o = .sent site request) (hnext : Parked next) :
    ackMonitor.Accepts none (.sip (.read (some call) resp) :: (acks.map .sip ++ next.2)) ∧
      ackMonitor.after none (.sip (.read (some call) resp) :: (acks.map .sip ++ next.2)) =
        none := by
  obtain ⟨haccepts, hsame⟩ := accepts_sent hacks
  obtain ⟨hpassed, hkept⟩ := hnext.ackMonitor_iff none
  rw [ackMonitor_accepts_read, ackMonitor_after_read, pendingAfter_of_other hother,
    Monitor.accepts_append, Monitor.after_append, hsame]
  exact ⟨⟨haccepts, hpassed.mpr rfl⟩, hkept⟩

/-- An answer is read, and the bridge is done with the call: that is refused. -/
theorem not_accepts_parked {call : Call} {resp : Str} {next : BridgeNext}
    (hanswer : IsAnswer call resp) (hnext : Parked next) :
    ¬ ackMonitor.Accepts none (.sip (.read (some call) resp) :: next.2) := by
  rw [ackMonitor_accepts_read, pendingAfter_of_answer hanswer, (hnext.ackMonitor_iff _).1]
  simp

/-- What a step that reads a response does to the answers that wait. -/
def Settles (c : Consumed) (phase' : Phase) (shown : List BridgeShown) : Prop :=
  (AnswerDue c → ackMonitor.Accepts none shown ∧ ackMonitor.after none shown = none) ∧
    (¬ AnswerDue c → ackMonitor.Accepts none shown →
      Unacknowledged phase' (ackMonitor.after none shown))

theorem settles_of_other {c : Consumed} {phase' : Phase} {shown : List BridgeShown}
    (hother : ¬ IsAnswer c.call c.resp)
    (h : ackMonitor.Accepts none shown ∧ ackMonitor.after none shown = none) :
    Settles c phase' shown :=
  ⟨fun _ => h, fun hdue => absurd (fun hanswer => absurd hanswer hother) hdue⟩

theorem settles_of_refused {c : Consumed} {phase' : Phase} {shown : List BridgeShown}
    (hanswer : IsAnswer c.call c.resp) (hserved : ¬ AnswerServed c)
    (h : ¬ ackMonitor.Accepts none shown) : Settles c phase' shown :=
  ⟨fun hdue => absurd (hdue hanswer) hserved, fun _ haccepts => absurd haccepts h⟩

/-- An answer that sets the call up is acknowledged exactly when it has an SDP and
the ACK can be sent. -/
theorem inviteReturns_settles {l : InviteLoop} {resp : Str} (inputs : AnswerInputs)
    {ackSent : Bool} {call : Call} {acks : List SipShown} {next : BridgeNext}
    (hrtp : l.call.remoteRtp = none) (haccepted : AcceptedBy l resp call acks)
    (hnext : SetupEnd call ackSent next) :
    Settles (.byInvite l resp inputs ackSent) next.1
      (.sip (.read (some l.call) resp) :: (acks.map .sip ++ next.2)) := by
  cases haccepted with
  | earlyMedia status rtpAddr hadmitted hstatus hsome =>
      have hother : ¬ IsAnswer l.call resp := by
        rintro ⟨h200, -⟩
        have heq := hadmitted.status_eq.symm.trans h200
        rw [Option.some.injEq] at heq
        omega
      refine settles_of_other hother ?_
      rw [ackMonitor_accepts_read, ackMonitor_after_read, pendingAfter_of_other hother]
      cases hnext with
      | noRemoteRtp hnone => simp at hnone
      | ackUnsent _ _ hstate _ => simp at hstate
      | acked _ _ _ hstate _ _ => simp at hstate
      | unanswered _ _ _ _ _ _ _ => exact ⟨trivial, rfl⟩
  | answered hadmitted =>
      have hendpoint : ((l.call.tagged resp).answeredBy resp).remoteRtp =
          acceptedEndpoint resp := by
        change (acceptedEndpoint resp).or l.call.remoteRtp = _
        rw [hrtp, Option.or_none]
      by_cases hanswer : IsAnswer l.call resp
      · have hpending := pendingAfter_of_answer hanswer none
        cases hnext with
        | noRemoteRtp hnone =>
            constructor
            · intro hdue
              have hsome := (hdue hanswer).2.1
              rw [hendpoint] at hnone
              simp [hnone] at hsome
            · intro _ _
              rw [ackMonitor_after_read, hpending]
              exact ⟨by simp [ackMonitor, Monitor.after], trivial⟩
        | ackUnsent remoteRtp _ _ hack =>
            refine settles_of_refused hanswer ?_ ?_
            · intro hserved
              simp [hserved.2.2] at hack
            · rw [ackMonitor_accepts_read, hpending]
              rintro ⟨-, hstopped, -⟩
              simp [ackMonitor] at hstopped
        | acked session remoteRtp hsome hstate hack hsession =>
            have hserved : AnswerServed (.byInvite l resp inputs ackSent) :=
              ⟨hadmitted, by simp [← hendpoint, hsome], hack⟩
            constructor
            · intro _
              rw [ackMonitor_accepts_read, ackMonitor_after_read, hpending]
              exact ⟨⟨trivial, trivial, trivial⟩, if_pos rfl⟩
            · intro hdue
              exact absurd (fun _ => hserved) hdue
        | unanswered _ _ _ _ hstate _ _ => exact absurd rfl hstate
      · refine settles_of_other hanswer ?_
        rw [ackMonitor_accepts_read, ackMonitor_after_read, pendingAfter_of_other hanswer]
        cases hnext with
        | noRemoteRtp _ => exact ⟨⟨trivial, trivial⟩, rfl⟩
        | ackUnsent _ _ _ _ => exact ⟨⟨trivial, rfl, trivial⟩, rfl⟩
        | acked _ _ _ _ _ _ => exact ⟨⟨trivial, trivial, trivial⟩, rfl⟩
        | unanswered _ _ _ _ hstate _ _ => exact absurd rfl hstate

theorem polls_settles {session : Session} {call : Call} {relay : Relay} {resp : Str}
    {ackSent polling : Bool} {polled : Polled} {acks : List SipShown}
    (hresponse : PollOutcome call resp ackSent (.ok (polled, acks)))
    (hpolling : polling = true ↔ polled.result = .ok false) :
    Settles (.byPoll call resp ackSent) (.relaying session polled.call polling relay)
      (.sip (.read (some call) resp) :: acks.map .sip) := by
  rcases hresponse.silent_or_answered with
    ⟨hne, hcall, rfl⟩ | ⟨h200, hremembered, hcall, hdone, rfl⟩
  · have hother : ¬ IsAnswer call resp := by
      intro hanswer
      exact hne hanswer.1
    refine settles_of_other hother ?_
    rw [ackMonitor_accepts_read, ackMonitor_after_read, pendingAfter_of_other hother]
    exact ⟨trivial, rfl⟩
  · by_cases hanswer : IsAnswer call resp
    · have hpending := pendingAfter_of_answer hanswer none
      cases ackSent with
      | true =>
          have hserved : AnswerServed (.byPoll call resp true) := ⟨⟨_, hremembered⟩, rfl⟩
          constructor
          · intro _
            rw [ackMonitor_accepts_read, ackMonitor_after_read, hpending]
            exact ⟨⟨trivial, trivial, trivial⟩, if_pos rfl⟩
          · intro hdue
            exact absurd (fun _ => hserved) hdue
      | false =>
          -- The answer waits, and the poll loop has ended.
          have hstopped : polling = false := by simpa [hdone] using hpolling
          constructor
          · intro hdue
            simpa using (hdue hanswer).2
          · intro _ _
            rw [ackMonitor_after_read, hpending]
            exact ⟨by simp [ackMonitor, Monitor.after], hstopped⟩
    · refine settles_of_other hanswer ?_
      rw [ackMonitor_accepts_read, ackMonitor_after_read, pendingAfter_of_other hanswer]
      cases ackSent with
      | true => exact ⟨⟨trivial, trivial, trivial⟩, rfl⟩
      | false => exact ⟨⟨trivial, trivial⟩, rfl⟩

/-- A step that reads a response settles it exactly when an answer gets its due. -/
theorem ReadStepped.settles {config : Config} {phase phase' : Phase} {c : Consumed}
    {shown : List BridgeShown} (hok : phase.Ok)
    (h : ReadStepped config phase c phase' shown) : Settles c phase' shown := by
  have hnone : ∀ o ∈ ([] : List SipShown), ∃ site request, o = .sent site request := by
    simp
  cases h with
  | invites session drain l l' resp inputs ackSent acks hresponse =>
      have hother := not_isAnswer_of_response hresponse (by simp)
      refine settles_of_other hother ?_
      rw [ackMonitor_accepts_read, ackMonitor_after_read, pendingAfter_of_other hother]
      exact accepts_sent (sent_of_response hresponse (by simp))
  | inviteFails session drain l resp inputs ackSent error acks next hresponse hnext =>
      have hother := not_isAnswer_of_response hresponse (by simp)
      exact settles_of_other hother
        (accepts_parked hother (sent_of_response hresponse (by simp)) hnext)
  | inviteCrashes session drain l resp inputs ackSent why next hresponse hnext =>
      by_cases hanswer : IsAnswer l.call resp
      · have hunserved : ¬ AnswerServed (.byInvite l resp inputs ackSent) := by
          intro hserved
          exact (not_acked_of_crash hresponse hserved.1).1 rfl
        exact settles_of_refused hanswer hunserved (not_accepts_parked hanswer hnext)
      · exact settles_of_other hanswer
          (accepts_parked hanswer hnone hnext)
  | inviteReturns session drain l resp inputs ackSent call acks next hresponse hnext =>
      exact inviteReturns_settles inputs hok.2.2.1 (acceptedBy_of_outcome hresponse) hnext
  | polls session call relay resp ackSent polling polled acks hresponse hpolling =>
      exact polls_settles hresponse hpolling
  | pollCrashes session call relay resp ackSent why hresponse =>
      by_cases hanswer : IsAnswer call resp
      · have hunserved : ¬ AnswerServed (.byPoll call resp ackSent) := by
          rintro ⟨⟨call', hread⟩, -⟩
          cases hresponse with
          | badTo _ _ hpanic => simp [hread] at hpanic
        exact settles_of_refused hanswer hunserved
          (not_accepts_parked hanswer (.panicked why))
      · exact settles_of_other hanswer
          (accepts_parked hanswer hnone (.panicked why))
  | byeAnswered call after resp next hnext =>
      by_cases hanswer : IsAnswer call resp
      · exact settles_of_refused hanswer id (not_accepts_parked hanswer hnext)
      · exact settles_of_other hanswer
          (accepts_parked hanswer hnone hnext)

/-! ## Whole runs -/

/-- In a run, every answer that is read is acknowledged in time exactly when every
one gets its due. -/
theorem bridge_answersAcked_iff
    (config : Config) (events : List BridgeEvent) (t : BridgeState)
    (trace : List BridgeShown)
    (hrun : (bridgeMachine config).run bridgeStart events = some (t, trace)) :
    AnswersAcked trace ↔
      (bridgeMachine config).Guarded (Reads AnswerDue) bridgeStart events := by
  refine ackMonitor.settles_run_iff (F := fun q => q = none)
    (R := fun (b : BridgeState) q => b.phase.Ok ∧ q = none)
    (D := fun (b : BridgeState) q => b.phase.Ok ∧ Unacknowledged b.phase q)
    ?_ ?_ (fun _ _ h => h.2) (fun _ _ h => h.2.1) ⟨bridgeStart_ok, rfl⟩ hrun
  · rintro b q e b' shown ⟨hok, rfl⟩ hstep
    obtain ⟨hstepped, hok'⟩ := bridgeStep_ok hok hstep
    cases hc : consumed b.phase e with
    | none =>
        obtain ⟨haccepts, hsame⟩ := (unread_of_stepped hstepped hc).accepts
        exact ⟨fun _ => ⟨haccepts, hok', hsame⟩, fun hdue => absurd (reads_of_none hc) hdue⟩
    | some c =>
        obtain ⟨hserved, hlost⟩ := (readStepped_of_stepped hstepped hc).settles hok
        rw [reads_iff hc]
        constructor
        · intro hdue
          obtain ⟨haccepts, hsame⟩ := hserved hdue
          exact ⟨haccepts, hok', hsame⟩
        · intro hundue haccepts
          exact ⟨hok', hlost hundue haccepts⟩
  · rintro b q e b' shown ⟨hok, hlost⟩ hstep haccepts
    obtain ⟨hstepped, hok'⟩ := bridgeStep_ok hok hstep
    refine ⟨hok', ?_⟩
    cases hc : consumed b.phase e with
    | none => exact (unread_of_stepped hstepped hc).unacknowledged hlost haccepts
    | some c =>
        exact absurd hlost (readStepped_of_stepped hstepped hc).not_unacknowledged

theorem bridge_answersAcked_answeredByTrunk :
    ∃ t trace,
      (bridgeMachine trunkConfig).run bridgeStart trunkAnswered = some (t, trace) ∧
        AnswersAcked trace ∧
        (bridgeMachine trunkConfig).Guarded (Reads AnswerDue) bridgeStart
          trunkAnswered := by
  have hacked :
      ((bridgeMachine trunkConfig).run bridgeStart trunkAnswered).map
        (fun end_ => decide (AnswersAcked end_.2)) = some true := by
    decide +kernel
  obtain ⟨⟨t, trace⟩, hrun, htrue⟩ := Option.map_eq_some_iff.mp hacked
  have hanswers := of_decide_eq_true htrue
  exact ⟨t, trace, hrun, hanswers,
    (bridge_answersAcked_iff trunkConfig trunkAnswered t trace hrun).mp hanswers⟩

/-- The trunk answers without an SDP, and the bridge hangs up. -/
def hungUpUnacked : List BridgeEvent :=
  trunkSetup ++
    [.invite (.received (some trunkBareAnswer) answerInputs) true, .bye 6 true]

/-- The BYE is sent, and the ACK never was. -/
theorem bridge_answersAcked_bareAnswer :
    ∃ t trace,
      (bridgeMachine trunkConfig).run bridgeStart hungUpUnacked = some (t, trace) ∧
        ¬ AnswersAcked trace := by
  have hunacked :
      ((bridgeMachine trunkConfig).run bridgeStart hungUpUnacked).map
        (fun end_ => decide (AnswersAcked end_.2)) = some false := by
    decide +kernel
  obtain ⟨⟨t, trace⟩, hrun, hfalse⟩ := Option.map_eq_some_iff.mp hunacked
  exact ⟨t, trace, hrun, of_decide_eq_false hfalse⟩

end SlmodemSipBridge.Bridge
