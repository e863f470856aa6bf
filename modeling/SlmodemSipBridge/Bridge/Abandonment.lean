import SlmodemSipBridge.Bridge.Failures
import SlmodemSipBridge.Bridge.Setup
import SlmodemSipBridge.Media.Hangup

/-!
# Attempts left on the wire

An INVITE that was sent opens an attempt with its peer.  A failure of its
transaction ends it, and so does a BYE with its Call-ID; there is no CANCEL.
The watch remembers the Call-ID of the attempt that is open and objects when
`run` turns to the next dial string, or returns, before it is ended.
-/

namespace SlmodemSipBridge.Bridge

open Rust Transition Media Rtp Sip

/-! ## The watch -/

/-- The response is a failure of the call's current transaction. -/
def EndsAttempt (call : Call) (resp : Str) : Prop := Belongs call resp ∧ FailureStatus resp

instance EndsAttempt.decidable (call : Call) (resp : Str) :
    Decidable (EndsAttempt call resp) :=
  inferInstanceAs (Decidable (Belongs call resp ∧ FailureStatus resp))

/-- The Call-ID of the open attempt after an observation.  A retransmission opens
none. -/
def nextAttempt (q : Option Str) : BridgeShown → Option Str
  | .sip (.read (some call) resp) =>
      if q = some call.callId ∧ EndsAttempt call resp then none else q
  | .sip (.sent site (.invite r)) => if site = .retransmit then q else some r.callId
  | .sip (.sent _ (.bye call _)) => if q = some call.callId then none else q
  | _ => q

/-- No attempt is open when `run` waits for a dial string or ends. -/
def AttemptAllows (q : Option Str) : BridgeShown → Prop
  | .waiting => q = none
  | .stopped => q = none
  | _ => True

instance AttemptAllows.decidable (q : Option Str) (o : BridgeShown) :
    Decidable (AttemptAllows q o) := by
  unfold AttemptAllows
  split <;> infer_instance

/-- The watch over the attempts. -/
def attemptWatch : Monitor (Option Str) BridgeShown where
  next := nextAttempt
  allows := AttemptAllows

instance attemptWatch.decidableAllows (q : Option Str) (o : BridgeShown) :
    Decidable (attemptWatch.allows q o) :=
  inferInstanceAs (Decidable (AttemptAllows q o))

/-! ## What holds an attempt -/

/-- At this response `invite` gives up: an error that passes the filter, unless it
is the first challenge and is answered. -/
def GivesUp (l : InviteLoop) (resp : Str) (inputs : AnswerInputs) : Prop :=
  isStale l.call.cseq resp = .ok false ∧
    ∃ status ∈ parseStatusCode resp, (400 ≤ status ∧ status < 700) ∧
      (status = 401 ∨ status = 407 →
        ¬ (l.authRetryDone = false ∧ (usableChallenge status resp).isSome = true ∧
          inputs.ackSent = true ∧ inputs.inviteSent = true))

instance GivesUp.decidable (l : InviteLoop) (resp : Str) (inputs : AnswerInputs) :
    Decidable (GivesUp l resp inputs) := by
  unfold GivesUp
  infer_instance

/-- A response at which `invite` gives up has ended the attempt, and an answer with
an endpoint is acknowledged. -/
def HeldByResponse (l : InviteLoop) (resp : Str) (inputs : AnswerInputs)
    (ackSent : Bool) : Prop :=
  (GivesUp l resp inputs → EndsAttempt l.call resp) ∧
    (isStale l.call.cseq resp = .ok false → parseStatusCode resp = some 200 →
      (acceptedEndpoint resp).isSome = true → ackSent = true)

instance HeldByResponse.decidable (l : InviteLoop) (resp : Str) (inputs : AnswerInputs)
    (ackSent : Bool) : Decidable (HeldByResponse l resp inputs ackSent) := by
  unfold HeldByResponse
  infer_instance

/-- The event does not make `run` leave the attempt: the deadline has not passed and
a retransmission that is due is sent, `invite` does not give up by itself, slmodemd
stays connected during the setup, and the BYE is sent. -/
def AttemptHeld : Phase → BridgeEvent → Prop
  | .setup _ _ (.looping l), .invite (.head inputs) _ =>
      inputs.deadlineTest < l.deadline ∧ (l.Due inputs → inputs.sent = true)
  | .setup _ _ (.receiving l), .invite (.received (some data) inputs) ackSent =>
      HeldByResponse l (fromUtf8Lossy data.val) inputs ackSent
  | .setup _ _ _, .setupRead read => ∃ data ∈ read, data.val ≠ []
  | .setup _ _ _, .setupTick written => written = true
  | .hangingUp _ _, .bye _ sent => sent = true
  | _, _ => True

instance AttemptHeld.decidable (phase : Phase) (e : BridgeEvent) :
    Decidable (AttemptHeld phase e) := by
  unfold AttemptHeld
  split <;> infer_instance

@[simp] theorem attemptHeld_setupRead (session : Session)
    (drain : Drain (Except InviteError Call)) (invite : InviteState)
    (read : Option (Chunk drainBufferSize)) :
    AttemptHeld (.setup session drain invite) (.setupRead read) ↔
      ∃ data ∈ read, data.val ≠ [] := by
  cases invite <;> rfl

@[simp] theorem attemptHeld_setupTick (session : Session)
    (drain : Drain (Except InviteError Call)) (invite : InviteState) (written : Bool) :
    AttemptHeld (.setup session drain invite) (.setupTick written) ↔ written = true := by
  cases invite <;> rfl

/-- While an attempt is open, the event does not make `run` leave it. -/
def HeldWhileOpen (s : BridgeState × Option Str) (e : BridgeEvent) : Prop :=
  s.2 ≠ none → AttemptHeld s.1.phase e

instance HeldWhileOpen.decidable (s : BridgeState × Option Str) (e : BridgeEvent) :
    Decidable (HeldWhileOpen s e) :=
  inferInstanceAs (Decidable (s.2 ≠ none → AttemptHeld s.1.phase e))

/-! ## What the watch makes of them -/

/-- An attempt that is open is that of the phase's call, and none is once its BYE
is sent. -/
def Tracked : Phase → Option Str → Prop
  | .byeSent _ _, q => q = none
  | phase, q => ∀ id ∈ q, phase.call.map Call.callId = some id

theorem tracked_none (phase : Phase) : Tracked phase none := by
  cases phase <;> simp [Tracked]

theorem accepts_map_sip (q : Option Str) (acts : List SipShown) :
    attemptWatch.Accepts q (acts.map .sip) := by
  induction acts generalizing q with
  | nil => trivial
  | cons o acts ih => exact ⟨trivial, ih _⟩

/-- The watch ignores the ACKs. -/
theorem after_acks {acks : List SipShown}
    (hacks : ∀ o ∈ acks, ∃ site call, o = .sent site (.ack call)) (q : Option Str) :
    attemptWatch.after q (acks.map .sip) = q := by
  refine (attemptWatch.accepts_of_ignored (List.forall_mem_map.mpr ?_) q).2
  intro o ho
  obtain ⟨site, call, rfl⟩ := hacks o ho
  exact fun q => ⟨trivial, rfl⟩

/-- A response for the call of the open attempt closes it if it is a failure. -/
theorem after_read {q : Option Str} {call : Call} (hq : ∀ id ∈ q, call.callId = id)
    (resp : Str) :
    nextAttempt q (.sip (.read (some call) resp)) =
      if EndsAttempt call resp then none else q := by
  cases q with
  | none => simp [nextAttempt]
  | some id =>
      obtain rfl := hq id rfl
      simp [nextAttempt]

/-- What a response that passes the filter needs to hold the attempt. -/
theorem heldByResponse_iff {l : InviteLoop} {resp : Str} {status : ℕ}
    (hadmitted : Admitted l resp status) (inputs : AnswerInputs) (ackSent : Bool) :
    HeldByResponse l resp inputs ackSent ↔
      ((400 ≤ status ∧ status < 700) →
        (status = 401 ∨ status = 407 →
          ¬ (l.authRetryDone = false ∧ (usableChallenge status resp).isSome = true ∧
            inputs.ackSent = true ∧ inputs.inviteSent = true)) →
        EndsAttempt l.call resp) ∧
      (status = 200 → (acceptedEndpoint resp).isSome = true → ackSent = true) := by
  simp [HeldByResponse, GivesUp, hadmitted.status_eq, hadmitted.fresh]

/-- An error that passes the filter and is not answered as a challenge makes
`invite` give up. -/
theorem givesUp_of_admitted {l : InviteLoop} {resp : Str} {status : ℕ}
    {inputs : AnswerInputs} (hadmitted : Admitted l resp status)
    (herror : 400 ≤ status ∧ status < 700)
    (hunanswered : status = 401 ∨ status = 407 →
      ¬ (l.authRetryDone = false ∧ (usableChallenge status resp).isSome = true ∧
        inputs.ackSent = true ∧ inputs.inviteSent = true)) : GivesUp l resp inputs :=
  ⟨hadmitted.fresh, status, hadmitted.status_eq, herror, hunanswered⟩

/-- Where `invite` gives up, only the end of the attempt holds it. -/
theorem GivesUp.held_iff {l : InviteLoop} {resp : Str} {inputs : AnswerInputs}
    (h : GivesUp l resp inputs) (ackSent : Bool) :
    HeldByResponse l resp inputs ackSent ↔ EndsAttempt l.call resp := by
  constructor
  · rintro ⟨hends, -⟩
    exact hends h
  · intro hends
    refine ⟨fun _ => hends, ?_⟩
    intro _ h200
    obtain ⟨-, status, hstatus, hrange, -⟩ := h
    rw [h200, Option.mem_some_iff] at hstatus
    omega

/-- A response that `invite` drops holds the attempt. -/
theorem heldByResponse_of_dropped {l : InviteLoop} {resp : Str}
    (hdropped : parseStatusCode resp = none ∨ isStale l.call.cseq resp = .ok true)
    (inputs : AnswerInputs) (ackSent : Bool) : HeldByResponse l resp inputs ackSent := by
  rcases hdropped with hnone | hstale
  · simp [HeldByResponse, GivesUp, hnone]
  · simp [HeldByResponse, GivesUp, hstale]

/-- Where `invite` goes on after a response, the attempt is held, and an attempt
that is open then is that of the call. -/
theorem held_of_looping {client : SipClient} {l l' : InviteLoop} {resp : Str}
    {inputs : AnswerInputs} {acks : List SipShown}
    (h : ResponseOutcome client l resp inputs (.ok (.looping l', acks)))
    (ackSent : Bool) {q : Option Str} (hq : ∀ id ∈ q, l.call.callId = id) :
    HeldByResponse l resp inputs ackSent ∧
      ∀ id ∈ attemptWatch.after q (acks.map .sip), l'.call.callId = id := by
  cases h with
  | unparsed hstatus => exact ⟨heldByResponse_of_dropped (Or.inl hstatus) _ _, hq⟩
  | stale status hstatus hstale =>
      exact ⟨heldByResponse_of_dropped (Or.inr hstale) _ _, hq⟩
  | admitted status _ hadmitted hdispatch =>
      rw [heldByResponse_iff hadmitted]
      cases hdispatch with
      | trying hstatus => exact ⟨⟨by omega, by omega⟩, hq⟩
      | ringing hstatus hnone => exact ⟨⟨by omega, by omega⟩, hq⟩
      | unexpected hstatus =>
          exact ⟨⟨fun herror => absurd herror hstatus.2.2.2.2,
            fun h200 => absurd h200 hstatus.2.2.2.1⟩, hq⟩
      | challenged _ hauth hchallenge =>
          cases hchallenge with
          | retried digest hfirst hread husable hack hinvite =>
              refine ⟨⟨fun _ hgivesUp => ?_, by omega⟩, ?_⟩
              · refine absurd ⟨hfirst, ?_, hack, hinvite⟩ (hgivesUp hauth)
                simp [husable]
              · -- The authenticated INVITE opens the attempt once more.
                intro id hid
                exact Option.some.inj hid

/-- Where `invite` gives up after a response, the attempt is held exactly when the
response has ended it. -/
theorem held_of_error {client : SipClient} {l : InviteLoop} {resp : Str}
    {inputs : AnswerInputs} {error : InviteError} {acks : List SipShown}
    (h : ResponseOutcome client l resp inputs (.ok (.returned (.error error), acks)))
    (ackSent : Bool) :
    (HeldByResponse l resp inputs ackSent ↔ EndsAttempt l.call resp) ∧
      ∀ o ∈ acks, ∃ site call, o = .sent site (.ack call) := by
  cases h with
  | admitted status _ hadmitted hdispatch =>
      suffices hgivesUp : GivesUp l resp inputs ∧
          ∀ o ∈ acks, ∃ site call, o = .sent site (.ack call) from
        ⟨hgivesUp.1.held_iff ackSent, hgivesUp.2⟩
      cases hdispatch with
      | rejected herror hother hack =>
          refine ⟨givesUp_of_admitted hadmitted herror fun hauth => by omega, ?_⟩
          intro o ho
          rw [List.mem_singleton] at ho
          exact ⟨_, _, ho⟩
      | rejectedUnsent herror hother hack =>
          exact ⟨givesUp_of_admitted hadmitted herror fun hauth => by omega, by simp⟩
      | challenged _ hauth hchallenge =>
          have herror : 400 ≤ status ∧ status < 700 := by omega
          cases hchallenge with
          | again hdone =>
              have hdone' : l.authRetryDone = true := hdone
              exact ⟨givesUp_of_admitted hadmitted herror fun _ => by simp [hdone'],
                by simp⟩
          | unusable _ hfirst hread hnone =>
              exact ⟨givesUp_of_admitted hadmitted herror fun _ => by simp [hnone],
                by simp⟩
          | ackUnsent digest hfirst hread husable hack =>
              exact ⟨givesUp_of_admitted hadmitted herror fun _ => by simp [hack],
                by simp⟩
          | retryUnsent digest hfirst hread husable hack hinvite =>
              refine ⟨givesUp_of_admitted hadmitted herror fun _ => by simp [hinvite], ?_⟩
              intro o ho
              rw [List.mem_singleton] at ho
              exact ⟨_, _, ho⟩

/-- A response that sets the call up is no failure. -/
theorem after_accepted {l : InviteLoop} {resp : Str} {call : Call}
    {acts : List SipShown} (h : AcceptedBy l resp call acts) {q : Option Str}
    (hq : ∀ id ∈ q, l.call.callId = id) :
    attemptWatch.after q (List.map .sip (.read (some l.call) resp :: acts)) = q := by
  have hread : ∀ status, Admitted l resp status → status < 300 →
      nextAttempt q (.sip (.read (some l.call) resp)) = q := by
    intro status hadmitted hlow
    rw [after_read hq, if_neg]
    rintro ⟨-, status', hstatus', hrange⟩
    rw [hadmitted.status_eq, Option.mem_some_iff] at hstatus'
    omega
  cases h with
  | earlyMedia status rtpAddr hadmitted hstatus hsome =>
      exact hread status hadmitted (by omega)
  | answered hadmitted => exact hread 200 hadmitted (by omega)

/-- Where `invite` sets a call up, the attempt is held unless the call is answered,
has an endpoint and cannot be acknowledged. -/
theorem held_accepted_iff {l : InviteLoop} {resp : Str} {call : Call}
    {acts : List SipShown} (h : AcceptedBy l resp call acts)
    (hnone : l.call.remoteRtp = none) (inputs : AnswerInputs) (ackSent : Bool) :
    HeldByResponse l resp inputs ackSent ↔
      (call.state = .answered → call.remoteRtp.isSome = true → ackSent = true) := by
  cases h with
  | earlyMedia status rtpAddr hadmitted hstatus hsome =>
      rw [heldByResponse_iff hadmitted]
      exact iff_of_true ⟨by omega, by omega⟩ (by simp)
  | answered hadmitted =>
      rw [heldByResponse_iff hadmitted]
      have hrtp : ((l.call.tagged resp).answeredBy resp).remoteRtp = acceptedEndpoint resp := by
        rw [Call.answeredBy, Call.tagged, hnone, Option.or_none]
      rw [hrtp]
      constructor
      · rintro ⟨-, hack⟩ -
        exact hack rfl
      · intro hack
        exact ⟨by omega, fun _ => hack rfl⟩

/-- The open attempt is that of `invite`'s call. -/
def TrackedBy (invite : InviteState) (q : Option Str) : Prop :=
  ∀ id ∈ q, (inviteCall invite).map Call.callId = some id

theorem TrackedBy.eq_none {invite : InviteState} {q : Option Str} (h : TrackedBy invite q)
    (hnone : inviteCall invite = none) : q = none := by
  cases q with
  | none => rfl
  | some id => simpa [hnone] using h id rfl

theorem TrackedBy.callId_eq {invite : InviteState} {q : Option Str} {call : Call}
    (h : TrackedBy invite q) (hcall : inviteCall invite = some call) :
    ∀ id ∈ q, call.callId = id := by
  intro id hid
  simpa [hcall] using h id hid

/-- While `invite` goes on the attempt is held, and tracked. -/
theorem held_of_goesOn {client : SipClient} (session : Session)
    (drain : Drain (Except InviteError Call)) {invite invite' : InviteState}
    {e : InviteEvent} {acts : List SipShown} (ackSent : Bool) {q : Option Str}
    (hq : TrackedBy invite q) (h : InviteStepped client invite e invite' acts)
    (hreturned : ∀ result, invite' ≠ .returned result)
    (hpanicked : ∀ why, invite' ≠ .panicked why) :
    AttemptHeld (.setup session drain invite) (.invite e ackSent) ∧
      TrackedBy invite' (attemptWatch.after q (acts.map .sip)) := by
  cases h with
  | start args ids =>
      refine ⟨trivial, ?_⟩
      have hout := inviteStart_outcome client args ids
      generalize inviteStart client args ids = out at hreturned hpanicked hout ⊢
      cases hout with
      | undialable why hdial => exact absurd rfl (hpanicked why)
      | unsent hsent => exact absurd rfl (hreturned _)
      | overflowed _ _ => exact absurd rfl (hpanicked _)
      | sent hsent _ =>
          intro id hid
          exact hid
  | head l inputs =>
      have hearly : ∀ l', (inviteHead l inputs).1 = .receiving l' →
          inputs.deadlineTest < l.deadline := fun l' hl' => early_of_receiving hl'
      have hout := inviteHead_outcome l inputs
      generalize inviteHead l inputs = out at hreturned hpanicked hearly hout ⊢
      cases hout with
      | exceeded why hlimit => exact absurd rfl (hpanicked why)
      | timedOut hlate => exact absurd rfl (hreturned _)
      | unsent hdue hsent => exact absurd rfl (hreturned _)
      | retransmitted hdue hsent => exact ⟨⟨hdue.early, fun _ => hsent⟩, hq⟩
      | quiet hidle =>
          exact ⟨⟨hearly _ rfl, fun hdue => absurd hdue.expired hidle⟩, hq⟩
  | silent l inputs => exact ⟨trivial, hq⟩
  | response l data inputs next acks hresponse =>
      have hcall := hq.callId_eq rfl
      rcases next_of_response hresponse with ⟨l', rfl⟩ | ⟨result, rfl⟩
      · -- Once the response is read, what is open is still the call's attempt.
        have hread : ∀ id ∈ nextAttempt q (.sip (.read (some l.call)
            (fromUtf8Lossy data.val))), l.call.callId = id := by
          intro id hid
          rw [after_read hcall] at hid
          split at hid
          · simp at hid
          · exact hcall id hid
        obtain ⟨hheld, hafter⟩ := held_of_looping hresponse ackSent hread
        refine ⟨hheld, ?_⟩
        intro id hid
        exact congrArg some (hafter id hid)
      · exact absurd rfl (hreturned result)
  | crash l data inputs why hresponse => exact absurd rfl (hpanicked why)

/-- Where `invite` gives up, the attempt is held exactly when none is open any
more. -/
theorem held_of_givesUp {client : SipClient} {session : Session}
    {drain : Drain (Except InviteError Call)} {invite : InviteState}
    {e : InviteEvent} {error : InviteError} {acts : List SipShown} (ackSent : Bool)
    {q : Option Str} (hq : TrackedBy invite q)
    (h : InviteStepped client invite e (.returned (.error error)) acts) :
    attemptWatch.after q (acts.map .sip) = none ↔
      (q ≠ none → AttemptHeld (.setup session drain invite) (.invite e ackSent)) := by
  generalize hinvite' : InviteState.returned (.error error) = invite' at h
  cases h with
  | start args ids =>
      obtain rfl := hq.eq_none rfl
      have hout := inviteStart_outcome client args ids
      generalize inviteStart client args ids = out at hinvite' hout ⊢
      cases hout with
      | undialable why hdial => simp at hinvite'
      | unsent hsent => simp
      | overflowed _ _ => simp at hinvite'
      | sent hsent _ => simp at hinvite'
  | head l inputs =>
      have hout := inviteHead_outcome l inputs
      generalize inviteHead l inputs = out at hinvite' hout ⊢
      cases hout with
      | exceeded why hlimit => simp at hinvite'
      | retransmitted hdue hsent => simp at hinvite'
      | quiet hidle => simp at hinvite'
      | timedOut hlate =>
          have hnot : ¬ AttemptHeld (.setup session drain (.looping l))
              (.invite (.head inputs) ackSent) := fun hheld => by
            have := hheld.1
            omega
          simp [hnot]
      | unsent hdue hsent =>
          have hnot : ¬ AttemptHeld (.setup session drain (.looping l))
              (.invite (.head inputs) ackSent) := fun hheld => by
            simpa [hsent] using hheld.2 hdue
          simp [hnot]
  | silent l inputs => simp at hinvite'
  | response l data inputs next acks hresponse =>
      subst hinvite'
      obtain ⟨hheld, hacks⟩ := held_of_error hresponse ackSent
      rw [List.map_cons, attemptWatch.after_cons, after_acks hacks]
      change nextAttempt q (.sip (.read (some l.call) (fromUtf8Lossy data.val))) = none ↔
        (q ≠ none → HeldByResponse l (fromUtf8Lossy data.val) inputs ackSent)
      rw [after_read (hq.callId_eq rfl), hheld]
      by_cases hends : EndsAttempt l.call (fromUtf8Lossy data.val)
      · simp [hends]
      · simp [hends]
  | crash l data inputs why hresponse => simp at hinvite'

/-! ## One step -/

/-- The watch lets a step pass exactly when an open attempt is held, and then goes
on with the phase it leads to. -/
def Judged (q : Option Str) (held : Prop) (phase' : Phase) (shown : List BridgeShown) :
    Prop :=
  (attemptWatch.Accepts q shown ↔ (q ≠ none → held)) ∧
    ((q ≠ none → held) → Tracked phase' (attemptWatch.after q shown))

/-- Where no attempt is open and none is opened, every step passes. -/
theorem judged_none {held : Prop} {phase' : Phase} {shown : List BridgeShown}
    (h : ∀ o ∈ shown, nextAttempt none o = none) : Judged none held phase' shown := by
  have hquiet : attemptWatch.Accepts none shown ∧ attemptWatch.after none shown = none := by
    induction shown with
    | nil => exact ⟨trivial, rfl⟩
    | cons o shown ih =>
        obtain ⟨ho, hshown⟩ := List.forall_mem_cons.mp h
        obtain ⟨haccepts, hafter⟩ := ih hshown
        have hnext : attemptWatch.next none o = none := ho
        have hallows : attemptWatch.allows none o := by
          cases o <;> simp [attemptWatch, AttemptAllows]
        rw [attemptWatch.accepts_cons, attemptWatch.after_cons, hnext]
        exact ⟨⟨hallows, haccepts⟩, hafter⟩
  refine ⟨iff_of_true hquiet.1 (fun hne => absurd rfl hne), fun _ => ?_⟩
  rw [hquiet.2]
  exact tracked_none phase'

theorem Parked.nextAttempt_none {next : BridgeNext} (h : Parked next) :
    ∀ o ∈ next.2, nextAttempt none o = none := by
  cases h <;> simp [nextAttempt]

/-- Where the step leaves a call, it passes if no attempt is open any more. -/
theorem judged_parked {q : Option Str} {held : Prop} {next : BridgeNext}
    (shown : List BridgeShown) (haccepts : attemptWatch.Accepts q shown)
    (hheld : attemptWatch.after q shown = none ↔ (q ≠ none → held)) (hnext : Parked next) :
    Judged q held next.1 (shown ++ next.2) := by
  have hpasses : ∀ q', (attemptWatch.Accepts q' next.2 ↔ q' = none) ∧
      attemptWatch.after q' next.2 = q' := by
    intro q'
    cases hnext <;>
      simp [attemptWatch, Monitor.Accepts, AttemptAllows, Monitor.after, nextAttempt]
  rw [Judged, attemptWatch.accepts_append, attemptWatch.after_append, (hpasses _).1,
    (hpasses _).2, hheld]
  refine ⟨and_iff_right haccepts, ?_⟩
  intro hwhile
  rw [hheld.mpr hwhile]
  exact tracked_none _

/-- A step that does not leave the call passes. -/
theorem judged_held {q : Option Str} {held : Prop} {phase' : Phase}
    {shown : List BridgeShown} (hheld : held) (haccepts : attemptWatch.Accepts q shown)
    (htracked : Tracked phase' (attemptWatch.after q shown)) :
    Judged q held phase' shown :=
  ⟨iff_of_true haccepts fun _ => hheld, fun _ => htracked⟩

/-- The end of the setup: an answered call that cannot be acknowledged is left. -/
theorem SetupEnd.judged {call : Call} {ackSent : Bool} {next : BridgeNext} {q : Option Str}
    (hq : ∀ id ∈ q, call.callId = id) (h : SetupEnd call ackSent next) :
    Judged q (call.state = .answered → call.remoteRtp.isSome = true → ackSent = true)
      next.1 next.2 := by
  have htracked : ∀ id ∈ q, some call.callId = some id :=
    fun id hid => congrArg some (hq id hid)
  cases h with
  | noRemoteRtp hrtp => exact judged_held (by simp [hrtp]) trivial htracked
  | ackUnsent remoteRtp hrtp hstate hack =>
      have hparked : Parked (.returned (.error .ackFailed), [.stopped]) := .returned _
      refine judged_parked [] trivial ?_ hparked
      cases q <;> simp [Monitor.after, hrtp, hstate, hack]
  | acked session remoteRtp hrtp hstate hack hsession =>
      exact judged_held (fun _ _ => hack) ⟨trivial, trivial⟩ htracked
  | unanswered session remoteRtp polling hrtp hstate hpolling hsession =>
      exact judged_held (fun hanswered => absurd hanswered hstate) trivial htracked

theorem SetupStepped.judged {config : Config} {session : Session}
    {drain : Drain (Except InviteError Call)} {invite : InviteState} {e : BridgeEvent}
    {phase' : Phase} {shown : List BridgeShown} {q : Option Str}
    (hunder : InviteUnderWay invite) (hq : TrackedBy invite q)
    (h : SetupStepped config session drain invite e phase' shown) :
    Judged q (AttemptHeld (.setup session drain invite) e) phase' shown := by
  have hopen : ∀ {held : Prop}, ¬ held → (q = none ↔ (q ≠ none → held)) := by
    intro held hnot
    cases q <;> simp [hnot]
  cases h with
  | goesOn e ackSent invite' acts hstep hreturned hpanicked =>
      obtain ⟨hheld, htracked⟩ :=
        held_of_goesOn session drain ackSent hq hstep hreturned hpanicked
      exact judged_held hheld (accepts_map_sip q acts) htracked
  | givesUp e ackSent error acts hstep =>
      exact judged_parked _ (accepts_map_sip q acts) (held_of_givesUp ackSent hq hstep)
        .waiting
  | returns e ackSent call acts next hstep hnext =>
      obtain ⟨l, data, inputs, rest, rfl, rfl, hresponse, rfl⟩ :=
        response_of_returned hstep rfl
      have haccepted := acceptedBy_of_outcome hresponse
      have hcall := hq.callId_eq rfl
      have hkept : ∀ id ∈ q, call.callId = id := by
        cases haccepted <;> exact hcall
      have hjudged := hnext.judged hkept
      have hheld := held_accepted_iff haccepted hunder.1 inputs ackSent
      rw [Judged, attemptWatch.accepts_append, attemptWatch.after_append,
        after_accepted haccepted hcall]
      refine ⟨?_, ?_⟩
      · rw [and_iff_right (accepts_map_sip q _), hjudged.1]
        exact imp_congr_right fun _ => hheld.symm
      · intro hwhile
        exact hjudged.2 fun hne => hheld.mp (hwhile hne)
  | reads data drain' hdata =>
      have hheld : AttemptHeld (.setup session drain invite) (.setupRead (some data)) := by
        simpa using hdata
      exact judged_held hheld ⟨trivial, trivial⟩ hq
  | readEnds read hread =>
      apply judged_parked [] trivial (hopen _) .waiting
      simpa using hread
  | ticks drain' =>
      have hheld : AttemptHeld (.setup session drain invite) (.setupTick true) := by simp
      exact judged_held hheld trivial hq
  | tickFails =>
      apply judged_parked [] trivial (hopen _) .waiting
      simp

theorem Tracked.eq_none {phase : Phase} {q : Option Str} (h : Tracked phase q)
    (hcall : phase.call = none) : q = none := by
  have hnone : (∀ id ∈ q, phase.call.map Call.callId = some id) → q = none := by
    intro hq
    cases q with
    | none => rfl
    | some id => simpa [hcall] using hq id rfl
  cases phase with
  | byeSent call after => exact h
  | _ => exact hnone h

theorem IsRegistering.nextAttempt_none {o : SipShown} (h : IsRegistering o) :
    nextAttempt none (.sip o) = none := by
  cases o with
  | read call resp =>
      cases call with
      | none => rfl
      | some call => exact h.elim
  | sent site request =>
      cases request with
      | register r => rfl
      | invite r => exact h.elim
      | ack call => exact h.elim
      | bye call branch => exact h.elim
  | answered call resp => rfl

theorem judged_relays {session : Session} {call : Call} {polling : Bool} {relay' : Relay}
    {e : RelayEvent} {relay : Relay} {shown : List RelayShown} {q : Option Str}
    (hq : ∀ id ∈ q, call.callId = id) (hstep : relayStep relay e = some (relay', shown)) :
    Judged q (AttemptHeld (.relaying session call polling relay) (.media e))
      (relayedTo session call polling relay')
      (shown.map .media ++ relayStops relay') := by
  have htracked : ∀ id ∈ q, some call.callId = some id :=
    fun id hid => congrArg some (hq id hid)
  have hignored : ∀ o ∈ List.map BridgeShown.media shown, attemptWatch.Ignores o :=
    List.forall_mem_map.mpr fun _ _ _ => ⟨trivial, rfl⟩
  obtain ⟨haccepts, hafter⟩ := attemptWatch.accepts_of_ignored hignored q
  rw [relayStops_of_step hstep, List.append_nil]
  apply judged_held trivial haccepts
  rw [hafter]
  cases relay' with
  | running loops => exact htracked
  | returned result => cases result <;> exact htracked
  | panicked why => exact absurd rfl (relayStep_ne_panicked hstep why)

theorem judged_polls {session : Session} {call : Call} {relay : Relay} {data : Datagram}
    {ackSent polling : Bool} {polled : Polled} {acks : List SipShown} {q : Option Str}
    (hq : ∀ id ∈ q, call.callId = id)
    (hresponse : PollOutcome call (fromUtf8Lossy data.val) ackSent (.ok (polled, acks))) :
    Judged q
      (AttemptHeld (.relaying session call true relay) (.poll (some data) ackSent))
      (.relaying session polled.call polling relay)
      (.sip (.read (some call) (fromUtf8Lossy data.val)) :: acks.map .sip) := by
  apply judged_held trivial (accepts_map_sip q (_ :: acks))
  have hcall : polled.call.callId = call.callId ∧
      ∀ o ∈ List.map BridgeShown.sip acks, attemptWatch.Ignores o := by
    have hignored : ∀ o : SipShown, (∃ call resp, o = .answered call resp) ∨
        (∃ call, o = .sent .pollAck (.ack call)) → attemptWatch.Ignores (.sip o) := by
      rintro o (⟨call, resp, rfl⟩ | ⟨call, rfl⟩) q <;> exact ⟨trivial, rfl⟩
    rcases hresponse.silent_or_answered with
      ⟨-, hsame, rfl⟩ | ⟨-, -, hsame, -, rfl⟩
    · exact ⟨congrArg Call.callId hsame, by simp⟩
    · rw [hsame]
      refine ⟨rfl, ?_⟩
      cases ackSent <;> simp [hignored]
  intro id hid
  rw [List.map_cons, attemptWatch.after_cons,
    (attemptWatch.accepts_of_ignored hcall.2 _).2] at hid
  change id ∈ nextAttempt q (.sip (.read (some call) (fromUtf8Lossy data.val))) at hid
  rw [after_read hq] at hid
  split at hid
  · simp at hid
  · exact congrArg some (hcall.1.trans (hq id hid))

/-- Every step that does not panic passes exactly when it holds the open attempt. -/
theorem bridgeStep_judged {config : Config} {b b' : BridgeState} {e : BridgeEvent}
    {shown : List BridgeShown} {q : Option Str} (hok : b.phase.Ok)
    (hq : Tracked b.phase q) (hstep : (bridgeMachine config).step b e = some (b', shown))
    (halive : b'.phase.Alive) : Judged q (AttemptHeld b.phase e) b'.phase shown := by
  by_cases hsetup : ∃ session drain invite, b.phase = .setup session drain invite
  · obtain ⟨session, drain, invite, hphase⟩ := hsetup
    have hstepped := setupStepped_of_step hok hphase hstep halive
    rw [hphase] at hok hq ⊢
    exact hstepped.judged hok.2.2 hq
  have hstepped := phaseStepped_of_step hok hstep
  have hidle : b.phase.call = none → q = none := hq.eq_none
  have hcallId : ∀ call, b.phase.call = some call →
      (∀ call' after, b.phase ≠ .byeSent call' after) → ∀ id ∈ q, call.callId = id := by
    intro call hcall hnot id hid
    cases hphase : b.phase with
    | byeSent call' after => exact absurd hphase (hnot call' after)
    | _ =>
        rw [hphase] at hq hcall
        simpa [hcall] using hq id hid
  generalize b.phase = phase at *
  generalize b'.phase = phase' at *
  cases hstepped with
  | invites _ _ _ _ _ _ _ _ _ _ => exact absurd ⟨_, _, _, rfl⟩ hsetup
  | inviteFails _ _ _ _ _ _ _ _ _ _ _ => exact absurd ⟨_, _, _, rfl⟩ hsetup
  | inviteReturns _ _ _ _ _ _ _ _ _ _ => exact absurd ⟨_, _, _, rfl⟩ hsetup
  | drains _ _ _ _ _ _ _ _ => exact absurd ⟨_, _, _, rfl⟩ hsetup
  | drainFails _ _ _ _ _ _ _ _ => exact absurd ⟨_, _, _, rfl⟩ hsetup
  | registers r e next sipShown hshown hnext =>
      obtain rfl := hidle rfl
      apply judged_none
      intro o ho
      rcases List.mem_append.mp ho with ho | ho
      · obtain ⟨o', ho', rfl⟩ := List.mem_map.mp ho
        exact (hshown o' ho').nextAttempt_none
      · cases hnext with
        | running r' => simp at ho
        | ready => simp at ho
        | parked _ hnext => exact hnext.nextAttempt_none o ho
  | readied written next hnext =>
      obtain rfl := hidle rfl
      exact judged_none hnext.nextAttempt_none
  | waits lineBuf e lineBuf' =>
      obtain rfl := hidle rfl
      exact judged_none (by simp)
  | waitEnds lineBuf e next hnext =>
      obtain rfl := hidle rfl
      exact judged_none hnext.nextAttempt_none
  | dials lineBuf e dial session tail hsession =>
      obtain rfl := hidle rfl
      exact judged_none (by simp [nextAttempt])
  | binds dial session port sessionId args =>
      obtain rfl := hidle rfl
      exact judged_none (by simp)
  | bindFails dial session port sessionId next hnext =>
      obtain rfl := hidle rfl
      exact judged_none hnext.nextAttempt_none
  | relays session call polling relay relay' e relayShown hrelay =>
      exact judged_relays (hcallId call rfl (by simp)) hrelay
  | pollSilent session call relay ackSent => exact judged_held trivial trivial hq
  | polls session call relay data ackSent polling polled acks hresponse hpolling =>
      exact judged_polls (hcallId call rfl (by simp)) hresponse
  | pollCrashes _ _ _ _ _ why _ => exact absurd rfl (halive why)
  | byes call after branchHash =>
      have hown := hcallId call rfl (by simp)
      have hclosed :
          nextAttempt q (.sip (.sent .bye (.bye call (generateBranch branchHash)))) =
            none := by
        cases q with
        | none => simp [nextAttempt]
        | some id => simp [nextAttempt, hown id rfl]
      exact judged_held rfl ⟨trivial, trivial⟩ hclosed
  | byeFails call after branchHash next hnext =>
      apply judged_parked [] trivial _ hnext
      cases q <;> simp [Monitor.after, AttemptHeld]
  | byeSilent call after next hnext =>
      obtain rfl : q = none := hq
      exact judged_none hnext.nextAttempt_none
  | byeAnswered call after data next hnext =>
      obtain rfl : q = none := hq
      apply judged_none
      intro o ho
      rcases List.mem_cons.mp ho with rfl | ho
      · simp [nextAttempt]
      · exact hnext.nextAttempt_none o ho

/-! ## Whole runs -/

theorem alive_of_step {config : Config} {b b' : BridgeState} {e : BridgeEvent}
    {shown : List BridgeShown} (h : (bridgeMachine config).step b e = some (b', shown)) :
    b.phase.Alive := by
  obtain ⟨calls, phase⟩ := b
  rintro why rfl
  simp [bridgeMachine, bridgeStep, phaseStep] at h

/-- In a run that does not panic, every attempt is ended before `run` waits for the
next dial string or returns exactly when every step holds the attempt that is open. -/
theorem bridge_attemptsEnded_iff
    (config : Config) (events : List BridgeEvent) (t : BridgeState)
    (trace : List BridgeShown) (halive : ∀ why, t.phase ≠ .panicked why)
    (hrun : (bridgeMachine config).run bridgeStart events = some (t, trace)) :
    attemptWatch.Accepts none trace ↔
      (attemptWatch.watching (bridgeMachine config)).Guarded HeldWhileOpen
        (bridgeStart, none) events := by
  have hstart : bridgeStart.phase.Ok ∧ Tracked bridgeStart.phase none :=
    ⟨bridgeStart_ok, tracked_none _⟩
  refine attemptWatch.accepts_watched_surviving_run_iff (L := fun b => b.phase.Alive)
    (R := fun b q => b.phase.Ok ∧ Tracked b.phase q) (fun b e b' shown => alive_of_step) ?_
    hstart halive hrun
  rintro b q e b' shown ⟨hok, hq⟩ hstep halive'
  obtain ⟨hpasses, htracked⟩ := bridgeStep_judged hok hq hstep halive'
  exact ⟨hpasses, fun hheld => ⟨(bridgeStep_ok hok hstep).2, htracked hheld⟩⟩

/-- Whether the bridge has panicked. -/
def Phase.isPanicked : Phase → Bool
  | .panicked _ => true
  | _ => false

/-- A call that is answered, relayed and hung up. -/
def trunkHungUp : List BridgeEvent :=
  trunkAnswered ++
    [.media (.rtpReceived none true), .media (endOfStream true), .bye 6 true,
      .byeResponse none]

theorem bridge_attemptsEnded_hungUp :
    ∃ t trace,
      (bridgeMachine trunkConfig).run bridgeStart trunkHungUp = some (t, trace) ∧
        attemptWatch.Accepts none trace := by
  obtain ⟨hended, hheld⟩ :
      ((bridgeMachine trunkConfig).run bridgeStart trunkHungUp).map
        (fun last => last.1.phase.isPanicked) = some false ∧
      (attemptWatch.watching (bridgeMachine trunkConfig)).Guarded HeldWhileOpen
        (bridgeStart, none) trunkHungUp := by
    decide +kernel
  obtain ⟨⟨t, trace⟩, hrun, hphase⟩ := Option.map_eq_some_iff.mp hended
  have halive : ∀ why, t.phase ≠ .panicked why := by
    intro why hwhy
    simp [hwhy, Phase.isPanicked] at hphase
  exact ⟨t, trace, hrun,
    (bridge_attemptsEnded_iff trunkConfig trunkHungUp t trace halive hrun).mpr hheld⟩

/-- A run that does not panic and leaves an attempt open. -/
def Abandons (config : Config) (events : List BridgeEvent) : Prop :=
  ∃ t trace, (bridgeMachine config).run bridgeStart events = some (t, trace) ∧
    (∀ why, t.phase ≠ .panicked why) ∧ ¬ attemptWatch.Accepts none trace

theorem abandons_of_eq {config : Config} {events : List BridgeEvent}
    (h : ((bridgeMachine config).run bridgeStart events).map (fun last =>
      (decide (attemptWatch.Accepts none last.2), last.1.phase.isPanicked)) =
        some (false, false)) : Abandons config events := by
  obtain ⟨⟨t, trace⟩, hrun, hlast⟩ := Option.map_eq_some_iff.mp h
  rw [Prod.mk.injEq] at hlast
  refine ⟨t, trace, hrun, ?_, of_decide_eq_false hlast.1⟩
  intro why hwhy
  simp [hwhy, Phase.isPanicked] at hlast

/-- The INVITE times out after a minute. -/
def trunkTimedOut : List BridgeEvent :=
  trunkSetup ++
    [.invite (.received none answerInputs) true,
      .invite (.head (headAt (60 * 10 ^ 9))) true]

/-- Nothing ends the attempt when the INVITE times out, when slmodemd hangs up during
the setup, or when the ACK of an answer cannot be sent. -/
theorem bridge_attemptsEnded_abandoned :
    Abandons trunkConfig trunkTimedOut ∧
      Abandons trunkConfig (trunkSetup ++ [.setupRead (some ⟨[], by decide⟩)]) ∧
      Abandons trunkConfig
        (trunkSetup ++ [.invite (.received (some trunkAnswer) answerInputs) false]) := by
  refine ⟨abandons_of_eq ?_, abandons_of_eq ?_, abandons_of_eq ?_⟩ <;> decide +kernel

end SlmodemSipBridge.Bridge
