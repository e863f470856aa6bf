import SlmodemSipBridge.Bridge.Reading

/-!
# Failure responses

What `invite` and `poll_answer` do with a final response that is no success:
the ACK it is owed, and the end of its transaction.
-/

namespace SlmodemSipBridge.Bridge

open Rust Transition Sip

/-- The status of a failure: a final response that is no success. -/
def FailureStatus (resp : Str) : Prop :=
  ∃ status ∈ parseStatusCode resp, 300 ≤ status ∧ status < 700

instance (resp : Str) : Decidable (FailureStatus resp) := by
  unfold FailureStatus
  infer_instance

/-- A failure of the current INVITE transaction that `invite` or `poll_answer`
reads. -/
def IsFailure : Consumed → Prop
  | .byInvite l resp _ _ => Belongs l.call resp ∧ FailureStatus resp
  | .byPoll call resp _ => Belongs call resp ∧ FailureStatus resp
  | .byBye _ _ => False

instance : DecidablePred IsFailure
  | .byInvite l resp _ _ => inferInstanceAs (Decidable (Belongs l.call resp ∧ _))
  | .byPoll call resp _ => inferInstanceAs (Decidable (Belongs call resp ∧ _))
  | .byBye _ _ => isFalse id

/-- The ACK that is shown. -/
def ackOf : BridgeShown → Option Call
  | .sip (.sent _ (.ack call)) => some call
  | _ => none

/-- The ACKs among what a step shows. -/
def sentAcks (shown : List BridgeShown) : List Call := shown.filterMap ackOf

/-- The authenticated INVITE that is shown. -/
def authInviteOf : BridgeShown → Option InviteRequest
  | .sip (.sent .authInvite (.invite r)) => some r
  | _ => none

/-- The one ACK of a call's current transaction, and no other. -/
def AckedOnce (call : Call) : List Call → Prop
  | [ack] => ack.callId = call.callId ∧ ack.cseq = call.cseq ∧
      ack.viaBranch = call.viaBranch
  | _ => False

instance (call : Call) : DecidablePred (AckedOnce call)
  | [] => isFalse id
  | [ack] => inferInstanceAs (Decidable (ack.callId = call.callId ∧ _))
  | _ :: _ :: _ => isFalse id

/-- The loop that `invite` is about to continue. -/
def Phase.inviteLoop : Phase → Option InviteLoop
  | .setup _ _ (.looping l) => some l
  | _ => none

/-- The attempt to call is over. -/
def Phase.attemptOver : Phase → Bool
  | .waiting _ => true
  | .returned _ => true
  | .panicked _ => true
  | _ => false

/-- The answer is still polled for. -/
def Phase.polling : Phase → Bool
  | .relaying _ _ polling _ => polling
  | _ => false

/-- At the first challenge `invite` has started the next transaction. -/
def Retried (l l' : InviteLoop) (shown : List BridgeShown) : Prop :=
  l.authRetryDone = false ∧ l'.call.cseq = l.call.cseq + 1 ∧
    ∃ o ∈ shown, (authInviteOf o).map InviteRequest.cseq = some (l.call.cseq + 1)

instance (l l' : InviteLoop) (shown : List BridgeShown) : Decidable (Retried l l' shown) :=
  inferInstanceAs (Decidable (_ ∧ _ ∧ ∃ o ∈ shown, _))

/-- The attempt does not wait on the transaction any longer: `invite` has failed
or started the next one, and `poll_answer` has failed. -/
def MovedOn (c : Consumed) (phase' : Phase) (shown : List BridgeShown) : Prop :=
  match c with
  | .byInvite l _ _ _ =>
      phase'.attemptOver = true ∨ ∃ l' ∈ phase'.inviteLoop, Retried l l' shown
  | .byPoll _ _ _ => phase'.polling = false
  | .byBye _ _ => False

instance (c : Consumed) (phase' : Phase) (shown : List BridgeShown) :
    Decidable (MovedOn c phase' shown) :=
  match c with
  | .byInvite l _ _ _ =>
      inferInstanceAs (Decidable
        (phase'.attemptOver = true ∨ ∃ l' ∈ phase'.inviteLoop, Retried l l' shown))
  | .byPoll _ _ _ => inferInstanceAs (Decidable (phase'.polling = false))
  | .byBye _ _ => isFalse id

/-- Exactly one ACK is sent for the failure, and its transaction is over. -/
def FailureHandled (c : Consumed) (phase' : Phase) (shown : List BridgeShown) : Prop :=
  AckedOnce c.call (sentAcks shown) ∧ MovedOn c phase' shown

instance (c : Consumed) (phase' : Phase) (shown : List BridgeShown) :
    Decidable (FailureHandled c phase' shown) := by
  unfold FailureHandled
  infer_instance

/-- A step that reads a failure handles it. -/
def HandlesFailure (b : BridgeState) (e : BridgeEvent) (b' : BridgeState)
    (shown : List BridgeShown) : Prop :=
  Reads (fun c => IsFailure c → FailureHandled c b'.phase shown) b e

instance (b : BridgeState) (e : BridgeEvent) (b' : BridgeState)
    (shown : List BridgeShown) : Decidable (HandlesFailure b e b' shown) := by
  unfold HandlesFailure
  infer_instance

/-- A failure that gets its due: `invite` reads it, its status is no redirection
and, for a challenge, the challenge is the first and usable; no search for a
header panics, and the ACK can be sent. -/
def FailureServed : Consumed → Prop
  | .byInvite l resp inputs _ =>
      ∃ status, Admitted l resp status ∧ 400 ≤ status ∧ inputs.ackSent = true ∧
        (status = 401 ∨ status = 407 → FirstUsableChallenge l status resp)
  | _ => False

/-! ## Parts of a trace -/

theorem sentAcks_append (xs ys : List BridgeShown) :
    sentAcks (xs ++ ys) = sentAcks xs ++ sentAcks ys := by
  simp [sentAcks]

theorem Parked.sentAcks_eq {next : BridgeNext} (h : Parked next) :
    sentAcks next.2 = [] := by
  cases h <;> rfl

theorem Parked.movedOn {next : BridgeNext} (h : Parked next) (l : InviteLoop)
    (resp : Str) (inputs : AnswerInputs) (ackSent : Bool) (shown : List BridgeShown) :
    MovedOn (.byInvite l resp inputs ackSent) next.1 shown := by
  cases h <;> exact Or.inl rfl

/-- No ACK is among the INVITEs. -/
theorem sentAcks_invites {rest : List SipShown}
    (h : ∀ o ∈ rest, ∃ r, o = .sent .authInvite (.invite r)) :
    sentAcks (rest.map .sip) = [] := by
  apply List.filterMap_eq_nil_iff.mpr
  intro o ho
  obtain ⟨o', ho', rfl⟩ := List.mem_map.mp ho
  obtain ⟨r, rfl⟩ := h o' ho'
  rfl

/-- The ACK of `invite` before the bridge is done with the call. -/
theorem ackedOnce_parked (call : Call) (site : Site) (resp : Str)
    {rest : List SipShown} (hrest : ∀ o ∈ rest, ∃ r, o = .sent .authInvite (.invite r))
    {next : BridgeNext} (h : Parked next) :
    AckedOnce call (sentAcks (.sip (.read (some call) resp) ::
      ((SipShown.sent site (.ack (call.tagged resp)) :: rest).map .sip ++ next.2))) := by
  have hacks : sentAcks (.sip (.read (some call) resp) ::
      ((SipShown.sent site (.ack (call.tagged resp)) :: rest).map .sip ++ next.2)) =
        call.tagged resp :: (sentAcks (rest.map .sip) ++ sentAcks next.2) :=
    congrArg (List.cons (call.tagged resp)) (sentAcks_append (rest.map .sip) next.2)
  rw [hacks, sentAcks_invites hrest, h.sentAcks_eq]
  exact ⟨rfl, rfl, rfl⟩

/-- Where no ACK is sent, the failure is not handled. -/
theorem unhandled_iff {c : Consumed} {phase' : Phase} {shown : List BridgeShown}
    (hacks : sentAcks shown = []) (hserved : ¬ FailureServed c) :
    FailureHandled c phase' shown ↔ FailureServed c := by
  refine iff_of_false ?_ hserved
  rintro ⟨hacked, -⟩
  rw [hacks] at hacked
  exact hacked

theorem FailureStatus.range {resp : Str} {status : ℕ} (h : FailureStatus resp)
    (hstatus : parseStatusCode resp = some status) : 300 ≤ status ∧ status < 700 := by
  obtain ⟨status', hmem, hrange⟩ := h
  rw [hstatus, Option.mem_some_iff] at hmem
  exact hmem ▸ hrange

/-- An admitted failure gets its due under the conditions on its one status. -/
theorem failureServed_iff {l : InviteLoop} {resp : Str} {status : ℕ}
    (h : Admitted l resp status) (inputs : AnswerInputs) (ackSent : Bool) :
    FailureServed (.byInvite l resp inputs ackSent) ↔
      400 ≤ status ∧ inputs.ackSent = true ∧
        (status = 401 ∨ status = 407 → FirstUsableChallenge l status resp) := by
  constructor
  · rintro ⟨status', h', hdue⟩
    exact h.status_unique h' ▸ hdue
  · intro hdue
    exact ⟨status, h, hdue⟩

/-! ## The steps that read a failure -/

/-- `invite` goes on after a failure: only with the next transaction is it
handled. -/
theorem invites_handled_iff {client : SipClient} {l l' : InviteLoop} {resp : Str}
    {inputs : AnswerInputs} {acks : List SipShown} (session : Session)
    (drain : Drain (Except InviteError Call)) (ackSent : Bool)
    (hfailure : IsFailure (.byInvite l resp inputs ackSent))
    (h : ResponseOutcome client l resp inputs (.ok (.looping l', acks))) :
    FailureHandled (.byInvite l resp inputs ackSent)
        (.setup session drain (.looping l'))
        (.sip (.read (some l.call) resp) :: acks.map .sip) ↔
      FailureServed (.byInvite l resp inputs ackSent) := by
  obtain ⟨hbelongs, hstatus⟩ := hfailure
  cases h with
  | unparsed hnone => simp [FailureStatus, hnone] at hstatus
  | stale status _ hstale => exact absurd hstale hbelongs.isStale_ne
  | admitted status _ hadmitted hdispatch =>
      have hrange := hstatus.range hadmitted.status_eq
      cases hdispatch with
      | trying h100 => omega
      | ringing h18x _ => omega
      | unexpected hother =>
          refine unhandled_iff rfl ?_
          rw [failureServed_iff hadmitted]
          rintro ⟨hlow, -⟩
          exact hother.2.2.2.2 ⟨hlow, hrange.2⟩
      | challenged _ hauth hchallenge =>
          cases hchallenge with
          | retried digest hfirst hread husable hack hinvite =>
              refine iff_of_true
                ⟨⟨rfl, rfl, rfl⟩, Or.inr ⟨_, rfl, hfirst, rfl, ?_⟩⟩ ?_
              · exact ⟨_, List.mem_cons_of_mem _
                  (List.mem_cons_of_mem _ List.mem_cons_self), rfl⟩
              · rw [failureServed_iff hadmitted]
                exact ⟨by omega, hack, fun _ => ⟨hfirst, hread, by simp [husable]⟩⟩

/-- `invite` fails after a failure: it is handled if the ACK is sent. -/
theorem inviteFails_handled_iff {client : SipClient} {l : InviteLoop} {resp : Str}
    {inputs : AnswerInputs} {error : InviteError} {acks : List SipShown}
    {next : BridgeNext} (ackSent : Bool)
    (hfailure : IsFailure (.byInvite l resp inputs ackSent))
    (h : ResponseOutcome client l resp inputs (.ok (.returned (.error error), acks)))
    (hnext : Parked next) :
    FailureHandled (.byInvite l resp inputs ackSent) next.1
        (.sip (.read (some l.call) resp) :: (acks.map .sip ++ next.2)) ↔
      FailureServed (.byInvite l resp inputs ackSent) := by
  rcases acks_of_response h (by simp) with
    ⟨status, site, rest, hadmitted, hacked, rfl, hrest⟩ | ⟨rfl, hsilent⟩
  · apply iff_of_true
    · exact ⟨ackedOnce_parked l.call site resp hrest hnext,
        hnext.movedOn l resp inputs ackSent _⟩
    · exact ⟨status, hadmitted, hacked.1.1, hacked.2⟩
  · refine unhandled_iff hnext.sentAcks_eq ?_
    rintro ⟨status, hadmitted, hlow, hdue⟩
    have hrange := hfailure.2.range hadmitted.status_eq
    exact (hsilent status hadmitted).2 ⟨⟨hlow, hrange.2⟩, hdue⟩

/-- A panic leaves the failure without its ACK. -/
theorem inviteCrashes_handled_iff {client : SipClient} {l : InviteLoop} {resp : Str}
    {inputs : AnswerInputs} {why : Panic} {next : BridgeNext} (ackSent : Bool)
    (hfailure : IsFailure (.byInvite l resp inputs ackSent))
    (h : ResponseOutcome client l resp inputs (.error why)) (hnext : Parked next) :
    FailureHandled (.byInvite l resp inputs ackSent) next.1
        (.sip (.read (some l.call) resp) :: next.2) ↔
      FailureServed (.byInvite l resp inputs ackSent) := by
  refine unhandled_iff hnext.sentAcks_eq ?_
  rintro ⟨status, hadmitted, hlow, hsent, hdue⟩
  have hrange := hfailure.2.range hadmitted.status_eq
  exact (not_acked_of_crash h hadmitted).2 ⟨⟨hlow, hrange.2⟩, hsent, hdue⟩

/-- What sets a call up is no failure. -/
theorem not_isFailure_of_returned {client : SipClient} {l : InviteLoop} {resp : Str}
    {inputs : AnswerInputs} {call : Call} {acks : List SipShown} (ackSent : Bool)
    (h : ResponseOutcome client l resp inputs (.ok (.returned (.ok call), acks))) :
    ¬ IsFailure (.byInvite l resp inputs ackSent) := by
  rintro ⟨-, hstatus⟩
  cases acceptedBy_of_outcome h with
  | earlyMedia status rtpAddr hadmitted h18x hsome =>
      have hrange := hstatus.range hadmitted.status_eq
      omega
  | answered hadmitted =>
      have hrange := hstatus.range hadmitted.status_eq
      omega

/-- `poll_answer` never acknowledges a failure. -/
theorem poll_handled_iff {call : Call} {resp : Str} {ackSent : Bool} {polled : Polled}
    {acks : List SipShown} (phase' : Phase)
    (hfailure : IsFailure (.byPoll call resp ackSent))
    (h : PollOutcome call resp ackSent (.ok (polled, acks))) :
    FailureHandled (.byPoll call resp ackSent) phase'
        (.sip (.read (some call) resp) :: acks.map .sip) ↔
      FailureServed (.byPoll call resp ackSent) := by
  rcases h.silent_or_answered with ⟨-, -, rfl⟩ | ⟨h200, -⟩
  · exact unhandled_iff rfl id
  · have hrange := hfailure.2.range h200
    omega

/-- A failure that is read is handled exactly when it gets its due. -/
theorem ReadStepped.handled_iff {config : Config} {c : Consumed} {phase phase' : Phase}
    {shown : List BridgeShown} (hfailure : IsFailure c)
    (h : ReadStepped config phase c phase' shown) :
    FailureHandled c phase' shown ↔ FailureServed c := by
  cases h with
  | invites session drain l l' resp inputs ackSent acks hresponse =>
      exact invites_handled_iff session drain ackSent hfailure hresponse
  | inviteFails session drain l resp inputs ackSent error acks next hresponse hnext =>
      exact inviteFails_handled_iff ackSent hfailure hresponse hnext
  | inviteCrashes session drain l resp inputs ackSent why next hresponse hnext =>
      exact inviteCrashes_handled_iff ackSent hfailure hresponse hnext
  | inviteReturns session drain l resp inputs ackSent call acks next hresponse hnext =>
      exact absurd hfailure (not_isFailure_of_returned ackSent hresponse)
  | polls session call relay resp ackSent polling polled acks hresponse hpolling =>
      exact poll_handled_iff _ hfailure hresponse
  | pollCrashes session call relay resp ackSent why hresponse => exact unhandled_iff rfl id
  | byeAnswered call after resp next hnext => exact absurd hfailure id

/-! ## Whole runs -/

/-- In a run, every failure of the current INVITE transaction is acknowledged
once and ends the transaction, exactly when every one gets its due. -/
theorem bridge_failuresHandled_iff (config : Config) (events : List BridgeEvent) :
    (bridgeMachine config).Every HandlesFailure bridgeStart events ↔
      (bridgeMachine config).Guarded (Reads fun c => IsFailure c → FailureServed c)
        bridgeStart events := by
  refine (bridgeMachine config).every_congr (I := fun b => b.phase.Ok) ?_
    bridgeStart_ok events
  intro b e b' shown hok hstep
  obtain ⟨hstepped, hok'⟩ := bridgeStep_ok hok hstep
  refine ⟨?_, fun _ => hok'⟩
  apply forall₂_congr
  intro c hc
  exact imp_congr_right (readStepped_of_stepped hstepped hc).handled_iff

/-- A redirection that answers the INVITE. -/
def trunkMoved : Datagram :=
  datagramOf "SIP/2.0 302 Moved Temporarily\r\nCall-ID: 10-2\r\nCSeq: 1 INVITE\r\n\r\n"
    (by decide +kernel)

/-- A rejection that follows early media. -/
def trunkBusy : Datagram :=
  datagramOf "SIP/2.0 486 Busy Here\r\nCall-ID: 10-2\r\nCSeq: 1 INVITE\r\n\r\n"
    (by decide +kernel)

/-- Neither gets an ACK, and after the first `invite` waits on. -/
theorem bridge_failuresHandled_redirected :
    ¬ (bridgeMachine trunkConfig).Every HandlesFailure bridgeStart
        (trunkSetup ++ [.invite (.received (some trunkMoved) answerInputs) true]) ∧
      ¬ (bridgeMachine trunkConfig).Every HandlesFailure bridgeStart
        (trunkSetup ++
          [.invite (.received (some trunkEarlyMedia) answerInputs) true,
            .poll (some trunkBusy) true]) := by
  decide +kernel

end SlmodemSipBridge.Bridge
