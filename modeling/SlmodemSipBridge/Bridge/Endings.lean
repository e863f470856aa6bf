import SlmodemSipBridge.Bridge.DialSplits
import SlmodemSipBridge.Bridge.UserAgent

/-!
# How the bridge ends

What `run` returns names what happened.  It succeeds only when slmodemd is gone while the
bridge waits for a dial string.  An error is the failure of a read, a write or a send that
the error names, or what the registrar replied; no session error comes out of it.
-/

namespace SlmodemSipBridge.Bridge

open Rust Transition Media Rtp Sip

/-! ## Explanations -/

/-- slmodemd is gone. -/
def WaitEvent.HangsUp : WaitEvent → Prop
  | .slRead (some data) => data.val = []
  | .slRead none => True
  | .silenceTick written => written = false
  | .heartbeat => False

/-- Why a registration fails. -/
inductive RegisterFails : RegisterState → RegisterEvent → RegisterError → Prop where
  | unsent (ids : RegisterStart) (hsent : ids.sent = false) :
      RegisterFails .called (.start ids) .sendFailed
  | noResponse (callId tag : Str) (retry : RegisterRetry) :
      RegisterFails (.awaiting callId tag) (.first none retry) .noResponse
  | refused (callId tag : Str) (data : Datagram) (retry : RegisterRetry) (status : Option ℕ)
      (hstatus : parseStatusCode (fromUtf8Lossy data.val) = status)
      (hother : status ≠ some 200 ∧ status ≠ some 401) :
      RegisterFails (.awaiting callId tag) (.first (some data) retry)
        (.refused (status.getD 0))
  | missingChallenge (callId tag : Str) (data : Datagram) (retry : RegisterRetry)
      (hstatus : parseStatusCode (fromUtf8Lossy data.val) = some 401)
      (hheader : headerValue (fromUtf8Lossy data.val) (lit "WWW-Authenticate") = none) :
      RegisterFails (.awaiting callId tag) (.first (some data) retry) .missingChallenge
  | badChallenge (callId tag : Str) (data : Datagram) (retry : RegisterRetry) (value : Str)
      (error : DigestError) (hstatus : parseStatusCode (fromUtf8Lossy data.val) = some 401)
      (hheader : headerValue (fromUtf8Lossy data.val) (lit "WWW-Authenticate") = some value)
      (hbad : parseDigestChallenge value = .ok (.error error)) :
      RegisterFails (.awaiting callId tag) (.first (some data) retry) (.badChallenge error)
  | retryUnsent (callId tag : Str) (data : Datagram) (retry : RegisterRetry)
      (hstatus : parseStatusCode (fromUtf8Lossy data.val) = some 401)
      (hsent : retry.sent = false) :
      RegisterFails (.awaiting callId tag) (.first (some data) retry) .sendFailed
  | timedOut (deadline now : ℕ) (hlate : deadline ≤ now) :
      RegisterFails (.looping deadline) (.head now) .timedOut
  | authRefused (deadline : ℕ) (data : Datagram) (status : Option ℕ)
      (hstatus : parseStatusCode (fromUtf8Lossy data.val) = status) (hother : status ≠ some 200) :
      RegisterFails (.receiving deadline) (.received (some data)) (.authRefused (status.getD 0))

/-- Why a relay fails. -/
inductive RelayFails : RelayEvent → RelayError → Prop where
  | read (sent : Bool) : RelayFails (.slRead none sent) .readFailed
  | send (data : Chunk relayBufferSize) (hdata : data.val ≠ []) :
      RelayFails (.slRead (some data) false) .sendFailed
  | write (data : Chunk maxRtpPacketSize) (payload : List UInt8)
      (hpayload : parsePacket data.val = .ok (some payload)) :
      RelayFails (.rtpReceived (some data) false) .writeFailed

/-- Why `run` returns so. -/
inductive Explains : Phase → BridgeEvent → Except BridgeError Unit → Prop where
  | hungUp (lineBuf : List UInt8) (e : WaitEvent) (he : e.HangsUp) :
      Explains (.waiting lineBuf) (.wait e) (.ok ())
  | unregistered (r : RegisterState) (e : RegisterEvent) (error : RegisterError)
      (hfails : RegisterFails r e error) :
      Explains (.registering r) (.register e) (.error (.register error))
  | unready : Explains .ready (.readyWritten false) (.error .readyFailed)
  | unbound (dial : DialString) (session : Session) (sessionId : ℕ) :
      Explains (.binding dial session) (.rtpBound none sessionId) (.error .bindFailed)
  | unacknowledged (session : Session) (drain : Drain (Except InviteError Call))
      (l : InviteLoop) (data : Datagram) (inputs : AnswerInputs)
      (hstatus : parseStatusCode (fromUtf8Lossy data.val) = some 200) :
      Explains (.setup session drain (.receiving l)) (.invite (.received (some data) inputs) false)
        (.error .ackFailed)
  | unrelayed (session : Session) (call : Call) (polling : Bool) (relay : Relay)
      (e : RelayEvent) (error : RelayError) (hfails : RelayFails e error) :
      Explains (.relaying session call polling relay) (.media e) (.error (.relay error))

/-- The result that the bridge has come to.  A relay that has failed is still hung up
before `run` returns. -/
def Phase.outcome : Phase → Option (Except BridgeError Unit)
  | .returned result => some result
  | .hangingUp _ (.relayFailed error) => some (.error (.relay error))
  | .byeSent _ (.relayFailed error) => some (.error (.relay error))
  | _ => none

/-! ## The parts of a step -/

@[simp] theorem outcome_loopHead (calls : ℕ) : (loopHead calls).1.outcome = none := by
  unfold loopHead
  split <;> rfl

theorem hangsUp_of_closed {lineBuf : List UInt8} {e : WaitEvent}
    (h : waitStep lineBuf e = .closed) : e.HangsUp := by
  cases e with
  | slRead read =>
      cases read with
      | none => trivial
      | some data =>
          simp only [waitStep] at h
          split at h
          · assumption
          · exact absurd h (waitBytes_ne_closed lineBuf data.val)
  | silenceTick written => cases written <;> simp_all [waitStep, WaitEvent.HangsUp]
  | heartbeat => simp [waitStep] at h

/-- A response has one answer. -/
theorem registerError_eq {answer : Checked (RegisterState × List SipShown)}
    {error error' : RegisterError} {acts acts' : List SipShown}
    (hnext : answer = .ok (.returned (.error error), acts))
    (h : answer = .ok (.returned (.error error'), acts')) : error = error' := by
  rw [hnext] at h
  cases h
  rfl

/-- The errors of the answer to the first response. -/
theorem registerFirst_fails {client : SipClient} {callId tag : Str} {data : Datagram}
    {retry : RegisterRetry} {error : RegisterError} {acts : List SipShown}
    (h : registerFirst client callId tag (fromUtf8Lossy data.val) retry =
      .ok (.returned (.error error), acts)) :
    RegisterFails (.awaiting callId tag) (.first (some data) retry) error := by
  by_cases hok : parseStatusCode (fromUtf8Lossy data.val) = some 200
  · simp [registerFirst, hok, pure, Except.pure] at h
  by_cases hauth : parseStatusCode (fromUtf8Lossy data.val) = some 401
  · cases hheader : extractHeader (fromUtf8Lossy data.val) (lit "WWW-Authenticate") with
    | error why => simp [registerFirst, hauth, hheader, bind, Except.bind] at h
    | ok found =>
        have hvalue := extractHeader_eq_ok (by decide) hheader
        cases found with
        | none =>
            have hnext : registerFirst client callId tag (fromUtf8Lossy data.val) retry =
                .ok (.returned (.error .missingChallenge), []) := by
              simp [registerFirst, hauth, hheader, bind, Except.bind, pure, Except.pure]
            obtain rfl := registerError_eq hnext h
            exact .missingChallenge callId tag data retry hauth hvalue
        | some value =>
            obtain ⟨parsed, hparsed⟩ := parseDigestChallenge_total value
            cases parsed with
            | error bad =>
                have hnext : registerFirst client callId tag (fromUtf8Lossy data.val) retry =
                    .ok (.returned (.error (.badChallenge bad)), []) := by
                  simp [registerFirst, hauth, hheader, hparsed, bind, Except.bind, pure,
                    Except.pure]
                obtain rfl := registerError_eq hnext h
                exact .badChallenge callId tag data retry value bad hauth hvalue hparsed
            | ok digest =>
                cases hsent : retry.sent with
                | true =>
                    simp [registerFirst, hauth, hheader, hparsed, hsent, bind, Except.bind, pure,
                      Except.pure] at h
                | false =>
                    have hnext : registerFirst client callId tag (fromUtf8Lossy data.val) retry =
                        .ok (.returned (.error .sendFailed), []) := by
                      simp [registerFirst, hauth, hheader, hparsed, hsent, bind, Except.bind,
                        pure, Except.pure]
                    obtain rfl := registerError_eq hnext h
                    exact .retryUnsent callId tag data retry hauth hsent
  · have hnext : registerFirst client callId tag (fromUtf8Lossy data.val) retry =
        .ok (.returned (.error
          (.refused ((parseStatusCode (fromUtf8Lossy data.val)).getD 0))), []) := by
      simp [registerFirst, hok, hauth, pure, Except.pure]
    obtain rfl := registerError_eq hnext h
    exact .refused callId tag data retry _ rfl ⟨hok, hauth⟩

/-- The error of the answer to the second response. -/
theorem registerSecond_fails {deadline : ℕ} {data : Datagram} {error : RegisterError}
    (h : registerSecond deadline (fromUtf8Lossy data.val) = .ok (.returned (.error error))) :
    RegisterFails (.receiving deadline) (.received (some data)) error := by
  cases hstale : isStale 2 (fromUtf8Lossy data.val) with
  | error why => simp [registerSecond, hstale, bind, Except.bind] at h
  | ok stale =>
      by_cases hok : parseStatusCode (fromUtf8Lossy data.val) = some 200
      · cases stale <;>
          simp [registerSecond, hstale, hok, bind, Except.bind, pure, Except.pure] at h
      · cases stale with
        | true => simp [registerSecond, hstale, bind, Except.bind, pure, Except.pure] at h
        | false =>
            simp only [registerSecond, hstale, hok, bind, Except.bind, pure, Except.pure,
              Bool.false_eq_true, if_false, Except.ok.injEq, RegisterState.returned.injEq,
              Except.error.injEq] at h
            obtain rfl := h
            exact .authRefused deadline data _ rfl hok

/-- Every error of a registration is explained. -/
theorem registerFails_of_step {client : SipClient} {r : RegisterState} {e : RegisterEvent}
    {error : RegisterError} {acts : List SipShown}
    (h : (registerMachine client).step r e = some (.returned (.error error), acts)) :
    RegisterFails r e error := by
  change registerStep client r e = some (.returned (.error error), acts) at h
  unfold registerStep at h
  split at h
  · next ids =>
    cases hsent : ids.sent with
    | true => simp [hsent] at h
    | false =>
        simp only [hsent, Bool.false_eq_true, if_false, Option.some.injEq, Prod.mk.injEq,
          RegisterState.returned.injEq, Except.error.injEq] at h
        obtain ⟨rfl, -⟩ := h
        exact .unsent ids hsent
  · next callId tag datagram retry =>
    cases datagram with
    | none =>
        simp only [Option.some.injEq, Prod.mk.injEq, RegisterState.returned.injEq,
          Except.error.injEq] at h
        obtain ⟨rfl, -⟩ := h
        exact .noResponse callId tag retry
    | some data =>
        cases hfirst : registerFirst client callId tag (fromUtf8Lossy data.val) retry with
        | error why => simp [hfirst] at h
        | ok next =>
            simp only [hfirst, Option.some.injEq, Prod.mk.injEq] at h
            have hreturned : registerFirst client callId tag (fromUtf8Lossy data.val) retry =
                .ok (.returned (.error error), next.2) := by
              rw [hfirst, ← h.1]
            exact registerFirst_fails hreturned
  · next deadline now =>
    split at h
    · next hlate =>
      simp only [Option.some.injEq, Prod.mk.injEq, RegisterState.returned.injEq,
        Except.error.injEq] at h
      obtain ⟨rfl, -⟩ := h
      exact .timedOut deadline now hlate
    · simp at h
  · next deadline datagram =>
    cases datagram with
    | none => simp at h
    | some data =>
        cases hsecond : registerSecond deadline (fromUtf8Lossy data.val) with
        | error why => simp [hsecond] at h
        | ok next =>
            simp only [hsecond, Option.some.injEq, Prod.mk.injEq] at h
            exact registerSecond_fails (by rw [hsecond, h.1])
  · contradiction

/-- The join fails only by a loop that fails. -/
theorem fail_of_joined {σ : Type} {flow : Flow σ} {put : Branch σ → Loops} {error : RelayError}
    (h : flow.joined put = .returned (.error error)) : flow = .fail error := by
  cases flow with
  | next locals => simp [Flow.joined] at h
  | stop total =>
      simp only [Flow.joined, Loops.join] at h
      split at h <;> simp at h
  | fail error' => simpa [Flow.joined] using h
  | panic why => simp [Flow.joined] at h

/-- Every error of a relay is explained. -/
theorem relayFails_of_step {relay : Relay} {e : RelayEvent} {error : RelayError}
    {media : List RelayShown} (h : relayStep relay e = some (.returned (.error error), media)) :
    RelayFails e error := by
  cases relay with
  | returned result => cases e <;> simp [relayStep] at h
  | panicked why => cases e <;> simp [relayStep] at h
  | running loops =>
      cases iterated_of_step h with
      | slRead l read sent _ hjoined _ =>
          have hfail := fail_of_joined hjoined
          cases read with
          | none =>
              obtain rfl := Flow.fail.inj hfail
              exact .read sent
          | some data =>
              by_cases hdata : data.val = []
              · simp [slToRtpIteration, hdata] at hfail
              · simp only [slToRtpIteration, if_neg hdata] at hfail
                split at hfail
                · simp at hfail
                · split at hfail
                  · simp at hfail
                  · split at hfail
                    · simp at hfail
                    · cases sent with
                      | true => simp at hfail
                      | false =>
                          obtain rfl := Flow.fail.inj hfail
                          exact .send data hdata
      | rtpReceived total datagram written _ hjoined _ =>
          have hfail := fail_of_joined hjoined
          cases datagram with
          | none => simp [rtpToSlIteration] at hfail
          | some data =>
              simp only [rtpToSlIteration] at hfail
              split at hfail
              · simp at hfail
              · simp at hfail
              · next payload hpayload =>
                cases written with
                | true => simp at hfail
                | false =>
                    obtain rfl := Flow.fail.inj hfail
                    exact .write data payload hpayload

/-! ## Every step -/

theorem outcome_byeDone {calls : ℕ} {after : AfterBye} (hok : after.Ok)
    {result : Except BridgeError Unit} (h : (byeDone calls after).1.outcome = some result) :
    ∃ error, after = .relayFailed error ∧ result = .error (.relay error) := by
  cases after with
  | noRemoteRtp => simp [byeDone] at h
  | relayFailed error => exact ⟨error, rfl, (Option.some.inj h).symm⟩
  | teardown session =>
      have hfirst := transition_eq_ok .terminating hok rfl
      have hsecond := @transition_eq_ok { session with state := .terminating } .terminating
        .terminated rfl rfl
      simp [byeDone, hfirst, hsecond] at h

/-- The drain itself sets no call up. -/
theorem drainStep_ne_ok {iterations drainedBytes : ℕ} {ev : DrainEvent (Except InviteError Call)}
    {drain' : Drain (Except InviteError Call)} {dropped : List (List UInt8)}
    (hev : ∀ result, ev ≠ .setupDone result)
    (h : drainStep (.draining iterations drainedBytes) ev = some (drain', dropped)) (call : Call) :
    drain' ≠ .returned (.ok (.ok call)) := by
  rintro rfl
  have hhead : ∀ drained, (drainHead iterations drained : Drain (Except InviteError Call)) ≠
      .returned (.ok (.ok call)) := by
    intro drained
    unfold drainHead
    split <;> simp
  cases ev with
  | setupDone result => exact hev result rfl
  | slRead read =>
      cases read with
      | none => simp [drainStep] at h
      | some data =>
          simp only [drainStep] at h
          split at h
          · simp at h
          · exact hhead _ (Prod.mk.inj (Option.some.inj h)).1
  | silenceTick written =>
      cases written with
      | true =>
          simp only [drainStep, if_true, Option.some.injEq, Prod.mk.injEq] at h
          exact hhead _ h.1
      | false => simp [drainStep] at h

theorem outcome_drainedTo {calls : ℕ} {session : Session} {invite : InviteState} {ackSent : Bool}
    {drain : Drain (Except InviteError Call)} (h : ∀ call, drain ≠ .returned (.ok (.ok call))) :
    (drainedTo calls session invite ackSent drain).1.outcome = none := by
  unfold drainedTo
  split
  · rfl
  · exact absurd rfl (h _)
  · exact outcome_loopHead calls
  · rfl

/-- A call that is set up stops the bridge only by its ACK. -/
theorem outcome_proceedWith {session : Session} {call : Call} {ackSent : Bool}
    {result : Except BridgeError Unit} (hsession : session.state = .connectingMedia)
    (h : (proceedWith session call ackSent).1.outcome = some result) :
    call.state = .answered ∧ ackSent = false ∧ result = .error .ackFailed := by
  have hrelay : ∀ remoteRtp, (relayTo session call remoteRtp).1.outcome = none := by
    intro remoteRtp
    simp only [relayTo, transition_eq_ok .mediaActive hsession rfl]
    rfl
  unfold proceedWith at h
  split at h
  · simp [Phase.outcome] at h
  · next remoteRtp _ =>
    by_cases hstate : call.state = .answered
    · cases ackSent with
      | true => simp [hstate, BridgeNext.after, hrelay] at h
      | false =>
          simp only [hstate, if_true, Bool.false_eq_true, if_false, stopWith, Phase.outcome,
            Option.some.injEq] at h
          exact ⟨hstate, rfl, h.symm⟩
    · simp [hstate, hrelay] at h

/-- A setup comes to a result only where an answer could not be acknowledged. -/
theorem outcome_invitedTo {client : SipClient} {calls : ℕ} {session : Session}
    {drain : Drain (Except InviteError Call)} {invite invite' : InviteState} {e : InviteEvent}
    {ackSent : Bool} {acts : List SipShown} {result : Except BridgeError Unit}
    (hok : (Phase.setup session drain invite).Ok)
    (hstep : InviteStepped client invite e invite' acts)
    (h : (invitedTo calls session drain ackSent invite').1.outcome = some result) :
    Explains (.setup session drain invite) (.invite e ackSent) result := by
  obtain ⟨hsession, ⟨iterations, drainedBytes, rfl⟩, -⟩ := hok
  cases invite' with
  | panicked why => simp [invitedTo, panicWith, Phase.outcome] at h
  | returned outcome =>
      cases outcome with
      | error error => simp [invitedTo, drainStep, drainedTo] at h
      | ok call =>
          simp only [invitedTo, drainStep, drainedTo,
            transition_eq_ok .connectingMedia hsession rfl] at h
          obtain ⟨hstate, rfl, rfl⟩ := outcome_proceedWith rfl h
          obtain ⟨l, data, inputs, rest, rfl, rfl, hresponse, -⟩ :=
            response_of_returned hstep rfl
          cases acceptedBy_of_outcome hresponse with
          | earlyMedia status rtpAddr hadmitted hmedia hsome => simp at hstate
          | answered hadmitted =>
              exact .unacknowledged session _ l data inputs hadmitted.status_eq
  | called args => simp [invitedTo, Phase.outcome] at h
  | looping l => simp [invitedTo, Phase.outcome] at h
  | receiving l => simp [invitedTo, Phase.outcome] at h

/-- A step comes to a result only where it explains it. -/
theorem phaseStep_outcome {config : Config} {calls : ℕ} {phase : Phase} {e : BridgeEvent}
    {next : BridgeNext} {result : Except BridgeError Unit} (hok : phase.Ok)
    (h : phaseStep config calls phase e = some next) (hresult : next.1.outcome = some result) :
    phase.outcome = some result ∨ Explains phase e result := by
  unfold phaseStep at h
  split at h
  · next r e =>
    cases hstep : registerStep config.client r e with
    | none => simp [hstep] at h
    | some out =>
        obtain ⟨r', acts⟩ := out
        simp only [hstep, Option.some.injEq] at h
        subst h
        cases r' with
        | returned outcome =>
            cases outcome with
            | ok _ => simp [registeredTo, BridgeNext.after, Phase.outcome] at hresult
            | error error =>
                obtain rfl := Option.some.inj hresult
                exact Or.inr (.unregistered r e error (registerFails_of_step hstep))
        | _ => simp [registeredTo, panicWith, BridgeNext.after, Phase.outcome] at hresult
  · next written =>
    cases written with
    | true =>
        simp only [if_true, Option.some.injEq] at h
        subst h
        simp at hresult
    | false =>
        simp only [Bool.false_eq_true, if_false, Option.some.injEq] at h
        subst h
        obtain rfl := Option.some.inj hresult
        exact Or.inr .unready
  · next dial session port sessionId =>
    cases port with
    | none =>
        simp only [Option.some.injEq] at h
        subst h
        obtain rfl := Option.some.inj hresult
        exact Or.inr (.unbound dial session sessionId)
    | some port =>
        simp only [Option.some.injEq] at h
        subst h
        unfold boundTo at hresult
        split at hresult <;> simp [panicWith, Phase.outcome] at hresult
  · next session drain invite e ackSent =>
    cases hstep : inviteStep config.client invite e with
    | none => simp [hstep] at h
    | some out =>
        simp only [hstep, Option.some.injEq] at h
        subst h
        exact Or.inr (outcome_invitedTo hok (inviteStepped_of_step hstep) hresult)
  · next session drain invite read =>
    cases hstep : drainStep drain (.slRead read) with
    | none => simp [hstep] at h
    | some out =>
        simp only [hstep, Option.some.injEq] at h
        subst h
        obtain ⟨-, ⟨iterations, drainedBytes, rfl⟩, -⟩ := hok
        have hnone := drainStep_ne_ok (by simp) hstep
        simp [BridgeNext.after, outcome_drainedTo hnone] at hresult
  · next session drain invite written =>
    cases hstep : drainStep drain (.silenceTick written) with
    | none => simp [hstep] at h
    | some out =>
        simp only [hstep, Option.some.injEq] at h
        subst h
        obtain ⟨-, ⟨iterations, drainedBytes, rfl⟩, -⟩ := hok
        have hnone := drainStep_ne_ok (by simp) hstep
        simp [BridgeNext.after, outcome_drainedTo hnone] at hresult
  · next session call polling relay e =>
    cases hstep : relayStep relay e with
    | none => simp [hstep] at h
    | some out =>
        obtain ⟨relay', media⟩ := out
        simp only [hstep, Option.some.injEq] at h
        subst h
        cases relay' with
        | returned outcome =>
            cases outcome with
            | ok totals => simp [relayedTo, Phase.outcome] at hresult
            | error error =>
                obtain rfl := Option.some.inj hresult
                exact Or.inr (.unrelayed session call polling relay e error
                  (relayFails_of_step hstep))
        | running loops => simp [relayedTo, Phase.outcome] at hresult
        | panicked why => simp [relayedTo, Phase.outcome] at hresult
  · next session call relay datagram ackSent =>
    simp only [Option.some.injEq] at h
    subst h
    have hstepped := polledTo_stepped config session call relay datagram ackSent (hok.2.2 rfl)
    generalize polledTo session call relay datagram ackSent = next at hstepped hresult
    obtain ⟨phase', shown⟩ := next
    cases hstepped <;> simp [Phase.outcome] at hresult
  · next call after branchHash sent =>
    cases sent with
    | true =>
        simp only [if_true, Option.some.injEq] at h
        subst h
        have hsame : (Phase.byeSent call after).outcome = (Phase.hangingUp call after).outcome := by
          cases after <;> rfl
        exact Or.inl (hsame ▸ hresult)
    | false =>
        simp only [Bool.false_eq_true, if_false, Option.some.injEq] at h
        subst h
        obtain ⟨error, rfl, rfl⟩ := outcome_byeDone hok hresult
        exact Or.inl rfl
  · next call after datagram =>
    have hdone : (byeDone calls after).1.outcome = some result := by
      cases datagram with
      | none =>
          simp only [Option.some.injEq] at h
          rwa [← h] at hresult
      | some data =>
          simp only [Option.some.injEq] at h
          rwa [← h] at hresult
    obtain ⟨error, rfl, rfl⟩ := outcome_byeDone hok hdone
    exact Or.inl rfl
  · contradiction

theorem bridgeStep_outcome {config : Config} {b b' : BridgeState} {e : BridgeEvent}
    {shown : List BridgeShown} {result : Except BridgeError Unit} (hok : b.phase.Ok)
    (h : (bridgeMachine config).step b e = some (b', shown))
    (hresult : b'.phase.outcome = some result) :
    b.phase.outcome = some result ∨ Explains b.phase e result := by
  obtain ⟨calls, phase⟩ := b
  change bridgeStep config ⟨calls, phase⟩ e = some (b', shown) at h
  unfold bridgeStep at h
  split at h
  · next lineBuf e heq =>
    subst heq
    cases hwait : waitStep lineBuf e with
    | waiting lineBuf' =>
        simp only [hwait, Option.some.injEq, Prod.mk.injEq] at h
        obtain ⟨rfl, -⟩ := h
        simp [Phase.outcome] at hresult
    | closed =>
        simp only [hwait, Option.some.injEq, Prod.mk.injEq] at h
        obtain ⟨rfl, -⟩ := h
        obtain rfl := Option.some.inj hresult
        exact Or.inr (.hungUp lineBuf e (hangsUp_of_closed hwait))
    | dialled ds tail =>
        simp only [hwait, Option.some.injEq, Prod.mk.injEq] at h
        obtain ⟨rfl, -⟩ := h
        have hnone : (dialledWith (calls + 1) ds tail).1.outcome = none := by
          unfold dialledWith
          split
          · exact outcome_loopHead _
          · next dial _ =>
            have hsession := @transition_eq_ok (Session.new dial.text) .init .originating rfl rfl
            rw [hsession]
            rfl
        simp [hnone] at hresult
  · next e _ _ heq =>
    cases hstep : phaseStep config calls phase e with
    | none => simp [hstep] at h
    | some next =>
        simp only [hstep, Option.some.injEq, Prod.mk.injEq] at h
        obtain ⟨rfl, -⟩ := h
        exact phaseStep_outcome hok hstep hresult

/-- Whatever its peers do, the result of the bridge is explained by a step of the run:
where slmodemd hung up, where a read, a write or a send failed, or where the registrar
refused. -/
theorem bridge_ends {config : Config} {events : List BridgeEvent} {b : BridgeState}
    {trace : List BridgeShown} {result : Except BridgeError Unit}
    (hrun : (bridgeMachine config).run bridgeStart events = some (b, trace))
    (hreturned : b.phase = .returned result) :
    ∃ before e after b₀ past, events = before ++ e :: after ∧
      (bridgeMachine config).run bridgeStart before = some (b₀, past) ∧
      Explains b₀.phase e result := by
  have hlast : b.phase.outcome = some result := by rw [hreturned]; rfl
  have hfirst : bridgeStart.phase.outcome ≠ some result := by simp [bridgeStart, Phase.outcome]
  obtain ⟨before, e, after, b₀, b₁, past, shown, rfl, hbefore, hstep, hnot, hnext⟩ :=
    (bridgeMachine config).entered_of_run
      (P := fun b => b.phase.outcome = some result) hfirst hlast hrun
  have hok : b₀.phase.Ok := (userAgent_run hbefore).2.1
  refine ⟨before, e, after, b₀, past, rfl, hbefore, ?_⟩
  exact (bridgeStep_outcome hok hstep hnext).resolve_left hnot

/-- slmodemd cannot be written to while the call is relayed, and the call is hung up. -/
def trunkDeaf : List BridgeEvent :=
  trunkAnswered ++
    [.media (.rtpReceived
        (some ⟨List.replicate 12 0x80 ++ [0xFF], length_silentPacket⟩) false),
      .bye 9 true, .byeResponse none]

theorem bridge_ends_deaf :
    ∃ b trace, (bridgeMachine trunkConfig).run bridgeStart trunkDeaf = some (b, trace) ∧
      b.phase = .returned (.error (.relay .writeFailed)) ∧
        ∃ before e after b₀ past, trunkDeaf = before ++ e :: after ∧
          (bridgeMachine trunkConfig).run bridgeStart before = some (b₀, past) ∧
          Explains b₀.phase e (.error (.relay .writeFailed)) := by
  have hends : ((bridgeMachine trunkConfig).run bridgeStart trunkDeaf).map
      (fun end_ => match end_.1.phase with
        | .returned result => some result
        | _ => none) = some (some (.error (.relay .writeFailed))) := by
    decide +kernel
  obtain ⟨⟨b, trace⟩, hrun, hresult⟩ := Option.map_eq_some_iff.mp hends
  have hphase : b.phase = .returned (.error (.relay .writeFailed)) := by
    simp only at hresult
    split at hresult
    · next result heq => rw [heq, Option.some.inj hresult]
    · cases hresult
  exact ⟨b, trace, hrun, hphase, bridge_ends hrun hphase⟩

end SlmodemSipBridge.Bridge
