import SlmodemSipBridge.Sip.Response

/-!
# Polling for the answer, and hanging up

`SipClient::poll_answer`, which the bridge calls while early media is relayed,
and the wait for the response to a BYE.
-/

namespace SlmodemSipBridge.Sip

open Rust

/-- Why `poll_answer` fails. -/
inductive PollError where
  | sendFailed
  | callFailed (status : ℕ)
  deriving DecidableEq, Repr

/-- What a poll leaves: the call and the result. -/
structure Polled where
  call : Call
  result : Except PollError Bool

/-- Answer a response during early media. -/
def pollResponse (call : Call) (resp : Str) (ackSent : Bool) :
    Checked (Polled × List SipShown) := do
  match parseStatusCode resp with
  | none => return (⟨call, .ok false⟩, [])
  | some status =>
      if 100 ≤ status ∧ status < 200 then return (⟨call, .ok false⟩, [])
      else if status = 200 then
        let call ← call.takeEndpoint resp
        let call ← call.rememberTag resp
        let call := { call with state := .answered }
        let shown := SipShown.answered call resp
        if ackSent then return (⟨call, .ok true⟩, [shown, .sent .pollAck (.ack call)])
        else return (⟨call, .error .sendFailed⟩, [shown])
      else return (⟨call, .error (.callFailed status)⟩, [])

/-- The call that a polled 200 answers. -/
def Call.polledBy (call : Call) (resp : Str) : Call :=
  (call.tagged resp).answeredBy resp

/-- What a polled response leads to. -/
inductive PollOutcome (call : Call) (resp : Str) (ackSent : Bool) :
    Checked (Polled × List SipShown) → Prop where
  | unparsed (hstatus : parseStatusCode resp = none) :
      PollOutcome call resp ackSent (.ok (⟨call, .ok false⟩, []))
  | provisional (status : ℕ) (hstatus : parseStatusCode resp = some status)
      (hrange : 100 ≤ status ∧ status < 200) :
      PollOutcome call resp ackSent (.ok (⟨call, .ok false⟩, []))
  | badTo (why : Panic) (hstatus : parseStatusCode resp = some 200)
      (hpanic : call.rememberTag resp = .error why) :
      PollOutcome call resp ackSent (.error why)
  | answered (hstatus : parseStatusCode resp = some 200)
      (hremembered : call.rememberTag resp = .ok (call.tagged resp))
      (hack : ackSent = true) :
      PollOutcome call resp ackSent
        (.ok (⟨call.polledBy resp, .ok true⟩,
          [.answered (call.polledBy resp) resp,
            .sent .pollAck (.ack (call.polledBy resp))]))
  | ackUnsent (hstatus : parseStatusCode resp = some 200)
      (hremembered : call.rememberTag resp = .ok (call.tagged resp))
      (hack : ackSent = false) :
      PollOutcome call resp ackSent
        (.ok (⟨call.polledBy resp, .error .sendFailed⟩,
          [.answered (call.polledBy resp) resp]))
  | failed (status : ℕ) (hstatus : parseStatusCode resp = some status)
      (hother : ¬ (100 ≤ status ∧ status < 200) ∧ status ≠ 200) :
      PollOutcome call resp ackSent
        (.ok (⟨call, .error (.callFailed status)⟩, []))

/-- A polled response that is no 200 changes nothing and sends nothing; a 200 that
can be read answers the call. -/
theorem PollOutcome.silent_or_answered {call : Call} {resp : Str} {ackSent : Bool}
    {polled : Polled} {acks : List SipShown}
    (h : PollOutcome call resp ackSent (.ok (polled, acks))) :
    (parseStatusCode resp ≠ some 200 ∧ polled.call = call ∧ acks = []) ∨
      (parseStatusCode resp = some 200 ∧
        call.rememberTag resp = .ok (call.tagged resp) ∧
        polled.call = call.polledBy resp ∧ polled.result ≠ .ok false ∧
        acks = .answered (call.polledBy resp) resp ::
          if ackSent then [.sent .pollAck (.ack (call.polledBy resp))] else []) := by
  cases h with
  | unparsed hstatus =>
      refine Or.inl ⟨?_, rfl, rfl⟩
      simp [hstatus]
  | provisional status hstatus hrange =>
      refine Or.inl ⟨?_, rfl, rfl⟩
      rw [hstatus, ne_eq, Option.some.injEq]
      omega
  | answered hstatus hremembered hack =>
      refine Or.inr ⟨hstatus, hremembered, rfl, by simp, ?_⟩
      rw [if_pos hack]
  | ackUnsent hstatus hremembered hack =>
      refine Or.inr ⟨hstatus, hremembered, rfl, by simp, ?_⟩
      simp [hack]
  | failed status hstatus hother =>
      refine Or.inl ⟨?_, rfl, rfl⟩
      rw [hstatus, ne_eq, Option.some.injEq]
      exact hother.2

/-- Reading the tag does not depend on the endpoint. -/
theorem rememberTag_withEndpoint (call : Call) (rtp : Option SocketAddr) (resp : Str) :
    Call.rememberTag { call with remoteRtp := rtp } resp =
      (call.rememberTag resp).map fun call' => { call' with remoteRtp := rtp } := by
  obtain ⟨callId, cseq, localTag, remoteTag, remoteRtp, state, uri, branch⟩ := call
  unfold Call.rememberTag
  cases remoteTag with
  | some tag => rfl
  | none =>
      cases extractHeader resp (lit "To") with
      | error why => rfl
      | ok found =>
          cases found with
          | none => rfl
          | some header =>
              obtain ⟨tag, hparam⟩ := extractTagParam_total header
              simp only [Option.isNone_none, if_true, bind, Except.bind, hparam]
              cases tag <;> rfl

theorem pollResponse_outcome (call : Call) (resp : Str) (ackSent : Bool) :
    PollOutcome call resp ackSent (pollResponse call resp ackSent) := by
  unfold pollResponse
  cases hstatus : parseStatusCode resp with
  | none => exact .unparsed hstatus
  | some status =>
      by_cases hrange : 100 ≤ status ∧ status < 200
      · simp only [if_pos hrange]
        exact .provisional status hstatus hrange
      · simp only [if_neg hrange]
        by_cases h200 : status = 200
        · subst h200
          simp only [if_true, takeEndpoint_eq, rememberTag_withEndpoint, bind,
            Except.bind]
          cases hremember : call.rememberTag resp with
          | error why => exact .badTo why hstatus hremember
          | ok call' =>
              have heq := rememberTag_eq_ok hremember
              subst heq
              cases hack : ackSent with
              | true => exact .answered hstatus hremember rfl
              | false => exact .ackUnsent hstatus hremember rfl
        · rw [if_neg h200]
          exact .failed status hstatus ⟨hrange, h200⟩

end SlmodemSipBridge.Sip
