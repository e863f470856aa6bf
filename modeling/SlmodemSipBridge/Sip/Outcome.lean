import SlmodemSipBridge.Sip.Invite

/-!
# The cases of `invite`

What the first INVITE, the head of the loop and a response lead to, once and for
all: each constructor is a path through the arms of the source, with the tests
that lead there.
-/

namespace SlmodemSipBridge.Sip

open Rust

/-! ## The first INVITE -/

/-- The loop as the first INVITE enters it. -/
def firstLoop (client : SipClient) (args : InviteArgs) (ids : InviteStart) :
    InviteLoop where
  call := callOf (firstInvite client args ids)
  invite := firstInvite client args ids
  deadline := ids.deadlineBase + args.inviteTimeout
  retransmitTimer := timerAInitial
  lastSend := ids.lastSend
  retransmitCount := 0
  iterations := 0
  gotProvisional := false
  authRetryDone := false

/-- An `Instant` can hold the deadline. -/
abbrev Representable (args : InviteArgs) (ids : InviteStart) : Prop :=
  ids.deadlineBase + args.inviteTimeout < instantLimit

/-- What the first INVITE leads to. -/
inductive StartOutcome (client : SipClient) (args : InviteArgs) (ids : InviteStart) :
    InviteState × List SipShown → Prop where
  | undialable (why : Panic) (hdial : args.dial = []) :
      StartOutcome client args ids (.panicked why, [])
  | unsent (hsent : ids.sent = false) :
      StartOutcome client args ids (.returned (.error .sendFailed), [])
  | overflowed (hsent : ids.sent = true) (hdeadline : ¬ Representable args ids) :
      StartOutcome client args ids
        (.panicked .instantOverflow,
          [.sent .invite (.invite (firstInvite client args ids))])
  | sent (hsent : ids.sent = true) (hdeadline : Representable args ids) :
      StartOutcome client args ids
        (.looping (firstLoop client args ids),
          [.sent .invite (.invite (firstInvite client args ids))])

theorem inviteStart_outcome (client : SipClient) (args : InviteArgs) (ids : InviteStart) :
    StartOutcome client args ids (inviteStart client args ids) := by
  unfold inviteStart
  cases hdial : args.dial.isEmpty with
  | true => exact .undialable _ (List.isEmpty_iff.mp hdial)
  | false =>
      cases hsent : ids.sent with
      | false => exact .unsent hsent
      | true =>
          by_cases hdeadline : Representable args ids
          · simp only [Bool.not_false, assert_true, if_true, addDuration, if_pos hdeadline]
            exact .sent hsent hdeadline
          · simp only [Bool.not_false, assert_true, if_true, addDuration, if_neg hdeadline]
            exact .overflowed hsent hdeadline

/-! ## The head of the loop -/

/-- The head gets past the deadline and finds the timer expired. -/
structure InviteLoop.Due (l : InviteLoop) (inputs : HeadInputs) : Prop where
  counted : l.iterations < responseLoopLimit
  early : inputs.deadlineTest < l.deadline
  expired : l.retransmits inputs

instance (l : InviteLoop) (inputs : HeadInputs) : Decidable (l.Due inputs) :=
  decidable_of_iff
    (l.iterations < responseLoopLimit ∧ inputs.deadlineTest < l.deadline ∧
      l.retransmits inputs)
    ⟨fun h => ⟨h.1, h.2.1, h.2.2⟩, fun h => ⟨h.counted, h.early, h.expired⟩⟩

/-- What the head of the loop leads to. -/
inductive HeadOutcome (l : InviteLoop) (inputs : HeadInputs) :
    InviteState × List SipShown → Prop where
  | exceeded (why : Panic) (hlimit : responseLoopLimit ≤ l.iterations) :
      HeadOutcome l inputs (.panicked why, [])
  | timedOut (hlate : l.deadline ≤ inputs.deadlineTest) :
      HeadOutcome l inputs (.returned (.error .timedOut), [])
  | retransmitted (hdue : l.Due inputs) (hsent : inputs.sent = true) :
      HeadOutcome l inputs
        (.receiving (l.counted.retransmitted inputs),
          [.sent .retransmit (.invite l.invite)])
  | unsent (hdue : l.Due inputs) (hsent : inputs.sent = false) :
      HeadOutcome l inputs (.returned (.error .sendFailed), [])
  | quiet (hidle : ¬ l.retransmits inputs) :
      HeadOutcome l inputs (.receiving l.counted, [])

theorem inviteHead_outcome (l : InviteLoop) (inputs : HeadInputs) :
    HeadOutcome l inputs (inviteHead l inputs) := by
  unfold inviteHead
  by_cases hcount : l.iterations < responseLoopLimit
  · rw [decide_eq_true hcount, assert_true]
    simp only
    by_cases hlate : l.counted.deadline ≤ inputs.deadlineTest
    · rw [if_pos hlate]
      exact .timedOut hlate
    · rw [if_neg hlate]
      by_cases hexpired : l.counted.retransmits inputs
      · have hdue : l.Due inputs := ⟨hcount, Nat.lt_of_not_le hlate, hexpired⟩
        rw [if_pos hexpired]
        cases hsent : inputs.sent with
        | true => exact .retransmitted hdue hsent
        | false => exact .unsent hdue hsent
      · rw [if_neg hexpired]
        exact .quiet (l := l) hexpired
  · rw [decide_eq_false hcount, assert_false]
    exact .exceeded _ (by omega)

/-- A head that is due and shows nothing could not send. -/
theorem HeadOutcome.not_sent {l : InviteLoop} {inputs : HeadInputs} {next : InviteState}
    (h : HeadOutcome l inputs (next, [])) (hdue : l.Due inputs) : inputs.sent ≠ true := by
  cases h with
  | exceeded why hlimit => exact absurd hdue.counted (by omega)
  | timedOut hlate => exact absurd hdue.early (by omega)
  | unsent _ hsent => simp [hsent]
  | quiet hidle => exact absurd hdue.expired hidle

/-- The head goes on to a receive before the deadline only. -/
theorem early_of_receiving {l l' : InviteLoop} {inputs : HeadInputs}
    (h : (inviteHead l inputs).1 = .receiving l') : inputs.deadlineTest < l.deadline := by
  by_contra hlate
  have hcounted : l.counted.deadline ≤ inputs.deadlineTest := Nat.le_of_not_lt hlate
  unfold inviteHead at h
  split at h
  · simp at h
  · simp [if_pos hcounted] at h

/-! ## A response -/

/-- The challenge of a response with that status, if it can be answered. -/
def usableChallenge (status : ℕ) (resp : Str) : Option DigestChallenge :=
  (headerValue resp (challengeHeader status)).bind fun value =>
    (parseDigestChallenge value).toOption.bind Except.toOption

/-- The challenge is the first, and can be found and used. -/
def FirstUsableChallenge (l : InviteLoop) (status : ℕ) (resp : Str) : Prop :=
  l.authRetryDone = false ∧
    (∃ found, extractHeader resp (challengeHeader status) = .ok found) ∧
    (usableChallenge status resp).isSome = true

/-- The credentials that answer a challenge. -/
def credentials (client : SipClient) (call : Call) (status : ℕ)
    (digest : DigestChallenge) (cnonce : Str) : Str × Str :=
  (credentialHeader status,
    digest.authHeaderValue client.md5Hex cnonce client.username client.password
      (lit "INVITE") call.inviteUri)

/-- The authenticated INVITE that answers a challenge. -/
def retryInvite (client : SipClient) (l : InviteLoop) (status : ℕ)
    (digest : DigestChallenge) (inputs : AnswerInputs) : InviteRequest :=
  authInvite l (l.call.retried (generateBranch inputs.branchHash))
    (credentials client l.call status digest inputs.cnonce)

/-- The loop once a challenge is answered. -/
def InviteLoop.afterRetry (l : InviteLoop) (inputs : AnswerInputs) : InviteLoop :=
  l.restarted (l.call.retried (generateBranch inputs.branchHash)) inputs.afterSend

/-- What a challenge leads to. -/
inductive ChallengeOutcome (client : SipClient) (l : InviteLoop) (status : ℕ)
    (resp : Str) (inputs : AnswerInputs) :
    Checked (InviteState × List SipShown) → Prop where
  | again (hdone : l.authRetryDone = true) :
      ChallengeOutcome client l status resp inputs
        (.ok (.returned (.error (.authFailed status)), []))
  | panicked (why : Panic) (hfirst : l.authRetryDone = false)
      (hlookup : extractHeader resp (challengeHeader status) = .error why) :
      ChallengeOutcome client l status resp inputs (.error why)
  | unusable (error : InviteError) (hfirst : l.authRetryDone = false)
      (hread : ∃ found, extractHeader resp (challengeHeader status) = .ok found)
      (hnone : usableChallenge status resp = none) :
      ChallengeOutcome client l status resp inputs (.ok (.returned (.error error), []))
  | ackUnsent (digest : DigestChallenge) (hfirst : l.authRetryDone = false)
      (hread : ∃ found, extractHeader resp (challengeHeader status) = .ok found)
      (husable : usableChallenge status resp = some digest)
      (hack : inputs.ackSent = false) :
      ChallengeOutcome client l status resp inputs
        (.ok (.returned (.error .sendFailed), []))
  | retryUnsent (digest : DigestChallenge) (hfirst : l.authRetryDone = false)
      (hread : ∃ found, extractHeader resp (challengeHeader status) = .ok found)
      (husable : usableChallenge status resp = some digest)
      (hack : inputs.ackSent = true) (hinvite : inputs.inviteSent = false) :
      ChallengeOutcome client l status resp inputs
        (.ok (.returned (.error .sendFailed), [.sent .challengeAck (.ack l.call)]))
  | retried (digest : DigestChallenge) (hfirst : l.authRetryDone = false)
      (hread : ∃ found, extractHeader resp (challengeHeader status) = .ok found)
      (husable : usableChallenge status resp = some digest)
      (hack : inputs.ackSent = true) (hinvite : inputs.inviteSent = true) :
      ChallengeOutcome client l status resp inputs
        (.ok (.looping (l.afterRetry inputs),
          [.sent .challengeAck (.ack l.call),
            .sent .authInvite (.invite (retryInvite client l status digest inputs))]))

theorem inviteChallenged_outcome (client : SipClient) (l : InviteLoop) (status : ℕ)
    (resp : Str) (inputs : AnswerInputs) :
    ChallengeOutcome client l status resp inputs
      (inviteChallenged client l status resp inputs) := by
  unfold inviteChallenged
  cases hdone : l.authRetryDone with
  | true => exact .again hdone
  | false =>
      simp only [Bool.false_eq_true, if_false]
      have hascii : IsAscii (challengeHeader status) := by
        unfold challengeHeader
        split <;> decide
      cases hlookup : extractHeader resp (challengeHeader status) with
      | error why => exact .panicked why hdone hlookup
      | ok found =>
          have hvalue := extractHeader_eq_ok hascii hlookup
          have hread : ∃ found, extractHeader resp (challengeHeader status) = .ok found :=
            ⟨found, hlookup⟩
          cases found with
          | none =>
              exact .unusable _ hdone hread (by simp [usableChallenge, hvalue])
          | some value =>
              obtain ⟨parsed, hparsed⟩ := parseDigestChallenge_total value
              simp only [hparsed, bind, Except.bind]
              cases parsed with
              | error e =>
                  exact .unusable _ hdone hread
                    (by simp [usableChallenge, hvalue, hparsed, Except.toOption])
              | ok digest =>
                  have husable : usableChallenge status resp = some digest := by
                    simp [usableChallenge, hvalue, hparsed, Except.toOption]
                  cases hack : inputs.ackSent with
                  | false => exact .ackUnsent digest hdone hread husable hack
                  | true =>
                      cases hinvite : inputs.inviteSent with
                      | false => exact .retryUnsent digest hdone hread husable hack hinvite
                      | true => exact .retried digest hdone hread husable hack hinvite

/-- What a response that is not dropped leads to. -/
inductive DispatchOutcome (client : SipClient) (l : InviteLoop) (status : ℕ)
    (resp : Str) (inputs : AnswerInputs) :
    Checked (InviteState × List SipShown) → Prop where
  | trying (hstatus : status = 100) :
      DispatchOutcome client l status resp inputs
        (.ok (.looping { l with gotProvisional := true }, []))
  | ringing (hstatus : status = 180 ∨ status = 183)
      (hnone : acceptedEndpoint resp = none) :
      DispatchOutcome client l status resp inputs
        (.ok (.looping { l with gotProvisional := true }, []))
  | earlyMedia (rtpAddr : SocketAddr) (hstatus : status = 180 ∨ status = 183)
      (hsome : acceptedEndpoint resp = some rtpAddr) :
      DispatchOutcome client l status resp inputs
        (.ok (.returned (.ok
          { l.call with remoteRtp := some rtpAddr, state := .earlyMedia }), []))
  | answered (hstatus : status = 200) :
      DispatchOutcome client l status resp inputs
        (.ok (.returned (.ok (l.call.answeredBy resp)),
          [.answered (l.call.answeredBy resp) resp]))
  | challenged (out : Checked (InviteState × List SipShown))
      (hstatus : status = 401 ∨ status = 407)
      (hout : ChallengeOutcome client l status resp inputs out) :
      DispatchOutcome client l status resp inputs out
  | rejected (hstatus : 400 ≤ status ∧ status < 700)
      (hother : status ≠ 401 ∧ status ≠ 407) (hack : inputs.ackSent = true) :
      DispatchOutcome client l status resp inputs
        (.ok (.returned (.error (.rejected status)), [.sent .errorAck (.ack l.call)]))
  | rejectedUnsent (hstatus : 400 ≤ status ∧ status < 700)
      (hother : status ≠ 401 ∧ status ≠ 407) (hack : inputs.ackSent = false) :
      DispatchOutcome client l status resp inputs
        (.ok (.returned (.error .sendFailed), []))
  | unexpected
      (hstatus : status ≠ 100 ∧ status ≠ 180 ∧ status ≠ 183 ∧ status ≠ 200 ∧
        ¬ (400 ≤ status ∧ status < 700)) :
      DispatchOutcome client l status resp inputs (.ok (.looping l, []))

theorem inviteDispatch_outcome (client : SipClient) (l : InviteLoop) (status : ℕ)
    (resp : Str) (inputs : AnswerInputs) :
    DispatchOutcome client l status resp inputs
      (inviteDispatch client l status resp inputs) := by
  unfold inviteDispatch
  by_cases h100 : status = 100
  · rw [if_pos h100]
    exact .trying h100
  rw [if_neg h100]
  by_cases h18x : status = 180 ∨ status = 183
  · rw [if_pos h18x]
    simp only [sdpEndpoint_eq, bind, Except.bind]
    cases hsdp : acceptedEndpoint resp with
    | none => exact .ringing h18x hsdp
    | some rtpAddr => exact .earlyMedia rtpAddr h18x hsdp
  rw [if_neg h18x]
  by_cases h200 : status = 200
  · rw [if_pos h200]
    simp only [takeEndpoint_eq, bind, Except.bind]
    exact .answered h200
  rw [if_neg h200]
  by_cases hauth : status = 401 ∨ status = 407
  · rw [if_pos hauth]
    exact .challenged _ hauth (inviteChallenged_outcome client l status resp inputs)
  rw [if_neg hauth]
  have hother : status ≠ 401 ∧ status ≠ 407 := by omega
  by_cases herror : 400 ≤ status ∧ status < 700
  · rw [if_pos herror]
    cases hack : inputs.ackSent with
    | true => exact .rejected herror hother hack
    | false => exact .rejectedUnsent herror hother hack
  · rw [if_neg herror]
    exact .unexpected (by omega)

/-- The response has a status, passes the filter and its tag can be read. -/
structure Admitted (l : InviteLoop) (resp : Str) (status : ℕ) : Prop where
  status_eq : parseStatusCode resp = some status
  fresh : isStale l.call.cseq resp = .ok false
  remembered : l.call.rememberTag resp = .ok (l.call.tagged resp)

/-- An admitted response has one status. -/
theorem Admitted.status_unique {l : InviteLoop} {resp : Str} {status status' : ℕ}
    (h : Admitted l resp status) (h' : Admitted l resp status') : status' = status := by
  have heq := h.status_eq.symm.trans h'.status_eq
  simpa using heq.symm

/-- The loop once the tag is read. -/
def InviteLoop.tagged (l : InviteLoop) (resp : Str) : InviteLoop :=
  { l with call := l.call.tagged resp }

/-- What a response leads to. -/
inductive ResponseOutcome (client : SipClient) (l : InviteLoop) (resp : Str)
    (inputs : AnswerInputs) : Checked (InviteState × List SipShown) → Prop where
  | unparsed (hstatus : parseStatusCode resp = none) :
      ResponseOutcome client l resp inputs (.ok (.looping l, []))
  | stale (status : ℕ) (hstatus : parseStatusCode resp = some status)
      (hstale : isStale l.call.cseq resp = .ok true) :
      ResponseOutcome client l resp inputs (.ok (.looping l, []))
  | badCseq (status : ℕ) (why : Panic) (hstatus : parseStatusCode resp = some status)
      (hpanic : isStale l.call.cseq resp = .error why) :
      ResponseOutcome client l resp inputs (.error why)
  | badTo (status : ℕ) (why : Panic) (hstatus : parseStatusCode resp = some status)
      (hfresh : isStale l.call.cseq resp = .ok false)
      (hpanic : l.call.rememberTag resp = .error why) :
      ResponseOutcome client l resp inputs (.error why)
  | admitted (status : ℕ) (out : Checked (InviteState × List SipShown))
      (hadmitted : Admitted l resp status)
      (hout : DispatchOutcome client (l.tagged resp) status resp inputs out) :
      ResponseOutcome client l resp inputs out

theorem inviteResponse_outcome (client : SipClient) (l : InviteLoop) (resp : Str)
    (inputs : AnswerInputs) :
    ResponseOutcome client l resp inputs (inviteResponse client l resp inputs) := by
  unfold inviteResponse
  cases hstatus : parseStatusCode resp with
  | none => exact .unparsed hstatus
  | some status =>
      simp only
      cases hstale : isStale l.call.cseq resp with
      | error why => exact .badCseq status why hstatus hstale
      | ok stale =>
          cases stale with
          | true => exact .stale status hstatus hstale
          | false =>
              simp only [bind, Except.bind, Bool.false_eq_true, if_false]
              cases hcall : l.call.rememberTag resp with
              | error why => exact .badTo status why hstatus hstale hcall
              | ok call =>
                  have heq := rememberTag_eq_ok hcall
                  subst heq
                  exact .admitted status _ ⟨hstatus, hstale, hcall⟩
                    (inviteDispatch_outcome client _ status resp inputs)

/-- A response leaves `invite` in its loop or ends it. -/
theorem next_of_response {client : SipClient} {l : InviteLoop} {resp : Str}
    {inputs : AnswerInputs} {next : InviteState} {shown : List SipShown}
    (h : ResponseOutcome client l resp inputs (.ok (next, shown))) :
    (∃ l', next = .looping l') ∨ ∃ result, next = .returned result := by
  cases h with
  | unparsed _ => exact Or.inl ⟨_, rfl⟩
  | stale _ _ _ => exact Or.inl ⟨_, rfl⟩
  | admitted status _ hadmitted hdispatch =>
      cases hdispatch with
      | trying _ => exact Or.inl ⟨_, rfl⟩
      | ringing _ _ => exact Or.inl ⟨_, rfl⟩
      | earlyMedia _ _ _ => exact Or.inr ⟨_, rfl⟩
      | answered _ => exact Or.inr ⟨_, rfl⟩
      | rejected _ _ _ => exact Or.inr ⟨_, rfl⟩
      | rejectedUnsent _ _ _ => exact Or.inr ⟨_, rfl⟩
      | unexpected _ => exact Or.inl ⟨_, rfl⟩
      | challenged _ _ hchallenge =>
          cases hchallenge with
          | again _ => exact Or.inr ⟨_, rfl⟩
          | unusable _ _ _ _ => exact Or.inr ⟨_, rfl⟩
          | ackUnsent _ _ _ _ _ => exact Or.inr ⟨_, rfl⟩
          | retryUnsent _ _ _ _ _ _ => exact Or.inr ⟨_, rfl⟩
          | retried _ _ _ _ _ _ => exact Or.inl ⟨_, rfl⟩

/-- The loop that a response leads back to is in the same iteration, and its timer
is as it was or starts anew. -/
theorem loop_of_response {client : SipClient} {l l' : InviteLoop} {resp : Str}
    {inputs : AnswerInputs} {shown : List SipShown}
    (h : ResponseOutcome client l resp inputs (.ok (.looping l', shown))) :
    l'.iterations = l.iterations ∧
      (l'.retransmitTimer = l.retransmitTimer ∨ l'.retransmitTimer = timerAInitial) := by
  cases h with
  | unparsed _ => exact ⟨rfl, Or.inl rfl⟩
  | stale _ _ _ => exact ⟨rfl, Or.inl rfl⟩
  | admitted status _ _ hdispatch =>
      cases hdispatch with
      | trying _ => exact ⟨rfl, Or.inl rfl⟩
      | ringing _ _ => exact ⟨rfl, Or.inl rfl⟩
      | unexpected _ => exact ⟨rfl, Or.inl rfl⟩
      | challenged _ _ hchallenge =>
          cases hchallenge with
          | retried _ _ _ _ _ _ => exact ⟨rfl, Or.inr rfl⟩

/-- A failure that `invite` acknowledges. -/
def FailureAcked (l : InviteLoop) (status : ℕ) (resp : Str) (inputs : AnswerInputs) :
    Prop :=
  (400 ≤ status ∧ status < 700) ∧ inputs.ackSent = true ∧
    (status = 401 ∨ status = 407 → FirstUsableChallenge l status resp)

/-- Unless it sets the call up, `invite` shows the ACK of a failure and perhaps the
INVITE that answers a challenge, or nothing. -/
theorem acks_of_response {client : SipClient} {l : InviteLoop} {resp : Str}
    {inputs : AnswerInputs} {next : InviteState} {shown : List SipShown}
    (h : ResponseOutcome client l resp inputs (.ok (next, shown)))
    (hnext : ∀ call, next ≠ .returned (.ok call)) :
    (∃ status site rest, Admitted l resp status ∧ FailureAcked l status resp inputs ∧
        shown = .sent site (.ack (l.call.tagged resp)) :: rest ∧
        ∀ o ∈ rest, ∃ r, o = .sent .authInvite (.invite r)) ∨
      shown = [] ∧ ∀ status, Admitted l resp status →
        status ≠ 200 ∧ ¬ FailureAcked l status resp inputs := by
  cases h with
  | unparsed hstatus =>
      refine Or.inr ⟨rfl, ?_⟩
      intro status hadmitted
      simp [hadmitted.status_eq] at hstatus
  | stale status hstatus hstale =>
      refine Or.inr ⟨rfl, ?_⟩
      intro status hadmitted
      simp [hadmitted.fresh] at hstale
  | admitted status _ hadmitted hdispatch =>
      have hsilent : status ≠ 200 ∧ ¬ FailureAcked l status resp inputs →
          ∀ status', Admitted l resp status' →
            status' ≠ 200 ∧ ¬ FailureAcked l status' resp inputs :=
        fun hnone status' h' => hadmitted.status_unique h' ▸ hnone
      have hlow : status < 200 → status ≠ 200 ∧ ¬ FailureAcked l status resp inputs := by
        intro hlt
        refine ⟨by omega, ?_⟩
        rintro ⟨hrange, -⟩
        omega
      cases hdispatch with
      | trying hstatus => exact Or.inr ⟨rfl, hsilent (hlow (by omega))⟩
      | ringing hstatus _ => exact Or.inr ⟨rfl, hsilent (hlow (by omega))⟩
      | earlyMedia _ _ _ => exact absurd rfl (hnext _)
      | answered _ => exact absurd rfl (hnext _)
      | rejected hstatus hother hack =>
          exact Or.inl ⟨status, .errorAck, [], hadmitted, ⟨hstatus, hack, by omega⟩, rfl,
            by simp⟩
      | rejectedUnsent hstatus hother hack =>
          refine Or.inr ⟨rfl, hsilent ⟨by omega, ?_⟩⟩
          intro hacked
          simp [hacked.2.1] at hack
      | unexpected hstatus =>
          exact Or.inr ⟨rfl, hsilent ⟨hstatus.2.2.2.1, fun hacked =>
            hstatus.2.2.2.2 hacked.1⟩⟩
      | challenged _ hauth hchallenge =>
          have hrange : 400 ≤ status ∧ status < 700 := by omega
          cases hchallenge with
          | again hdone =>
              refine Or.inr ⟨rfl, hsilent ⟨by omega, ?_⟩⟩
              intro hacked
              exact absurd hdone (by simp [InviteLoop.tagged, (hacked.2.2 hauth).1])
          | unusable _ hfirst hread hnone =>
              refine Or.inr ⟨rfl, hsilent ⟨by omega, ?_⟩⟩
              intro hacked
              have husable := (hacked.2.2 hauth).2.2
              simp [hnone] at husable
          | ackUnsent digest hfirst hread husable hack =>
              refine Or.inr ⟨rfl, hsilent ⟨by omega, ?_⟩⟩
              intro hacked
              simp [hacked.2.1] at hack
          | retryUnsent digest hfirst hread husable hack hinvite =>
              exact Or.inl ⟨status, .challengeAck, [], hadmitted,
                ⟨hrange, hack, fun _ => ⟨hfirst, hread, by simp [husable]⟩⟩, rfl, by simp⟩
          | retried digest hfirst hread husable hack hinvite =>
              exact Or.inl ⟨status, .challengeAck, _, hadmitted,
                ⟨hrange, hack, fun _ => ⟨hfirst, hread, by simp [husable]⟩⟩, rfl, by simp⟩

/-- Unless it sets the call up, `invite` does nothing but send requests. -/
theorem sent_of_response {client : SipClient} {l : InviteLoop} {resp : Str}
    {inputs : AnswerInputs} {next : InviteState} {shown : List SipShown}
    (h : ResponseOutcome client l resp inputs (.ok (next, shown)))
    (hnext : ∀ call, next ≠ .returned (.ok call)) :
    ∀ o ∈ shown, ∃ site request, o = .sent site request := by
  intro o ho
  rcases acks_of_response h hnext with
    ⟨_, site, rest, -, -, rfl, hrest⟩ | ⟨rfl, -⟩
  · rcases List.mem_cons.mp ho with rfl | ho
    · exact ⟨site, _, rfl⟩
    · obtain ⟨r, rfl⟩ := hrest o ho
      exact ⟨.authInvite, _, rfl⟩
  · simp at ho

/-- `invite` panics before it answers. -/
theorem not_acked_of_crash {client : SipClient} {l : InviteLoop} {resp : Str}
    {inputs : AnswerInputs} {why : Panic}
    (h : ResponseOutcome client l resp inputs (.error why)) {status : ℕ}
    (hadmitted : Admitted l resp status) :
    status ≠ 200 ∧ ¬ FailureAcked l status resp inputs := by
  cases h with
  | badCseq _ _ _ hpanic => simp [hadmitted.fresh] at hpanic
  | badTo _ _ _ _ hpanic => simp [hadmitted.remembered] at hpanic
  | admitted status' _ hadmitted' hdispatch =>
      obtain rfl := hadmitted'.status_unique hadmitted
      cases hdispatch with
      | challenged _ hauth hchallenge =>
          cases hchallenge with
          | panicked _ hfirst hlookup =>
              refine ⟨by omega, ?_⟩
              intro hacked
              obtain ⟨found, hfound⟩ := (hacked.2.2 hauth).2.1
              simp [hlookup] at hfound

/-! ## A step -/

/-- The steps of `invite`. -/
inductive InviteStepped (client : SipClient) :
    InviteState → InviteEvent → InviteState → List SipShown → Prop where
  | start (args : InviteArgs) (ids : InviteStart) :
      InviteStepped client (.called args) (.start ids)
        (inviteStart client args ids).1 (inviteStart client args ids).2
  | head (l : InviteLoop) (inputs : HeadInputs) :
      InviteStepped client (.looping l) (.head inputs)
        (inviteHead l inputs).1 (inviteHead l inputs).2
  | silent (l : InviteLoop) (inputs : AnswerInputs) :
      InviteStepped client (.receiving l) (.received none inputs) (.looping l) []
  | response (l : InviteLoop) (data : Datagram) (inputs : AnswerInputs)
      (next : InviteState) (shown : List SipShown)
      (hresponse : ResponseOutcome client l (fromUtf8Lossy data.val) inputs
        (.ok (next, shown))) :
      InviteStepped client (.receiving l) (.received (some data) inputs) next
        (.read (some l.call) (fromUtf8Lossy data.val) :: shown)
  | crash (l : InviteLoop) (data : Datagram) (inputs : AnswerInputs) (why : Panic)
      (hresponse : ResponseOutcome client l (fromUtf8Lossy data.val) inputs
        (.error why)) :
      InviteStepped client (.receiving l) (.received (some data) inputs)
        (.panicked why) [.read (some l.call) (fromUtf8Lossy data.val)]

/-- The head of the loop and the first INVITE set no call up. -/
theorem inviteStart_ne_ok (client : SipClient) (args : InviteArgs) (ids : InviteStart)
    (call : Call) : (inviteStart client args ids).1 ≠ .returned (.ok call) := by
  have hout := inviteStart_outcome client args ids
  generalize inviteStart client args ids = out at hout
  cases hout <;> simp

theorem inviteHead_ne_ok (l : InviteLoop) (inputs : HeadInputs) (call : Call) :
    (inviteHead l inputs).1 ≠ .returned (.ok call) := by
  have hout := inviteHead_outcome l inputs
  generalize inviteHead l inputs = out at hout
  cases hout <;> simp

/-- The call that `invite` has returned. -/
def InviteState.returnedCall : InviteState → Option Call
  | .returned (.ok call) => some call
  | _ => none

theorem returnedCall_eq_some_iff {s : InviteState} {call : Call} :
    s.returnedCall = some call ↔ s = .returned (.ok call) := by
  unfold InviteState.returnedCall
  split <;> simp_all

/-- How a response sets a call up, and what it shows. -/
inductive AcceptedBy (l : InviteLoop) (resp : Str) : Call → List SipShown → Prop where
  | earlyMedia (status : ℕ) (rtpAddr : SocketAddr) (hadmitted : Admitted l resp status)
      (hstatus : status = 180 ∨ status = 183)
      (hsome : acceptedEndpoint resp = some rtpAddr) :
      AcceptedBy l resp
        { l.call.tagged resp with remoteRtp := some rtpAddr, state := .earlyMedia } []
  | answered (hadmitted : Admitted l resp 200) :
      AcceptedBy l resp ((l.call.tagged resp).answeredBy resp)
        [.answered ((l.call.tagged resp).answeredBy resp) resp]

theorem acceptedBy_of_outcome {client : SipClient} {l : InviteLoop} {resp : Str}
    {inputs : AnswerInputs} {call : Call} {shown : List SipShown}
    (h : ResponseOutcome client l resp inputs (.ok (.returned (.ok call), shown))) :
    AcceptedBy l resp call shown := by
  cases h with
  | admitted status _ hadmitted hdispatch =>
      cases hdispatch with
      | earlyMedia rtpAddr hstatus hsome =>
          exact .earlyMedia status rtpAddr hadmitted hstatus hsome
      | answered hstatus => exact .answered (hstatus ▸ hadmitted)
      | challenged _ _ hchallenge => cases hchallenge

theorem inviteStepped_of_step {client : SipClient} {s s' : InviteState}
    {e : InviteEvent} {shown : List SipShown}
    (h : (inviteMachine client).step s e = some (s', shown)) :
    InviteStepped client s e s' shown := by
  change inviteStep client s e = some (s', shown) at h
  cases s with
  | called args =>
      cases e with
      | start ids =>
          simp only [inviteStep, Option.some.injEq] at h
          have hstart : InviteStepped client _ _ _ _ := .start args ids
          rwa [h] at hstart
      | head _ => simp [inviteStep] at h
      | received _ _ => simp [inviteStep] at h
  | looping l =>
      cases e with
      | head inputs =>
          simp only [inviteStep, Option.some.injEq] at h
          have hhead : InviteStepped client _ _ _ _ := .head l inputs
          rwa [h] at hhead
      | start _ => simp [inviteStep] at h
      | received _ _ => simp [inviteStep] at h
  | receiving l =>
      cases e with
      | received datagram inputs =>
          cases datagram with
          | none =>
              simp only [inviteStep, Option.some.injEq, Prod.mk.injEq] at h
              obtain ⟨rfl, rfl⟩ := h
              exact .silent l inputs
          | some data =>
              have hout := inviteResponse_outcome client l (fromUtf8Lossy data.val) inputs
              simp only [inviteStep] at h
              cases hresponse :
                  inviteResponse client l (fromUtf8Lossy data.val) inputs with
              | ok next =>
                  simp only [hresponse, Option.some.injEq, Prod.mk.injEq] at h
                  obtain ⟨rfl, rfl⟩ := h
                  rw [hresponse] at hout
                  exact .response l data inputs next.1 next.2 hout
              | error why =>
                  simp only [hresponse, Option.some.injEq, Prod.mk.injEq] at h
                  obtain ⟨rfl, rfl⟩ := h
                  rw [hresponse] at hout
                  exact .crash l data inputs why hout
      | start _ => simp [inviteStep] at h
      | head _ => simp [inviteStep] at h
  | returned result => cases e <;> simp [inviteStep] at h
  | panicked why => cases e <;> simp [inviteStep] at h

/-- `invite` sets a call up by a response only. -/
theorem response_of_returned {client : SipClient} {s s' : InviteState} {e : InviteEvent}
    {shown : List SipShown} {call : Call} (h : InviteStepped client s e s' shown)
    (hreturned : s' = .returned (.ok call)) :
    ∃ l data inputs rest, s = .receiving l ∧ e = .received (some data) inputs ∧
      ResponseOutcome client l (fromUtf8Lossy data.val) inputs
        (.ok (.returned (.ok call), rest)) ∧
      shown = .read (some l.call) (fromUtf8Lossy data.val) :: rest := by
  cases h with
  | start args ids => exact absurd hreturned (inviteStart_ne_ok client args ids call)
  | head l inputs => exact absurd hreturned (inviteHead_ne_ok l inputs call)
  | silent l inputs => simp at hreturned
  | response l data inputs next shown hresponse =>
      subst hreturned
      exact ⟨l, data, inputs, shown, rfl, rfl, hresponse, rfl⟩
  | crash l data inputs why hresponse => simp at hreturned

end SlmodemSipBridge.Sip
