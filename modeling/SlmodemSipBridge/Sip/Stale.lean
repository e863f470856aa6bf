import SlmodemSipBridge.Sip.Outcome
import SlmodemSipBridge.Support.Padding

/-!
# Stale responses

A response whose CSeq number is not that of the current transaction costs an
iteration of the loop and nothing else.  A run into which such responses are put
is compared with the run without them: both are in the same state but for the
count of iterations.
-/

namespace SlmodemSipBridge.Sip

open Rust Transition

/-! ## States up to the count of iterations -/

/-- The loop with another count of iterations. -/
def InviteLoop.withIterations (l : InviteLoop) (n : ℕ) : InviteLoop :=
  { l with iterations := n }

/-- The state with another count of iterations. -/
def InviteState.withIterations : InviteState → ℕ → InviteState
  | .looping l, n => .looping (l.withIterations n)
  | .receiving l, n => .receiving (l.withIterations n)
  | s, _ => s

/-- The iterations so far. -/
def InviteState.iterations : InviteState → ℕ
  | .looping l => l.iterations
  | .receiving l => l.iterations
  | _ => 0

/-- While iterations are left, the head does not look at their count. -/
theorem inviteHead_withIterations (l : InviteLoop) (inputs : HeadInputs) {n : ℕ}
    (hl : l.iterations < responseLoopLimit) (hn : n < responseLoopLimit) :
    inviteHead (l.withIterations n) inputs =
      ((inviteHead l inputs).1.withIterations (n + 1), (inviteHead l inputs).2) := by
  have hn' : (l.withIterations n).iterations < responseLoopLimit := hn
  unfold inviteHead
  rw [decide_eq_true hl, decide_eq_true hn', assert_true]
  by_cases hlate : l.deadline ≤ inputs.deadlineTest
  · have hl₁ : l.counted.deadline ≤ inputs.deadlineTest := hlate
    have hl₂ : (l.withIterations n).counted.deadline ≤ inputs.deadlineTest := hlate
    simp only [if_pos hl₁, if_pos hl₂]
    rfl
  · have hl₁ : ¬ l.counted.deadline ≤ inputs.deadlineTest := hlate
    have hl₂ : ¬ (l.withIterations n).counted.deadline ≤ inputs.deadlineTest := hlate
    simp only [if_neg hl₁, if_neg hl₂]
    by_cases hdue : l.retransmits inputs
    · have hd₁ : l.counted.retransmits inputs := hdue
      have hd₂ : (l.withIterations n).counted.retransmits inputs := hdue
      simp only [if_pos hd₁, if_pos hd₂]
      cases inputs.sent <;> rfl
    · have hd₁ : ¬ l.counted.retransmits inputs := hdue
      have hd₂ : ¬ (l.withIterations n).counted.retransmits inputs := hdue
      simp only [if_neg hd₁, if_neg hd₂]
      rfl

theorem inviteChallenged_withIterations (client : SipClient) (l : InviteLoop)
    (status : ℕ) (resp : Str) (inputs : AnswerInputs) (n : ℕ) :
    inviteChallenged client (l.withIterations n) status resp inputs =
      (inviteChallenged client l status resp inputs).map fun out =>
        (out.1.withIterations n, out.2) := by
  unfold inviteChallenged
  have hdone : (l.withIterations n).authRetryDone = l.authRetryDone := rfl
  rw [hdone]
  cases l.authRetryDone with
  | true => rfl
  | false =>
      cases hlookup : extractHeader resp (challengeHeader status) with
      | error why => rfl
      | ok found =>
          cases found with
          | none => rfl
          | some value =>
              cases hparsed : parseDigestChallenge value with
              | error why => simp [bind, Except.bind, hparsed, Except.map]
              | ok parsed =>
                  cases parsed with
                  | error e => simp [bind, Except.bind, hparsed]; rfl
                  | ok digest =>
                      cases hack : inputs.ackSent <;> cases hinvite : inputs.inviteSent <;>
                        simp [bind, Except.bind, hparsed] <;> rfl

theorem inviteDispatch_withIterations (client : SipClient) (l : InviteLoop)
    (status : ℕ) (resp : Str) (inputs : AnswerInputs) (n : ℕ) :
    inviteDispatch client (l.withIterations n) status resp inputs =
      (inviteDispatch client l status resp inputs).map fun out =>
        (out.1.withIterations n, out.2) := by
  unfold inviteDispatch
  by_cases h100 : status = 100
  · rw [if_pos h100, if_pos h100]
    rfl
  rw [if_neg h100, if_neg h100]
  by_cases h18x : status = 180 ∨ status = 183
  · rw [if_pos h18x, if_pos h18x]
    simp only [sdpEndpoint_eq, bind, Except.bind]
    cases acceptedEndpoint resp <;> rfl
  rw [if_neg h18x, if_neg h18x]
  by_cases h200 : status = 200
  · rw [if_pos h200, if_pos h200]
    simp only [takeEndpoint_eq, bind, Except.bind]
    rfl
  rw [if_neg h200, if_neg h200]
  by_cases hauth : status = 401 ∨ status = 407
  · rw [if_pos hauth, if_pos hauth]
    exact inviteChallenged_withIterations client l status resp inputs n
  rw [if_neg hauth, if_neg hauth]
  by_cases herror : 400 ≤ status ∧ status < 700
  · rw [if_pos herror, if_pos herror]
    cases inputs.ackSent <;> rfl
  · rw [if_neg herror, if_neg herror]
    rfl

theorem inviteResponse_withIterations (client : SipClient) (l : InviteLoop)
    (resp : Str) (inputs : AnswerInputs) (n : ℕ) :
    inviteResponse client (l.withIterations n) resp inputs =
      (inviteResponse client l resp inputs).map fun out =>
        (out.1.withIterations n, out.2) := by
  unfold inviteResponse
  cases parseStatusCode resp with
  | none => rfl
  | some status =>
      have hcall : (l.withIterations n).call = l.call := rfl
      simp only [hcall]
      cases isStale l.call.cseq resp with
      | error why => rfl
      | ok stale =>
          cases stale with
          | true => rfl
          | false =>
              cases l.call.rememberTag resp with
              | error why => rfl
              | ok call =>
                  exact inviteDispatch_withIterations client { l with call := call }
                    status resp inputs n

/-! ## What may be put in -/

/-- No time passes from the head `h` of the loop to the head `h'`, or none that
the loop notices: the deadline and the expiry of the timer are still to come. -/
def InNoTime (l : InviteLoop) (h h' : HeadInputs) : Prop :=
  (h.elapsedTest ≤ h.afterSend ∧ h'.deadlineTest = h.deadlineTest ∧
      h'.elapsedTest = h.elapsedTest) ∨
    (h'.deadlineTest < l.deadline ∧ ¬ l.retransmits h')

/-- A response whose CSeq number can be parsed and is not the call's, received
where the loop waits after the head `h`, and the head that follows in no time. -/
inductive StalePad : Option InviteEvent → InviteState → List InviteEvent → Prop where
  | stale (l : InviteLoop) (h h' : HeadInputs) (data : Datagram) (inputs : AnswerInputs)
      (num : ℕ) (hcseq : extractCseqNum (fromUtf8Lossy data.val) = .ok (some num))
      (hstale : num ≠ l.call.cseq) (htime : InNoTime l h h') :
      StalePad (some (.head h)) (.receiving l)
        [.received (some data) inputs, .head h']

/-- An event that passes the head of the loop. -/
def InviteEvent.isHead : InviteEvent → Bool
  | .head _ => true
  | _ => false

/-- The iterations that a list of events takes. -/
def headCount (events : List InviteEvent) : ℕ := events.countP InviteEvent.isHead

/-- All that `invite` does is shown, but for what it reads. -/
def SipShown.act : SipShown → Option SipShown
  | .read _ _ => none
  | o => some o

/-! ## The padded run keeps alongside -/

/-- The timer is running. -/
def InviteState.TimerRunning : InviteState → Prop
  | .looping l => 0 < l.retransmitTimer
  | .receiving l => 0 < l.retransmitTimer
  | _ => True

/-- Where the loop waits after a head, the head found neither the deadline passed
nor, once it has sent what was due, the timer expired. -/
def PassedHead (last : Option InviteEvent) (s : InviteState) : Prop :=
  ∀ h l, last = some (.head h) → s = .receiving l →
    h.deadlineTest < l.deadline ∧ (h.elapsedTest ≤ h.afterSend → ¬ l.retransmits h)

/-- The padded run is in the same state but for the count of iterations, and has
iterations left for the events to come. -/
structure Alongside (last : Option InviteEvent) (s t : InviteState)
    (later : List InviteEvent) : Prop where
  same : ∃ n, t = s.withIterations n ∧ s.iterations ≤ n ∧
    n + headCount later ≤ responseLoopLimit
  timer : s.TimerRunning
  passed : PassedHead last s

theorem inviteHead_passed {l : InviteLoop} (hl : 0 < l.retransmitTimer)
    (inputs : HeadInputs) :
    PassedHead (some (.head inputs)) (inviteHead l inputs).1 := by
  intro h l' hlast hnext
  simp only [Option.some.injEq, InviteEvent.head.injEq] at hlast
  subst hlast
  have hearly := early_of_receiving hnext
  have hout := inviteHead_outcome l inputs
  generalize inviteHead l inputs = out at hnext hout
  cases hout with
  | retransmitted hdue _ =>
      simp only [InviteState.receiving.injEq] at hnext
      subst hnext
      refine ⟨hearly, ?_⟩
      rintro hforward ⟨-, -, hexpired⟩
      -- The timer starts anew at `afterSend`.
      have htimer : (l.counted.retransmitted inputs).retransmitTimer =
          min (l.retransmitTimer * 2) timerACap := rfl
      have hlast : (l.counted.retransmitted inputs).lastSend = inputs.afterSend := rfl
      have hcap : 0 < timerACap := by decide
      rw [htimer, hlast] at hexpired
      omega
  | quiet hidle =>
      simp only [InviteState.receiving.injEq] at hnext
      subst hnext
      exact ⟨hearly, fun _ => hidle⟩
  | exceeded _ _ => simp at hnext
  | timedOut _ => simp at hnext
  | unsent _ _ => simp at hnext

theorem inviteHead_keeps {l : InviteLoop} (hl : 0 < l.retransmitTimer)
    (inputs : HeadInputs) :
    (inviteHead l inputs).1.TimerRunning ∧
      (inviteHead l inputs).1.iterations ≤ l.iterations + 1 := by
  have hout := inviteHead_outcome l inputs
  generalize inviteHead l inputs = out at hout ⊢
  cases hout with
  | exceeded _ _ => exact ⟨trivial, Nat.zero_le _⟩
  | timedOut _ => exact ⟨trivial, Nat.zero_le _⟩
  | unsent _ _ => exact ⟨trivial, Nat.zero_le _⟩
  | quiet _ => exact ⟨hl, Nat.le_refl _⟩
  | retransmitted _ _ =>
      have hcap : 0 < timerACap := by decide
      refine ⟨?_, Nat.le_refl _⟩
      change 0 < min (l.retransmitTimer * 2) timerACap
      omega

theorem response_keeps {client : SipClient} {l : InviteLoop} {resp : Str}
    {inputs : AnswerInputs} {next : InviteState} {shown : List SipShown}
    (hl : 0 < l.retransmitTimer)
    (hout : ResponseOutcome client l resp inputs (.ok (next, shown))) :
    next.TimerRunning ∧ next.iterations ≤ l.iterations := by
  rcases next_of_response hout with ⟨l', rfl⟩ | ⟨result, rfl⟩
  · obtain ⟨hiterations, htimer⟩ := loop_of_response hout
    refine ⟨?_, Nat.le_of_eq hiterations⟩
    change 0 < l'.retransmitTimer
    rcases htimer with htimer | htimer
    · rw [htimer]
      exact hl
    · rw [htimer]
      decide
  · exact ⟨trivial, Nat.zero_le _⟩

/-- An event other than a head leaves no head behind it. -/
theorem passedHead_of_not_head {e : InviteEvent} (he : e.isHead = false) (s : InviteState) :
    PassedHead (some e) s := by
  intro h l hlast
  simp only [Option.some.injEq] at hlast
  rw [hlast] at he
  simp [InviteEvent.isHead] at he

theorem headCount_cons (e : InviteEvent) (later : List InviteEvent) :
    headCount (e :: later) = headCount later + if e.isHead then 1 else 0 := by
  rw [headCount, List.countP_cons]
  rfl

theorem inviteStart_keeps {client : SipClient} {args : InviteArgs} {ids : InviteStart}
    {next : InviteState} {shown : List SipShown}
    (hout : StartOutcome client args ids (next, shown)) :
    next.withIterations 0 = next ∧ next.iterations = 0 ∧ next.TimerRunning := by
  cases hout with
  | undialable why hdial => exact ⟨rfl, rfl, trivial⟩
  | unsent hsent => exact ⟨rfl, rfl, trivial⟩
  | overflowed _ _ => exact ⟨rfl, rfl, trivial⟩
  | sent hsent _ =>
      have htimer : 0 < timerAInitial := by decide
      exact ⟨rfl, rfl, htimer⟩

/-- A receive does not look at the count of iterations. -/
theorem received_withIterations {client : SipClient} {l : InviteLoop}
    {datagram : Option Datagram} {inputs : AnswerInputs} {s' : InviteState}
    {shown : List SipShown} (n : ℕ)
    (h : (inviteMachine client).step (.receiving l) (.received datagram inputs) =
      some (s', shown)) :
    (inviteMachine client).step (.receiving (l.withIterations n))
        (.received datagram inputs) = some (s'.withIterations n, shown) := by
  cases datagram with
  | none =>
      simp only [inviteMachine, inviteStep, Option.some.injEq, Prod.mk.injEq] at h
      obtain ⟨rfl, rfl⟩ := h
      rfl
  | some data =>
      simp only [inviteMachine, inviteStep] at h
      simp only [inviteMachine, inviteStep, inviteResponse_withIterations]
      cases hresponse : inviteResponse client l (fromUtf8Lossy data.val) inputs <;>
        simp only [hresponse, Option.some.injEq, Prod.mk.injEq] at h <;>
        obtain ⟨rfl, rfl⟩ := h <;> rfl

/-- The padded run receives what the run receives. -/
theorem alongside_received {client : SipClient} {l : InviteLoop}
    {datagram : Option Datagram} {inputs : AnswerInputs} {s' : InviteState}
    {shown : List SipShown} {later : List InviteEvent} {n : ℕ}
    (hcount : l.iterations ≤ n) (hleft : n + headCount later ≤ responseLoopLimit)
    (hstep : (inviteMachine client).step (.receiving l) (.received datagram inputs) =
      some (s', shown))
    (hkeeps : s'.TimerRunning ∧ s'.iterations ≤ l.iterations) :
    ∃ t' shown', (inviteMachine client).step (.receiving (l.withIterations n))
        (.received datagram inputs) = some (t', shown') ∧
      shown'.filterMap SipShown.act = shown.filterMap SipShown.act ∧
      Alongside (some (.received datagram inputs)) s' t' later :=
  ⟨s'.withIterations n, shown, received_withIterations n hstep, rfl,
    { same := ⟨n, rfl, Nat.le_trans hkeeps.2 hcount, hleft⟩
      timer := hkeeps.1
      passed := passedHead_of_not_head rfl s' }⟩

/-- A step of the run is a step of the padded run. -/
theorem alongside_keep (client : SipClient) (last : Option InviteEvent)
    (s t : InviteState) (e : InviteEvent) (s' : InviteState) (shown : List SipShown)
    (later : List InviteEvent) (h : Alongside last s t (e :: later))
    (hstep : (inviteMachine client).step s e = some (s', shown)) :
    ∃ t' shown', (inviteMachine client).step t e = some (t', shown') ∧
      shown'.filterMap SipShown.act = shown.filterMap SipShown.act ∧
      Alongside (some e) s' t' later := by
  obtain ⟨⟨n, rfl, hcount, hleft⟩, htimer, -⟩ := h
  rw [headCount_cons] at hleft
  have hlater : n + headCount later ≤ responseLoopLimit := by omega
  cases inviteStepped_of_step hstep with
  | start args ids =>
      obtain ⟨hsame, hiterations, hrunning⟩ :=
        inviteStart_keeps (inviteStart_outcome client args ids)
      refine ⟨(inviteStart client args ids).1, _, rfl, rfl, ?_⟩
      exact
        { same := ⟨0, hsame.symm, Nat.le_of_eq hiterations, by omega⟩
          timer := hrunning
          passed := passedHead_of_not_head rfl _ }
  | head l inputs =>
      have hn : n < responseLoopLimit := by
        simp only [InviteEvent.isHead, if_true] at hleft
        omega
      have hl : l.iterations < responseLoopLimit := Nat.lt_of_le_of_lt hcount hn
      obtain ⟨hrunning, hiterations⟩ := inviteHead_keeps (l := l) htimer inputs
      refine ⟨(inviteHead l inputs).1.withIterations (n + 1), (inviteHead l inputs).2, ?_,
        rfl, ?_⟩
      · exact congrArg some (inviteHead_withIterations l inputs hl hn)
      · have hle : (inviteHead l inputs).1.iterations ≤ n + 1 :=
          Nat.le_trans hiterations (Nat.succ_le_succ hcount)
        simp only [InviteEvent.isHead, if_true] at hleft
        exact
          { same := ⟨n + 1, rfl, hle, by omega⟩
            timer := hrunning
            passed := inviteHead_passed htimer inputs }
  | silent l inputs =>
      exact alongside_received hcount hlater hstep ⟨htimer, Nat.le_refl _⟩
  | response l data inputs next shown hresponse =>
      exact alongside_received hcount hlater hstep (response_keeps htimer hresponse)
  | crash l data inputs why hresponse =>
      exact alongside_received hcount hlater hstep ⟨trivial, Nat.zero_le _⟩

/-- A stale response takes the loop to its next head. -/
theorem staleStep (client : SipClient) (l : InviteLoop) {data : Datagram}
    (inputs : AnswerInputs) {num : ℕ}
    (hcseq : extractCseqNum (fromUtf8Lossy data.val) = .ok (some num))
    (hstale : num ≠ l.call.cseq) :
    (inviteMachine client).step (.receiving l) (.received (some data) inputs) =
      some (.looping l, [.read (some l.call) (fromUtf8Lossy data.val)]) := by
  have hdropped : isStale l.call.cseq (fromUtf8Lossy data.val) = .ok true := by
    simp [isStale, hcseq, hstale, bind, Except.bind, pure, Except.pure]
  have hresponse : inviteResponse client l (fromUtf8Lossy data.val) inputs =
      .ok (.looping l, []) := by
    unfold inviteResponse
    cases parseStatusCode (fromUtf8Lossy data.val) with
    | none => rfl
    | some status => simp [hdropped, bind, Except.bind, pure, Except.pure]
  simp only [inviteMachine, inviteStep, hresponse]

/-- A head that finds neither the deadline passed nor the timer expired. -/
theorem quietHead {l : InviteLoop} {inputs : HeadInputs}
    (hl : l.iterations < responseLoopLimit) (hearly : inputs.deadlineTest < l.deadline)
    (hidle : ¬ l.retransmits inputs) : inviteHead l inputs = (.receiving l.counted, []) := by
  have hlate : ¬ l.counted.deadline ≤ inputs.deadlineTest := Nat.not_le_of_lt hearly
  have hquiet : ¬ l.counted.retransmits inputs := hidle
  unfold inviteHead
  rw [decide_eq_true hl, assert_true]
  simp only [if_neg hlate, if_neg hquiet]

/-- What is put in takes the padded run round its loop once. -/
theorem alongside_pad (client : SipClient) (last : Option InviteEvent)
    (s t : InviteState) (block later : List InviteEvent)
    (h : Alongside last s t (block ++ later)) (hblock : StalePad last s block) :
    ∃ t' shown', (inviteMachine client).run t block = some (t', shown') ∧
      shown'.filterMap SipShown.act = [] ∧ Alongside last s t' later := by
  cases hblock with
  | stale l head head' data inputs num hcseq hstale htime =>
      obtain ⟨⟨n, rfl, hcount, hleft⟩, htimer, hpassed⟩ := h
      obtain ⟨hearly, hidle⟩ := hpassed head l rfl rfl
      have hquiet : head'.deadlineTest < l.deadline ∧ ¬ l.retransmits head' := by
        rcases htime with ⟨hforward, hdeadline, helapsed⟩ | hquiet
        · refine ⟨hdeadline ▸ hearly, ?_⟩
          intro hexpired
          apply hidle hforward
          unfold InviteLoop.retransmits at hexpired ⊢
          rwa [helapsed] at hexpired
        · exact hquiet
      simp only [List.cons_append, List.nil_append, headCount_cons, InviteEvent.isHead,
        if_true, Bool.false_eq_true, if_false, Nat.add_zero] at hleft
      have hn : (l.withIterations n).iterations < responseLoopLimit := by
        change n < responseLoopLimit
        omega
      have hread := staleStep client (l.withIterations n) inputs hcseq hstale
      have hhead : inviteHead (l.withIterations n) head' =
          (.receiving (l.withIterations (n + 1)), []) := quietHead hn hquiet.1 hquiet.2
      refine ⟨.receiving (l.withIterations (n + 1)),
        [.read (some l.call) (fromUtf8Lossy data.val)], ?_, rfl, ?_⟩
      · have hround : (inviteMachine client).run (.looping (l.withIterations n))
            [.head head'] = some (.receiving (l.withIterations (n + 1)), []) :=
          (inviteMachine client).run_of_step (congrArg some hhead)
        exact (inviteMachine client).run_cons_of_step hread hround
      · exact
          { same := ⟨n + 1, rfl, Nat.le_succ_of_le hcount, by omega⟩
            timer := htimer
            passed := hpassed }

/-! ## Whole runs -/

/-- Stale responses put into a run at any places, each received in no time, change
nothing that `invite` does or returns, as long as they leave it iterations. -/
theorem invite_staleInert
    (client : SipClient) (args : InviteArgs) (events padded : List InviteEvent)
    (t : InviteState) (trace : List SipShown)
    (hpadded : Padded (inviteMachine client) StalePad none (.called args) events padded)
    (hbudget : headCount padded ≤ responseLoopLimit)
    (hrun : (inviteMachine client).run (.called args) events = some (t, trace)) :
    ∃ n trace',
      (inviteMachine client).run (.called args) padded =
          some (t.withIterations n, trace') ∧
        trace'.filterMap SipShown.act = trace.filterMap SipShown.act := by
  have hstart : Alongside none (.called args) (.called args) padded :=
    { same := ⟨0, rfl, Nat.le_refl 0, by omega⟩
      timer := trivial
      passed := fun h l hlast => by simp at hlast }
  obtain ⟨last, t', trace', hrun', htrace, ⟨⟨n, rfl, -, -⟩, -, -⟩⟩ :=
    hpadded.run (alongside_keep client) (alongside_pad client) hstart hrun
  exact ⟨n, trace', hrun', htrace⟩

/-- A response to no transaction of the call. -/
def trunkStale : Datagram :=
  datagramOf "SIP/2.0 486 Busy Here\r\nCall-ID: 10-2\r\nCSeq: 7 INVITE\r\n\r\n"
    (by decide +kernel)

/-- The first INVITE is challenged. -/
def challengedOnce : List InviteEvent :=
  [.start trunkStart, .head (headAt 0), .received (some trunkChallenge) answerInputs]

/-- Before that a stale rejection comes. -/
def challengedAfterStale : List InviteEvent :=
  [.start trunkStart, .head (headAt 0), .received (some trunkStale) answerInputs,
    .head (headAt 0), .received (some trunkChallenge) answerInputs]

/-- The loop of the call to `5` as it waits for its first response. -/
def trunkWaiting : InviteLoop where
  call := callOf (firstInvite trunkClient trunkArgs trunkStart)
  invite := firstInvite trunkClient trunkArgs trunkStart
  deadline := trunkStart.deadlineBase + trunkArgs.inviteTimeout
  retransmitTimer := timerAInitial
  lastSend := trunkStart.lastSend
  retransmitCount := 0
  iterations := 1
  gotProvisional := false
  authRetryDone := false

theorem challengedAfterStale_padded :
    Padded (inviteMachine trunkClient) StalePad none (.called trunkArgs) challengedOnce
      challengedAfterStale := by
  have hstart : (inviteMachine trunkClient).step (.called trunkArgs) (.start trunkStart) =
      some (.looping (trunkWaiting.withIterations 0),
        [.sent .invite (.invite trunkWaiting.invite)]) := rfl
  have hhead : (inviteMachine trunkClient).step
      (.looping (trunkWaiting.withIterations 0)) (.head (headAt 0)) =
        some (.receiving trunkWaiting, []) :=
    congrArg some (quietHead (by decide) (by decide) (by decide))
  have hpad : StalePad (some (.head (headAt 0))) (.receiving trunkWaiting)
      [.received (some trunkStale) answerInputs, .head (headAt 0)] :=
    .stale trunkWaiting (headAt 0) (headAt 0) trunkStale answerInputs 7
      (by decide +kernel) (by decide) (Or.inl ⟨Nat.le_refl 0, rfl, rfl⟩)
  have hsome : ((inviteMachine trunkClient).run (.receiving trunkWaiting)
      [.received (some trunkChallenge) answerInputs]).isSome = true := by
    decide +kernel
  obtain ⟨_, hrun⟩ := Option.isSome_iff_exists.mp hsome
  exact .keep hstart (.keep hhead (.pad hpad (.refl _ hrun)))

theorem invite_staleInert_challenged :
    ∃ t trace n trace',
      (inviteMachine trunkClient).run (.called trunkArgs) challengedOnce =
          some (t, trace) ∧
        (inviteMachine trunkClient).run (.called trunkArgs) challengedAfterStale =
          some (t.withIterations n, trace') ∧
        trace'.filterMap SipShown.act = trace.filterMap SipShown.act := by
  have hsome : ((inviteMachine trunkClient).run (.called trunkArgs)
      challengedOnce).isSome = true := by
    decide +kernel
  obtain ⟨⟨t, trace⟩, hrun⟩ := Option.isSome_iff_exists.mp hsome
  obtain ⟨n, trace', hpadded, hacts⟩ :=
    invite_staleInert trunkClient trunkArgs challengedOnce challengedAfterStale t trace
      challengedAfterStale_padded (by decide) hrun
  exact ⟨t, trace, n, trace', hrun, hpadded, hacts⟩

end SlmodemSipBridge.Sip
