import Mathlib.Data.Nat.Find
import SlmodemSipBridge.Sip.Standing
import SlmodemSipBridge.Support.Drive

/-!
# The end of `invite`

The environment answers every receive and every look at the clock.  `invite` counts
the turns of its loop and asserts that they stay below a limit, and a deadline that
its clock cannot hold panics as soon as it is computed.  So it returns if the call is
ended, by the deadline or otherwise, within as many turns.
-/

namespace SlmodemSipBridge.Sip

open Rust Transition

/-! ## What `invite` meets -/

/-- The first INVITE, the clock at each head of the loop and what each receive
gives, by the number of the iteration. -/
structure InviteEnvironment where
  start : InviteStart
  head : ℕ → HeadInputs
  received : ℕ → Option Datagram × AnswerInputs

/-- The event that `invite` waits for. -/
def InviteEnvironment.choose (env : InviteEnvironment) : InviteState → Option InviteEvent
  | .called _ => some (.start env.start)
  | .looping l => some (.head (env.head l.iterations))
  | .receiving l =>
      some (.received (env.received l.iterations).1 (env.received l.iterations).2)
  | _ => none

/-- The state of `invite` after `n` events. -/
def inviteAfter (client : SipClient) (env : InviteEnvironment) (args : InviteArgs)
    (n : ℕ) : InviteState :=
  (inviteMachine client).drive env.choose (.called args) n

/-- `invite` ends by returning, at the latest with a timeout. -/
structure ReturnsInTime (client : SipClient) (env : InviteEnvironment)
    (args : InviteArgs) : Prop where
  returns : ∃ n result, inviteAfter client env args n = .returned result
  timeout : ∀ n l, inviteAfter client env args n = .looping l →
    l.deadline ≤ (env.head l.iterations).deadlineTest →
      inviteAfter client env args (n + 1) = .returned (.error .timedOut)

/-! ## The turns -/

namespace InviteEnvironment

variable (env : InviteEnvironment)

/-- The response received in turn `k`, if a datagram is, and what its answer draws on.
A timeout or an error of the receive takes a turn like a datagram does. -/
def response (k : ℕ) : Option Str × AnswerInputs :=
  ((env.received (k + 1)).1.map fun data => fromUtf8Lossy data.val, (env.received (k + 1)).2)

/-- Where the first `k` turns leave the call. -/
def standing : ℕ → Standing
  | 0 => .start env.start
  | k + 1 =>
      match env.response k with
      | (none, _) => (standing k).waited (env.head k)
      | (some resp, inputs) => ((standing k).waited (env.head k)).heard resp inputs

/-- The head of turn `k` ends the call. -/
def EndsAtHead (args : InviteArgs) (k : ℕ) : Prop :=
  (env.standing k).EndsAtHead (env.start.deadlineBase + args.inviteTimeout) (env.head k)

/-- Turn `k` ends the call, at its head or by the response it receives. -/
def EndsInTurn (args : InviteArgs) (k : ℕ) : Prop :=
  env.EndsAtHead args k ∨ ∃ resp ∈ (env.response k).1,
    ((env.standing k).waited (env.head k)).EndedBy resp (env.response k).2

/-- The response received in turn `k`, if one is, has readable headers. -/
def ReadsInTurn (args : InviteArgs) (k : ℕ) : Prop :=
  env.EndsAtHead args k ∨ ∀ resp ∈ (env.response k).1,
    ((env.standing k).waited (env.head k)).Reads resp

/-- The clock can hold the deadline, and one of the turns that the limit leaves ends
the call, by the deadline or otherwise; the responses up to that turn are readable. -/
structure EndsInTime (args : InviteArgs) : Prop where
  representable : Representable args env.start
  ends : ∃ k < responseLoopLimit, env.EndsInTurn args k ∧ ∀ j ≤ k, env.ReadsInTurn args j

end InviteEnvironment

/-! ## The next state -/

/-- The state after the event that the environment chooses. -/
def inviteNext (client : SipClient) (env : InviteEnvironment) (s : InviteState) :
    InviteState :=
  (inviteMachine client).driveStep env.choose s

theorem inviteAfter_succ (client : SipClient) (env : InviteEnvironment)
    (args : InviteArgs) (n : ℕ) :
    inviteAfter client env args (n + 1) =
      inviteNext client env (inviteAfter client env args n) :=
  Machine.drive_succ _ _ _ n

theorem inviteNext_looping (client : SipClient) (env : InviteEnvironment)
    (l : InviteLoop) :
    inviteNext client env (.looping l) = (inviteHead l (env.head l.iterations)).1 := rfl

/-- What the call of `invite` leads to. -/
theorem inviteNext_called (client : SipClient) (env : InviteEnvironment)
    (args : InviteArgs) :
    ∃ shown, StartOutcome client args env.start
      (inviteNext client env (.called args), shown) :=
  ⟨_, inviteStart_outcome client args env.start⟩

/-- A receive of nothing leads back to the loop. -/
theorem inviteNext_silent (client : SipClient) {env : InviteEnvironment} {l : InviteLoop}
    {k : ℕ} (hk : l.iterations = k + 1) (hnone : (env.response k).1 = none) :
    inviteNext client env (.receiving l) = .looping l := by
  have hreceived : (env.received l.iterations).1 = none := by
    simpa [InviteEnvironment.response, hk] using hnone
  have hstep : (inviteMachine client).step (.receiving l)
      (.received none (env.received l.iterations).2) = some (.looping l, []) := rfl
  have hchoose : env.choose (.receiving l) =
      some (.received none (env.received l.iterations).2) := by
    rw [← hreceived]
    rfl
  exact Machine.driveStep_of_step hchoose hstep

/-- What a response leads to. -/
theorem inviteNext_response (client : SipClient) {env : InviteEnvironment} {l : InviteLoop}
    {k : ℕ} {resp : Str} (hk : l.iterations = k + 1) (hsome : (env.response k).1 = some resp) :
    (∃ why, inviteNext client env (.receiving l) = .panicked why ∧
        ResponseOutcome client l resp (env.response k).2 (.error why)) ∨
      ∃ next shown, inviteNext client env (.receiving l) = next ∧
        ResponseOutcome client l resp (env.response k).2 (.ok (next, shown)) := by
  have hinputs : (env.received l.iterations).2 = (env.response k).2 := by
    simp only [InviteEnvironment.response, hk]
  obtain ⟨data, hreceived, rfl⟩ :
      ∃ data, (env.received l.iterations).1 = some data ∧ fromUtf8Lossy data.val = resp := by
    rw [hk]
    exact Option.map_eq_some_iff.mp hsome
  have hchoose : env.choose (.receiving l) =
      some (.received (some data) (env.response k).2) := by
    rw [← hreceived, ← hinputs]
    rfl
  have hout := inviteResponse_outcome client l (fromUtf8Lossy data.val) (env.response k).2
  cases hresponse : inviteResponse client l (fromUtf8Lossy data.val) (env.response k).2 with
  | error why =>
      rw [hresponse] at hout
      have hstep : (inviteMachine client).step (.receiving l)
          (.received (some data) (env.response k).2) =
            some (.panicked why, [.read (some l.call) (fromUtf8Lossy data.val)]) := by
        simp only [inviteMachine, inviteStep, hresponse]
      exact Or.inl ⟨why, Machine.driveStep_of_step hchoose hstep, hout⟩
  | ok out =>
      rw [hresponse] at hout
      have hstep : (inviteMachine client).step (.receiving l)
          (.received (some data) (env.response k).2) =
            some (out.1, .read (some l.call) (fromUtf8Lossy data.val) :: out.2) := by
        simp only [inviteMachine, inviteStep, hresponse]
      exact Or.inr ⟨out.1, out.2, Machine.driveStep_of_step hchoose hstep, hout⟩

/-- A head without iterations left panics. -/
theorem inviteHead_exceeded {l : InviteLoop} (inputs : HeadInputs)
    (hl : ¬ l.iterations < responseLoopLimit) :
    ∃ why, (inviteHead l inputs).1 = .panicked why := by
  unfold inviteHead
  rw [decide_eq_false hl, assert_false]
  exact ⟨_, rfl⟩

/-- A head with iterations left that finds the deadline passed returns. -/
theorem inviteHead_late {l : InviteLoop} {inputs : HeadInputs}
    (hl : l.iterations < responseLoopLimit) (hlate : l.deadline ≤ inputs.deadlineTest) :
    (inviteHead l inputs).1 = .returned (.error .timedOut) := by
  have hcounted : l.counted.deadline ≤ inputs.deadlineTest := hlate
  unfold inviteHead
  rw [decide_eq_true hl, assert_true]
  simp only [if_pos hcounted]

/-- It stays as it ended. -/
theorem inviteAfter_of_ended {client : SipClient} {env : InviteEnvironment}
    {args : InviteArgs} {n : ℕ} {s : InviteState}
    (hn : inviteAfter client env args n = s)
    (hs : (inviteMachine client).AtRest env.choose s) (k : ℕ) :
    inviteAfter client env args (n + k) = s := by
  unfold inviteAfter at hn ⊢
  rw [Machine.drive_add, hn]
  exact hs.drive_eq k

/-- What panics never returns. -/
theorem not_returned_of_panicked {client : SipClient} {env : InviteEnvironment}
    {args : InviteArgs} {k : ℕ} {why : Panic}
    (hwhy : inviteAfter client env args k = .panicked why) (n : ℕ)
    (result : Except InviteError Call) : inviteAfter client env args n ≠ .returned result := by
  intro hreturned
  have hfirst := inviteAfter_of_ended hreturned rfl k
  have hsecond := inviteAfter_of_ended hwhy rfl n
  rw [Nat.add_comm, hsecond] at hfirst
  simp at hfirst

/-! ## A turn -/

/-- The loop is at the head of turn `k`, where the account has the call. -/
structure AtTurn (env : InviteEnvironment) (args : InviteArgs) (k : ℕ) (l : InviteLoop) :
    Prop where
  iterations : l.iterations = k
  deadline : l.deadline = env.start.deadlineBase + args.inviteTimeout
  tracks : (env.standing k).Tracks l

section Turns

variable {client : SipClient} {env : InviteEnvironment} {args : InviteArgs} {k n : ℕ}
  {l : InviteLoop} (hturn : AtTurn env args k l) (hcount : k < responseLoopLimit)
  (hlooping : inviteAfter client env args n = .looping l)
include hturn hcount hlooping

/-- A turn whose head does not end the call goes on to its receive. -/
theorem AtTurn.receives (hhead : ¬ env.EndsAtHead args k) :
    ∃ l', inviteAfter client env args (n + 1) = .receiving l' ∧
      ((env.standing k).waited (env.head k)).Tracks l' ∧
      l'.deadline = env.start.deadlineBase + args.inviteTimeout ∧ l'.iterations = k + 1 := by
  obtain ⟨hiterations, hdeadline, htracks⟩ := hturn
  subst hiterations
  rw [InviteEnvironment.EndsAtHead, ← hdeadline] at hhead
  obtain ⟨l', hnext, htracks', hdeadline', hiterations'⟩ := htracks.head_receives hcount hhead
  exact ⟨l', by rw [inviteAfter_succ, hlooping, inviteNext_looping, hnext], htracks',
    hdeadline'.trans hdeadline, hiterations'⟩

/-- A turn that does not end the call leads to the next one. -/
theorem AtTurn.goesOn (hends : ¬ env.EndsInTurn args k) (hreads : env.ReadsInTurn args k) :
    ∃ l', inviteAfter client env args (n + 2) = .looping l' ∧ AtTurn env args (k + 1) l' := by
  have hhead : ¬ env.EndsAtHead args k := fun h => hends (Or.inl h)
  obtain ⟨l', hreceiving, htracks, hdeadline, hiterations⟩ :=
    hturn.receives hcount hlooping hhead
  cases hresp : (env.response k).1 with
  | none =>
      refine ⟨l', ?_, hiterations, hdeadline, ?_⟩
      · rw [inviteAfter_succ, hreceiving, inviteNext_silent client hiterations hresp]
      · have hpair : env.response k = (none, (env.response k).2) := Prod.ext hresp rfl
        rw [InviteEnvironment.standing, hpair]
        exact htracks
  | some resp =>
      have hpair : env.response k = (some resp, (env.response k).2) := Prod.ext hresp rfl
      have hread := hreads.resolve_left hhead resp hresp
      rcases inviteNext_response client hiterations hresp with
        ⟨why, -, hout⟩ | ⟨next, shown, hnext, hout⟩
      · exact absurd hread (htracks.not_reads_of_error hout)
      · rcases next_of_response hout with ⟨l'', rfl⟩ | ⟨result, rfl⟩
        · obtain ⟨-, htracks', hdeadline', hiterations'⟩ := htracks.heard_of_looping hout
          refine ⟨l'', ?_, hiterations'.trans hiterations, hdeadline'.trans hdeadline, ?_⟩
          · rw [inviteAfter_succ, hreceiving, hnext]
          · rw [InviteEnvironment.standing, hpair]
            exact htracks'
        · exact absurd (Or.inr ⟨resp, hresp, htracks.endedBy_of_returned hout⟩) hends

/-- A turn that ends the call returns. -/
theorem AtTurn.returns (hends : env.EndsInTurn args k) (hreads : env.ReadsInTurn args k) :
    ∃ m result, inviteAfter client env args m = .returned result := by
  by_cases hhead : env.EndsAtHead args k
  · obtain ⟨hiterations, hdeadline, htracks⟩ := hturn
    subst hiterations
    rw [InviteEnvironment.EndsAtHead, ← hdeadline] at hhead
    obtain ⟨result, hnext⟩ := htracks.head_returns hcount hhead
    exact ⟨n + 1, result, by rw [inviteAfter_succ, hlooping, inviteNext_looping, hnext]⟩
  · obtain ⟨resp, hresp, hended⟩ := hends.resolve_left hhead
    obtain ⟨l', hreceiving, htracks, -, hiterations⟩ := hturn.receives hcount hlooping hhead
    rcases inviteNext_response client hiterations hresp with
      ⟨why, -, hout⟩ | ⟨next, shown, hnext, hout⟩
    · exact absurd (hreads.resolve_left hhead resp hresp) (htracks.not_reads_of_error hout)
    · rcases next_of_response hout with ⟨l'', rfl⟩ | ⟨result, rfl⟩
      · exact absurd hended (htracks.heard_of_looping hout).1
      · exact ⟨n + 2, result, by rw [inviteAfter_succ, hreceiving, hnext]⟩

/-- A turn whose response is not readable panics. -/
theorem AtTurn.panics (hreads : ¬ env.ReadsInTurn args k) :
    ∃ m why, inviteAfter client env args m = .panicked why := by
  obtain ⟨hhead, hresponse⟩ := not_or.mp hreads
  push Not at hresponse
  obtain ⟨resp, hresp, hunread⟩ := hresponse
  obtain ⟨l', hreceiving, htracks, -, hiterations⟩ := hturn.receives hcount hlooping hhead
  rcases inviteNext_response client hiterations hresp with
    ⟨why, hnext, -⟩ | ⟨next, shown, -, hout⟩
  · exact ⟨n + 2, why, by rw [inviteAfter_succ, hreceiving, hnext]⟩
  · exact absurd (htracks.reads_of_ok hout) hunread

end Turns

/-! ## Whole runs -/

section Runs

variable {client : SipClient} {env : InviteEnvironment} {args : InviteArgs}
  (hdial : args.dial ≠ []) (hsent : env.start.sent = true)
include hdial hsent

/-- A deadline that the clock can hold leads to the first turn. -/
theorem atTurn_zero (hdeadline : Representable args env.start) :
    ∃ l, inviteAfter client env args 1 = .looping l ∧ AtTurn env args 0 l := by
  obtain ⟨shown, hout⟩ := inviteNext_called client env args
  have hone : inviteAfter client env args 1 = inviteNext client env (.called args) :=
    inviteAfter_succ client env args 0
  rw [← hone] at hout
  generalize inviteAfter client env args 1 = next at hout ⊢
  cases hout with
  | undialable why hempty => exact absurd hempty hdial
  | unsent hunsent => simp [hsent] at hunsent
  | overflowed _ hlate => exact absurd hdeadline hlate
  | sent _ _ => exact ⟨_, rfl, rfl, rfl, Standing.start_tracks client args env.start⟩

/-- A deadline that the clock cannot hold panics. -/
theorem panicked_of_overflow (hdeadline : ¬ Representable args env.start) :
    ∃ why, inviteAfter client env args 1 = .panicked why := by
  obtain ⟨shown, hout⟩ := inviteNext_called client env args
  have hone : inviteAfter client env args 1 = inviteNext client env (.called args) :=
    inviteAfter_succ client env args 0
  rw [← hone] at hout
  generalize inviteAfter client env args 1 = next at hout ⊢
  cases hout with
  | undialable why hempty => exact absurd hempty hdial
  | unsent hunsent => simp [hsent] at hunsent
  | overflowed _ _ => exact ⟨_, rfl⟩
  | sent _ hheld => exact absurd hheld hdeadline

/-- As long as no turn ends the call and the responses are readable, turn follows turn. -/
theorem atTurn_of_open (hdeadline : Representable args env.start) :
    ∀ k ≤ responseLoopLimit,
      (∀ j < k, ¬ env.EndsInTurn args j ∧ env.ReadsInTurn args j) →
        ∃ n l, inviteAfter client env args n = .looping l ∧ AtTurn env args k l := by
  intro k
  induction k with
  | zero =>
      intro _ _
      exact ⟨1, atTurn_zero hdial hsent hdeadline⟩
  | succ k ih =>
      intro hk hopen
      obtain ⟨n, l, hlooping, hturn⟩ :=
        ih (by omega) fun j hj => hopen j (Nat.lt_succ_of_lt hj)
      obtain ⟨hends, hreads⟩ := hopen k (Nat.lt_succ_self k)
      exact ⟨n + 2, hturn.goesOn (by omega) hlooping hends hreads⟩

/-- A call that ends in time returns. -/
theorem returned_of_endsInTime (h : env.EndsInTime args) :
    ∃ n result, inviteAfter client env args n = .returned result := by
  classical
  obtain ⟨hdeadline, k, hk, hends, hreads⟩ := h
  have hsome : ∃ k, env.EndsInTurn args k := ⟨k, hends⟩
  -- the first turn that ends the call is the one that is reached
  have hfirst : Nat.find hsome ≤ k := Nat.find_min' hsome hends
  obtain ⟨n, l, hlooping, hturn⟩ := atTurn_of_open hdial hsent hdeadline (Nat.find hsome)
    (by omega) fun j hj => ⟨Nat.find_min hsome hj, hreads j (by omega)⟩
  exact hturn.returns (by omega) hlooping (Nat.find_spec hsome) (hreads _ hfirst)

/-- A call that returns ends in time. -/
theorem endsInTime_of_returned
    (h : ∃ n result, inviteAfter client env args n = .returned result) :
    env.EndsInTime args := by
  classical
  obtain ⟨n, result, hreturned⟩ := h
  have hdeadline : Representable args env.start := by
    by_contra hlate
    obtain ⟨why, hwhy⟩ := panicked_of_overflow hdial hsent hlate
    exact not_returned_of_panicked hwhy n result hreturned
  have hsome : ∃ k, k = responseLoopLimit ∨ env.EndsInTurn args k ∨ ¬ env.ReadsInTurn args k :=
    ⟨_, Or.inl rfl⟩
  have hlimit : Nat.find hsome ≤ responseLoopLimit := Nat.find_min' hsome (Or.inl rfl)
  have hopen : ∀ j < Nat.find hsome, ¬ env.EndsInTurn args j ∧ env.ReadsInTurn args j := by
    intro j hj
    have hnot := Nat.find_min hsome hj
    exact ⟨fun hends => hnot (Or.inr (Or.inl hends)),
      not_not.mp fun hunread => hnot (Or.inr (Or.inr hunread))⟩
  obtain ⟨m, l, hlooping, hturn⟩ := atTurn_of_open hdial hsent hdeadline _ hlimit hopen
  have hcount : Nat.find hsome < responseLoopLimit := by
    by_contra hfull
    obtain ⟨why, hwhy⟩ := inviteHead_exceeded (l := l) (env.head l.iterations)
      (by rw [hturn.iterations]; exact hfull)
    exact not_returned_of_panicked
      (by rw [inviteAfter_succ, hlooping, inviteNext_looping, hwhy]) n result hreturned
  have hreads : env.ReadsInTurn args (Nat.find hsome) := by
    by_contra hunread
    obtain ⟨m', why, hwhy⟩ := hturn.panics hcount hlooping hunread
    exact not_returned_of_panicked hwhy n result hreturned
  have hends : env.EndsInTurn args (Nat.find hsome) := by
    rcases Nat.find_spec hsome with hfull | hends | hunread
    · omega
    · exact hends
    · exact absurd hreads hunread
  refine ⟨hdeadline, _, hcount, hends, fun j hj => ?_⟩
  rcases Nat.lt_or_eq_of_le hj with hlt | rfl
  · exact (hopen j hlt).2
  · exact hreads

end Runs

/-- A call whose INVITE is not sent returns. -/
theorem returned_of_unsent {client : SipClient} {env : InviteEnvironment} {args : InviteArgs}
    (hdial : args.dial ≠ []) (hunsent : env.start.sent = false) :
    ∃ n result, inviteAfter client env args n = .returned result := by
  obtain ⟨shown, hout⟩ := inviteNext_called client env args
  refine ⟨1, ?_⟩
  rw [inviteAfter_succ]
  change ∃ result, inviteNext client env (.called args) = .returned result
  generalize inviteNext client env (.called args) = next at hout ⊢
  cases hout with
  | undialable why hempty => exact absurd hempty hdial
  | unsent _ => exact ⟨_, rfl⟩
  | overflowed hsent _ => simp [hunsent] at hsent
  | sent hsent _ => simp [hunsent] at hsent

/-- What returns times out at a head that finds the deadline passed. -/
theorem returnsInTime_of_returned {client : SipClient} {env : InviteEnvironment}
    {args : InviteArgs} (h : ∃ n result, inviteAfter client env args n = .returned result) :
    ReturnsInTime client env args where
  returns := h
  timeout := by
    intro n l hlooping hlate
    obtain ⟨m, result, hreturned⟩ := h
    have hcount : l.iterations < responseLoopLimit := by
      by_contra hfull
      obtain ⟨why, hwhy⟩ := inviteHead_exceeded (env.head l.iterations) hfull
      exact not_returned_of_panicked
        (by rw [inviteAfter_succ, hlooping, inviteNext_looping, hwhy]) m result hreturned
    rw [inviteAfter_succ, hlooping, inviteNext_looping]
    exact inviteHead_late hcount hlate

/-- Fewer datagrams, errors and timeouts than the limit come before the deadline: the
call ends in time if its responses are readable. -/
theorem InviteEnvironment.endsInTime_of_deadline {env : InviteEnvironment} {args : InviteArgs}
    {k : ℕ} (hdeadline : Representable args env.start) (hk : k < responseLoopLimit)
    (hlate : env.start.deadlineBase + args.inviteTimeout ≤ (env.head k).deadlineTest)
    (hreads : ∀ j < k, env.ReadsInTurn args j) : env.EndsInTime args := by
  have hends : env.EndsAtHead args k := Or.inl hlate
  refine ⟨hdeadline, k, hk, Or.inl hends, fun j hj => ?_⟩
  rcases Nat.lt_or_eq_of_le hj with hlt | rfl
  · exact hreads j hlt
  · exact Or.inl hends

/-- `invite` returns, at the latest with a timeout, exactly when its INVITE cannot be
sent or the clock can hold its deadline and one of the turns that the limit leaves ends the
call: the deadline, a failed retransmission or a final response. -/
theorem invite_returnsInTime_iff
    (client : SipClient) (env : InviteEnvironment) (args : InviteArgs)
    (hdial : args.dial ≠ []) :
    ReturnsInTime client env args ↔ (env.start.sent = true → env.EndsInTime args) := by
  cases hsent : env.start.sent with
  | false =>
      exact iff_of_true (returnsInTime_of_returned (returned_of_unsent hdial hsent))
        (fun h => by simp at h)
  | true =>
      constructor
      · intro h _
        exact endsInTime_of_returned hdial hsent h.returns
      · intro h
        exact returnsInTime_of_returned (returned_of_endsInTime hdial hsent (h rfl))

/-- Nothing is received, and the deadline passes before the second look. -/
def deafEnvironment : InviteEnvironment where
  start := trunkStart
  head n := headAt (n * (60 * 10 ^ 9))
  received _ := (none, answerInputs)

theorem invite_returnsInTime_deaf :
    inviteAfter trunkClient deafEnvironment trunkArgs 4 = .returned (.error .timedOut) ∧
      ReturnsInTime trunkClient deafEnvironment trunkArgs := by
  have hdial : trunkArgs.dial ≠ [] := by decide
  have hends : deafEnvironment.EndsInTime trunkArgs := by
    refine InviteEnvironment.endsInTime_of_deadline (k := 1) (by decide) (by decide)
      (by decide) ?_
    intro j _
    exact Or.inr fun resp hresp => by simp [InviteEnvironment.response, deafEnvironment] at hresp
  exact ⟨rfl, (invite_returnsInTime_iff trunkClient deafEnvironment trunkArgs hdial).mpr
    fun _ => hends⟩

/-- Every receive fails at once, and the clock stands still. -/
def failingEnvironment : InviteEnvironment where
  start := trunkStart
  head _ := headAt 0
  received _ := (none, answerInputs)

/-- `invite` waits on, or has panicked. -/
def WaitsOn : InviteState → Prop
  | .called args => args = trunkArgs
  | .looping l => 0 < l.deadline ∧ 0 < l.retransmitTimer
  | .receiving l => 0 < l.deadline ∧ 0 < l.retransmitTimer
  | .returned _ => False
  | .panicked _ => True

theorem inviteNext_waitsOn (s : InviteState) (hs : WaitsOn s) :
    WaitsOn (inviteNext trunkClient failingEnvironment s) := by
  cases s with
  | called args =>
      obtain rfl : args = trunkArgs := hs
      have hdeadline : 0 < trunkStart.deadlineBase + trunkArgs.inviteTimeout := by decide
      have htimer : 0 < timerAInitial := by decide
      exact ⟨hdeadline, htimer⟩
  | looping l =>
      obtain ⟨hdeadline, htimer⟩ := hs
      have hdeadlineTest : (headAt 0).deadlineTest = 0 := rfl
      have helapsed : (headAt 0).elapsedTest = 0 := rfl
      have hout := inviteHead_outcome l (headAt 0)
      change WaitsOn (inviteHead l (headAt 0)).1
      generalize inviteHead l (headAt 0) = out at hout ⊢
      cases hout with
      | exceeded _ _ => trivial
      | timedOut hlate => omega
      | retransmitted hdue _ =>
          have hexpired := hdue.expired.2.2
          omega
      | unsent hdue _ =>
          have hexpired := hdue.expired.2.2
          omega
      | quiet _ => exact ⟨hdeadline, htimer⟩
  | receiving l => exact hs
  | returned result => exact hs
  | panicked why => trivial

/-- The loop spins until its assertion fails. -/
theorem invite_returnsInTime_failing :
    ¬ ReturnsInTime trunkClient failingEnvironment trunkArgs := by
  rintro ⟨⟨n, result, hreturned⟩, -⟩
  have hstart : WaitsOn (.called trunkArgs) := rfl
  have hwaits : WaitsOn (inviteAfter trunkClient failingEnvironment trunkArgs n) :=
    Machine.drive_invariant inviteNext_waitsOn hstart n
  rw [hreturned] at hwaits
  exact hwaits

end SlmodemSipBridge.Sip
