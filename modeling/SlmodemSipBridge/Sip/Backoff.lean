import SlmodemSipBridge.Sip.Outcome

/-!
# How often the INVITE is retransmitted, and how soon

The timer doubles with each retransmission of a transaction up to its cap, and
`last_send` is read after each INVITE.  A transaction lasts from the INVITE that
is created for it to the next one that is created.  Each event comes with the
time at which its INVITE is sent, beside the readings that `invite` takes.
-/

namespace SlmodemSipBridge.Sip

open Rust Transition

/-- The time before retransmission `k + 1` of a transaction. -/
def timerA (k : ℕ) : ℕ := min (timerAInitial * 2 ^ k) timerACap

@[simp] theorem timerA_zero : timerA 0 = timerAInitial := by decide

/-- Each retransmission doubles the timer, up to its cap. -/
theorem min_timerA_double (k : ℕ) : min (timerA k * 2) timerACap = timerA (k + 1) := by
  have hpow : timerAInitial * 2 ^ (k + 1) = timerAInitial * 2 ^ k * 2 := by
    rw [Nat.pow_succ, Nat.mul_assoc]
  unfold timerA
  omega

/-! ## The clock -/

/-- The times of an event in their order: its readings, and when it sends.  A
reading that is not taken may be any time in between. -/
def clockTimes : InviteEvent × ℕ → List ℕ
  | (.start ids, sentAt) => [sentAt, ids.deadlineBase, ids.lastSend]
  | (.head inputs, sentAt) =>
      [inputs.deadlineTest, inputs.elapsedTest, sentAt, inputs.afterSend]
  | (.received _ inputs, sentAt) => [sentAt, inputs.afterSend]

/-- The clock never goes back. -/
def Clocked (events : List (InviteEvent × ℕ)) : Prop :=
  (events.flatMap clockTimes).Pairwise (· ≤ ·)

instance (events : List (InviteEvent × ℕ)) : Decidable (Clocked events) := by
  unfold Clocked
  infer_instance

/-- The INVITE of an event is sent after the timer is read and before
`last_send` is. -/
def SentInTime : InviteEvent × ℕ → Prop
  | (.start ids, sentAt) => sentAt ≤ ids.lastSend
  | (.head inputs, sentAt) => inputs.elapsedTest ≤ sentAt ∧ sentAt ≤ inputs.afterSend
  | (.received _ inputs, sentAt) => sentAt ≤ inputs.afterSend

theorem Clocked.sentInTime {events : List (InviteEvent × ℕ)} (h : Clocked events) :
    ∀ e ∈ events, SentInTime e := by
  intro e he
  have hsorted : (clockTimes e).Pairwise (· ≤ ·) :=
    (List.pairwise_flatMap.mp h).1 e he
  obtain ⟨event, sentAt⟩ := e
  cases event with
  | start ids =>
      simp only [clockTimes, List.pairwise_cons] at hsorted
      exact hsorted.1 ids.lastSend (by simp)
  | head inputs =>
      simp only [clockTimes, List.pairwise_cons] at hsorted
      exact ⟨hsorted.2.1 sentAt (by simp), hsorted.2.2.1 inputs.afterSend (by simp)⟩
  | received datagram inputs =>
      simp only [clockTimes, List.pairwise_cons] at hsorted
      exact hsorted.1 inputs.afterSend (by simp)

/-! ## The watch -/

/-- The retransmissions of the current transaction, the INVITEs of the call and
the time of the last of them. -/
structure Backoff where
  retransmitted : ℕ
  invites : ℕ
  lastInvite : Option ℕ

/-- A call without INVITEs. -/
def Backoff.start : Backoff := ⟨0, 0, none⟩

/-- The record after an observation. -/
def Backoff.next (b : Backoff) : SipShown × ℕ → Backoff
  | (.sent site (.invite _), sentAt) =>
      { retransmitted := if site = .retransmit then b.retransmitted + 1 else 0
        invites := b.invites + 1
        lastInvite := some sentAt }
  | _ => b

/-- A retransmission is within the limit, and keeps its distance from the last
INVITE. -/
def Backoff.Allows (b : Backoff) : SipShown × ℕ → Prop
  | (.sent .retransmit (.invite _), sentAt) =>
      b.retransmitted < inviteRetransmitLimit ∧
        ∃ last ∈ b.lastInvite, last + timerA b.retransmitted ≤ sentAt
  | _ => True

/-- The watch over the times of the INVITEs. -/
def backoffWatch : Monitor Backoff (SipShown × ℕ) where
  next := Backoff.next
  allows := Backoff.Allows

/-- Along the trace, each transaction is retransmitted within the limit, and
retransmission `k + 1` comes at least `timerA k` after the INVITE before it. -/
def BacksOff (trace : List (SipShown × ℕ)) : Prop := backoffWatch.Accepts .start trace

/-- The INVITEs of a trace. -/
def sentInvites : List (SipShown × ℕ) → List InviteRequest
  | [] => []
  | (.sent _ (.invite r), _) :: rest => r :: sentInvites rest
  | _ :: rest => sentInvites rest

/-- The record counts the INVITEs. -/
theorem after_invites (trace : List (SipShown × ℕ)) (b : Backoff) :
    (backoffWatch.after b trace).invites = b.invites + (sentInvites trace).length := by
  induction trace generalizing b with
  | nil => rfl
  | cons o trace ih =>
      obtain ⟨o, sentAt⟩ := o
      rw [Monitor.after_cons, ih]
      cases o with
      | read call resp => rfl
      | answered call resp => rfl
      | sent site request =>
          cases request with
          | invite r =>
              simp only [backoffWatch, Backoff.next, sentInvites, List.length_cons]
              omega
          | register r => rfl
          | ack call => rfl
          | bye call branch => rfl

/-! ## What the loop knows about its INVITEs -/

/-- The most INVITEs of a call. -/
def inviteLimit : ℕ := 2 * (inviteRetransmitLimit + 1)

/-- The INVITEs sent by now, but for the retransmissions of the transaction. -/
def InviteLoop.sentBefore (l : InviteLoop) : ℕ :=
  if l.authRetryDone then inviteRetransmitLimit + 2 else 1

/-- The timer and the counter of the loop agree with the record, and `last_send`
is no earlier than the last INVITE. -/
structure LoopBacked (l : InviteLoop) (b : Backoff) : Prop where
  count : l.retransmitCount = b.retransmitted
  limit : b.retransmitted ≤ inviteRetransmitLimit
  timer : l.retransmitTimer = timerA b.retransmitted
  last : ∃ last ∈ b.lastInvite, last ≤ l.lastSend
  invites : b.invites ≤ l.sentBefore + b.retransmitted

/-- The state of `invite` agrees with the record. -/
def InviteState.Backed : InviteState → Backoff → Prop
  | .called _, b => b = .start
  | .looping l, b => LoopBacked l b
  | .receiving l, b => LoopBacked l b
  | .returned _, b => b.invites ≤ inviteLimit
  | .panicked _, b => b.invites ≤ inviteLimit

theorem InviteLoop.sentBefore_le (l : InviteLoop) :
    l.sentBefore ≤ inviteRetransmitLimit + 2 := by
  unfold InviteLoop.sentBefore
  split <;> decide

theorem LoopBacked.invites_le {l : InviteLoop} {b : Backoff} (h : LoopBacked l b) :
    b.invites ≤ inviteLimit := by
  have hsent := h.invites
  have hbefore := l.sentBefore_le
  have hlimit := h.limit
  unfold inviteLimit
  omega

/-- The loop agrees with the record whatever its call and its other flags are. -/
theorem LoopBacked.congr {l l' : InviteLoop} {b : Backoff} (h : LoopBacked l b)
    (hcount : l'.retransmitCount = l.retransmitCount)
    (htimer : l'.retransmitTimer = l.retransmitTimer) (hlast : l'.lastSend = l.lastSend)
    (hdone : l'.authRetryDone = l.authRetryDone) : LoopBacked l' b where
  count := hcount ▸ h.count
  limit := h.limit
  timer := htimer ▸ h.timer
  last := hlast ▸ h.last
  invites := by
    have hbefore : l'.sentBefore = l.sentBefore := by
      simp only [InviteLoop.sentBefore, hdone]
    rw [hbefore]
    exact h.invites

theorem inviteStart_backed {client : SipClient} {args : InviteArgs} {ids : InviteStart}
    {sentAt : ℕ} (hsent : sentAt ≤ ids.lastSend) {next : InviteState}
    {shown : List SipShown} (hout : StartOutcome client args ids (next, shown)) :
    backoffWatch.Accepts .start (shown.map fun o => (o, sentAt)) ∧
      next.Backed (backoffWatch.after .start (shown.map fun o => (o, sentAt))) := by
  cases hout with
  | undialable why hdial => exact ⟨trivial, Nat.zero_le _⟩
  | unsent hunsent => exact ⟨trivial, Nat.zero_le _⟩
  | overflowed _ _ => exact ⟨⟨trivial, trivial⟩, (by decide : 1 ≤ inviteLimit)⟩
  | sent hsends _ =>
      constructor
      · exact ⟨trivial, trivial⟩
      · exact
          { count := rfl
            limit := Nat.zero_le _
            timer := timerA_zero.symm
            last := ⟨sentAt, rfl, hsent⟩
            invites := Nat.le_refl 1 }

theorem inviteHead_backed {l : InviteLoop} {b : Backoff} (hl : LoopBacked l b)
    {inputs : HeadInputs} {sentAt : ℕ} (hread : inputs.elapsedTest ≤ sentAt)
    (hsent : sentAt ≤ inputs.afterSend) {next : InviteState} {shown : List SipShown}
    (hout : HeadOutcome l inputs (next, shown)) :
    backoffWatch.Accepts b (shown.map fun o => (o, sentAt)) ∧
      next.Backed (backoffWatch.after b (shown.map fun o => (o, sentAt))) := by
  cases hout with
  | exceeded why hlimit => exact ⟨trivial, hl.invites_le⟩
  | timedOut hlate => exact ⟨trivial, hl.invites_le⟩
  | unsent hdue _ => exact ⟨trivial, hl.invites_le⟩
  | quiet hidle => exact ⟨trivial, hl.congr rfl rfl rfl rfl⟩
  | retransmitted hdue _ =>
      obtain ⟨hquiet, hcount, hexpired⟩ := hdue.expired
      obtain ⟨last, hlast, hbefore⟩ := hl.last
      rw [hl.count] at hcount
      rw [hl.timer] at hexpired
      constructor
      · refine ⟨⟨hcount, last, hlast, ?_⟩, trivial⟩
        -- The timer is positive, so the clock is past `last_send`.
        have hpos : 0 < timerA b.retransmitted := by
          have hpow : 0 < 2 ^ b.retransmitted := Nat.two_pow_pos _
          have hfirst : 0 < timerAInitial * 2 ^ b.retransmitted :=
            Nat.mul_pos (by decide) hpow
          have hcap : 0 < timerACap := by decide
          unfold timerA
          omega
        omega
      · have hdouble := min_timerA_double b.retransmitted
        exact
          { count := congrArg (· + 1) hl.count
            limit := hcount
            timer := by
              change min (l.retransmitTimer * 2) timerACap = _
              rw [hl.timer, hdouble]
              rfl
            last := ⟨sentAt, rfl, hsent⟩
            invites := by
              have hinvites := hl.invites
              change b.invites + 1 ≤ l.sentBefore + (b.retransmitted + 1)
              omega }

theorem response_backed {client : SipClient} {l : InviteLoop} {b : Backoff}
    (hl : LoopBacked l b) {resp : Str} {inputs : AnswerInputs} {sentAt : ℕ}
    (hsent : sentAt ≤ inputs.afterSend) {next : InviteState} {shown : List SipShown}
    (hout : ResponseOutcome client l resp inputs (.ok (next, shown))) :
    backoffWatch.Accepts b (shown.map fun o => (o, sentAt)) ∧
      next.Backed (backoffWatch.after b (shown.map fun o => (o, sentAt))) := by
  cases hout with
  | unparsed _ => exact ⟨trivial, hl⟩
  | stale _ _ _ => exact ⟨trivial, hl⟩
  | admitted status _ _ hdispatch =>
      cases hdispatch with
      | trying _ => exact ⟨trivial, hl.congr rfl rfl rfl rfl⟩
      | ringing _ _ => exact ⟨trivial, hl.congr rfl rfl rfl rfl⟩
      | earlyMedia _ _ _ => exact ⟨trivial, hl.invites_le⟩
      | answered _ => exact ⟨⟨trivial, trivial⟩, hl.invites_le⟩
      | rejected _ _ _ => exact ⟨⟨trivial, trivial⟩, hl.invites_le⟩
      | rejectedUnsent _ _ _ => exact ⟨trivial, hl.invites_le⟩
      | unexpected _ => exact ⟨trivial, hl.congr rfl rfl rfl rfl⟩
      | challenged _ _ hchallenge =>
          cases hchallenge with
          | again _ => exact ⟨trivial, hl.invites_le⟩
          | unusable _ _ _ _ => exact ⟨trivial, hl.invites_le⟩
          | ackUnsent _ _ _ _ _ => exact ⟨trivial, hl.invites_le⟩
          | retryUnsent _ _ _ _ _ _ => exact ⟨⟨trivial, trivial⟩, hl.invites_le⟩
          | retried digest hfirst _ _ _ _ =>
              have hinvites := hl.invites
              have hlimit := hl.limit
              have hbefore : l.sentBefore = 1 := by
                have hdone : l.authRetryDone = false := hfirst
                simp [InviteLoop.sentBefore, hdone]
              constructor
              · exact ⟨trivial, trivial, trivial⟩
              · exact
                  { count := rfl
                    limit := Nat.zero_le _
                    timer := timerA_zero.symm
                    last := ⟨sentAt, rfl, hsent⟩
                    invites := by
                      change b.invites + 1 ≤ inviteRetransmitLimit + 2 + 0
                      omega }

theorem inviteStep_backed (client : SipClient) (s : InviteState) (b : Backoff)
    (e : InviteEvent × ℕ) (s' : InviteState) (shown : List (SipShown × ℕ))
    (hs : s.Backed b)
    (hstep : ((inviteMachine client).stamped ℕ).step s e = some (s', shown))
    (he : SentInTime e) :
    backoffWatch.Accepts b shown ∧ s'.Backed (backoffWatch.after b shown) := by
  obtain ⟨event, sentAt⟩ := e
  obtain ⟨out, hinvite, rfl⟩ := (inviteMachine client).stamped_step_eq_some_iff.mp hstep
  cases inviteStepped_of_step hinvite with
  | start args ids =>
      have hstart : b = .start := hs
      subst hstart
      exact inviteStart_backed he (inviteStart_outcome client args ids)
  | head l inputs => exact inviteHead_backed hs he.1 he.2 (inviteHead_outcome l inputs)
  | silent l inputs => exact ⟨trivial, hs⟩
  | response l data inputs next shown hresponse =>
      obtain ⟨haccepts, hbacked⟩ := response_backed hs he hresponse
      exact ⟨⟨trivial, haccepts⟩, hbacked⟩
  | crash l data inputs why hresponse => exact ⟨⟨trivial, trivial⟩, hs.invites_le⟩

theorem InviteState.Backed.invites_le {s : InviteState} {b : Backoff} (h : s.Backed b) :
    b.invites ≤ inviteLimit := by
  cases s with
  | called args =>
      have hstart : b = .start := h
      rw [hstart]
      exact Nat.zero_le _
  | looping l => exact LoopBacked.invites_le h
  | receiving l => exact LoopBacked.invites_le h
  | returned result => exact h
  | panicked why => exact h

/-! ## Whole runs -/

/-- While the clock does not go back, no transaction is retransmitted more than
seven times, each retransmission keeps its distance from the INVITE before it,
and there are no more than sixteen INVITEs. -/
theorem invite_backsOff
    (client : SipClient) (args : InviteArgs) (events : List (InviteEvent × ℕ))
    (t : InviteState) (trace : List (SipShown × ℕ)) (hclock : Clocked events)
    (hrun : ((inviteMachine client).stamped ℕ).run (.called args) events =
      some (t, trace)) :
    BacksOff trace ∧ (sentInvites trace).length ≤ 16 := by
  have hguarded := ((inviteMachine client).stamped ℕ).guarded_of_forall_mem
    hclock.sentInTime (.called args)
  have hstart : InviteState.Backed (.called args) .start := rfl
  obtain ⟨haccepts, hbacked⟩ := backoffWatch.accepts_of_run
    (P := fun _ e _ _ => SentInTime e) (inviteStep_backed client) hstart hguarded hrun
  refine ⟨haccepts, ?_⟩
  have hinvites := hbacked.invites_le
  rw [after_invites] at hinvites
  simpa [Backoff.start, inviteLimit, inviteRetransmitLimit] using hinvites

/-- Two retransmissions, at half a second and a second and a half. -/
def retransmittedTwice : List (InviteEvent × ℕ) :=
  [(.start trunkStart, 0), (.head (headAt timerAInitial), timerAInitial),
    (.received none { answerInputs with afterSend := timerAInitial }, timerAInitial),
    (.head (headAt (3 * timerAInitial)), 3 * timerAInitial)]

theorem invite_backsOff_retransmittedTwice :
    ∃ t trace,
      ((inviteMachine trunkClient).stamped ℕ).run (.called trunkArgs)
          retransmittedTwice = some (t, trace) ∧
        (sentInvites trace).length = 3 ∧ BacksOff trace := by
  have hlength :
      (((inviteMachine trunkClient).stamped ℕ).run (.called trunkArgs)
        retransmittedTwice).map (fun end_ => (sentInvites end_.2).length) = some 3 := by
    decide +kernel
  obtain ⟨⟨t, trace⟩, hrun, hthree⟩ := Option.map_eq_some_iff.mp hlength
  have hclock : Clocked retransmittedTwice := by decide
  exact ⟨t, trace, hrun, hthree,
    (invite_backsOff trunkClient trunkArgs _ t trace hclock hrun).1⟩

end SlmodemSipBridge.Sip
