import SlmodemSipBridge.Sip.Outcome

/-!
# Which INVITE is retransmitted

The text that the loop retransmits is built before the loop, and the answer to
a challenge does not replace it.  Retransmissions are of the latest INVITE
exactly as long as none happens after the retry.
-/

namespace SlmodemSipBridge.Sip

open Rust Transition

/-- The INVITE created last, and the CSeq number of the INVITE sent last. -/
structure InviteHistory where
  created : Option InviteRequest
  lastCseq : ℕ

/-- The history of a call without INVITEs. -/
def InviteHistory.empty : InviteHistory := ⟨none, 0⟩

/-- The history after an observation. -/
def InviteHistory.next (h : InviteHistory) : SipShown → InviteHistory
  | .sent site (.invite r) =>
      { created := if site = .retransmit then h.created else some r
        lastCseq := r.cseq }
  | _ => h

/-- An INVITE does not go back in CSeq number, and a retransmitted one is the
one created last, byte for byte. -/
def InviteHistory.Allows (client : SipClient) (h : InviteHistory) : SipShown → Prop
  | .sent site (.invite r) =>
      h.lastCseq ≤ r.cseq ∧
        (site = .retransmit →
          h.created.map client.buildInvite = some (client.buildInvite r))
  | _ => True

instance (client : SipClient) (h : InviteHistory) (o : SipShown) :
    Decidable (h.Allows client o) := by
  cases o with
  | read _ _ => exact isTrue trivial
  | answered _ _ => exact isTrue trivial
  | sent site request =>
      cases request with
      | invite r =>
          unfold InviteHistory.Allows
          infer_instance
      | register _ => exact isTrue trivial
      | ack _ => exact isTrue trivial
      | bye _ _ => exact isTrue trivial

/-- The watch over the INVITEs of a call. -/
def inviteWatch (client : SipClient) : Monitor InviteHistory SipShown where
  next := InviteHistory.next
  allows := InviteHistory.Allows client

instance (client : SipClient) (h : InviteHistory) (o : SipShown) :
    Decidable ((inviteWatch client).allows h o) :=
  inferInstanceAs (Decidable (h.Allows client o))

/-- Along the trace, each retransmission is of the INVITE created last and the
CSeq numbers of the INVITEs never decrease. -/
def RetransmitsLatest (client : SipClient) (trace : List SipShown) : Prop :=
  (inviteWatch client).Accepts .empty trace

instance (client : SipClient) (trace : List SipShown) :
    Decidable (RetransmitsLatest client trace) := by
  unfold RetransmitsLatest
  infer_instance

/-- A head of the loop that retransmits comes before the retry. -/
def RetransmitsBeforeRetry : InviteState → InviteEvent → Prop
  | .looping l, .head inputs =>
      l.Due inputs → inputs.sent = true → l.authRetryDone = false
  | _, _ => True

instance : ∀ s e, Decidable (RetransmitsBeforeRetry s e)
  | .called _, _ => isTrue trivial
  | .looping l, .head inputs =>
      inferInstanceAs
        (Decidable (l.Due inputs → inputs.sent = true → l.authRetryDone = false))
  | .looping _, .start _ => isTrue trivial
  | .looping _, .received _ _ => isTrue trivial
  | .receiving _, _ => isTrue trivial
  | .returned _, _ => isTrue trivial
  | .panicked _, _ => isTrue trivial

/-! ## What the loop knows about the INVITEs -/

/-- Until the retry the INVITE created last is the one built before the loop;
after it the CSeq number has moved on. -/
structure InviteTracked (l : InviteLoop) (h : InviteHistory) : Prop where
  number : l.invite.cseq = 1
  first : l.authRetryDone = false →
    h.created = some l.invite ∧ h.lastCseq = 1 ∧ l.call.cseq = 1
  retried : l.authRetryDone = true → h.lastCseq = 2

/-- The state of `invite` agrees with the history. -/
def InviteState.Tracked : InviteState → InviteHistory → Prop
  | .called _, h => h = .empty
  | .looping l, h => InviteTracked l h
  | .receiving l, h => InviteTracked l h
  | _, _ => True

theorem inviteStart_tracked {client : SipClient} {args : InviteArgs}
    {ids : InviteStart} {next : InviteState} {shown : List SipShown}
    (hout : StartOutcome client args ids (next, shown)) :
    (inviteWatch client).Accepts .empty shown ∧
      next.Tracked ((inviteWatch client).after .empty shown) := by
  cases hout with
  | undialable why hdial => exact ⟨trivial, trivial⟩
  | unsent hsent => exact ⟨trivial, trivial⟩
  | overflowed _ _ => exact ⟨⟨⟨Nat.zero_le 1, by simp⟩, trivial⟩, trivial⟩
  | sent hsent _ =>
      refine ⟨⟨⟨Nat.zero_le 1, by simp⟩, trivial⟩, rfl, ?_, ?_⟩
      · intro _
        exact ⟨rfl, rfl, rfl⟩
      · intro hdone
        simp [firstLoop] at hdone

theorem inviteHead_tracked (client : SipClient) {l : InviteLoop} {h : InviteHistory}
    (hl : InviteTracked l h) (inputs : HeadInputs)
    {next : InviteState} {shown : List SipShown}
    (hout : HeadOutcome l inputs (next, shown)) :
    ((inviteWatch client).Accepts h shown ↔
        RetransmitsBeforeRetry (.looping l) (.head inputs)) ∧
      (RetransmitsBeforeRetry (.looping l) (.head inputs) →
        next.Tracked ((inviteWatch client).after h shown)) := by
  have hbefore : shown = [] → RetransmitsBeforeRetry (.looping l) (.head inputs) := by
    rintro rfl hdue hsent
    exact absurd hsent (hout.not_sent hdue)
  cases hout with
  | exceeded why _ => exact ⟨iff_of_true trivial (hbefore rfl), fun _ => trivial⟩
  | timedOut _ => exact ⟨iff_of_true trivial (hbefore rfl), fun _ => trivial⟩
  | unsent _ _ => exact ⟨iff_of_true trivial (hbefore rfl), fun _ => trivial⟩
  | quiet _ =>
      exact ⟨iff_of_true trivial (hbefore rfl), fun _ => ⟨hl.number, hl.first, hl.retried⟩⟩
  | retransmitted hdue hsent =>
      have hiff : RetransmitsBeforeRetry (.looping l) (.head inputs) ↔
          l.authRetryDone = false := by
        constructor
        · intro hbefore
          exact hbefore hdue hsent
        · intro hfirst _ _
          exact hfirst
      rw [hiff]
      constructor
      · cases hdone : l.authRetryDone with
        | false =>
            obtain ⟨hcreated, hlast, -⟩ := hl.first hdone
            refine iff_of_true ⟨⟨?_, ?_⟩, trivial⟩ rfl
            · rw [hlast, hl.number]
            · intro _
              rw [hcreated, Option.map_some]
        | true =>
            refine iff_of_false ?_ (by simp)
            rintro ⟨⟨hle, -⟩, -⟩
            rw [hl.retried hdone, hl.number] at hle
            omega
      · intro hdone
        obtain ⟨hcreated, -, hcseq⟩ := hl.first hdone
        refine ⟨hl.number, fun _ => ⟨hcreated, hl.number, hcseq⟩, ?_⟩
        intro hdone'
        have hfalse : l.authRetryDone = true := hdone'
        simp [hdone] at hfalse

theorem response_tracked (client : SipClient) {l : InviteLoop} {h : InviteHistory}
    (hl : InviteTracked l h) {resp : Str} {inputs : AnswerInputs}
    {next : InviteState} {shown : List SipShown}
    (hout : ResponseOutcome client l resp inputs (.ok (next, shown))) :
    (inviteWatch client).Accepts h shown ∧
      next.Tracked ((inviteWatch client).after h shown) := by
  have hsame : ∀ l' : InviteLoop, l'.invite = l.invite → l'.call.cseq = l.call.cseq →
      l'.authRetryDone = l.authRetryDone → InviteTracked l' h := by
    intro l' hinvite hcseq hdone
    refine ⟨hinvite ▸ hl.number, ?_, ?_⟩
    · intro hnone
      obtain ⟨hcreated, hlast, hfirst⟩ := hl.first (hdone ▸ hnone)
      exact ⟨hinvite ▸ hcreated, hlast, hcseq ▸ hfirst⟩
    · intro hretried
      exact hl.retried (hdone ▸ hretried)
  cases hout with
  | unparsed _ => exact ⟨trivial, hl⟩
  | stale _ _ _ => exact ⟨trivial, hl⟩
  | admitted status _ _ hdispatch =>
      cases hdispatch with
      | trying _ => exact ⟨trivial, hsame _ rfl rfl rfl⟩
      | ringing _ _ => exact ⟨trivial, hsame _ rfl rfl rfl⟩
      | earlyMedia _ _ _ => exact ⟨trivial, trivial⟩
      | answered _ => exact ⟨⟨trivial, trivial⟩, trivial⟩
      | rejected _ _ _ => exact ⟨⟨trivial, trivial⟩, trivial⟩
      | rejectedUnsent _ _ _ => exact ⟨trivial, trivial⟩
      | unexpected _ => exact ⟨trivial, hsame _ rfl rfl rfl⟩
      | challenged _ _ hchallenge =>
          cases hchallenge with
          | again _ => exact ⟨trivial, trivial⟩
          | unusable _ _ _ _ => exact ⟨trivial, trivial⟩
          | ackUnsent _ _ _ _ _ => exact ⟨trivial, trivial⟩
          | retryUnsent _ _ _ _ _ _ => exact ⟨⟨trivial, trivial⟩, trivial⟩
          | retried digest hfirst _ _ _ _ =>
              obtain ⟨-, hlast, hcseq⟩ := hl.first hfirst
              have hnumber :
                  (retryInvite client (l.tagged resp) status digest inputs).cseq = 2 :=
                congrArg (· + 1) hcseq
              refine ⟨⟨trivial, ⟨?_, by simp⟩, trivial⟩, hl.number, ?_, fun _ => hnumber⟩
              · rw [hnumber]
                change h.lastCseq ≤ 2
                omega
              · intro hdone
                have hfalse : true = false := hdone
                simp at hfalse

theorem inviteStep_tracked (client : SipClient) (s : InviteState) (h : InviteHistory)
    (e : InviteEvent) (s' : InviteState) (shown : List SipShown)
    (hs : s.Tracked h) (hstep : (inviteMachine client).step s e = some (s', shown)) :
    ((inviteWatch client).Accepts h shown ↔ RetransmitsBeforeRetry s e) ∧
      (RetransmitsBeforeRetry s e → s'.Tracked ((inviteWatch client).after h shown)) := by
  cases inviteStepped_of_step hstep with
  | start args ids =>
      have hempty : h = .empty := hs
      subst hempty
      obtain ⟨haccepts, htracked⟩ :=
        inviteStart_tracked (inviteStart_outcome client args ids)
      exact ⟨iff_of_true haccepts trivial, fun _ => htracked⟩
  | head l inputs =>
      exact inviteHead_tracked client hs inputs (inviteHead_outcome l inputs)
  | silent l inputs => exact ⟨iff_of_true trivial trivial, fun _ => hs⟩
  | response l data inputs next shown hresponse =>
      obtain ⟨haccepts, htracked⟩ := response_tracked client hs hresponse
      exact ⟨iff_of_true ⟨trivial, haccepts⟩ trivial, fun _ => htracked⟩
  | crash l data inputs why hresponse =>
      exact ⟨iff_of_true ⟨trivial, trivial⟩ trivial, fun _ => trivial⟩

/-! ## Whole runs -/

/-- The INVITEs on the wire are in order, and what is retransmitted is the
latest of them, exactly when no retransmission follows the retry. -/
theorem invite_retransmitsLatest_iff
    (client : SipClient) (args : InviteArgs) (events : List InviteEvent)
    (t : InviteState) (trace : List SipShown)
    (hrun : (inviteMachine client).run (.called args) events = some (t, trace)) :
    RetransmitsLatest client trace ↔
      (inviteMachine client).Guarded RetransmitsBeforeRetry (.called args) events :=
  (inviteWatch client).accepts_run_iff (R := InviteState.Tracked)
    (inviteStep_tracked client) rfl hrun

/-- The first INVITE is retransmitted once and then challenged. -/
def retransmittedThenRetried : List InviteEvent :=
  [.start trunkStart, .head (headAt timerAInitial),
    .received (some trunkChallenge) { answerInputs with afterSend := timerAInitial }]

theorem invite_retransmitsLatest_beforeRetry :
    ∃ t trace,
      (inviteMachine trunkClient).run (.called trunkArgs) retransmittedThenRetried =
          some (t, trace) ∧
        trace.length = 5 ∧ RetransmitsLatest trunkClient trace := by
  obtain ⟨hlength, hbefore⟩ :
      ((inviteMachine trunkClient).run (.called trunkArgs)
        retransmittedThenRetried).map (fun end_ => end_.2.length) = some 5 ∧
      (inviteMachine trunkClient).Guarded RetransmitsBeforeRetry (.called trunkArgs)
        retransmittedThenRetried := by
    decide +kernel
  obtain ⟨⟨t, trace⟩, hrun, hfive⟩ := Option.map_eq_some_iff.mp hlength
  exact ⟨t, trace, hrun, hfive,
    (invite_retransmitsLatest_iff trunkClient trunkArgs _ t trace hrun).mpr hbefore⟩

/-- The challenge is answered, and the authenticated INVITE is lost. -/
def retriedThenRetransmitted : List InviteEvent :=
  [.start trunkStart, .head (headAt 0),
    .received (some trunkChallenge) answerInputs,
    .head (headAt timerAInitial)]

/-- After the retry the first INVITE goes out again, with its number and
without credentials. -/
theorem invite_retransmitsLatest_afterRetry :
    ∃ t trace,
      (inviteMachine trunkClient).run (.called trunkArgs) retriedThenRetransmitted =
          some (t, trace) ∧
        ¬ RetransmitsLatest trunkClient trace := by
  have hrejected :
      ((inviteMachine trunkClient).run (.called trunkArgs)
        retriedThenRetransmitted).map
          (fun end_ => decide (RetransmitsLatest trunkClient end_.2)) = some false := by
    decide +kernel
  obtain ⟨⟨t, trace⟩, hrun, hfalse⟩ := Option.map_eq_some_iff.mp hrejected
  exact ⟨t, trace, hrun, of_decide_eq_false hfalse⟩

end SlmodemSipBridge.Sip
