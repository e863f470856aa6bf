import SlmodemSipBridge.Sip.Backoff
import SlmodemSipBridge.Sip.Readable

/-!
# Where the turns of the response loop leave a call

A turn of the loop is a look at the clock and a receive.  What the turns have made
of a call is computed here from the clock readings, the datagrams and the outcomes
of the sends alone, and so is which turn ends it.  The loop of `invite` agrees with
this account.
-/

namespace SlmodemSipBridge.Sip

open Rust

/-! ## The account -/

/-- What the turns so far have made of a call: whether a challenge was answered, a
tag was read and a provisional response came, and the retransmissions of the
transaction with the reading of the clock after its last INVITE. -/
structure Standing where
  retried : Bool
  tagged : Bool
  provisional : Bool
  retransmitted : ℕ
  lastSend : ℕ
  deriving DecidableEq

/-- The CSeq number of the transaction. -/
def Standing.cseq (s : Standing) : ℕ := if s.retried then 2 else 1

/-- A retransmission is due at the head of a turn. -/
def Standing.Due (s : Standing) (inputs : HeadInputs) : Prop :=
  s.provisional = false ∧ s.retransmitted < inviteRetransmitLimit ∧
    timerA s.retransmitted ≤ inputs.elapsedTest - s.lastSend

instance (s : Standing) (inputs : HeadInputs) : Decidable (s.Due inputs) := by
  unfold Standing.Due
  infer_instance

/-- The call ends at the head of a turn: its deadline has passed, or what is due
cannot be sent. -/
def Standing.EndsAtHead (s : Standing) (deadline : ℕ) (inputs : HeadInputs) : Prop :=
  deadline ≤ inputs.deadlineTest ∨ s.Due inputs ∧ inputs.sent = false

/-- The account after the head of a turn. -/
def Standing.waited (s : Standing) (inputs : HeadInputs) : Standing :=
  if s.Due inputs then
    { s with retransmitted := s.retransmitted + 1, lastSend := inputs.afterSend }
  else s

/-- The response has a status, and no CSeq number but that of the transaction. -/
def Standing.Heeds (s : Standing) (resp : Str) (status : ℕ) : Prop :=
  parseStatusCode resp = some status ∧ isStale s.cseq resp = .ok false

/-- The response is a first challenge that is answered. -/
def Standing.Answers (s : Standing) (status : ℕ) (resp : Str) (inputs : AnswerInputs) : Prop :=
  (status = 401 ∨ status = 407) ∧ s.retried = false ∧
    (usableChallenge status resp).isSome = true ∧
    inputs.ackSent = true ∧ inputs.inviteSent = true

/-- The response ends the call: it is a 200, an offer of early media, or a failure
other than a challenge that is answered. -/
def Standing.EndedBy (s : Standing) (resp : Str) (inputs : AnswerInputs) : Prop :=
  ∃ status, s.Heeds resp status ∧
    (status = 200 ∨
      (status = 180 ∨ status = 183) ∧ (acceptedEndpoint resp).isSome = true ∨
      (400 ≤ status ∧ status < 700) ∧ ¬ s.Answers status resp inputs)

/-- The account after a response that does not end the call. -/
def Standing.heard (s : Standing) (resp : Str) (inputs : AnswerInputs) : Standing :=
  match parseStatusCode resp, isStale s.cseq resp with
  | some status, .ok false =>
      let s := { s with tagged := s.tagged || (toTagOf resp).isSome }
      if status = 401 ∨ status = 407 then
        { s with
          retried := true
          provisional := false
          retransmitted := 0
          lastSend := inputs.afterSend }
      else if status = 100 ∨ status = 180 ∨ status = 183 then { s with provisional := true }
      else s
  | _, _ => s

/-- No search for a header in the response compares a line across a character.  The
CSeq is searched in one with a status, and the To and the challenge in one that passes
the filter, if they are still wanted. -/
def Standing.Reads (s : Standing) (resp : Str) : Prop :=
  ∀ status, parseStatusCode resp = some status →
    HeaderComparable resp (lit "CSeq") ∧
      (isStale s.cseq resp = .ok false →
        (s.tagged = false → HeaderComparable resp (lit "To")) ∧
          (status = 401 ∨ status = 407 → s.retried = false →
            HeaderComparable resp (challengeHeader status)))

/-! ## Where the readers panic -/

theorem comparable_of_isStale {cseq : ℕ} {resp : Str} {stale : Bool}
    (h : isStale cseq resp = .ok stale) : HeaderComparable resp (lit "CSeq") := by
  simp only [isStale, extractCseqNum] at h
  cases hheader : extractHeader resp (lit "CSeq") with
  | error why => simp [hheader, bind, Except.bind] at h
  | ok found => exact (extractHeader_ok_iff cseq_mem_asked resp).mp ⟨found, hheader⟩

theorem not_comparable_of_isStale {cseq : ℕ} {resp : Str} {why : Panic}
    (h : isStale cseq resp = .error why) : ¬ HeaderComparable resp (lit "CSeq") := by
  rw [← extractHeader_ok_iff cseq_mem_asked]
  intro hfound
  obtain ⟨cseqNum, hcseq⟩ := extractCseqNum_of_extractHeader hfound
  simp only [isStale, hcseq, bind, Except.bind] at h
  split at h <;> simp [pure, Except.pure] at h

theorem comparable_of_rememberTag {call call' : Call} {resp : Str}
    (h : call.rememberTag resp = .ok call') (hnone : call.remoteTag = none) :
    HeaderComparable resp (lit "To") := by
  unfold Call.rememberTag at h
  simp only [hnone, Option.isNone_none, if_true] at h
  cases hheader : extractHeader resp (lit "To") with
  | error why => simp [hheader, bind, Except.bind] at h
  | ok found => exact (extractHeader_ok_iff to_mem_asked resp).mp ⟨found, hheader⟩

theorem comparable_of_challenge {client : SipClient} {l : InviteLoop} {status : ℕ}
    {resp : Str} {inputs : AnswerInputs} {out : InviteState × List SipShown}
    (h : ChallengeOutcome client l status resp inputs (.ok out))
    (hfirst : l.authRetryDone = false) : HeaderComparable resp (challengeHeader status) := by
  rw [← extractHeader_ok_iff (challengeHeader_mem_asked status)]
  cases h with
  | again hdone => simp [hfirst] at hdone
  | unusable _ _ hread _ => exact hread
  | ackUnsent _ _ hread _ _ => exact hread
  | retryUnsent _ _ hread _ _ _ => exact hread
  | retried _ _ hread _ _ _ => exact hread

/-! ## The loop agrees with the account -/

/-- The loop is where the account has the call. -/
structure Standing.Tracks (s : Standing) (l : InviteLoop) : Prop where
  cseq : l.call.cseq = s.cseq
  tagged : l.call.remoteTag.isSome = s.tagged
  provisional : l.gotProvisional = s.provisional
  retransmitted : l.retransmitCount = s.retransmitted
  timer : l.retransmitTimer = timerA s.retransmitted
  lastSend : l.lastSend = s.lastSend
  retried : l.authRetryDone = s.retried

/-- The account of a call whose first INVITE is out. -/
def Standing.start (ids : InviteStart) : Standing where
  retried := false
  tagged := false
  provisional := false
  retransmitted := 0
  lastSend := ids.lastSend

theorem Standing.start_tracks (client : SipClient) (args : InviteArgs) (ids : InviteStart) :
    (Standing.start ids).Tracks (firstLoop client args ids) where
  cseq := rfl
  tagged := rfl
  provisional := rfl
  retransmitted := rfl
  timer := timerA_zero.symm
  lastSend := rfl
  retried := rfl

theorem Standing.Heeds.status_unique {s : Standing} {l : InviteLoop} {resp : Str}
    {status status' : ℕ} (h : s.Heeds resp status') (hadmitted : Admitted l resp status) :
    status' = status := by
  have heq := hadmitted.status_eq.symm.trans h.1
  simpa using heq.symm

section Tracked

variable {s : Standing} {l : InviteLoop} (h : s.Tracks l)
include h

theorem Standing.Tracks.due_iff (inputs : HeadInputs) : l.retransmits inputs ↔ s.Due inputs := by
  simp only [InviteLoop.retransmits, Standing.Due, h.provisional, h.retransmitted, h.timer,
    h.lastSend]

/-- A head that does not end the call goes on to a receive. -/
theorem Standing.Tracks.head_receives {inputs : HeadInputs}
    (hcount : l.iterations < responseLoopLimit) (hends : ¬ s.EndsAtHead l.deadline inputs) :
    ∃ l', (inviteHead l inputs).1 = .receiving l' ∧ (s.waited inputs).Tracks l' ∧
      l'.deadline = l.deadline ∧ l'.iterations = l.iterations + 1 := by
  have hout := inviteHead_outcome l inputs
  generalize inviteHead l inputs = out at hout ⊢
  cases hout with
  | exceeded why hlimit => omega
  | timedOut hlate => exact absurd (Or.inl hlate) hends
  | unsent hdue hsent =>
      exact absurd (Or.inr ⟨(h.due_iff inputs).mp hdue.expired, hsent⟩) hends
  | retransmitted hdue hsent =>
      refine ⟨_, rfl, ?_, rfl, rfl⟩
      rw [Standing.waited, if_pos ((h.due_iff inputs).mp hdue.expired)]
      exact
        { h with
          retransmitted := congrArg (· + 1) h.retransmitted
          timer := by
            simp only [InviteLoop.retransmitted, InviteLoop.counted, h.timer]
            exact min_timerA_double s.retransmitted
          lastSend := rfl }
  | quiet hidle =>
      refine ⟨_, rfl, ?_, rfl, rfl⟩
      rw [Standing.waited, if_neg (fun hdue => hidle ((h.due_iff inputs).mpr hdue))]
      exact { h with }

/-- A head that ends the call returns an error. -/
theorem Standing.Tracks.head_returns {inputs : HeadInputs}
    (hcount : l.iterations < responseLoopLimit) (hends : s.EndsAtHead l.deadline inputs) :
    ∃ result, (inviteHead l inputs).1 = .returned result := by
  have hearly : ∀ l', (inviteHead l inputs).1 = .receiving l' →
      inputs.deadlineTest < l.deadline := fun l' hl' => early_of_receiving hl'
  have hout := inviteHead_outcome l inputs
  generalize inviteHead l inputs = out at hout hearly ⊢
  cases hout with
  | exceeded why hlimit => omega
  | timedOut _ => exact ⟨_, rfl⟩
  | unsent _ _ => exact ⟨_, rfl⟩
  | retransmitted hdue hsent =>
      rcases hends with hlate | ⟨-, hunsent⟩
      · have := hdue.early
        omega
      · simp [hsent] at hunsent
  | quiet hidle =>
      rcases hends with hlate | ⟨hdue, -⟩
      · have := hearly _ rfl
        omega
      · exact absurd ((h.due_iff inputs).mpr hdue) hidle

variable {client : SipClient} {resp : Str} {inputs : AnswerInputs}

theorem Standing.Tracks.untagged_iff : l.call.remoteTag = none ↔ s.tagged = false := by
  rw [← h.tagged, Option.isSome_eq_false_iff, Option.isNone_iff_eq_none]

/-- A response that is read without a panic has readable headers. -/
theorem Standing.Tracks.reads_of_ok {out : InviteState × List SipShown}
    (hout : ResponseOutcome client l resp inputs (.ok out)) : s.Reads resp := by
  intro status hstatus
  rw [← h.cseq]
  cases hout with
  | unparsed hnone => simp [hnone] at hstatus
  | stale _ _ hstale =>
      refine ⟨comparable_of_isStale hstale, ?_⟩
      intro hfresh
      simp [hstale] at hfresh
  | admitted status' _ hadmitted hdispatch =>
      obtain rfl : status' = status := by simpa [hadmitted.status_eq] using hstatus
      refine ⟨comparable_of_isStale hadmitted.fresh, fun _ => ⟨?_, ?_⟩⟩
      · intro hnone
        exact comparable_of_rememberTag hadmitted.remembered (h.untagged_iff.mpr hnone)
      · intro hauth hfirst
        cases hdispatch with
        | challenged _ _ hchallenge =>
            exact comparable_of_challenge hchallenge (h.retried.trans hfirst)
        | _ => omega

/-- A response whose reading panics has a header that is not readable. -/
theorem Standing.Tracks.not_reads_of_error {why : Panic}
    (hout : ResponseOutcome client l resp inputs (.error why)) : ¬ s.Reads resp := by
  intro hreads
  rw [Standing.Reads, ← h.cseq] at hreads
  cases hout with
  | badCseq status _ hstatus hpanic =>
      exact not_comparable_of_isStale hpanic (hreads status hstatus).1
  | badTo status _ hstatus hfresh hpanic =>
      obtain ⟨hnone, hlookup⟩ := rememberTag_eq_error hpanic
      have hwanted := ((hreads status hstatus).2 hfresh).1 (h.untagged_iff.mp hnone)
      obtain ⟨found, hfound⟩ := (extractHeader_ok_iff to_mem_asked resp).mpr hwanted
      simp [hlookup] at hfound
  | admitted status _ hadmitted hdispatch =>
      cases hdispatch with
      | challenged _ hauth hchallenge =>
          cases hchallenge with
          | panicked _ hfirst hlookup =>
              have hread := (hreads status hadmitted.status_eq).2 hadmitted.fresh
              obtain ⟨found, hfound⟩ :=
                (extractHeader_ok_iff (challengeHeader_mem_asked status) resp).mpr
                  (hread.2 hauth (h.retried.symm.trans hfirst))
              simp [hlookup] at hfound

/-- The account of the loop once the tag is read. -/
theorem Standing.Tracks.tagging :
    ({ s with tagged := s.tagged || (toTagOf resp).isSome } : Standing).Tracks
      (l.tagged resp) :=
  { h with
    tagged := by
      simp only [InviteLoop.tagged, Call.tagged, Option.isSome_or, h.tagged] }

theorem Standing.Tracks.heeds {status : ℕ} (hadmitted : Admitted l resp status) :
    s.Heeds resp status :=
  ⟨hadmitted.status_eq, h.cseq ▸ hadmitted.fresh⟩

/-- A response that ends the loop ends the call. -/
theorem Standing.Tracks.endedBy_of_returned {result : Except InviteError Call}
    {shown : List SipShown}
    (hout : ResponseOutcome client l resp inputs (.ok (.returned result, shown))) :
    s.EndedBy resp inputs := by
  cases hout with
  | admitted status _ hadmitted hdispatch =>
      refine ⟨status, h.heeds hadmitted, ?_⟩
      cases hdispatch with
      | earlyMedia endpoint hstatus hsome => exact Or.inr (Or.inl ⟨hstatus, by simp [hsome]⟩)
      | answered hstatus => exact Or.inl hstatus
      | rejected hrange hother _ =>
          exact Or.inr (Or.inr ⟨hrange, fun hanswers => by have := hanswers.1; omega⟩)
      | rejectedUnsent hrange hother _ =>
          exact Or.inr (Or.inr ⟨hrange, fun hanswers => by have := hanswers.1; omega⟩)
      | challenged _ hauth hchallenge =>
          refine Or.inr (Or.inr ⟨by omega, ?_⟩)
          rintro ⟨-, hfirst, husable, hack, hinvite⟩
          cases hchallenge with
          | again hdone => simp [InviteLoop.tagged, h.retried, hfirst] at hdone
          | unusable _ _ _ hnone => simp [hnone] at husable
          | ackUnsent _ _ _ _ hunsent => simp [hack] at hunsent
          | retryUnsent _ _ _ _ _ hunsent => simp [hinvite] at hunsent

/-- A response that leads back to the loop does not end the call, and the loop is where
the account then has it. -/
theorem Standing.Tracks.heard_of_looping {l' : InviteLoop} {shown : List SipShown}
    (hout : ResponseOutcome client l resp inputs (.ok (.looping l', shown))) :
    ¬ s.EndedBy resp inputs ∧ (s.heard resp inputs).Tracks l' ∧ l'.deadline = l.deadline ∧
      l'.iterations = l.iterations := by
  cases hout with
  | unparsed hnone =>
      refine ⟨?_, ?_, rfl, rfl⟩
      · rintro ⟨status, ⟨hstatus, -⟩, -⟩
        simp [hnone] at hstatus
      · simpa only [Standing.heard, hnone] using h
  | stale status hstatus hstale =>
      rw [h.cseq] at hstale
      refine ⟨?_, ?_, rfl, rfl⟩
      · rintro ⟨status', ⟨-, hfresh⟩, -⟩
        simp [hstale] at hfresh
      · simpa only [Standing.heard, hstatus, hstale] using h
  | admitted status _ hadmitted hdispatch =>
      have htagged : ({ s with tagged := s.tagged || (toTagOf resp).isSome } : Standing).Tracks
          (l.tagged resp) := h.tagging
      have hstatus := hadmitted.status_eq
      have hfresh : isStale s.cseq resp = .ok false := h.cseq ▸ hadmitted.fresh
      have hending : ¬ (status = 200 ∨
          (status = 180 ∨ status = 183) ∧ (acceptedEndpoint resp).isSome = true ∨
          (400 ≤ status ∧ status < 700) ∧ ¬ s.Answers status resp inputs) →
          ¬ s.EndedBy resp inputs := by
        rintro hnot ⟨status', hheeds, hends⟩
        exact hnot (hheeds.status_unique hadmitted ▸ hends)
      cases hdispatch with
      | trying h100 =>
          refine ⟨hending (by omega), ?_, rfl, rfl⟩
          simp only [Standing.heard, hstatus, hfresh, h100]
          exact { htagged with provisional := rfl }
      | ringing h18x hnone =>
          refine ⟨hending (by simp [hnone]; omega), ?_, rfl, rfl⟩
          have hother : ¬ (status = 401 ∨ status = 407) := by omega
          simp only [Standing.heard, hstatus, hfresh, if_neg hother, if_pos (Or.inr h18x)]
          exact { htagged with provisional := rfl }
      | unexpected hnone =>
          refine ⟨hending (by omega), ?_, rfl, rfl⟩
          have hother : ¬ (status = 401 ∨ status = 407) := by omega
          have hquiet : ¬ (status = 100 ∨ status = 180 ∨ status = 183) := by omega
          simpa only [Standing.heard, hstatus, hfresh, if_neg hother, if_neg hquiet] using htagged
      | challenged _ hauth hchallenge =>
          cases hchallenge with
          | retried digest hfirst hread husable hack hinvite =>
              have hanswers : s.Answers status resp inputs :=
                ⟨hauth, h.retried.symm.trans hfirst, by simp [husable], hack, hinvite⟩
              refine ⟨hending ?_, ?_, rfl, rfl⟩
              · rintro (h200 | ⟨h18x, -⟩ | ⟨-, hnot⟩)
                · omega
                · omega
                · exact hnot hanswers
              · have hcseq : s.cseq = 1 := by simp [Standing.cseq, hanswers.2.1]
                simp only [Standing.heard, hstatus, hfresh, if_pos hauth]
                exact
                  { htagged with
                    cseq := congrArg (· + 1) (h.cseq.trans hcseq)
                    provisional := rfl
                    retransmitted := rfl
                    timer := timerA_zero.symm
                    lastSend := rfl
                    retried := rfl }

end Tracked

end SlmodemSipBridge.Sip
