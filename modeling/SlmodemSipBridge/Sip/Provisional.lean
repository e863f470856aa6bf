import SlmodemSipBridge.Sip.Outcome

/-!
# Provisional responses and the retransmissions after them

`got_provisional` ends the retransmissions of a transaction.  Three statuses set
it, and every other provisional response falls through to the arm for unexpected
ones.  The watch remembers whether a provisional response has been processed in
the current transaction, and whether one of them fell through.
-/

namespace SlmodemSipBridge.Sip

open Rust Transition

/-- The statuses at which `invite` sets `got_provisional`. -/
def isHeeded (status : ℕ) : Bool := status = 100 ∨ status = 180 ∨ status = 183

/-- The status of a provisional response that passes the CSeq filter. -/
def provisionalFor (call : Call) (resp : Str) : Option ℕ :=
  (parseStatusCode resp).filter fun status =>
    100 ≤ status ∧ status < 200 ∧ isStale call.cseq resp = .ok false

/-- The provisional responses of a transaction: whether any was processed, and
whether any of them fell through. -/
structure Provisionals where
  processed : Bool
  unheeded : Bool

/-- A transaction without provisional responses. -/
def Provisionals.start : Provisionals := ⟨false, false⟩

/-- The record after a provisional response. -/
def Provisionals.add (p : Provisionals) (status : ℕ) : Provisionals :=
  ⟨true, p.unheeded || !isHeeded status⟩

/-- The record after an observation.  An INVITE that is no retransmission starts
a transaction. -/
def Provisionals.next (p : Provisionals) : SipShown → Provisionals
  | .read (some call) resp => (provisionalFor call resp).elim p p.add
  | .sent site (.invite _) => if site = .retransmit then p else .start
  | _ => p

/-- No INVITE is retransmitted after a provisional response. -/
def Provisionals.Allows (p : Provisionals) : SipShown → Prop
  | .sent .retransmit _ => p.processed = false
  | _ => True

instance Provisionals.decidableAllows (p : Provisionals) (o : SipShown) :
    Decidable (p.Allows o) := by
  unfold Provisionals.Allows
  split <;> infer_instance

/-- The watch over the provisional responses and the retransmissions. -/
def provisionalWatch : Monitor Provisionals SipShown where
  next := Provisionals.next
  allows := Provisionals.Allows

instance decidableProvisionalAllows (p : Provisionals) (o : SipShown) :
    Decidable (provisionalWatch.allows p o) :=
  inferInstanceAs (Decidable (p.Allows o))

/-- Along the trace, no INVITE is retransmitted between a provisional response
that passes the filter and the next transaction. -/
def StopsAtProvisional (trace : List SipShown) : Prop :=
  provisionalWatch.Accepts .start trace

instance decidableStopsAtProvisional (trace : List SipShown) :
    Decidable (StopsAtProvisional trace) := by
  unfold StopsAtProvisional
  infer_instance

/-- A head of the loop that retransmits comes in a transaction in which every
provisional response so far was a 100, a 180 or a 183. -/
def RetransmitsBeforeUnheeded : InviteState × Provisionals → InviteEvent → Prop
  | (.looping l, p), .head inputs =>
      l.Due inputs → inputs.sent = true → p.unheeded = false
  | _, _ => True

instance decidableRetransmitsBeforeUnheeded :
    ∀ w e, Decidable (RetransmitsBeforeUnheeded w e)
  | (.called _, _), _ => isTrue trivial
  | (.looping l, p), .head inputs =>
      inferInstanceAs
        (Decidable (l.Due inputs → inputs.sent = true → p.unheeded = false))
  | (.looping _, _), .start _ => isTrue trivial
  | (.looping _, _), .received _ _ => isTrue trivial
  | (.receiving _, _), _ => isTrue trivial
  | (.returned _, _), _ => isTrue trivial
  | (.panicked _, _), _ => isTrue trivial

/-! ## What the loop knows about the provisional responses -/

/-- A provisional response that was processed has set `got_provisional`, or it
fell through. -/
structure Heeded (l : InviteLoop) (p : Provisionals) : Prop where
  processed : p.processed = true → l.gotProvisional = true ∨ p.unheeded = true
  unheeded : p.unheeded = true → p.processed = true

/-- The state of `invite` agrees with the record. -/
def InviteState.Heeded : InviteState → Provisionals → Prop
  | .called _, p => p = .start
  | .looping l, p => Sip.Heeded l p
  | .receiving l, p => Sip.Heeded l p
  | _, _ => True

theorem heeded_start (l : InviteLoop) : Heeded l .start :=
  ⟨fun h => absurd h (by decide), fun h => absurd h (by decide)⟩

theorem provisionalFor_of_admitted {l : InviteLoop} {resp : Str} {status : ℕ}
    (h : Admitted l resp status) :
    provisionalFor l.call resp = if 100 ≤ status ∧ status < 200 then some status else none := by
  rw [provisionalFor, h.status_eq, Option.filter_some]
  simp [h.fresh]

theorem provisionalFor_of_stale {call : Call} {resp : Str}
    (h : isStale call.cseq resp = .ok true) : provisionalFor call resp = none := by
  rw [provisionalFor, Option.filter_eq_none_iff]
  simp [h]

theorem inviteHead_heeded {l : InviteLoop} {p : Provisionals} (hl : Heeded l p)
    (inputs : HeadInputs) {next : InviteState} {shown : List SipShown}
    (hout : HeadOutcome l inputs (next, shown)) :
    (provisionalWatch.Accepts p shown ↔
        RetransmitsBeforeUnheeded (.looping l, p) (.head inputs)) ∧
      next.Heeded (provisionalWatch.after p shown) := by
  have hbefore : shown = [] →
      RetransmitsBeforeUnheeded (.looping l, p) (.head inputs) := by
    rintro rfl hdue hsent
    exact absurd hsent (hout.not_sent hdue)
  cases hout with
  | exceeded why _ => exact ⟨iff_of_true trivial (hbefore rfl), trivial⟩
  | timedOut _ => exact ⟨iff_of_true trivial (hbefore rfl), trivial⟩
  | unsent _ _ => exact ⟨iff_of_true trivial (hbefore rfl), trivial⟩
  | quiet _ => exact ⟨iff_of_true trivial (hbefore rfl), hl.processed, hl.unheeded⟩
  | retransmitted hdue hsent =>
      have hquiet : l.gotProvisional = false := hdue.expired.1
      have hiff : p.processed = false ↔ p.unheeded = false := by
        constructor
        · intro hnone
          by_contra hsome
          have hprocessed := hl.unheeded (by simpa using hsome)
          simp [hnone] at hprocessed
        · intro hnone
          by_contra hsome
          rcases hl.processed (by simpa using hsome) with hgot | hunheeded
          · simp [hquiet] at hgot
          · simp [hnone] at hunheeded
      refine ⟨?_, hl.processed, hl.unheeded⟩
      constructor
      · rintro ⟨hnone, -⟩ _ _
        exact hiff.mp hnone
      · intro hguard
        exact ⟨hiff.mpr (hguard hdue hsent), trivial⟩

/-- A response that is admitted leaves the loop in agreement with the record,
unless it ends the loop. -/
theorem dispatch_heeded {client : SipClient} {l : InviteLoop} {p : Provisionals}
    (hl : Heeded l p) {resp : Str} {status : ℕ} {inputs : AnswerInputs}
    (hadmitted : Admitted l resp status) {next : InviteState} {shown : List SipShown}
    (hout : DispatchOutcome client (l.tagged resp) status resp inputs
      (.ok (next, shown))) :
    provisionalWatch.Accepts (p.next (.read (some l.call) resp)) shown ∧
      next.Heeded
        (provisionalWatch.after (p.next (.read (some l.call) resp)) shown) := by
  have hprovisional := provisionalFor_of_admitted hadmitted
  simp only [Provisionals.next, hprovisional]
  have hset : ∀ l' : InviteLoop, l'.gotProvisional = true →
      (status = 100 ∨ status = 180 ∨ status = 183) →
        Heeded l' (p.add status) := by
    intro l' hgot hstatus
    have hheeded : isHeeded status = true := by simpa [isHeeded] using hstatus
    refine ⟨fun _ => Or.inl hgot, fun _ => rfl⟩
  cases hout with
  | trying hstatus =>
      rw [if_pos (by omega)]
      exact ⟨trivial, hset _ rfl (by omega)⟩
  | ringing hstatus _ =>
      rw [if_pos (by omega)]
      exact ⟨trivial, hset _ rfl (by omega)⟩
  | earlyMedia _ _ _ => exact ⟨trivial, trivial⟩
  | answered _ => exact ⟨⟨trivial, trivial⟩, trivial⟩
  | rejected _ _ _ => exact ⟨⟨trivial, trivial⟩, trivial⟩
  | rejectedUnsent _ _ _ => exact ⟨trivial, trivial⟩
  | unexpected hstatus =>
      by_cases hrange : 100 ≤ status ∧ status < 200
      · rw [if_pos hrange]
        have hunheeded : (p.add status).unheeded = true := by
          simp [Provisionals.add, isHeeded, hstatus]
        exact ⟨trivial, fun _ => Or.inr hunheeded, fun _ => rfl⟩
      · rw [if_neg hrange]
        exact ⟨trivial, hl.processed, hl.unheeded⟩
  | challenged _ hauth hchallenge =>
      rw [if_neg (by omega)]
      cases hchallenge with
      | again _ => exact ⟨trivial, trivial⟩
      | unusable _ _ _ _ => exact ⟨trivial, trivial⟩
      | ackUnsent _ _ _ _ _ => exact ⟨trivial, trivial⟩
      | retryUnsent _ _ _ _ _ _ => exact ⟨⟨trivial, trivial⟩, trivial⟩
      | retried digest _ _ _ _ _ =>
          exact ⟨⟨trivial, trivial, trivial⟩, heeded_start _⟩

theorem response_heeded {client : SipClient} {l : InviteLoop} {p : Provisionals}
    (hl : Heeded l p) {resp : Str} {inputs : AnswerInputs} {next : InviteState}
    {shown : List SipShown}
    (hout : ResponseOutcome client l resp inputs (.ok (next, shown))) :
    provisionalWatch.Accepts (p.next (.read (some l.call) resp)) shown ∧
      next.Heeded
        (provisionalWatch.after (p.next (.read (some l.call) resp)) shown) := by
  cases hout with
  | unparsed hstatus =>
      have hnone : provisionalFor l.call resp = none := by simp [provisionalFor, hstatus]
      simp only [Provisionals.next, hnone]
      exact ⟨trivial, hl⟩
  | stale status hstatus hstale =>
      simp only [Provisionals.next, provisionalFor_of_stale hstale]
      exact ⟨trivial, hl⟩
  | admitted status _ hadmitted hdispatch => exact dispatch_heeded hl hadmitted hdispatch

theorem inviteStep_heeded (client : SipClient) (s : InviteState) (p : Provisionals)
    (e : InviteEvent) (s' : InviteState) (shown : List SipShown) (hs : s.Heeded p)
    (hstep : (inviteMachine client).step s e = some (s', shown)) :
    (provisionalWatch.Accepts p shown ↔ RetransmitsBeforeUnheeded (s, p) e) ∧
      (RetransmitsBeforeUnheeded (s, p) e →
        s'.Heeded (provisionalWatch.after p shown)) := by
  cases inviteStepped_of_step hstep with
  | start args ids =>
      have hstart : p = .start := hs
      subst hstart
      have hout := inviteStart_outcome client args ids
      generalize inviteStart client args ids = out at hout ⊢
      cases hout with
      | undialable why hdial => exact ⟨iff_of_true trivial trivial, fun _ => trivial⟩
      | unsent hsent => exact ⟨iff_of_true trivial trivial, fun _ => trivial⟩
      | overflowed _ _ =>
          exact ⟨iff_of_true ⟨trivial, trivial⟩ trivial, fun _ => trivial⟩
      | sent hsent _ =>
          exact ⟨iff_of_true ⟨trivial, trivial⟩ trivial, fun _ => heeded_start _⟩
  | head l inputs =>
      obtain ⟨hiff, hnext⟩ := inviteHead_heeded hs inputs (inviteHead_outcome l inputs)
      exact ⟨hiff, fun _ => hnext⟩
  | silent l inputs => exact ⟨iff_of_true trivial trivial, fun _ => hs⟩
  | response l data inputs next shown hresponse =>
      obtain ⟨haccepts, hnext⟩ := response_heeded hs hresponse
      exact ⟨iff_of_true ⟨trivial, haccepts⟩ trivial, fun _ => hnext⟩
  | crash l data inputs why hresponse =>
      exact ⟨iff_of_true ⟨trivial, trivial⟩ trivial, fun _ => trivial⟩

/-! ## Whole runs -/

/-- No INVITE is retransmitted after a provisional response of its transaction,
exactly when none is after one that is no 100, 180 or 183. -/
theorem invite_stopsAtProvisional_iff
    (client : SipClient) (args : InviteArgs) (events : List InviteEvent)
    (t : InviteState) (trace : List SipShown)
    (hrun : (inviteMachine client).run (.called args) events = some (t, trace)) :
    StopsAtProvisional trace ↔
      (provisionalWatch.watching (inviteMachine client)).Guarded RetransmitsBeforeUnheeded
        (.called args, .start) events :=
  provisionalWatch.accepts_watched_run_iff (R := InviteState.Heeded)
    (inviteStep_heeded client) rfl hrun

/-- A provisional response to the first INVITE. -/
def trunkTrying : Datagram :=
  datagramOf "SIP/2.0 100 Trying\r\nCall-ID: 10-2\r\nCSeq: 1 INVITE\r\n\r\n"
    (by decide +kernel)

/-- The timer of the first INVITE expires after a provisional response. -/
def expiredAfter (provisional : Datagram) : List InviteEvent :=
  [.start trunkStart, .head (headAt 0), .received (some provisional) answerInputs,
    .head (headAt timerAInitial)]

theorem invite_stopsAtProvisional_trying :
    ∃ t trace,
      (inviteMachine trunkClient).run (.called trunkArgs) (expiredAfter trunkTrying) =
          some (t, trace) ∧
        trace.length = 2 ∧ StopsAtProvisional trace := by
  have hlength :
      ((inviteMachine trunkClient).run (.called trunkArgs)
        (expiredAfter trunkTrying)).map (fun end_ => end_.2.length) = some 2 := by
    decide +kernel
  obtain ⟨⟨t, trace⟩, hrun, htwo⟩ := Option.map_eq_some_iff.mp hlength
  exact ⟨t, trace, hrun, htwo,
    (invite_stopsAtProvisional_iff trunkClient trunkArgs _ t trace hrun).mpr
      (by decide +kernel)⟩

/-- A provisional response that falls through. -/
def trunkForwarded : Datagram :=
  datagramOf "SIP/2.0 181 Call Is Being Forwarded\r\nCall-ID: 10-2\r\nCSeq: 1 INVITE\r\n\r\n"
    (by decide +kernel)

/-- After it the INVITE is retransmitted all the same. -/
theorem invite_stopsAtProvisional_forwarded :
    ∃ t trace,
      (inviteMachine trunkClient).run (.called trunkArgs)
          (expiredAfter trunkForwarded) = some (t, trace) ∧
        ¬ StopsAtProvisional trace := by
  have hrejected :
      ((inviteMachine trunkClient).run (.called trunkArgs)
        (expiredAfter trunkForwarded)).map
          (fun end_ => decide (StopsAtProvisional end_.2)) = some false := by
    decide +kernel
  obtain ⟨⟨t, trace⟩, hrun, hfalse⟩ := Option.map_eq_some_iff.mp hrejected
  exact ⟨t, trace, hrun, of_decide_eq_false hfalse⟩

end SlmodemSipBridge.Sip
