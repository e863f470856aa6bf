import SlmodemSipBridge.Bridge.Budget

/-!
# Calls do not depend on earlier calls

Whenever the bridge begins to wait for a dial command it has read nothing of it.  Between
two calls it keeps the number of calls and nothing else, and below the limit it does not
look at the number.  So a call goes as if it were the first, whatever happened before it.
-/

namespace SlmodemSipBridge.Bridge

open Rust Transition Media Rtp Sip

section Shift

variable {calls calls' : ℕ} (hcalls : calls < callsLimit) (hcalls' : calls' < callsLimit)
include hcalls hcalls'

theorem loopHead_congr : loopHead calls = loopHead calls' := by
  simp [loopHead, hcalls, hcalls']

theorem byeDone_congr : byeDone calls = byeDone calls' := by
  funext next
  cases next <;> simp only [byeDone, loopHead_congr hcalls hcalls']

theorem drainedTo_congr : drainedTo calls = drainedTo calls' := by
  funext session invite ackSent drain
  simp only [drainedTo, loopHead_congr hcalls hcalls']

theorem invitedTo_congr : invitedTo calls = invitedTo calls' := by
  funext session drain ackSent invite
  simp only [invitedTo, drainedTo_congr hcalls hcalls']

theorem dialledWith_congr : dialledWith calls = dialledWith calls' := by
  funext ds tail
  simp only [dialledWith, loopHead_congr hcalls hcalls']

/-- Below the limit no step looks at the call count. -/
theorem phaseStep_congr (config : Config) (phase : Phase) (e : BridgeEvent) :
    phaseStep config calls phase e = phaseStep config calls' phase e := by
  simp only [phaseStep, loopHead_congr hcalls hcalls', byeDone_congr hcalls hcalls',
    drainedTo_congr hcalls hcalls', invitedTo_congr hcalls hcalls']

end Shift

/-- The call count of a step. -/
theorem calls_le_of_step {config : Config} {b b' : BridgeState} {e : BridgeEvent}
    {shown : List BridgeShown} (h : (bridgeMachine config).step b e = some (b', shown)) :
    b.calls ≤ b'.calls ∧ b'.calls ≤ b.calls + 1 := by
  obtain ⟨calls, phase⟩ := b
  change bridgeStep config ⟨calls, phase⟩ e = some (b', shown) at h
  unfold bridgeStep at h
  split at h
  · split at h
    all_goals
      obtain ⟨rfl, -⟩ := Prod.mk.inj (Option.some.inj h)
      simp
  · split at h
    · contradiction
    · obtain ⟨rfl, -⟩ := Prod.mk.inj (Option.some.inj h)
      simp

/-- A step whose count stays below the limit can be taken at any other count that does. -/
theorem step_shift {config : Config} {n n' m : ℕ} {phase phase' : Phase} {e : BridgeEvent}
    {shown : List BridgeShown}
    (h : (bridgeMachine config).step ⟨n, phase⟩ e = some (⟨n', phase'⟩, shown))
    (hbelow : n' < callsLimit) (hroom : m + (n' - n) < callsLimit) :
    (bridgeMachine config).step ⟨m, phase⟩ e = some (⟨m + (n' - n), phase'⟩, shown) := by
  have hn : n < callsLimit := Nat.lt_of_le_of_lt (calls_le_of_step h).1 hbelow
  change bridgeStep config ⟨n, phase⟩ e = some (⟨n', phase'⟩, shown) at h
  change bridgeStep config ⟨m, phase⟩ e = _
  unfold bridgeStep at h ⊢
  split at h
  · next lineBuf e hphase =>
    subst hphase
    cases hwait : waitStep lineBuf e with
    | waiting lineBuf' =>
        simp only [hwait, Option.some.injEq, Prod.mk.injEq, BridgeState.mk.injEq] at h
        obtain ⟨⟨rfl, rfl⟩, rfl⟩ := h
        simp [hwait]
    | closed =>
        simp only [hwait, Option.some.injEq, Prod.mk.injEq, BridgeState.mk.injEq] at h
        obtain ⟨⟨rfl, rfl⟩, rfl⟩ := h
        simp [hwait]
    | dialled ds tail =>
        simp only [hwait, Option.some.injEq, Prod.mk.injEq, BridgeState.mk.injEq] at h
        obtain ⟨⟨rfl, rfl⟩, rfl⟩ := h
        have hone : n + 1 - n = 1 := by omega
        rw [hone] at hroom ⊢
        simp only [hwait, dialledWith_congr hroom hbelow]
  · next e _ _ hnot =>
    split at h
    · contradiction
    · next next acts hstep =>
      simp only [Option.some.injEq, Prod.mk.injEq, BridgeState.mk.injEq] at h
      obtain ⟨⟨rfl, rfl⟩, rfl⟩ := h
      rw [Nat.sub_self, Nat.add_zero] at hroom ⊢
      rw [phaseStep_congr hn hroom] at hstep
      simp only [hstep]

theorem run_shift {config : Config} {n n' m : ℕ} {phase phase' : Phase}
    {es : List BridgeEvent} {trace : List BridgeShown}
    (h : (bridgeMachine config).run ⟨n, phase⟩ es = some (⟨n', phase'⟩, trace))
    (hbelow : n' < callsLimit) (hroom : m + (n' - n) < callsLimit) :
    n ≤ n' ∧
      (bridgeMachine config).run ⟨m, phase⟩ es = some (⟨m + (n' - n), phase'⟩, trace) := by
  induction es generalizing n m phase trace with
  | nil =>
      obtain ⟨heq, rfl⟩ := (bridgeMachine config).run_nil_eq_some_iff.mp h
      obtain ⟨rfl, rfl⟩ := BridgeState.mk.inj heq
      simp
  | cons e es ih =>
      obtain ⟨⟨k, phase₁⟩, shown, later, hstep, hrest, rfl⟩ :=
        (bridgeMachine config).run_cons_eq_some_iff.mp h
      have hk : n ≤ k := (calls_le_of_step hstep).1
      -- The count at the end bounds the count after the step.
      have hle : k ≤ n' := by
        by_contra hlt
        have hzero : n' - k = 0 := by omega
        exact hlt (ih (m := 0) hrest (by omega)).1
      have hsum : m + (k - n) + (n' - k) = m + (n' - n) := by omega
      have hfirst := step_shift (m := m) hstep (by omega) (by omega)
      obtain ⟨-, hshifted⟩ := ih (m := m + (k - n)) hrest (by omega)
      rw [hsum] at hshifted
      exact ⟨by omega, (bridgeMachine config).run_cons_of_step hfirst hshifted⟩

/-! ## The wait -/

theorem Waits.empty {calls : ℕ} {next : BridgeNext} (h : Waits calls next)
    (hmem : .waiting ∈ next.2) : next.1 = .waiting [] := by
  rcases h with ⟨⟨hnone, -⟩, -⟩ | ⟨-, -, -, hwaiting⟩
  · have hle : 1 ≤ cost waitCost next.2 := le_cost_of_mem waitCost hmem
    omega
  · exact hwaiting

/-- Every wait for a dial command begins with an empty line. -/
theorem entered_empty {config : Config} {b b' : BridgeState} {e : BridgeEvent}
    {shown : List BridgeShown} (h : (bridgeMachine config).step b e = some (b', shown))
    (hmem : .waiting ∈ shown) : b'.phase = .waiting [] := by
  obtain ⟨calls, phase⟩ := b
  change bridgeStep config ⟨calls, phase⟩ e = some (b', shown) at h
  unfold bridgeStep at h
  split at h
  · split at h
    · obtain ⟨rfl, rfl⟩ := Prod.mk.inj (Option.some.inj h)
      exact absurd hmem List.not_mem_nil
    · obtain ⟨rfl, rfl⟩ := Prod.mk.inj (Option.some.inj h)
      exact (stopWith_waits calls _).empty hmem
    · next ds tail hwait =>
      obtain ⟨rfl, rfl⟩ := Prod.mk.inj (Option.some.inj h)
      change .waiting ∈ (dialledWith (calls + 1) ds tail).2 at hmem
      change (dialledWith (calls + 1) ds tail).1 = .waiting []
      unfold dialledWith at hmem ⊢
      revert hmem
      split
      · exact (loopHead_waits _).empty
      · split
        · exact (stopWith_waits calls _).empty
        · simp
  · split at h
    · contradiction
    · next next hstep =>
      obtain ⟨rfl, rfl⟩ := Prod.mk.inj (Option.some.inj h)
      exact (phaseStep_waits hstep).empty hmem

/-- Every wait for a dial command begins with an empty line; and two bridges that wait with
the same line, whatever they have been through, show the same in answer to the same
events, as long as neither comes to the call limit. -/
theorem bridge_callsIndependent (config : Config) :
    (∀ b e b' shown, (bridgeMachine config).step b e = some (b', shown) → .waiting ∈ shown →
      b'.phase = .waiting []) ∧
      ∀ before before' es n n' lineBuf shown shown' trace t,
        (bridgeMachine config).run bridgeStart before =
            some (⟨n, .waiting lineBuf⟩, shown) →
          (bridgeMachine config).run bridgeStart before' =
              some (⟨n', .waiting lineBuf⟩, shown') →
            (bridgeMachine config).run bridgeStart (before ++ es) = some (t, trace) →
              t.calls < callsLimit → n' + (t.calls - n) < callsLimit →
                ∃ later, trace = shown ++ later ∧
                  (bridgeMachine config).run bridgeStart (before' ++ es) =
                    some (⟨n' + (t.calls - n), t.phase⟩, shown' ++ later) := by
  constructor
  · exact fun b e b' shown h hmem => entered_empty h hmem
  · intro before before' es n n' lineBuf shown shown' trace t hbefore hbefore' hrun hbelow hroom
    obtain ⟨s, shown₁, later, hfirst, hrest, rfl⟩ :=
      (bridgeMachine config).run_append_eq_some_iff.mp hrun
    rw [hbefore, Option.some.injEq, Prod.mk.injEq] at hfirst
    obtain ⟨rfl, rfl⟩ := hfirst
    obtain ⟨-, hshifted⟩ := run_shift (m := n') hrest hbelow hroom
    exact ⟨later, rfl, (bridgeMachine config).run_append_of_run hbefore' hshifted⟩

/-- The bridge waits for a dial string, and has counted `n` calls. -/
def waitsAfter (n : ℕ) : Option (BridgeState × List BridgeShown) → Bool
  | some (⟨calls, .waiting []⟩, _) => calls == n
  | _ => false

theorem waitsAfter_iff {n : ℕ} {out : Option (BridgeState × List BridgeShown)} :
    waitsAfter n out = true ↔ ∃ shown, out = some (⟨n, .waiting []⟩, shown) := by
  unfold waitsAfter
  split
  · next calls shown => simp
  · next hnot =>
    refine iff_of_false (by simp) ?_
    rintro ⟨shown, rfl⟩
    exact hnot n shown rfl

/-- A second call goes as the first one did. -/
theorem bridge_callsIndependent_twice :
    ∃ t shown, (bridgeMachine trunkConfig).run bridgeStart
        (trunkWholeCall ++ trunkWholeCall.drop 3) = some (t, shown) ∧
      t.calls = 2 ∧ t.phase = .waiting [] := by
  obtain ⟨⟨hidle, hdone⟩, hwhole⟩ :
      (waitsAfter 0 ((bridgeMachine trunkConfig).run bridgeStart (trunkWholeCall.take 3)) = true ∧
        waitsAfter 1 ((bridgeMachine trunkConfig).run bridgeStart trunkWholeCall) = true) ∧
      waitsAfter 1 ((bridgeMachine trunkConfig).run bridgeStart
        (trunkWholeCall.take 3 ++ trunkWholeCall.drop 3)) = true := by
    decide +kernel
  obtain ⟨shown, hbefore⟩ := waitsAfter_iff.mp hidle
  obtain ⟨shown', hbefore'⟩ := waitsAfter_iff.mp hdone
  obtain ⟨trace, hrun⟩ := waitsAfter_iff.mp hwhole
  obtain ⟨later, -, hagain⟩ := (bridge_callsIndependent trunkConfig).2 _ _ _ _ _ _ _ _ _ _
    hbefore hbefore' hrun (by decide) (by decide)
  exact ⟨_, _, hagain, rfl, rfl⟩

end SlmodemSipBridge.Bridge
