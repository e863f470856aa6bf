import SlmodemSipBridge.Support.Machine
import SlmodemSipBridge.Support.Rust

/-!
# Draining slmodemd during call setup

`drain_during_sip_setup`: while a setup future runs, audio from slmodemd is
read and dropped and silence is written.  The future is known by its result
alone.  An event is the branch of the `select!` that completes first, with the
write that follows.
-/

namespace SlmodemSipBridge.Bridge

open Rust Transition

/-- Interval between silence frames in milliseconds. -/
def silenceIntervalMs : ℕ := 20

/-- Safety limit on drain iterations. -/
def drainIterationsLimit : ℕ := 500

/-- The size of the buffer audio is drained into. -/
def drainBufferSize : ℕ := 2048

/-- A branch of the `select!`.  A read of `none` is an error, and one of no
bytes is the end of slmodemd's stream. -/
inductive DrainEvent (ρ : Type) where
  | setupDone (result : ρ)
  | slRead (read : Option (Chunk drainBufferSize))
  | silenceTick (written : Bool)

/-- The drain's own errors. -/
inductive DrainError where
  | closed
  | readFailed
  | silenceFailed
  deriving DecidableEq, Repr

/-- Where the drain is: in the `select!` of an iteration, returned with the
setup's result or an error of its own, or dead of a panic. -/
inductive Drain (ρ : Type) where
  | draining (iterations drainedBytes : ℕ)
  | returned (result : Except DrainError ρ)
  | panicked (why : Panic)

variable {ρ : Type}

/-- The head of the loop. -/
def drainHead (iterations drainedBytes : ℕ) : Drain ρ :=
  match assert (iterations < drainIterationsLimit)
      "drain loop exceeded 500 iterations — SIP setup stuck" with
  | .ok () => .draining (iterations + 1) drainedBytes
  | .error why => .panicked why

/-- The drain before its first event. -/
def drainStart : Drain ρ := drainHead 0 0

/-- A step of the drain, with the bytes it drops. -/
def drainStep : Drain ρ → DrainEvent ρ → Option (Drain ρ × List (List UInt8))
  | .draining _ _, .setupDone result => some (.returned (.ok result), [])
  | .draining iterations drainedBytes, .slRead read =>
      match read with
      | none => some (.returned (.error .readFailed), [])
      | some data =>
          if data.val = [] then some (.returned (.error .closed), [])
          else
            some (drainHead iterations (drainedBytes + data.val.length), [data.val])
  | .draining iterations drainedBytes, .silenceTick written =>
      if written then some (drainHead iterations drainedBytes, [])
      else some (.returned (.error .silenceFailed), [])
  | _, _ => none

/-- The drain as a machine. -/
def drainMachine : Machine (Drain ρ) (DrainEvent ρ) (List UInt8) where
  step := drainStep

/-! ## Setups that take their time -/

/-- A tick whose silence is written. -/
def DrainEvent.isTick : DrainEvent ρ → Bool
  | .silenceTick written => written
  | _ => false

/-- A read of some bytes. -/
def DrainEvent.isAudio : DrainEvent ρ → Bool
  | .slRead (some data) => !data.val.isEmpty
  | _ => false

/-- A legitimate setup: before it completes, at `done` milliseconds and within
the invite timeout, slmodemd sends audio and takes silence, one frame at each
interval. -/
structure SetupSchedule (inviteTimeoutMs : ℕ) (before : List (ℕ × DrainEvent ρ))
    (done : ℕ) : Prop where
  benign : ∀ e ∈ before, e.2.isTick = true ∨ e.2.isAudio = true
  ordered : (before.map Prod.fst).Pairwise (· ≤ ·)
  early : ∀ e ∈ before, e.1 ≤ done
  ticks : ∃ k, (before.filter fun e => e.2.isTick).map Prod.fst =
    (List.range k).map (silenceIntervalMs * ·) ∧ done ≤ silenceIntervalMs * k
  inTime : done ≤ inviteTimeoutMs

/-- The drain returns the setup's result, and no assertion fires before. -/
structure SetupSurvives (before : List (DrainEvent ρ)) (result : ρ) : Prop where
  returns : ∃ trace, drainMachine.run drainStart (before ++ [.setupDone result]) =
    some (.returned (.ok result), trace)
  alive : ∀ pre post why trace, before = pre ++ post →
    drainMachine.run drainStart pre ≠ some (.panicked why, trace)

theorem drainHead_eq_draining {iterations : ℕ} (drainedBytes : ℕ)
    (h : iterations < drainIterationsLimit) :
    (drainHead iterations drainedBytes : Drain ρ) =
      .draining (iterations + 1) drainedBytes := by
  simp [drainHead, h]

theorem drainHead_eq_panicked {iterations : ℕ} (drainedBytes : ℕ)
    (h : ¬ iterations < drainIterationsLimit) :
    ∃ why, (drainHead iterations drainedBytes : Drain ρ) = .panicked why := by
  simp [drainHead, h]

/-- A benign event takes the drain to the head of its next iteration. -/
theorem drainStep_benign {e : DrainEvent ρ}
    (he : e.isTick = true ∨ e.isAudio = true) (iterations drainedBytes : ℕ) :
    ∃ drained shown, drainMachine.step (.draining iterations drainedBytes) e =
      some (drainHead iterations drained, shown) := by
  cases e with
  | setupDone result => simp [DrainEvent.isTick, DrainEvent.isAudio] at he
  | slRead read =>
      cases read with
      | none => simp [DrainEvent.isTick, DrainEvent.isAudio] at he
      | some data =>
          have hdata : data.val ≠ [] := by
            simpa [DrainEvent.isTick, DrainEvent.isAudio] using he
          refine ⟨drainedBytes + data.val.length, [data.val], ?_⟩
          simp only [drainMachine, drainStep, if_neg hdata]
  | silenceTick written =>
      have hwritten : written = true := by
        simpa [DrainEvent.isTick, DrainEvent.isAudio] using he
      subst hwritten
      exact ⟨_, _, rfl⟩

/-- While iterations are left, benign events only use them up. -/
theorem run_benign {before : List (DrainEvent ρ)}
    (hbenign : ∀ e ∈ before, e.isTick = true ∨ e.isAudio = true)
    (iterations drainedBytes : ℕ)
    (hleft : iterations + before.length ≤ drainIterationsLimit) :
    ∃ drained trace, drainMachine.run (.draining iterations drainedBytes) before =
      some (.draining (iterations + before.length) drained, trace) := by
  induction before generalizing iterations drainedBytes with
  | nil => exact ⟨drainedBytes, [], rfl⟩
  | cons e before ih =>
      rw [List.length_cons] at hleft
      obtain ⟨drained, shown, hstep⟩ :=
        drainStep_benign (hbenign e List.mem_cons_self) iterations drainedBytes
      rw [drainHead_eq_draining drained (by omega)] at hstep
      obtain ⟨drained', trace, hrun⟩ := ih
        (fun e' he' => hbenign e' (List.mem_cons_of_mem e he'))
        (iterations + 1) drained (by omega)
      refine ⟨drained', shown ++ trace, ?_⟩
      have hcount : iterations + (e :: before).length =
          iterations + 1 + before.length := by
        rw [List.length_cons]
        omega
      rw [hcount]
      exact drainMachine.run_cons_of_step hstep hrun

/-- One benign event too many, and the assertion fires. -/
theorem run_exceeded {before : List (DrainEvent ρ)}
    (hbenign : ∀ e ∈ before, e.isTick = true ∨ e.isAudio = true)
    (iterations drainedBytes : ℕ) (hlive : iterations ≤ drainIterationsLimit)
    (hmany : drainIterationsLimit < iterations + before.length) :
    ∃ pre post why trace, before = pre ++ post ∧
      drainMachine.run (.draining iterations drainedBytes) pre =
        some (.panicked why, trace) := by
  induction before generalizing iterations drainedBytes with
  | nil =>
      rw [List.length_nil] at hmany
      omega
  | cons e before ih =>
      obtain ⟨drained, shown, hstep⟩ :=
        drainStep_benign (hbenign e List.mem_cons_self) iterations drainedBytes
      by_cases hhead : iterations < drainIterationsLimit
      · rw [drainHead_eq_draining drained hhead] at hstep
        obtain ⟨pre, post, why, trace, rfl, hrun⟩ := ih
          (fun e' he' => hbenign e' (List.mem_cons_of_mem e he'))
          (iterations + 1) drained hhead
          (by rw [List.length_cons] at hmany; omega)
        exact ⟨e :: pre, post, why, shown ++ trace, rfl,
          drainMachine.run_cons_of_step hstep hrun⟩
      · obtain ⟨why, hwhy⟩ := drainHead_eq_panicked (ρ := ρ) drained hhead
        rw [hwhy] at hstep
        exact ⟨[e], before, why, shown, rfl, drainMachine.run_of_step hstep⟩

/-- The drain returns what the setup returns exactly when fewer events than its
limit come first, whichever of the two kinds they are. -/
theorem setupSurvives_iff {before : List (DrainEvent ρ)}
    (hbenign : ∀ e ∈ before, e.isTick = true ∨ e.isAudio = true) (result : ρ) :
    SetupSurvives before result ↔ before.length < drainIterationsLimit := by
  have hstart : (drainStart : Drain ρ) = .draining 1 0 :=
    drainHead_eq_draining 0 (by decide)
  constructor
  · intro h
    by_contra hmany
    obtain ⟨pre, post, why, trace, hsplit, hrun⟩ :=
      run_exceeded hbenign 1 0 (by decide) (by omega)
    exact h.alive pre post why trace hsplit (hstart ▸ hrun)
  · intro hfew
    refine ⟨?_, ?_⟩
    · obtain ⟨drained, trace, hrun⟩ :=
        run_benign hbenign 1 0 (by omega)
      refine ⟨trace ++ [], ?_⟩
      rw [hstart, drainMachine.run_append_eq_some_iff]
      exact ⟨_, trace, [], hrun, rfl, rfl⟩
    · rintro pre post why trace rfl hpanic
      have hpre : ∀ e ∈ pre, e.isTick = true ∨ e.isAudio = true :=
        fun e he => hbenign e (List.mem_append_left post he)
      obtain ⟨drained, trace', hrun⟩ := run_benign hpre 1 0
        (by rw [List.length_append] at hfew; omega)
      rw [hstart, hrun] at hpanic
      simp at hpanic

/-! ## Legitimate setups -/

/-- A legitimate setup survives the drain exactly when fewer than 500 ticks and
reads come before it completes. -/
theorem drain_setupSurvives_iff (inviteTimeoutMs : ℕ)
    (before : List (ℕ × DrainEvent ρ)) (done : ℕ) (result : ρ)
    (hschedule : SetupSchedule inviteTimeoutMs before done) :
    SetupSurvives (before.map Prod.snd) result ↔
      before.length < drainIterationsLimit := by
  rw [setupSurvives_iff, List.length_map]
  intro e he
  obtain ⟨timed, htimed, rfl⟩ := List.mem_map.mp he
  exact hschedule.benign timed htimed

/-- The ticks alone use up the limit in ten seconds. -/
theorem not_setupSurvives_of_slow {inviteTimeoutMs : ℕ}
    {before : List (ℕ × DrainEvent ρ)} {done : ℕ} (result : ρ)
    (hschedule : SetupSchedule inviteTimeoutMs before done)
    (hslow : silenceIntervalMs * drainIterationsLimit ≤ done) :
    ¬ SetupSurvives (before.map Prod.snd) result := by
  obtain ⟨k, hticks, hdone⟩ := hschedule.ticks
  have hbenign : ∀ e ∈ before.map Prod.snd, e.isTick = true ∨ e.isAudio = true := by
    intro e he
    obtain ⟨timed, htimed, rfl⟩ := List.mem_map.mp he
    exact hschedule.benign timed htimed
  have hlength : k ≤ before.length := by
    have hcount := congrArg List.length hticks
    rw [List.length_map, List.length_map, List.length_range] at hcount
    rw [← hcount]
    exact List.length_filter_le _ before
  have hlimit : drainIterationsLimit ≤ k :=
    Nat.le_of_mul_le_mul_left (Nat.le_trans hslow hdone) (by decide : 0 < silenceIntervalMs)
  rw [setupSurvives_iff hbenign, List.length_map]
  omega

/-- The silence ticks of a setup without audio. -/
def ticksOnly (k : ℕ) : List (ℕ × DrainEvent ρ) :=
  (List.range k).map fun i => (silenceIntervalMs * i, .silenceTick true)

theorem ticksOnly_schedule {inviteTimeoutMs k : ℕ}
    (h : silenceIntervalMs * k ≤ inviteTimeoutMs) :
    SetupSchedule inviteTimeoutMs (ticksOnly k : List (ℕ × DrainEvent ρ))
      (silenceIntervalMs * k) := by
  have htimes : (ticksOnly k : List (ℕ × DrainEvent ρ)).map Prod.fst =
      (List.range k).map (silenceIntervalMs * ·) := by
    rw [ticksOnly, List.map_map]
    rfl
  have hmem : ∀ e ∈ (ticksOnly k : List (ℕ × DrainEvent ρ)),
      e.2.isTick = true ∧ e.1 ≤ silenceIntervalMs * k := by
    intro e he
    obtain ⟨i, hi, rfl⟩ := List.mem_map.mp he
    have hlt : i < k := List.mem_range.mp hi
    exact ⟨rfl, Nat.mul_le_mul_left _ (Nat.le_of_lt hlt)⟩
  refine
    { benign := fun e he => Or.inl (hmem e he).1
      ordered := ?_
      early := fun e he => (hmem e he).2
      ticks := ⟨k, ?_, Nat.le_refl _⟩
      inTime := h }
  · rw [htimes, List.pairwise_map]
    exact List.pairwise_lt_range.imp fun hlt => Nat.mul_le_mul_left _ (Nat.le_of_lt hlt)
  · rw [List.filter_eq_self.mpr fun e he => (hmem e he).1, htimes]

/-- A setup of two seconds. -/
theorem drain_setupSurvives_twoSeconds :
    SetupSurvives ((ticksOnly 100 : List (ℕ × DrainEvent ℕ)).map Prod.snd) 7 := by
  refine (drain_setupSurvives_iff 60000 (ticksOnly 100) 2000 7
    (ticksOnly_schedule (by decide))).mpr ?_
  rw [ticksOnly, List.length_map, List.length_range]
  decide

/-- A setup of eleven seconds, with an invite timeout of sixty, is aborted. -/
theorem drain_setupSurvives_elevenSeconds :
    SetupSchedule 60000 (ticksOnly 550 : List (ℕ × DrainEvent ℕ)) 11000 ∧
      ¬ SetupSurvives ((ticksOnly 550 : List (ℕ × DrainEvent ℕ)).map Prod.snd) 7 := by
  have hschedule : SetupSchedule 60000 (ticksOnly 550 : List (ℕ × DrainEvent ℕ)) 11000 :=
    ticksOnly_schedule (by decide)
  exact ⟨hschedule, not_setupSurvives_of_slow 7 hschedule (by decide)⟩

end SlmodemSipBridge.Bridge
