import Mathlib.Data.List.Basic
import Mathlib.Data.Option.Basic

/-!
# Machines driven by events, and monitors over what they show

A machine takes one event at a time.  An event that cannot happen in a state
has no step there, and a step may show a list of observations.  The file
supplies finite runs, invariants of runs, guards that every step of a run has
to meet, and monitors: automata over the observations, by which a property of
whole runs becomes a property of one step.

Nothing here depends on what the machine models.
-/

namespace Transition

/-- A deterministic machine with states `σ`, events `ε` and observations `ω`.
`step s e` is `none` when the event `e` cannot happen in the state `s`. -/
structure Machine (σ ε ω : Type*) where
  step : σ → ε → Option (σ × List ω)

namespace Machine

variable {σ ε ω μ : Type*} (m : Machine σ ε ω)

/-- Take the events in turn and collect what they show. -/
def run : σ → List ε → Option (σ × List ω)
  | s, [] => some (s, [])
  | s, e :: es =>
      match m.step s e with
      | none => none
      | some (s', shown) =>
          match run s' es with
          | none => none
          | some (t, later) => some (t, shown ++ later)

@[simp] theorem run_nil (s : σ) : m.run s [] = some (s, []) := rfl

theorem run_nil_eq_some_iff {s t : σ} {trace : List ω} :
    m.run s [] = some (t, trace) ↔ t = s ∧ trace = [] := by
  rw [run_nil, Option.some.injEq, Prod.mk.injEq]
  exact and_congr eq_comm eq_comm

theorem run_cons_eq_some_iff
    {s t : σ} {e : ε} {es : List ε} {trace : List ω} :
    m.run s (e :: es) = some (t, trace) ↔
      ∃ s' shown later, m.step s e = some (s', shown) ∧
        m.run s' es = some (t, later) ∧ trace = shown ++ later := by
  constructor
  · intro h
    simp only [run] at h
    cases hstep : m.step s e with
    | none => simp [hstep] at h
    | some next =>
        obtain ⟨s', shown⟩ := next
        cases hrest : m.run s' es with
        | none => simp [hstep, hrest] at h
        | some last =>
            obtain ⟨t', later⟩ := last
            simp only [hstep, hrest, Option.some.injEq, Prod.mk.injEq] at h
            obtain ⟨rfl, rfl⟩ := h
            exact ⟨s', shown, later, rfl, hrest, rfl⟩
  · rintro ⟨s', shown, later, hstep, hrest, rfl⟩
    simp [run, hstep, hrest]

theorem run_cons_of_step
    {s s' t : σ} {e : ε} {es : List ε} {shown later : List ω}
    (hstep : m.step s e = some (s', shown)) (hrest : m.run s' es = some (t, later)) :
    m.run s (e :: es) = some (t, shown ++ later) :=
  m.run_cons_eq_some_iff.mpr ⟨s', shown, later, hstep, hrest, rfl⟩

theorem run_of_step {s s' : σ} {e : ε} {shown : List ω}
    (hstep : m.step s e = some (s', shown)) : m.run s [e] = some (s', shown) := by
  simpa using m.run_cons_of_step hstep (m.run_nil s')

theorem run_append_eq_some_iff
    {s t : σ} {es fs : List ε} {trace : List ω} :
    m.run s (es ++ fs) = some (t, trace) ↔
      ∃ s' shown later, m.run s es = some (s', shown) ∧
        m.run s' fs = some (t, later) ∧ trace = shown ++ later := by
  induction es generalizing s trace with
  | nil =>
      constructor
      · intro h
        exact ⟨s, [], trace, rfl, h, rfl⟩
      · rintro ⟨s', shown, later, hrun, hrest, rfl⟩
        obtain ⟨rfl, rfl⟩ := m.run_nil_eq_some_iff.mp hrun
        simpa using hrest
  | cons e es ih =>
      simp only [List.cons_append, run_cons_eq_some_iff, ih]
      constructor
      · rintro ⟨s₁, o₁, later, hstep, ⟨s₂, o₂, o₃, hrun, hrest, rfl⟩, rfl⟩
        exact ⟨s₂, o₁ ++ o₂, o₃, ⟨s₁, o₁, o₂, hstep, hrun, rfl⟩, hrest,
          (List.append_assoc o₁ o₂ o₃).symm⟩
      · rintro ⟨s₂, o, o₃, ⟨s₁, o₁, o₂, hstep, hrun, rfl⟩, hrest, rfl⟩
        exact ⟨s₁, o₁, o₂ ++ o₃, hstep, ⟨s₂, o₂, o₃, hrun, hrest, rfl⟩,
          List.append_assoc o₁ o₂ o₃⟩

theorem run_append_of_run
    {s s' t : σ} {es fs : List ε} {shown later : List ω}
    (hrun : m.run s es = some (s', shown)) (hrest : m.run s' fs = some (t, later)) :
    m.run s (es ++ fs) = some (t, shown ++ later) :=
  m.run_append_eq_some_iff.mpr ⟨s', shown, later, hrun, hrest, rfl⟩

/-- A state in which no event can happen ends the run. -/
theorem run_of_halted {s t : σ} {es : List ε} {trace : List ω}
    (hhalt : ∀ e, m.step s e = none) (hrun : m.run s es = some (t, trace)) :
    t = s ∧ trace = [] := by
  cases es with
  | nil =>
      exact m.run_nil_eq_some_iff.mp hrun
  | cons e es =>
      obtain ⟨s', shown, later, hstep, -, -⟩ := m.run_cons_eq_some_iff.mp hrun
      rw [hhalt e] at hstep
      contradiction

/-- A run of one machine is a run of another that takes the same steps under
other names. -/
theorem run_map {τ δ ψ : Type*} (m' : Machine τ δ ψ) {f : σ → τ} {g : ε → δ} {h : ω → ψ}
    (hstep : ∀ s e s' shown, m.step s e = some (s', shown) →
      m'.step (f s) (g e) = some (f s', shown.map h))
    {s t : σ} {es : List ε} {trace : List ω} (hrun : m.run s es = some (t, trace)) :
    m'.run (f s) (es.map g) = some (f t, trace.map h) := by
  induction es generalizing s trace with
  | nil =>
      obtain ⟨rfl, rfl⟩ := m.run_nil_eq_some_iff.mp hrun
      rfl
  | cons e es ih =>
      obtain ⟨s', shown, later, hs, hrest, rfl⟩ := m.run_cons_eq_some_iff.mp hrun
      rw [List.map_append]
      exact m'.run_cons_of_step (hstep s e s' shown hs) (ih hrest)

/-- What holds of every state that has a step, and of the last state of a run,
holds of its first. -/
theorem first_of_run {L : σ → Prop}
    (hback : ∀ s e s' shown, m.step s e = some (s', shown) → L s)
    {s t : σ} {es : List ε} {trace : List ω} (hlast : L t)
    (hrun : m.run s es = some (t, trace)) : L s := by
  cases es with
  | nil =>
      obtain ⟨rfl, -⟩ := m.run_nil_eq_some_iff.mp hrun
      exact hlast
  | cons e es =>
      obtain ⟨s', shown, later, hstep, -, -⟩ := m.run_cons_eq_some_iff.mp hrun
      exact hback s e s' shown hstep

/-- What the last state of a run has and the first has not, a step of the run brings. -/
theorem entered_of_run {P : σ → Prop} {s t : σ} {es : List ε} {trace : List ω} (hfirst : ¬ P s)
    (hlast : P t) (hrun : m.run s es = some (t, trace)) :
    ∃ before e after u u' past shown, es = before ++ e :: after ∧
      m.run s before = some (u, past) ∧ m.step u e = some (u', shown) ∧ ¬ P u ∧ P u' := by
  induction es generalizing s trace with
  | nil =>
      obtain ⟨rfl, -⟩ := m.run_nil_eq_some_iff.mp hrun
      exact absurd hlast hfirst
  | cons e es ih =>
      obtain ⟨s', shown, later, hstep, hrest, -⟩ := m.run_cons_eq_some_iff.mp hrun
      by_cases hnext : P s'
      · exact ⟨[], e, es, s, s', [], shown, rfl, rfl, hstep, hfirst, hnext⟩
      · obtain ⟨before, e', after, u, u', past, shown', rfl, hbefore, hstep', hu, hu'⟩ :=
          ih hnext hrest
        exact ⟨e :: before, e', after, u, u', shown ++ past, shown', rfl,
          m.run_cons_of_step hstep hbefore, hstep', hu, hu'⟩

/-! ## Properties of every step -/

/-- Every step that the events `es` drive from `s` meets `P`. -/
def Every (P : σ → ε → σ → List ω → Prop) : σ → List ε → Prop
  | _, [] => True
  | s, e :: es =>
      ∀ s' shown, m.step s e = some (s', shown) → P s e s' shown ∧ Every P s' es

/-- Every step meets `G`, a condition on the state before the step and on its
event. -/
def Guarded (G : σ → ε → Prop) : σ → List ε → Prop :=
  m.Every fun s e _ _ => G s e

@[simp] theorem guarded_nil (G : σ → ε → Prop) (s : σ) : m.Guarded G s [] := trivial

theorem every_cons_of_step
    {P : σ → ε → σ → List ω → Prop} {s s' : σ} {e : ε} {es : List ε}
    {shown : List ω} (hstep : m.step s e = some (s', shown)) :
    m.Every P s (e :: es) ↔ P s e s' shown ∧ m.Every P s' es := by
  constructor
  · intro h
    exact h s' shown hstep
  · intro h t out ht
    rw [hstep] at ht
    simp only [Option.some.injEq, Prod.mk.injEq] at ht
    obtain ⟨rfl, rfl⟩ := ht
    exact h

theorem guarded_cons_of_step {G : σ → ε → Prop} {s s' : σ} {e : ε} {es : List ε}
    {shown : List ω} (hstep : m.step s e = some (s', shown)) :
    m.Guarded G s (e :: es) ↔ G s e ∧ m.Guarded G s' es :=
  m.every_cons_of_step hstep

instance decidableEvery {P : σ → ε → σ → List ω → Prop}
    [∀ s e s' shown, Decidable (P s e s' shown)] : ∀ s es, Decidable (m.Every P s es)
  | _, [] => isTrue trivial
  | s, e :: es =>
      match h : m.step s e with
      | none => isTrue fun s' shown hs => by simp [h] at hs
      | some (s', shown) =>
          have : Decidable (m.Every P s' es) := decidableEvery s' es
          decidable_of_iff (P s e s' shown ∧ m.Every P s' es)
            (m.every_cons_of_step h).symm

instance decidableGuarded {G : σ → ε → Prop} [∀ s e, Decidable (G s e)] (s : σ)
    (es : List ε) : Decidable (m.Guarded G s es) :=
  inferInstanceAs (Decidable (m.Every (fun s e _ _ => G s e) s es))

/-- Two properties that agree on the steps from an invariant agree along runs.
The invariant need only survive the steps that have them. -/
theorem every_congr {I : σ → Prop} {P Q : σ → ε → σ → List ω → Prop}
    (hstep : ∀ s e s' shown, I s → m.step s e = some (s', shown) →
      (P s e s' shown ↔ Q s e s' shown) ∧ (Q s e s' shown → I s'))
    {s : σ} (hinit : I s) (es : List ε) :
    m.Every P s es ↔ m.Every Q s es := by
  induction es generalizing s with
  | nil => exact Iff.rfl
  | cons e es ih =>
      apply forall₃_congr
      intro s' shown hs
      obtain ⟨hiff, hkeep⟩ := hstep s e s' shown hinit hs
      rw [hiff]
      exact and_congr_right fun hQ => ih (hkeep hQ)

/-- What every step with the property keeps, with the trace so far in view, the
run keeps. -/
theorem invariant_run {P : σ → ε → σ → List ω → Prop} {I : σ → List ω → Prop}
    (hstep : ∀ s before e s' shown, I s before → m.step s e = some (s', shown) →
      P s e s' shown → I s' (before ++ shown))
    {s t : σ} (before : List ω) {es : List ε} {trace : List ω}
    (hinit : I s before) (hevery : m.Every P s es)
    (hrun : m.run s es = some (t, trace)) : I t (before ++ trace) := by
  induction es generalizing s before trace with
  | nil =>
      obtain ⟨rfl, rfl⟩ := m.run_nil_eq_some_iff.mp hrun
      simpa using hinit
  | cons e es ih =>
      obtain ⟨s', shown, later, hs, hrest, rfl⟩ :=
        m.run_cons_eq_some_iff.mp hrun
      obtain ⟨hP, hlater⟩ := (m.every_cons_of_step hs).mp hevery
      rw [← List.append_assoc]
      exact ih (before ++ shown) (hstep s before e s' shown hinit hs hP) hlater hrest

/-- A property of all steps is a property of the steps of a run. -/
theorem every_of_forall {P : σ → ε → σ → List ω → Prop}
    (h : ∀ s e s' shown, P s e s' shown) (s : σ) (es : List ε) : m.Every P s es := by
  induction es generalizing s with
  | nil => exact trivial
  | cons e es ih =>
      intro s' shown hs
      exact ⟨h s e s' shown, ih s'⟩

/-- What every step keeps, with the trace so far in view, the run keeps. -/
theorem trace_invariant {I : σ → List ω → Prop}
    (hstep : ∀ s before e s' shown, I s before → m.step s e = some (s', shown) →
      I s' (before ++ shown))
    {s t : σ} {es : List ε} {trace : List ω}
    (hinit : I s []) (hrun : m.run s es = some (t, trace)) : I t trace := by
  have hevery : m.Every (fun _ _ _ _ => True) s es :=
    m.every_of_forall (fun _ _ _ _ => trivial) s es
  refine m.invariant_run ?_ [] hinit hevery hrun
  intro s before e s' shown hinv hs _
  exact hstep s before e s' shown hinv hs

/-- What every step keeps holds where a run ends. -/
theorem invariant_of_step {I : σ → Prop}
    (hstep : ∀ s e s' shown, I s → m.step s e = some (s', shown) → I s')
    {s t : σ} {es : List ε} {trace : List ω}
    (hinit : I s) (hrun : m.run s es = some (t, trace)) : I t :=
  m.trace_invariant (I := fun s _ => I s)
    (fun s _ e s' shown hs hstep' => hstep s e s' shown hs hstep') hinit hrun

/-- From a state with the invariant, what every such step shows the run shows. -/
theorem forall_mem_shown {I : σ → Prop} {P : ω → Prop}
    (hstep : ∀ s e s' shown, I s → m.step s e = some (s', shown) →
      (∀ o ∈ shown, P o) ∧ I s')
    {s t : σ} {es : List ε} {trace : List ω}
    (hinit : I s) (hrun : m.run s es = some (t, trace)) : (∀ o ∈ trace, P o) ∧ I t := by
  refine m.trace_invariant (I := fun s trace => (∀ o ∈ trace, P o) ∧ I s) ?_ ⟨by simp, hinit⟩ hrun
  rintro s before e s' shown ⟨hbefore, hs⟩ hstep'
  obtain ⟨hshown, hs'⟩ := hstep s e s' shown hs hstep'
  exact ⟨List.forall_mem_append.mpr ⟨hbefore, hshown⟩, hs'⟩

/-- A view of the trace is made of the events alone, if that of each step is. -/
theorem view_of_run {κ : Type*} {I : σ → Prop} {view : List ω → List κ} {part : ε → List κ}
    (hnil : view [] = []) (happend : ∀ xs ys, view (xs ++ ys) = view xs ++ view ys)
    (hstep : ∀ s e s' shown, I s → m.step s e = some (s', shown) →
      view shown = part e ∧ I s')
    {s t : σ} {es : List ε} {trace : List ω}
    (hinit : I s) (hrun : m.run s es = some (t, trace)) : view trace = es.flatMap part := by
  induction es generalizing s trace with
  | nil =>
      obtain ⟨-, rfl⟩ := m.run_nil_eq_some_iff.mp hrun
      exact hnil
  | cons e es ih =>
      obtain ⟨s', shown, later, hs, hrest, rfl⟩ := m.run_cons_eq_some_iff.mp hrun
      obtain ⟨hshown, hs'⟩ := hstep s e s' shown hinit hs
      rw [happend, hshown, ih hs' hrest, List.flatMap_cons]

/-- A property of all events of a list guards the steps that they drive. -/
theorem guarded_of_forall_mem {P : ε → Prop} {es : List ε} (h : ∀ e ∈ es, P e)
    (s : σ) : m.Guarded (fun _ e => P e) s es := by
  induction es generalizing s with
  | nil => exact trivial
  | cons e es ih =>
      intro s' shown hs
      exact ⟨h e List.mem_cons_self, ih (fun e' he' => h e' (List.mem_cons_of_mem e he')) s'⟩

/-- Events that meet a guard in every state. -/
theorem guarded_of_forall {G : σ → ε → Prop} {es : List ε} (h : ∀ e ∈ es, ∀ s, G s e) (s : σ) :
    m.Guarded G s es := by
  induction es generalizing s with
  | nil => exact trivial
  | cons e es ih =>
      rw [List.forall_mem_cons] at h
      intro s' shown hs
      exact ⟨h.1 s, ih h.2 s'⟩

/-- A guard of a run that goes on is one of both its parts. -/
theorem guarded_append {G : σ → ε → Prop} {s t : σ} {es fs : List ε} {trace : List ω}
    (hrun : m.run s es = some (t, trace)) :
    m.Guarded G s (es ++ fs) ↔ m.Guarded G s es ∧ m.Guarded G t fs := by
  induction es generalizing s trace with
  | nil =>
      obtain ⟨rfl, -⟩ := m.run_nil_eq_some_iff.mp hrun
      exact (and_iff_right trivial).symm
  | cons e es ih =>
      obtain ⟨s', shown, later, hs, hrest, -⟩ := m.run_cons_eq_some_iff.mp hrun
      rw [List.cons_append, m.guarded_cons_of_step hs, m.guarded_cons_of_step hs, ih hrest,
        and_assoc]

/-- Steps that meet two guards meet both at once. -/
theorem guarded_and {G H : σ → ε → Prop} {s : σ} {es : List ε} (hG : m.Guarded G s es)
    (hH : m.Guarded H s es) : m.Guarded (fun s e => G s e ∧ H s e) s es := by
  induction es generalizing s with
  | nil => exact trivial
  | cons e es ih =>
      intro s' shown hs
      obtain ⟨hfirst, hlater⟩ := hG s' shown hs
      obtain ⟨hfirst', hlater'⟩ := hH s' shown hs
      exact ⟨⟨hfirst, hfirst'⟩, ih hlater hlater'⟩

/-! ## Stamps -/

/-- The machine whose events bring a stamp for what they show. -/
def stamped (τ : Type*) : Machine σ (ε × τ) (ω × τ) where
  step s e := (m.step s e.1).map fun out => (out.1, out.2.map fun o => (o, e.2))

theorem stamped_step_eq_some_iff {τ : Type*} {s s' : σ} {e : ε × τ}
    {shown : List (ω × τ)} :
    (m.stamped τ).step s e = some (s', shown) ↔
      ∃ out, m.step s e.1 = some (s', out) ∧ shown = out.map fun o => (o, e.2) := by
  simp only [stamped, Option.map_eq_some_iff, Prod.mk.injEq]
  constructor
  · rintro ⟨⟨t, out⟩, hstep, rfl, rfl⟩
    exact ⟨out, hstep, rfl⟩
  · rintro ⟨out, hstep, rfl⟩
    exact ⟨(s', out), hstep, rfl, rfl⟩

end Machine

/-! ## Monitors -/

/-- An automaton that reads the observations of a run: `next` is its state
after an observation, `allows` what it lets pass. -/
structure Monitor (μ ω : Type*) where
  next : μ → ω → μ
  allows : μ → ω → Prop

namespace Monitor

variable {σ ε ω μ : Type*} (w : Monitor μ ω)

/-- The monitor's state after a list of observations. -/
def after (q : μ) (trace : List ω) : μ := trace.foldl w.next q

/-- The monitor lets every observation of the list pass. -/
def Accepts : μ → List ω → Prop
  | _, [] => True
  | q, o :: os => w.allows q o ∧ Accepts (w.next q o) os

instance decidableAccepts [∀ q o, Decidable (w.allows q o)] :
    ∀ q trace, Decidable (w.Accepts q trace)
  | _, [] => isTrue trivial
  | q, o :: os =>
      have : Decidable (w.Accepts (w.next q o) os) := decidableAccepts (w.next q o) os
      inferInstanceAs (Decidable (w.allows q o ∧ w.Accepts (w.next q o) os))

@[simp] theorem after_nil (q : μ) : w.after q [] = q := rfl

@[simp] theorem after_cons (q : μ) (o : ω) (os : List ω) :
    w.after q (o :: os) = w.after (w.next q o) os := rfl

@[simp] theorem after_append (q : μ) (os ps : List ω) :
    w.after q (os ++ ps) = w.after (w.after q os) ps := by
  simp [after]

@[simp] theorem accepts_nil (q : μ) : w.Accepts q [] := trivial

@[simp] theorem accepts_cons (q : μ) (o : ω) (os : List ω) :
    w.Accepts q (o :: os) ↔ w.allows q o ∧ w.Accepts (w.next q o) os :=
  Iff.rfl

@[simp] theorem accepts_append (q : μ) (os ps : List ω) :
    w.Accepts q (os ++ ps) ↔
      w.Accepts q os ∧ w.Accepts (w.after q os) ps := by
  induction os generalizing q with
  | nil => simp
  | cons o os ih => simp [ih, and_assoc]

/-- Observations that a state lets pass and that keep it. -/
theorem accepts_of_kept {q : μ} {os : List ω} (h : ∀ o ∈ os, w.allows q o ∧ w.next q o = q) :
    w.Accepts q os ∧ w.after q os = q := by
  induction os with
  | nil => exact ⟨trivial, rfl⟩
  | cons o os ih =>
      rw [List.forall_mem_cons] at h
      obtain ⟨haccepts, hafter⟩ := ih h.2
      rw [w.accepts_cons, w.after_cons, h.1.2]
      exact ⟨⟨h.1.1, haccepts⟩, hafter⟩

/-- Each observation of an accepted list was allowed when it came. -/
theorem allows_of_accepts {q : μ} {before after : List ω} {o : ω}
    (h : w.Accepts q (before ++ o :: after)) : w.allows (w.after q before) o :=
  ((w.accepts_append q before _).mp h).2.1

/-- A list is accepted if each observation of it is allowed when it comes. -/
theorem accepts_of_allows {q : μ} {trace : List ω}
    (h : ∀ before o after, trace = before ++ o :: after → w.allows (w.after q before) o) :
    w.Accepts q trace := by
  induction trace generalizing q with
  | nil => exact trivial
  | cons o trace ih =>
      refine ⟨h [] o trace rfl, ih fun before o' after heq => ?_⟩
      exact h (o :: before) o' after (congrArg (List.cons o) heq)

/-- An observation that the monitor lets pass and forgets. -/
def Ignores (o : ω) : Prop := ∀ q, w.allows q o ∧ w.next q o = q

theorem accepts_of_ignored {os : List ω} (h : ∀ o ∈ os, w.Ignores o) (q : μ) :
    w.Accepts q os ∧ w.after q os = q := by
  induction os with
  | nil => exact ⟨trivial, rfl⟩
  | cons o os ih =>
      obtain ⟨hallows, hnext⟩ := h o List.mem_cons_self q
      obtain ⟨haccepts, hafter⟩ := ih fun o' ho' => h o' (List.mem_cons_of_mem o ho')
      rw [w.accepts_cons, w.after_cons, hnext]
      exact ⟨⟨hallows, haccepts⟩, hafter⟩

/-- What follows ignored observations is judged as if they were not there. -/
theorem ignored_append {os : List ω} (h : ∀ o ∈ os, w.Ignores o) (q : μ)
    (rest : List ω) :
    (w.Accepts q (os ++ rest) ↔ w.Accepts q rest) ∧
      w.after q (os ++ rest) = w.after q rest := by
  obtain ⟨haccepts, hafter⟩ := w.accepts_of_ignored h q
  rw [w.accepts_append, w.after_append, hafter]
  exact ⟨and_iff_right haccepts, rfl⟩

/-- The monitor accepts a run that ends in a state with `L` exactly when every
step of it meets the guard `G`, provided that one step between related states
with `L` does so. -/
theorem accepts_surviving_run_iff
    {m : Machine σ ε ω} {L : σ → Prop} {R : σ → μ → Prop} {G : σ → ε → Prop}
    (hback : ∀ s e s' shown, m.step s e = some (s', shown) → L s)
    (hstep : ∀ s q e s' shown, R s q → m.step s e = some (s', shown) → L s' →
      (w.Accepts q shown ↔ G s e) ∧ (G s e → R s' (w.after q shown)))
    {s t : σ} {q : μ} {es : List ε} {trace : List ω}
    (hinit : R s q) (hlast : L t) (hrun : m.run s es = some (t, trace)) :
    w.Accepts q trace ↔ m.Guarded G s es := by
  induction es generalizing s q trace with
  | nil =>
      obtain ⟨rfl, rfl⟩ := m.run_nil_eq_some_iff.mp hrun
      simp
  | cons e es ih =>
      obtain ⟨s', shown, later, hs, hrest, rfl⟩ :=
        m.run_cons_eq_some_iff.mp hrun
      have hlive : L s' := m.first_of_run hback hlast hrest
      obtain ⟨hiff, hkeep⟩ := hstep s q e s' shown hinit hs hlive
      rw [w.accepts_append, m.guarded_cons_of_step hs, hiff]
      constructor
      · rintro ⟨hG, hlater⟩
        exact ⟨hG, (ih (hkeep hG) hrest).mp hlater⟩
      · rintro ⟨hG, hlater⟩
        exact ⟨hG, (ih (hkeep hG) hrest).mpr hlater⟩

/-- The monitor accepts a run exactly when every step of it meets the guard
`G`, provided that one step from related states does so. -/
theorem accepts_run_iff
    {m : Machine σ ε ω} {R : σ → μ → Prop} {G : σ → ε → Prop}
    (hstep : ∀ s q e s' shown, R s q → m.step s e = some (s', shown) →
      (w.Accepts q shown ↔ G s e) ∧ (G s e → R s' (w.after q shown)))
    {s t : σ} {q : μ} {es : List ε} {trace : List ω}
    (hinit : R s q) (hrun : m.run s es = some (t, trace)) :
    w.Accepts q trace ↔ m.Guarded G s es :=
  w.accepts_surviving_run_iff (L := fun _ => True) (fun _ _ _ _ _ => trivial)
    (fun s q e s' shown hs hstep' _ => hstep s q e s' shown hs hstep') hinit trivial hrun

/-- The machine together with the monitor's state. -/
def watching (m : Machine σ ε ω) : Machine (σ × μ) ε ω where
  step s e := (m.step s.1 e).map fun out => ((out.1, w.after s.2 out.2), out.2)

theorem watching_step_eq_some_iff {m : Machine σ ε ω} {s s' : σ × μ} {e : ε}
    {shown : List ω} :
    (w.watching m).step s e = some (s', shown) ↔
      m.step s.1 e = some (s'.1, shown) ∧ s'.2 = w.after s.2 shown := by
  simp only [watching, Option.map_eq_some_iff, Prod.mk.injEq]
  constructor
  · rintro ⟨⟨t, out⟩, hstep, rfl, rfl⟩
    exact ⟨hstep, rfl⟩
  · rintro ⟨hstep, hafter⟩
    exact ⟨(s'.1, shown), hstep, Prod.ext rfl hafter.symm, rfl⟩

/-- The monitor follows the machine without holding it up. -/
theorem watching_run {m : Machine σ ε ω} {s t : σ} {es : List ε} {trace : List ω}
    (hrun : m.run s es = some (t, trace)) (q : μ) :
    (w.watching m).run (s, q) es = some ((t, w.after q trace), trace) := by
  induction es generalizing s q trace with
  | nil =>
      obtain ⟨rfl, rfl⟩ := m.run_nil_eq_some_iff.mp hrun
      rfl
  | cons e es ih =>
      obtain ⟨s', shown, later, hs, hrest, rfl⟩ :=
        m.run_cons_eq_some_iff.mp hrun
      rw [w.after_append, Machine.run_cons_eq_some_iff]
      exact ⟨(s', w.after q shown), shown, later,
        w.watching_step_eq_some_iff.mpr ⟨hs, rfl⟩, ih hrest (w.after q shown), rfl⟩

/-- The monitor accepts a run that ends in a state with `L` exactly when every
step of it meets the guard `G`, which may look at the monitor's state too. -/
theorem accepts_watched_surviving_run_iff
    {m : Machine σ ε ω} {L : σ → Prop} {R : σ → μ → Prop} {G : σ × μ → ε → Prop}
    (hback : ∀ s e s' shown, m.step s e = some (s', shown) → L s)
    (hstep : ∀ s q e s' shown, R s q → m.step s e = some (s', shown) → L s' →
      (w.Accepts q shown ↔ G (s, q) e) ∧ (G (s, q) e → R s' (w.after q shown)))
    {s t : σ} {q : μ} {es : List ε} {trace : List ω}
    (hinit : R s q) (hlast : L t) (hrun : m.run s es = some (t, trace)) :
    w.Accepts q trace ↔ (w.watching m).Guarded G (s, q) es := by
  refine w.accepts_surviving_run_iff (m := w.watching m)
    (L := fun watched => L watched.1) (R := fun watched q => R watched.1 q ∧ watched.2 = q)
    ?_ ?_ ⟨hinit, rfl⟩ hlast (w.watching_run hrun q)
  · intro s e s' shown hs
    exact hback s.1 e s'.1 shown (w.watching_step_eq_some_iff.mp hs).1
  · rintro ⟨s, q⟩ _ e ⟨s', q'⟩ shown ⟨hrelated, rfl⟩ hs hlive
    obtain ⟨hinner, hafter⟩ := w.watching_step_eq_some_iff.mp hs
    obtain ⟨hiff, hkeep⟩ := hstep s q e s' shown hrelated hinner hlive
    exact ⟨hiff, fun hG => ⟨hkeep hG, hafter⟩⟩

/-- The monitor accepts a run exactly when every step of it meets the guard `G`,
which may look at the monitor's state too. -/
theorem accepts_watched_run_iff
    {m : Machine σ ε ω} {R : σ → μ → Prop} {G : σ × μ → ε → Prop}
    (hstep : ∀ s q e s' shown, R s q → m.step s e = some (s', shown) →
      (w.Accepts q shown ↔ G (s, q) e) ∧ (G (s, q) e → R s' (w.after q shown)))
    {s t : σ} {q : μ} {es : List ε} {trace : List ω}
    (hinit : R s q) (hrun : m.run s es = some (t, trace)) :
    w.Accepts q trace ↔ (w.watching m).Guarded G (s, q) es :=
  w.accepts_watched_surviving_run_iff (L := fun _ => True) (fun _ _ _ _ _ => trivial)
    (fun s q e s' shown hs hstep' _ => hstep s q e s' shown hs hstep') hinit trivial hrun

/-- The monitor accepts a run whose steps have a property, provided that a step
with the property from related states is accepted and leads to related states. -/
theorem accepts_of_run
    {m : Machine σ ε ω} {R : σ → μ → Prop} {P : σ → ε → σ → List ω → Prop}
    (hstep : ∀ s q e s' shown, R s q → m.step s e = some (s', shown) → P s e s' shown →
      w.Accepts q shown ∧ R s' (w.after q shown))
    {s t : σ} {q : μ} {es : List ε} {trace : List ω}
    (hinit : R s q) (hevery : m.Every P s es) (hrun : m.run s es = some (t, trace)) :
    w.Accepts q trace ∧ R t (w.after q trace) := by
  have hkept := m.invariant_run
    (I := fun s before => w.Accepts q before ∧ R s (w.after q before)) ?_ []
    ⟨trivial, hinit⟩ hevery hrun
  · simpa using hkept
  · rintro s before e s' shown ⟨haccepts, hrelated⟩ hs hP
    obtain ⟨hshown, hnext⟩ := hstep s _ e s' shown hrelated hs hP
    rw [w.accepts_append, w.after_append]
    exact ⟨⟨haccepts, hshown⟩, hnext⟩

/-- The monitor accepts every run, provided that it accepts a step from related
states, and that the step leads to related states. -/
theorem accepts_run
    {m : Machine σ ε ω} {R : σ → μ → Prop}
    (hstep : ∀ s q e s' shown, R s q → m.step s e = some (s', shown) →
      w.Accepts q shown ∧ R s' (w.after q shown))
    {s t : σ} {q : μ} {es : List ε} {trace : List ω}
    (hinit : R s q) (hrun : m.run s es = some (t, trace)) :
    w.Accepts q trace ∧ R t (w.after q trace) :=
  w.accepts_of_run (P := fun _ _ _ _ => True)
    (fun s q e s' shown hs hstep' _ => hstep s q e s' shown hs hstep') hinit
    (m.every_of_forall (fun _ _ _ _ => trivial) s es) hrun

/-- What a monitor accepts another one accepts, if it allows what the first one allows,
from related states to related states. -/
theorem accepts_of_simulates {ν : Type*} {v : Monitor ν ω} {R : μ → ν → Prop} {P : ω → Prop}
    (hstep : ∀ q r o, R q r → P o → w.allows q o →
      v.allows r o ∧ R (w.next q o) (v.next r o))
    {q : μ} {r : ν} (hinit : R q r) {trace : List ω} (htrace : ∀ o ∈ trace, P o)
    (haccepts : w.Accepts q trace) : v.Accepts r trace := by
  induction trace generalizing q r with
  | nil => exact trivial
  | cons o trace ih =>
      rw [List.forall_mem_cons] at htrace
      obtain ⟨hallows, hrelated⟩ := hstep q r o hinit htrace.1 haccepts.1
      exact ⟨hallows, ih hrelated htrace.2 haccepts.2⟩

/-- The monitor accepts a run and ends it in a state with `F` exactly when every
step meets the guard `G`, provided that a step that does not meet it is refused
at once or leads to a doomed state, from which the run does not recover. -/
theorem settles_run_iff
    {m : Machine σ ε ω} {R D : σ → μ → Prop} {F : μ → Prop} {G : σ → ε → Prop}
    (hstep : ∀ s q e s' shown, R s q → m.step s e = some (s', shown) →
      (G s e → w.Accepts q shown ∧ R s' (w.after q shown)) ∧
        (¬ G s e → w.Accepts q shown → D s' (w.after q shown)))
    (hdoomed : ∀ s q e s' shown, D s q → m.step s e = some (s', shown) →
      w.Accepts q shown → D s' (w.after q shown))
    (hR : ∀ s q, R s q → F q) (hD : ∀ s q, D s q → ¬ F q)
    {s t : σ} {q : μ} {es : List ε} {trace : List ω}
    (hinit : R s q) (hrun : m.run s es = some (t, trace)) :
    (w.Accepts q trace ∧ F (w.after q trace)) ↔ m.Guarded G s es := by
  have hlost : ∀ {s t : σ} {q : μ} {es : List ε} {trace : List ω}, D s q →
      m.run s es = some (t, trace) → w.Accepts q trace → D t (w.after q trace) := by
    intro s t q es
    induction es generalizing s q with
    | nil =>
        intro trace hs hrun _
        obtain ⟨rfl, rfl⟩ := m.run_nil_eq_some_iff.mp hrun
        exact hs
    | cons e es ih =>
        intro trace hs hrun haccepts
        obtain ⟨s', shown, later, hstep', hrest, rfl⟩ :=
          m.run_cons_eq_some_iff.mp hrun
        rw [w.accepts_append] at haccepts
        rw [w.after_append]
        exact ih (hdoomed s q e s' shown hs hstep' haccepts.1) hrest haccepts.2
  induction es generalizing s q trace with
  | nil =>
      obtain ⟨rfl, rfl⟩ := m.run_nil_eq_some_iff.mp hrun
      exact iff_of_true ⟨trivial, hR _ q hinit⟩ trivial
  | cons e es ih =>
      obtain ⟨s', shown, later, hs, hrest, rfl⟩ :=
        m.run_cons_eq_some_iff.mp hrun
      obtain ⟨hgood, hbad⟩ := hstep s q e s' shown hinit hs
      rw [w.accepts_append, w.after_append, m.guarded_cons_of_step hs]
      by_cases hG : G s e
      · obtain ⟨haccepts, hrelated⟩ := hgood hG
        constructor
        · rintro ⟨⟨-, hlater⟩, hfinal⟩
          exact ⟨hG, (ih hrelated hrest).mp ⟨hlater, hfinal⟩⟩
        · rintro ⟨-, hguarded⟩
          obtain ⟨hlater, hfinal⟩ := (ih hrelated hrest).mpr hguarded
          exact ⟨⟨haccepts, hlater⟩, hfinal⟩
      · refine iff_of_false ?_ fun h => hG h.1
        rintro ⟨⟨haccepts, hlater⟩, hfinal⟩
        exact hD t _ (hlost (hbad hG haccepts) hrest hlater) hfinal

end Monitor

end Transition
