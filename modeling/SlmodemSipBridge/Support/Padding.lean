import SlmodemSipBridge.Support.Machine

/-!
# Runs with further events put in

A list of events is padded when blocks of further events are put between those
of a run.  Which blocks may stand at a place depends on the state of the run
there and on the event taken last.  Where the blocks lead back to a related
state and show nothing that matters, the padded run goes the way of the other.
-/

namespace Transition

variable {σ ε ω υ : Type*}

/-- The second list is the first one, taken from the state `s` after the event
`last`, with blocks put in. -/
inductive Padded (m : Machine σ ε ω) (Pad : Option ε → σ → List ε → Prop) :
    Option ε → σ → List ε → List ε → Prop where
  | nil (last : Option ε) (s : σ) : Padded m Pad last s [] []
  | keep {last : Option ε} {s s' : σ} {e : ε} {es padded : List ε} {shown : List ω}
      (hstep : m.step s e = some (s', shown))
      (hrest : Padded m Pad (some e) s' es padded) :
      Padded m Pad last s (e :: es) (e :: padded)
  | pad {last : Option ε} {s : σ} {block es padded : List ε}
      (hblock : Pad last s block) (hrest : Padded m Pad last s es padded) :
      Padded m Pad last s es (block ++ padded)

/-- What follows a run is padded behind it. -/
theorem Padded.append_of_run {m : Machine σ ε ω} {Pad : Option ε → σ → List ε → Prop}
    {s t : σ} {es fs padded : List ε} {trace : List ω} (last : Option ε)
    (hrun : m.run s es = some (t, trace)) (h : ∀ last, Padded m Pad last t fs padded) :
    Padded m Pad last s (es ++ fs) (es ++ padded) := by
  induction es generalizing last s trace with
  | nil =>
      obtain ⟨rfl, -⟩ := m.run_nil_eq_some_iff.mp hrun
      exact h last
  | cons e es ih =>
      obtain ⟨s', shown, later, hstep, hrest, -⟩ := m.run_cons_eq_some_iff.mp hrun
      exact .keep hstep (ih (some e) hrest)

/-- A list is padded by nothing. -/
theorem Padded.refl {m : Machine σ ε ω} {Pad : Option ε → σ → List ε → Prop}
    {s t : σ} {es : List ε} {trace : List ω} (last : Option ε)
    (hrun : m.run s es = some (t, trace)) : Padded m Pad last s es es := by
  have hrest := Padded.append_of_run last hrun fun last => (.nil last t : Padded m Pad last t [] [])
  rwa [List.append_nil] at hrest

/-- The padded run exists, shows the same through the filter `f` and ends in a
related state.  `R` relates the state of a run after an event with that of the
padded run, in view of the events still to come there. -/
theorem Padded.run
    {m : Machine σ ε ω} {Pad : Option ε → σ → List ε → Prop}
    {R : Option ε → σ → σ → List ε → Prop} {f : ω → Option υ}
    (hkeep : ∀ last s t e s' shown later, R last s t (e :: later) →
      m.step s e = some (s', shown) →
        ∃ t' shown', m.step t e = some (t', shown') ∧
          shown'.filterMap f = shown.filterMap f ∧ R (some e) s' t' later)
    (hpad : ∀ last s t block later, R last s t (block ++ later) → Pad last s block →
      ∃ t' shown', m.run t block = some (t', shown') ∧
        shown'.filterMap f = [] ∧ R last s t' later)
    {last : Option ε} {s s' t : σ} {es padded : List ε} {trace : List ω}
    (h : Padded m Pad last s es padded) (hinit : R last s t padded)
    (hrun : m.run s es = some (s', trace)) :
    ∃ last' t' trace', m.run t padded = some (t', trace') ∧
      trace'.filterMap f = trace.filterMap f ∧ R last' s' t' [] := by
  induction h generalizing t trace with
  | nil last s =>
      obtain ⟨rfl, rfl⟩ := m.run_nil_eq_some_iff.mp hrun
      exact ⟨last, t, [], rfl, rfl, hinit⟩
  | @keep last s s₁ e es padded shown hstep hrest ih =>
      obtain ⟨s₂, shown₂, later, hs, hlater, rfl⟩ := m.run_cons_eq_some_iff.mp hrun
      rw [hstep] at hs
      simp only [Option.some.injEq, Prod.mk.injEq] at hs
      obtain ⟨rfl, rfl⟩ := hs
      obtain ⟨t₁, shown', ht, hshown, hR⟩ := hkeep last s t e s₁ shown padded hinit hstep
      obtain ⟨last', t', trace', hrun', htrace, hR'⟩ := ih hR hlater
      refine ⟨last', t', shown' ++ trace', ?_, ?_, hR'⟩
      · exact m.run_cons_of_step ht hrun'
      · rw [List.filterMap_append, List.filterMap_append, hshown, htrace]
  | @pad last s block es padded hblock hrest ih =>
      obtain ⟨t₁, shown', ht, hshown, hR⟩ := hpad last s t block padded hinit hblock
      obtain ⟨last', t', trace', hrun', htrace, hR'⟩ := ih hR hrun
      refine ⟨last', t', shown' ++ trace', ?_, ?_, hR'⟩
      · exact m.run_append_of_run ht hrun'
      · rw [List.filterMap_append, hshown, htrace, List.nil_append]

end Transition
