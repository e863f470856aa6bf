import SlmodemSipBridge.Support.Machine

/-!
# Two machines side by side

The interleaving of two machines that share nothing: an event of one leaves the
state of the other as it is.  A run of the pair is a run of each machine on its
own events, and every interleaving of the same two runs ends in the same states
and shows the same on either side.

The file also supplies the converse of `run_map`: a run of a host that does not
end dead is the image of a run of what it hosts.
-/

namespace Transition

section Sides

variable {α β : Type*}

/-- The members of the left side, in order. -/
def lefts (xs : List (α ⊕ β)) : List α := xs.filterMap Sum.getLeft?

/-- The members of the right side, in order. -/
def rights (xs : List (α ⊕ β)) : List β := xs.filterMap Sum.getRight?

@[simp] theorem lefts_nil : lefts ([] : List (α ⊕ β)) = [] := rfl

@[simp] theorem rights_nil : rights ([] : List (α ⊕ β)) = [] := rfl

@[simp] theorem lefts_cons_inl (a : α) (xs : List (α ⊕ β)) :
    lefts (.inl a :: xs) = a :: lefts xs := rfl

@[simp] theorem lefts_cons_inr (b : β) (xs : List (α ⊕ β)) :
    lefts (.inr b :: xs) = lefts xs := rfl

@[simp] theorem rights_cons_inl (a : α) (xs : List (α ⊕ β)) :
    rights (.inl a :: xs) = rights xs := rfl

@[simp] theorem rights_cons_inr (b : β) (xs : List (α ⊕ β)) :
    rights (.inr b :: xs) = b :: rights xs := rfl

@[simp] theorem lefts_append (xs ys : List (α ⊕ β)) :
    lefts (xs ++ ys) = lefts xs ++ lefts ys := List.filterMap_append

@[simp] theorem rights_append (xs ys : List (α ⊕ β)) :
    rights (xs ++ ys) = rights xs ++ rights ys := List.filterMap_append

@[simp] theorem lefts_map_inl (as : List α) : lefts (as.map (.inl (β := β))) = as := by
  simp [lefts, List.filterMap_map, Function.comp_def]

@[simp] theorem rights_map_inl (as : List α) : rights (as.map (.inl (β := β))) = [] := by
  simp [rights, List.filterMap_map, Function.comp_def]

@[simp] theorem lefts_map_inr (bs : List β) : lefts (bs.map (.inr (α := α))) = [] := by
  simp [lefts, List.filterMap_map, Function.comp_def]

@[simp] theorem rights_map_inr (bs : List β) : rights (bs.map (.inr (α := α))) = bs := by
  simp [rights, List.filterMap_map, Function.comp_def]

end Sides

namespace Machine

variable {σ₁ ε₁ ω₁ σ₂ ε₂ ω₂ : Type*}

/-- Two machines side by side. -/
def beside (m₁ : Machine σ₁ ε₁ ω₁) (m₂ : Machine σ₂ ε₂ ω₂) :
    Machine (σ₁ × σ₂) (ε₁ ⊕ ε₂) (ω₁ ⊕ ω₂) where
  step s
    | .inl e => (m₁.step s.1 e).map fun out => ((out.1, s.2), out.2.map .inl)
    | .inr e => (m₂.step s.2 e).map fun out => ((s.1, out.1), out.2.map .inr)

section Beside

variable {m₁ : Machine σ₁ ε₁ ω₁} {m₂ : Machine σ₂ ε₂ ω₂}

theorem beside_step_inl_iff {s s' : σ₁ × σ₂} {e : ε₁} {shown : List (ω₁ ⊕ ω₂)} :
    (m₁.beside m₂).step s (.inl e) = some (s', shown) ↔
      ∃ out, m₁.step s.1 e = some (s'.1, out) ∧ s'.2 = s.2 ∧ shown = out.map .inl := by
  simp only [beside, Option.map_eq_some_iff, Prod.mk.injEq]
  constructor
  · rintro ⟨⟨t, out⟩, hstep, rfl, rfl⟩
    exact ⟨out, hstep, rfl, rfl⟩
  · rintro ⟨out, hstep, hsame, rfl⟩
    exact ⟨(s'.1, out), hstep, Prod.ext rfl hsame.symm, rfl⟩

theorem beside_step_inr_iff {s s' : σ₁ × σ₂} {e : ε₂} {shown : List (ω₁ ⊕ ω₂)} :
    (m₁.beside m₂).step s (.inr e) = some (s', shown) ↔
      ∃ out, m₂.step s.2 e = some (s'.2, out) ∧ s'.1 = s.1 ∧ shown = out.map .inr := by
  simp only [beside, Option.map_eq_some_iff, Prod.mk.injEq]
  constructor
  · rintro ⟨⟨t, out⟩, hstep, rfl, rfl⟩
    exact ⟨out, hstep, rfl, rfl⟩
  · rintro ⟨out, hstep, hsame, rfl⟩
    exact ⟨(s'.2, out), hstep, Prod.ext hsame.symm rfl, rfl⟩

/-- A run of the pair is a run of each machine on its own events. -/
theorem runs_of_beside {s t : σ₁ × σ₂} {es : List (ε₁ ⊕ ε₂)} {trace : List (ω₁ ⊕ ω₂)}
    (hrun : (m₁.beside m₂).run s es = some (t, trace)) :
    m₁.run s.1 (lefts es) = some (t.1, lefts trace) ∧
      m₂.run s.2 (rights es) = some (t.2, rights trace) := by
  induction es generalizing s trace with
  | nil =>
      obtain ⟨rfl, rfl⟩ := (m₁.beside m₂).run_nil_eq_some_iff.mp hrun
      exact ⟨rfl, rfl⟩
  | cons e es ih =>
      obtain ⟨s', shown, later, hstep, hrest, rfl⟩ :=
        (m₁.beside m₂).run_cons_eq_some_iff.mp hrun
      obtain ⟨hleft, hright⟩ := ih hrest
      cases e with
      | inl e =>
          obtain ⟨out, hown, hother, rfl⟩ := beside_step_inl_iff.mp hstep
          rw [hother] at hright
          constructor
          · simpa using m₁.run_cons_of_step hown hleft
          · simpa using hright
      | inr e =>
          obtain ⟨out, hown, hother, rfl⟩ := beside_step_inr_iff.mp hstep
          rw [hother] at hleft
          constructor
          · simpa using hleft
          · simpa using m₂.run_cons_of_step hown hright

/-- Whatever the interleaving of their events, two runs make a run of the pair. -/
theorem beside_of_runs {s₁ t₁ : σ₁} {s₂ t₂ : σ₂} {es : List (ε₁ ⊕ ε₂)} {trace₁ : List ω₁}
    {trace₂ : List ω₂} (hrun₁ : m₁.run s₁ (lefts es) = some (t₁, trace₁))
    (hrun₂ : m₂.run s₂ (rights es) = some (t₂, trace₂)) :
    ∃ trace, (m₁.beside m₂).run (s₁, s₂) es = some ((t₁, t₂), trace) ∧
      lefts trace = trace₁ ∧ rights trace = trace₂ := by
  induction es generalizing s₁ s₂ trace₁ trace₂ with
  | nil =>
      obtain ⟨rfl, rfl⟩ := m₁.run_nil_eq_some_iff.mp hrun₁
      obtain ⟨rfl, rfl⟩ := m₂.run_nil_eq_some_iff.mp hrun₂
      exact ⟨[], rfl, rfl, rfl⟩
  | cons e es ih =>
      cases e with
      | inl e =>
          obtain ⟨s', shown, later, hstep, hrest, rfl⟩ := m₁.run_cons_eq_some_iff.mp hrun₁
          obtain ⟨trace, hrun, rfl, rfl⟩ := ih hrest hrun₂
          have hown : (m₁.beside m₂).step (s₁, s₂) (.inl e) =
              some ((s', s₂), shown.map .inl) :=
            beside_step_inl_iff.mpr ⟨shown, hstep, rfl, rfl⟩
          refine ⟨shown.map .inl ++ trace, ?_, by simp, by simp⟩
          exact (m₁.beside m₂).run_cons_of_step hown hrun
      | inr e =>
          obtain ⟨s', shown, later, hstep, hrest, rfl⟩ := m₂.run_cons_eq_some_iff.mp hrun₂
          obtain ⟨trace, hrun, rfl, rfl⟩ := ih hrun₁ hrest
          have hown : (m₁.beside m₂).step (s₁, s₂) (.inr e) =
              some ((s₁, s'), shown.map .inr) :=
            beside_step_inr_iff.mpr ⟨shown, hstep, rfl, rfl⟩
          refine ⟨shown.map .inr ++ trace, ?_, by simp, by simp⟩
          exact (m₁.beside m₂).run_cons_of_step hown hrun

end Beside

/-! ## Hosts -/

/-- A run of a host that does not end dead is the image of a run of what it
hosts, provided that its steps to states that are not dead are. -/
theorem run_comap {σ ε ω τ δ ψ : Type*} {m : Machine σ ε ω} {m' : Machine τ δ ψ}
    {f : σ → τ} {g : δ → ε} {h : ψ → ω} {Dead : τ → Prop}
    (hdead : ∀ s e s' shown, m'.step s e = some (s', shown) → ¬ Dead s)
    (hstep : ∀ s e s' shown, m'.step (f s) e = some (s', shown) → ¬ Dead s' →
      ∃ t, f t = s' ∧ m.step s (g e) = some (t, shown.map h))
    {s : σ} {t : τ} {es : List δ} {trace : List ψ}
    (hrun : m'.run (f s) es = some (t, trace)) (ht : ¬ Dead t) :
    ∃ t', f t' = t ∧ m.run s (es.map g) = some (t', trace.map h) := by
  induction es generalizing s trace with
  | nil =>
      obtain ⟨rfl, rfl⟩ := m'.run_nil_eq_some_iff.mp hrun
      exact ⟨s, rfl, rfl⟩
  | cons e es ih =>
      obtain ⟨s', shown, later, hs, hrest, rfl⟩ := m'.run_cons_eq_some_iff.mp hrun
      have hlive : ¬ Dead s' := m'.first_of_run hdead ht hrest
      obtain ⟨u, rfl, hown⟩ := hstep s e s' shown hs hlive
      obtain ⟨t', ht', hown'⟩ := ih hrest
      refine ⟨t', ht', ?_⟩
      rw [List.map_cons, List.map_append]
      exact m.run_cons_of_step hown hown'

end Machine

end Transition
