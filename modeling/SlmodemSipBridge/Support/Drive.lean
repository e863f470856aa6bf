import Mathlib.Logic.Function.Iterate
import SlmodemSipBridge.Support.Machine

/-!
# Machines driven by an environment

An environment answers what a machine waits for: it chooses the next event by
the state.  The file supplies the states that are reached so, that a state at
rest stays, and that a measure which every step lessens brings the machine to
rest.
-/

namespace Transition.Machine

variable {σ ε ω : Type*} (m : Machine σ ε ω) (choose : σ → Option ε)

/-- The state after the event that the environment chooses, if there is one and
it can happen. -/
def driveStep (s : σ) : σ := ((choose s).bind (m.step s)).elim s Prod.fst

/-- The state after `n` events. -/
def drive (s : σ) (n : ℕ) : σ := (m.driveStep choose)^[n] s

/-- Nothing happens any more. -/
def AtRest (s : σ) : Prop := (choose s).bind (m.step s) = none

@[simp] theorem drive_zero (s : σ) : m.drive choose s 0 = s := rfl

theorem drive_succ (s : σ) (n : ℕ) :
    m.drive choose s (n + 1) = m.driveStep choose (m.drive choose s n) :=
  Function.iterate_succ_apply' _ n s

theorem drive_add (s : σ) (n k : ℕ) :
    m.drive choose s (n + k) = m.drive choose (m.drive choose s n) k := by
  rw [drive, Nat.add_comm n k, Function.iterate_add_apply]
  rfl

variable {m choose}

theorem driveStep_of_step {s s' : σ} {e : ε} {shown : List ω} (hchoose : choose s = some e)
    (hstep : m.step s e = some (s', shown)) : m.driveStep choose s = s' := by
  rw [driveStep, hchoose, Option.bind_some, hstep]
  rfl

theorem AtRest.drive_eq {s : σ} (h : m.AtRest choose s) (n : ℕ) :
    m.drive choose s n = s := by
  induction n with
  | zero => rfl
  | succ n ih =>
      rw [drive_succ, ih, driveStep, h]
      rfl

/-- What each step keeps, all states reached have. -/
theorem drive_invariant {I : σ → Prop} (hstep : ∀ s, I s → I (m.driveStep choose s)) {s : σ}
    (hinit : I s) (n : ℕ) : I (m.drive choose s n) := by
  induction n with
  | zero => exact hinit
  | succ n ih =>
      rw [drive_succ]
      exact hstep _ ih

end Transition.Machine
