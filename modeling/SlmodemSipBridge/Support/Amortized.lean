import SlmodemSipBridge.Support.Machine
import Mathlib.Algebra.BigOperators.Group.List.Basic
import Mathlib.Algebra.GroupWithZero.Nat

/-!
# Amortised costs

Observations cost something.  A potential on the states of a monitor pays for what it
lets pass, and an allowance that some observations renew bounds what is spent between
one renewal and the next.
-/

namespace Transition

variable {ω : Type*}

/-- What a list of observations costs, each by itself. -/
def cost (w : ω → ℕ) (trace : List ω) : ℕ := (trace.map w).sum

@[simp] theorem cost_nil (w : ω → ℕ) : cost w [] = 0 := rfl

@[simp] theorem cost_cons (w : ω → ℕ) (o : ω) (trace : List ω) :
    cost w (o :: trace) = w o + cost w trace := by
  simp [cost]

@[simp] theorem cost_append (w : ω → ℕ) (trace later : List ω) :
    cost w (trace ++ later) = cost w trace + cost w later := by
  simp [cost]

/-- Observations that are free. -/
theorem cost_eq_zero {w : ω → ℕ} {trace : List ω} (h : ∀ o ∈ trace, w o = 0) :
    cost w trace = 0 := by
  induction trace with
  | nil => rfl
  | cons o trace ih =>
      rw [List.forall_mem_cons] at h
      rw [cost_cons, h.1, ih h.2]

theorem le_cost_of_mem (w : ω → ℕ) {trace : List ω} {o : ω} (h : o ∈ trace) :
    w o ≤ cost w trace := by
  obtain ⟨before, after, rfl⟩ := List.append_of_mem h
  rw [cost_append, cost_cons]
  omega

/-- Where every observation that a monitor lets pass is paid for out of a potential on its
states, so is every list of them. -/
theorem Monitor.amortized_of_accepts {μ : Type*} (w : Monitor μ ω) {c : ω → ℕ} {p : μ → ℕ}
    (hnext : ∀ q o, w.allows q o → c o + p (w.next q o) ≤ p q) {q : μ} {trace : List ω}
    (h : w.Accepts q trace) : cost c trace + p (w.after q trace) ≤ p q := by
  induction trace generalizing q with
  | nil => exact Nat.le_of_eq (Nat.zero_add _)
  | cons o trace ih =>
      obtain ⟨hallows, hrest⟩ := h
      have hpaid := hnext q o hallows
      have hlater := ih hrest
      rw [cost_cons, w.after_cons]
      omega

/-! ## Allowances -/

/-- What may still be spent: so much after every renewal, and less by what is spent. -/
def allowance (c : ω → ℕ) (renewal : ω → ℕ) (amount : ℕ) : Monitor ℕ ω where
  next n o := if renewal o = 0 then n - c o else amount
  allows n o := c o ≤ n

variable {c renewal : ω → ℕ} {amount : ℕ}

/-- Without a renewal what is spent in all is paid for. -/
theorem allowance_accepts_iff {n : ℕ} {trace : List ω} (hnone : cost renewal trace = 0) :
    (allowance c renewal amount).Accepts n trace ↔ cost c trace ≤ n := by
  induction trace generalizing n with
  | nil => simp
  | cons o trace ih =>
      rw [cost_cons, Nat.add_eq_zero_iff] at hnone
      have hnext : (allowance c renewal amount).next n o = n - c o := if_pos hnone.1
      rw [Monitor.accepts_cons, hnext, ih hnone.2, cost_cons]
      change c o ≤ n ∧ cost c trace ≤ n - c o ↔ _
      omega

theorem allowance_after {n : ℕ} {trace : List ω} (hnone : cost renewal trace = 0) :
    (allowance c renewal amount).after n trace = n - cost c trace := by
  induction trace generalizing n with
  | nil => rfl
  | cons o trace ih =>
      rw [cost_cons, Nat.add_eq_zero_iff] at hnone
      have hnext : (allowance c renewal amount).next n o = n - c o := if_pos hnone.1
      rw [Monitor.after_cons, hnext, ih hnone.2, cost_cons, Nat.sub_sub]

/-- Between two renewals no more is spent than a renewal gives. -/
theorem cost_le_of_allowance {n : ℕ} {before later after : List ω} {o : ω}
    (h : (allowance c renewal amount).Accepts n (before ++ o :: later ++ after))
    (ho : renewal o ≠ 0) (hlater : cost renewal later = 0) : cost c later ≤ amount := by
  rw [List.append_assoc, Monitor.accepts_append, List.cons_append, Monitor.accepts_cons,
    Monitor.accepts_append] at h
  have hnext : (allowance c renewal amount).next
      ((allowance c renewal amount).after n before) o = amount := if_neg ho
  rw [hnext] at h
  exact (allowance_accepts_iff hlater).mp h.2.2.1

end Transition
