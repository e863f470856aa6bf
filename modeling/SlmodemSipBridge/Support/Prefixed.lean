import Mathlib.Data.List.Basic

/-!
# A prefix over one alphabet and a rest over another

A greedy scan strips from a list what belongs to the first alphabet.  Where the
two alphabets have no symbol in common, it finds the only way to cut the list
into a prefix over the first and a rest over the second.
-/

namespace Prefixed

variable {α : Type*} {P Q : α → Prop}

/-- A list is cut into a prefix over one alphabet and a rest over another that is not
empty. -/
structure Cuts (P Q : α → Prop) (s pre rest : List α) : Prop where
  text : s = pre ++ rest
  stripped : ∀ a ∈ pre, P a
  ne : rest ≠ []
  kept : ∀ a ∈ rest, Q a

section Scan

variable [DecidablePred P]

/-- The scan passes over a prefix and stops at a rest of the other alphabet. -/
theorem Cuts.scan {s pre rest : List α} (hdisjoint : ∀ a, P a → ¬ Q a)
    (h : Cuts P Q s pre rest) :
    s.takeWhile (decide <| P ·) = pre ∧ s.dropWhile (decide <| P ·) = rest := by
  have hpre : ∀ a ∈ pre, decide (P a) = true := fun a ha => decide_eq_true (h.stripped a ha)
  obtain ⟨a, rest', rfl⟩ := List.exists_cons_of_ne_nil h.ne
  have hstop : ¬ P a := fun ha => hdisjoint a ha (h.kept a List.mem_cons_self)
  rw [h.text, List.takeWhile_append_of_pos hpre, List.dropWhile_append_of_pos hpre,
    List.takeWhile_cons_of_neg (by simpa using hstop),
    List.dropWhile_cons_of_neg (by simpa using hstop)]
  exact ⟨List.append_nil pre, rfl⟩

/-- What the scan leaves is the rest of a cut, if it is one. -/
theorem cuts_scan {s : List α} (hne : s.dropWhile (decide <| P ·) ≠ [])
    (hkept : ∀ a ∈ s.dropWhile (decide <| P ·), Q a) :
    Cuts P Q s (s.takeWhile (decide <| P ·)) (s.dropWhile (decide <| P ·)) where
  text := List.takeWhile_append_dropWhile.symm
  stripped a ha := of_decide_eq_true (List.all_eq_true.mp List.all_takeWhile a ha)
  ne := hne
  kept := hkept

/-- A list can be cut exactly when the scan leaves a rest of the other alphabet. -/
theorem exists_cuts_iff {s rest : List α} (hdisjoint : ∀ a, P a → ¬ Q a) :
    (∃ pre, Cuts P Q s pre rest) ↔
      s.dropWhile (decide <| P ·) = rest ∧ rest ≠ [] ∧ ∀ a ∈ rest, Q a := by
  constructor
  · rintro ⟨pre, hcuts⟩
    exact ⟨(hcuts.scan hdisjoint).2, hcuts.ne, hcuts.kept⟩
  · rintro ⟨rfl, hne, hkept⟩
    exact ⟨_, cuts_scan hne hkept⟩

/-- A list is cut in one way only. -/
theorem Cuts.unique {s pre pre' rest rest' : List α} (hdisjoint : ∀ a, P a → ¬ Q a)
    (h : Cuts P Q s pre rest) (h' : Cuts P Q s pre' rest') : pre = pre' ∧ rest = rest' := by
  obtain ⟨hpre, hrest⟩ := h.scan hdisjoint
  obtain ⟨hpre', hrest'⟩ := h'.scan hdisjoint
  exact ⟨hpre.symm.trans hpre', hrest.symm.trans hrest'⟩

end Scan

end Prefixed
