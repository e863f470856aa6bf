import Mathlib.Algebra.BigOperators.Group.List.Basic
import Mathlib.Data.List.Basic
import Mathlib.Tactic.Ring

/-!
# Cutting a stream into whole units, read by read

A stream of items arrives in reads of any sizes.  Units of `k` items are
passed on as soon as they are whole, and the items of an unfinished unit are
carried over to the next read.  What is passed on, joined together, is the
longest whole-unit prefix of the stream, however it was split.
-/

namespace Framing

variable {α : Type*}

/-- The number of items of `k`-item units that are whole among `n` items. -/
def wholeLength (k n : ℕ) : ℕ := k * (n / k)

theorem wholeLength_le (k n : ℕ) : wholeLength k n ≤ n :=
  Nat.mul_div_le n k

theorem wholeLength_add_mod (k n : ℕ) : wholeLength k n + n % k = n :=
  Nat.div_add_mod n k

theorem wholeLength_div {k : ℕ} (hk : 0 < k) (n : ℕ) :
    wholeLength k n / k = n / k := by
  rw [wholeLength, Nat.mul_div_cancel_left _ hk]

/-- What each read passes on, given the items carried over so far. -/
def whole (k : ℕ) : List α → List (List α) → List (List α)
  | _, [] => []
  | carried, read :: reads =>
      let pending := carried ++ read
      pending.take (wholeLength k pending.length) ::
        whole k (pending.drop (wholeLength k pending.length)) reads

/-- The items carried over after the last read. -/
def carriedAfter (k : ℕ) : List α → List (List α) → List α
  | carried, [] => carried
  | carried, read :: reads =>
      let pending := carried ++ read
      carriedAfter k (pending.drop (wholeLength k pending.length)) reads

theorem length_drop_wholeLength (k : ℕ) (xs : List α) :
    (xs.drop (wholeLength k xs.length)).length = xs.length % k := by
  have h := wholeLength_add_mod k xs.length
  rw [List.length_drop]
  omega

/-- Passed-on items followed by the carried ones are the whole input. -/
theorem whole_flatten_append_carriedAfter
    (k : ℕ) (carried : List α) (reads : List (List α)) :
    (whole k carried reads).flatten ++ carriedAfter k carried reads =
      carried ++ reads.flatten := by
  induction reads generalizing carried with
  | nil => simp [whole, carriedAfter]
  | cons read reads ih =>
      simp only [whole, carriedAfter, List.flatten_cons, List.append_assoc]
      rw [ih, ← List.append_assoc, List.take_append_drop, List.append_assoc]

theorem length_carriedAfter
    {k : ℕ} {carried : List α} (hcarried : carried.length < k)
    (reads : List (List α)) :
    (carriedAfter k carried reads).length =
      (carried.length + reads.flatten.length) % k := by
  induction reads generalizing carried with
  | nil => simp [carriedAfter, Nat.mod_eq_of_lt hcarried]
  | cons read reads ih =>
      have hk : 0 < k := Nat.zero_lt_of_lt hcarried
      simp only [carriedAfter]
      rw [ih (by rw [length_drop_wholeLength]; exact Nat.mod_lt _ hk),
        length_drop_wholeLength, Nat.mod_add_mod]
      simp [Nat.add_assoc]

/-- However the stream is split, what is passed on is its longest prefix of
whole units. -/
theorem whole_flatten
    {k : ℕ} {carried : List α} (hcarried : carried.length < k)
    (reads : List (List α)) :
    (whole k carried reads).flatten =
      (carried ++ reads.flatten).take
        (wholeLength k (carried ++ reads.flatten).length) := by
  have hsplit := whole_flatten_append_carriedAfter k carried reads
  have hrest := length_carriedAfter hcarried reads
  have hlength :
      (whole k carried reads).flatten.length =
        wholeLength k (carried ++ reads.flatten).length := by
    have htotal := congrArg List.length hsplit
    have hmod := wholeLength_add_mod k (carried ++ reads.flatten).length
    simp only [List.length_append] at htotal hmod ⊢
    omega
  rw [← hlength, ← hsplit, List.take_left']
  rfl

/-! ## How many units each read completes -/

/-- The number of whole units each read completes, when `before` items came
before it. -/
def completed (k : ℕ) : ℕ → List ℕ → List ℕ
  | _, [] => []
  | before, size :: sizes =>
      ((before + size) / k - before / k) :: completed k (before + size) sizes

/-- Each read passes on the units it completes. -/
theorem map_length_whole
    {k : ℕ} (hk : 0 < k) {before : ℕ} {carried : List α}
    (hcarried : carried.length = before % k) (reads : List (List α)) :
    (whole k carried reads).map (fun group => group.length / k) =
      completed k before (reads.map List.length) := by
  induction reads generalizing before carried with
  | nil => rfl
  | cons read reads ih =>
      simp only [whole, completed, List.map_cons]
      have hbefore : k * (before / k) + before % k = before :=
        Nat.div_add_mod before k
      have hpending :
          before + read.length =
            k * (before / k) + (carried ++ read).length := by
        simp only [List.length_append]
        omega
      have hquot :
          (before + read.length) / k =
            before / k + (carried ++ read).length / k := by
        rw [hpending, Nat.mul_add_div hk]
      have hmod :
          (before + read.length) % k = (carried ++ read).length % k := by
        rw [hpending, Nat.mul_add_mod]
      congr 1
      · rw [List.length_take, Nat.min_eq_left (wholeLength_le _ _),
          wholeLength_div hk, hquot, Nat.add_sub_cancel_left]
      · exact ih (by rw [length_drop_wholeLength, hmod])

/-- Every group passed on consists of whole units. -/
theorem dvd_length_of_mem_whole
    {k : ℕ} {carried group : List α} {reads : List (List α)}
    (hgroup : group ∈ whole k carried reads) : k ∣ group.length := by
  induction reads generalizing carried with
  | nil => simp [whole] at hgroup
  | cons read reads ih =>
      rw [whole, List.mem_cons] at hgroup
      rcases hgroup with rfl | hgroup
      · rw [List.length_take, Nat.min_eq_left (wholeLength_le _ _)]
        exact Nat.dvd_mul_right k _
      · exact ih hgroup

/-- No group is longer than a read and an unfinished unit together. -/
theorem length_le_of_mem_whole
    {k bound : ℕ} {carried group : List α} {reads : List (List α)}
    (hcarried : carried.length < k)
    (hreads : ∀ read ∈ reads, read.length ≤ bound)
    (hgroup : group ∈ whole k carried reads) :
    group.length < k + bound := by
  induction reads generalizing carried with
  | nil => simp [whole] at hgroup
  | cons read reads ih =>
      rw [whole, List.mem_cons] at hgroup
      rcases hgroup with rfl | hgroup
      · have hread := hreads read List.mem_cons_self
        rw [List.length_take]
        simp only [List.length_append]
        omega
      · refine ih ?_ (fun r hr => hreads r (List.mem_cons_of_mem _ hr)) hgroup
        rw [length_drop_wholeLength]
        exact Nat.mod_lt _ (Nat.zero_lt_of_lt hcarried)

/-- The first units of a stream, one by one. -/
theorem take_mul_eq_flatMap (k : ℕ) (xs : List α) (n : ℕ) :
    xs.take (k * n) = (List.range n).flatMap fun i => (xs.drop (k * i)).take k := by
  induction n with
  | zero => simp
  | succ n ih =>
      have hlast : xs.take (k * (n + 1)) =
          xs.take (k * n) ++ (xs.drop (k * n)).take k := by
        rw [Nat.mul_succ, List.take_add]
      rw [hlast, ih, List.range_succ, List.flatMap_append, List.flatMap_singleton]

end Framing
