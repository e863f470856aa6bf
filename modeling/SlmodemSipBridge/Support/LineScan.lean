import Mathlib.Data.List.Basic
import Mathlib.Data.Nat.Basic

/-!
# Scanning a stream for a command line, with a bounded buffer

A scanner gathers items into a line buffer.  At a separator the line gathered is
read, and either it is a command, which ends the scan, or the buffer starts
afresh.  A buffer that grows beyond its limit is emptied in the middle of the
line, and what follows is gathered as if it began a line.

The buffer at a separator is computed here from the line alone, and the scan of a
stream from its lines.
-/

namespace LineScan

variable {α β : Type*}

/-- Where a scan is after some items: gathering a line, or at a command with the
items behind its separator. -/
inductive Outcome (α β : Type*) where
  | gathering (buffer : List α)
  | found (command : β) (rest : List α)

/-- What a buffer with the given limit keeps of a line. -/
def kept (limit : ℕ) (line : List α) : List α :=
  line.drop ((limit + 1) * (line.length / (limit + 1)))

theorem kept_of_le {limit : ℕ} {line : List α} (h : line.length ≤ limit) :
    kept limit line = line := by
  rw [kept, Nat.div_eq_of_lt (by omega), Nat.mul_zero, List.drop_zero]

/-- A whole buffer more in front makes no difference. -/
theorem kept_append {limit : ℕ} {block : List α} (hblock : block.length = limit + 1)
    (line : List α) : kept limit (block ++ line) = kept limit line := by
  have hpos : 0 < block.length := by omega
  rw [kept, kept, List.length_append, ← hblock, Nat.add_comm block.length,
    Nat.add_div_right _ hpos, Nat.mul_succ, Nat.add_comm _ block.length,
    ← List.drop_drop, List.drop_left]

/-- A stream as complete lines and the line that is not complete. -/
structure Cut (sep : α) (stream : List α) (complete : List (List α)) (last : List α) : Prop where
  join : stream = (complete.map (· ++ [sep])).flatten ++ last
  complete : ∀ line ∈ complete, sep ∉ line
  last : sep ∉ last

/-- The rest of a stream behind some of its lines. -/
theorem Cut.behind {sep : α} {stream : List α} {before after : List (List α)} {line last : List α}
    (h : Cut sep stream (before ++ line :: after) last) :
    Cut sep ((after.map (· ++ [sep])).flatten ++ last) after last where
  join := rfl
  complete := fun l hl => h.complete l (by simp [hl])
  last := h.last

variable [DecidableEq α] (sep : α) (limit : ℕ) (read : List α → Option β)

/-- Gather the items, one by one. -/
def scan : List α → List α → Outcome α β
  | buffer, [] => .gathering buffer
  | buffer, a :: rest =>
      if a = sep then
        match read buffer with
        | some command => .found command rest
        | none => scan [] rest
      else if limit < (buffer ++ [a]).length then scan [] rest
      else scan (buffer ++ [a]) rest

/-- Gathering goes on with the items of the next read. -/
theorem scan_append (buffer xs ys : List α) :
    scan sep limit read buffer (xs ++ ys) =
      match scan sep limit read buffer xs with
      | .gathering buffer' => scan sep limit read buffer' ys
      | .found command rest => .found command (rest ++ ys) := by
  induction xs generalizing buffer with
  | nil => rfl
  | cons a xs ih =>
      simp only [List.cons_append, scan]
      split
      · split
        · rfl
        · exact ih []
      · split
        · exact ih []
        · exact ih (buffer ++ [a])

/-- The buffer keeps to its limit. -/
theorem length_of_gathering {buffer xs buffer' : List α} (hbuffer : buffer.length ≤ limit)
    (h : scan sep limit read buffer xs = .gathering buffer') : buffer'.length ≤ limit := by
  have hempty : ([] : List α).length ≤ limit := Nat.zero_le limit
  induction xs generalizing buffer with
  | nil =>
      rw [scan, Outcome.gathering.injEq] at h
      rwa [← h]
  | cons a xs ih =>
      simp only [scan] at h
      split at h
      · split at h
        · contradiction
        · exact ih hempty h
      · split at h
        · exact ih hempty h
        · next hfits => exact ih (Nat.le_of_not_lt hfits) h

/-- Items without a separator extend the line. -/
theorem scan_open {buffer line : List α} (hbuffer : buffer.length ≤ limit)
    (hline : sep ∉ line) :
    scan sep limit read buffer line = .gathering (kept limit (buffer ++ line)) := by
  induction line generalizing buffer with
  | nil => rw [List.append_nil, kept_of_le hbuffer, scan]
  | cons a line ih =>
      have ha : ¬ a = sep := by
        rintro rfl
        exact hline List.mem_cons_self
      have hrest : sep ∉ line := fun h => hline (List.mem_cons_of_mem a h)
      have hcut : buffer ++ a :: line = (buffer ++ [a]) ++ line := by simp
      rw [scan, if_neg ha, hcut]
      by_cases hfull : limit < (buffer ++ [a]).length
      · have hblock : (buffer ++ [a]).length = limit + 1 := by
          rw [List.length_append, List.length_singleton] at hfull ⊢
          omega
        have hempty : ([] : List α).length ≤ limit := Nat.zero_le limit
        rw [if_pos hfull, ih hempty hrest, kept_append hblock, List.nil_append]
      · rw [if_neg hfull, ih (Nat.le_of_not_lt hfull) hrest]

/-- At the separator the line that was kept is read. -/
theorem scan_line {buffer line : List α} (hbuffer : buffer.length ≤ limit)
    (hline : sep ∉ line) (rest : List α) :
    scan sep limit read buffer (line ++ sep :: rest) =
      match read (kept limit (buffer ++ line)) with
      | some command => .found command rest
      | none => scan sep limit read [] rest := by
  rw [scan_append, scan_open sep limit read hbuffer hline]
  simp [scan]

/-! ## The lines of a stream -/

/-- The complete lines of a stream. -/
def completeLines : List α → List (List α)
  | [] => []
  | a :: rest =>
      if a = sep then [] :: completeLines rest
      else
        match completeLines rest with
        | [] => []
        | line :: more => (a :: line) :: more

/-- What follows the last separator. -/
def lastLine : List α → List α
  | [] => []
  | a :: rest =>
      if a = sep then lastLine rest
      else
        match completeLines sep rest with
        | [] => a :: lastLine rest
        | _ :: _ => lastLine rest

theorem cut_completeLines (stream : List α) :
    Cut sep stream (completeLines sep stream) (lastLine sep stream) := by
  induction stream with
  | nil => exact ⟨rfl, by simp [completeLines], by simp [lastLine]⟩
  | cons a stream ih =>
      by_cases ha : a = sep
      · simp only [completeLines, lastLine, if_pos ha]
        refine ⟨?_, ?_, ih.last⟩
        · rw [List.map_cons, List.flatten_cons, List.append_assoc, ← ih.join, ha]
          rfl
        · simpa using ih.complete
      · simp only [completeLines, lastLine, if_neg ha]
        cases hlines : completeLines sep stream with
        | nil =>
            have hjoin := ih.join
            rw [hlines] at hjoin
            refine ⟨congrArg (a :: ·) hjoin, by simp, ?_⟩
            simp only [List.mem_cons, not_or]
            exact ⟨fun h => ha h.symm, ih.last⟩
        | cons line more =>
            have hjoin := ih.join
            have hcomplete := ih.complete
            rw [hlines] at hjoin hcomplete
            refine ⟨congrArg (a :: ·) hjoin, ?_, ih.last⟩
            rw [List.forall_mem_cons] at hcomplete ⊢
            refine ⟨?_, hcomplete.2⟩
            simp only [List.mem_cons, not_or]
            exact ⟨fun h => ha h.symm, hcomplete.1⟩

variable {sep limit read}

theorem completeLines_line {line : List α} (hline : sep ∉ line) (rest : List α) :
    completeLines sep (line ++ sep :: rest) = line :: completeLines sep rest := by
  induction line with
  | nil => simp [completeLines]
  | cons a line ih =>
      have ha : ¬ a = sep := by
        rintro rfl
        exact hline List.mem_cons_self
      rw [List.cons_append, completeLines, if_neg ha,
        ih fun h => hline (List.mem_cons_of_mem a h)]

theorem completeLines_open {line : List α} (hline : sep ∉ line) :
    completeLines sep line = [] := by
  induction line with
  | nil => rfl
  | cons a line ih =>
      have ha : ¬ a = sep := by
        rintro rfl
        exact hline List.mem_cons_self
      rw [completeLines, if_neg ha, ih fun h => hline (List.mem_cons_of_mem a h)]

/-- A stream is cut in one way only. -/
theorem Cut.completeLines_eq {stream : List α} {complete : List (List α)} {last : List α}
    (h : Cut sep stream complete last) : completeLines sep stream = complete := by
  obtain ⟨rfl, hcomplete, hlast⟩ := h
  induction complete with
  | nil => exact completeLines_open hlast
  | cons line more ih =>
      rw [List.forall_mem_cons] at hcomplete
      have hcut : ((line :: more).map (· ++ [sep])).flatten ++ last =
          line ++ sep :: ((more.map (· ++ [sep])).flatten ++ last) := by simp
      rw [hcut, completeLines_line hcomplete.1, ih hcomplete.2]

/-- A scan from the start of a line ends at the first line of which a command was
kept, with all that follows the line. -/
theorem scan_eq_found_iff {stream : List α} {complete : List (List α)} {last : List α}
    (h : Cut sep stream complete last) {command : β} {rest : List α} :
    scan sep limit read [] stream = .found command rest ↔
      ∃ before line after, complete = before ++ line :: after ∧
        (∀ l ∈ before, read (kept limit l) = none) ∧
        read (kept limit line) = some command ∧
        rest = (after.map (· ++ [sep])).flatten ++ last := by
  have hempty : ([] : List α).length ≤ limit := Nat.zero_le limit
  obtain ⟨rfl, hcomplete, hlast⟩ := h
  induction complete with
  | nil =>
      have hopen := scan_open sep limit read hempty hlast
      simp [hopen]
  | cons first more ih =>
      rw [List.forall_mem_cons] at hcomplete
      have hcut : ((first :: more).map (· ++ [sep])).flatten ++ last =
          first ++ sep :: ((more.map (· ++ [sep])).flatten ++ last) := by simp
      rw [hcut, scan_line sep limit read hempty hcomplete.1, List.nil_append]
      cases hread : read (kept limit first) with
      | some found =>
          constructor
          · intro heq
            obtain ⟨rfl, rfl⟩ := Outcome.found.inj heq
            exact ⟨[], first, more, rfl, by simp, hread, rfl⟩
          · rintro ⟨before, line, after, hsplit, hbefore, hline, rfl⟩
            cases before with
            | nil =>
                obtain ⟨rfl, rfl⟩ := List.cons_eq_cons.mp hsplit
                rw [hread, Option.some.injEq] at hline
                rw [hline]
            | cons l before =>
                obtain ⟨rfl, -⟩ := List.cons_eq_cons.mp hsplit
                rw [hbefore _ List.mem_cons_self] at hread
                contradiction
      | none =>
          simp only [ih hcomplete.2]
          constructor
          · rintro ⟨before, line, after, rfl, hbefore, hline, rfl⟩
            refine ⟨first :: before, line, after, rfl, ?_, hline, rfl⟩
            rw [List.forall_mem_cons]
            exact ⟨hread, hbefore⟩
          · rintro ⟨before, line, after, hsplit, hbefore, hline, rfl⟩
            cases before with
            | nil =>
                obtain ⟨rfl, -⟩ := List.cons_eq_cons.mp hsplit
                rw [hread] at hline
                contradiction
            | cons l before =>
                obtain ⟨rfl, rfl⟩ := List.cons_eq_cons.mp hsplit
                rw [List.forall_mem_cons] at hbefore
                exact ⟨before, line, after, rfl, hbefore.2, hline, rfl⟩

end LineScan
