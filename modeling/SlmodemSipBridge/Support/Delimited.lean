import SlmodemSipBridge.Support.Text

/-!
# Searching a text for a stem and its delimiter

A text is cut into pieces by a delimiter character.  A search for a stem that is
followed by the delimiter, with no delimiter in the stem, looks at one piece
after the other: it stops at the first piece that ends with the stem.
-/

namespace Rust

/-! ## Characters -/

theorem findChar_eq_none_iff {p : Char → Bool} {s : Str} :
    findChar p s = none ↔ ∀ c ∈ s, p c = false := by
  induction s with
  | nil => simp [findChar]
  | cons c s ih =>
      by_cases hc : p c = true
      · simp [findChar, hc]
      · simp [findChar, hc, ih]

theorem findChar_append {p : Char → Bool} {s : Str} {c : Char} (hs : ∀ d ∈ s, p d = false)
    (hc : p c = true) (rest : Str) : findChar p (s ++ c :: rest) = some (byteLen s) := by
  induction s with
  | nil => simp [findChar, hc, byteLen]
  | cons d s ih =>
      have hd : p d = false := hs d List.mem_cons_self
      rw [List.cons_append, findChar, if_neg (by simp [hd]),
        ih fun e he => hs e (List.mem_cons_of_mem d he)]
      rfl

/-! ## Cutting -/

/-- A text is empty or begins with a stop. -/
def Stops (P : Char → Prop) (s : Str) : Prop := ∀ c ∈ s.head?, P c

theorem stops_nil (P : Char → Prop) : Stops P [] := by simp [Stops]

theorem stops_cons {P : Char → Prop} {c : Char} (h : P c) (s : Str) : Stops P (c :: s) := by
  simpa [Stops] using h

/-- The first stop cuts a text in one way only. -/
theorem append_stop_inj {P : Char → Prop} {s t a b : Str} (hs : ∀ c ∈ s, ¬ P c)
    (ht : ∀ c ∈ t, ¬ P c) (ha : Stops P a) (hb : Stops P b) (h : s ++ a = t ++ b) :
    s = t ∧ a = b := by
  induction s generalizing t with
  | nil =>
      cases t with
      | nil => exact ⟨rfl, by simpa using h⟩
      | cons d t =>
          rw [List.nil_append] at h
          exact absurd (ha d (by simp [h])) (ht d List.mem_cons_self)
  | cons c s ih =>
      cases t with
      | nil =>
          rw [List.nil_append] at h
          exact absurd (hb c (by simp [← h])) (hs c List.mem_cons_self)
      | cons d t =>
          obtain ⟨rfl, htail⟩ : c = d ∧ s ++ a = t ++ b := by simpa using h
          obtain ⟨rfl, rfl⟩ := ih (fun x hx => hs x (List.mem_cons_of_mem c hx))
            (fun x hx => ht x (List.mem_cons_of_mem c hx)) htail
          exact ⟨rfl, rfl⟩

/-- A delimiter is a stop. -/
theorem append_delimiter_inj {q : Char} {s t a b : Str} (hs : q ∉ s) (ht : q ∉ t)
    (h : s ++ q :: a = t ++ q :: b) : s = t ∧ a = b := by
  obtain ⟨rfl, htail⟩ := append_stop_inj (P := (q = ·)) (List.forall_mem_ne.mpr hs)
    (List.forall_mem_ne.mpr ht) (stops_cons rfl a) (stops_cons rfl b) h
  exact ⟨rfl, List.tail_eq_of_cons_eq htail⟩

/-- The last delimiter cuts a text in one way. -/
theorem append_delimiter_inj_last {c : Char} {s t a b : Str} (ha : c ∉ a) (hb : c ∉ b)
    (h : s ++ c :: a = t ++ c :: b) : s = t ∧ a = b := by
  have hreverse : a.reverse ++ c :: s.reverse = b.reverse ++ c :: t.reverse := by
    simpa using congrArg List.reverse h
  obtain ⟨hab, hst⟩ :=
    append_delimiter_inj (by simpa using ha) (by simpa using hb) hreverse
  exact ⟨List.reverse_injective hst, List.reverse_injective hab⟩

/-- A double delimiter cuts a text with no other delimiters in one way. -/
theorem append_delimiters_inj {c : Char} {s t a b : Str} (ht : c ∉ t) (hb : c ∉ b)
    (h : s ++ c :: c :: a = t ++ c :: c :: b) : s = t ∧ a = b := by
  have hs : c ∉ s := by
    intro hmem
    obtain ⟨s₁, s₂, rfl, hs₁⟩ := List.eq_append_cons_of_mem hmem
    rw [List.append_assoc, List.cons_append] at h
    have hrest := (append_delimiter_inj hs₁ ht h).2
    cases s₂ with
    | nil =>
        rw [List.nil_append] at hrest
        exact hb (by rw [← (List.cons_eq_cons.mp hrest).2]; exact List.mem_cons_self)
    | cons d s₂ =>
        rw [List.cons_append] at hrest
        exact hb (by rw [← (List.cons_eq_cons.mp hrest).2]; simp)
  obtain ⟨rfl, hrest⟩ := append_delimiter_inj hs ht h
  exact ⟨rfl, (List.cons_eq_cons.mp hrest).2⟩

/-- The text up to a delimiter, and the rest from it on. -/
theorem takeWhile_ne {s : Str} {c : Char} (h : c ∉ s) (rest : Str) :
    (s ++ c :: rest).takeWhile (· != c) = s ∧
      (s ++ c :: rest).dropWhile (· != c) = c :: rest := by
  have hall : ∀ d ∈ s, (d != c) = true := by
    intro d hd
    exact bne_iff_ne.mpr (ne_of_mem_of_not_mem hd h)
  constructor
  · rw [List.takeWhile_append_of_pos hall]
    simp
  · rw [List.dropWhile_append_of_pos hall]
    simp

/-! ## Stems -/

variable {q : Char} {stem piece : Str}

theorem isPrefixOf_stem (hstem : q ∉ stem) (hpiece : q ∉ piece) (rest : Str) :
    (stem ++ [q]).isPrefixOf (piece ++ q :: rest) = true ↔ stem = piece := by
  rw [List.isPrefixOf_iff_prefix]
  constructor
  · rintro ⟨after, hafter⟩
    rw [List.append_assoc, List.singleton_append] at hafter
    exact (append_delimiter_inj hstem hpiece hafter).1
  · rintro rfl
    exact ⟨rest, by simp⟩

/-- The search stops in a piece that ends with the stem. -/
theorem find_stem_of_suffix (hstem : q ∉ stem) (hpiece : q ∉ piece)
    (hends : stem <:+ piece) (rest : Str) :
    ∃ before, piece = before ++ stem ∧
      find (stem ++ [q]) (piece ++ q :: rest) = some (byteLen before) := by
  induction piece with
  | nil =>
      obtain rfl : stem = [] := by simpa using hends
      exact ⟨[], rfl, by simp [find, byteLen]⟩
  | cons c piece ih =>
      have hstop := isPrefixOf_stem hstem hpiece rest
      rw [List.cons_append] at hstop ⊢
      by_cases heq : stem = c :: piece
      · refine ⟨[], by simpa using heq.symm, ?_⟩
        rw [find, if_pos (hstop.mpr heq)]
        rfl
      · have hrest : stem <:+ piece := by
          rcases List.suffix_cons_iff.mp hends with h | h
          · exact absurd h heq
          · exact h
        obtain ⟨before, hbefore, hfind⟩ :=
          ih (fun h => hpiece (List.mem_cons_of_mem c h)) hrest
        refine ⟨c :: before, by rw [hbefore]; rfl, ?_⟩
        rw [find, if_neg (mt hstop.mp heq), hfind]
        rfl

/-- The search passes over a piece that does not end with the stem. -/
theorem find_stem_of_not_suffix (hstem : q ∉ stem) (hpiece : q ∉ piece)
    (hends : ¬ stem <:+ piece) (rest : Str) :
    find (stem ++ [q]) (piece ++ q :: rest) =
      (find (stem ++ [q]) rest).map (byteLen (piece ++ [q]) + ·) := by
  induction piece with
  | nil =>
      have hstop := isPrefixOf_stem hstem hpiece rest
      have hne : ¬ stem = [] := by
        rintro rfl
        exact hends List.nil_suffix
      rw [List.nil_append] at hstop ⊢
      rw [find, if_neg (mt hstop.mp hne)]
      simp [byteLen]
  | cons c piece ih =>
      have hstop := isPrefixOf_stem hstem hpiece rest
      rw [List.cons_append] at hstop ⊢
      have hne : ¬ stem = c :: piece := by
        rintro rfl
        exact hends List.suffix_rfl
      have hrest : ¬ stem <:+ piece := fun h => hends (List.suffix_cons_iff.mpr (.inr h))
      rw [find, if_neg (mt hstop.mp hne),
        ih (fun h => hpiece (List.mem_cons_of_mem c h)) hrest, Option.map_map]
      congr 1
      funext n
      simp only [Function.comp_apply, List.cons_append, byteLen]
      omega

end Rust
