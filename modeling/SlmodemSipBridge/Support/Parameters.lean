import SlmodemSipBridge.Support.Text

/-!
# Lists of parameters

The parameters `name=token` and `name="text"` that header fields are made of, with
commas between them.  A backslash in a quoted text stands before a character that is
meant as it is.  The file supplies the reader of such lists, how the lists it reads
are cut and joined, and that a text that closes its own quotes is one without quotes
and backslashes.
-/

namespace Parameters

open Rust

/-- A parameter. -/
structure Parameter where
  name : Str
  value : Str
  isQuoted : Bool
  deriving DecidableEq, Repr

/-- The text of a parameter. -/
def Parameter.render (p : Parameter) : Str :=
  if p.isQuoted then p.name ++ lit "=\"" ++ p.value ++ lit "\""
  else p.name ++ lit "=" ++ p.value

/-- The parameters with a comma and a blank between them. -/
def render (params : List Parameter) : Str :=
  List.intercalate (lit ", ") (params.map Parameter.render)

/-- The value of the first parameter of that name. -/
def lookup (params : List Parameter) (name : Str) : Option Str :=
  (params.find? fun p => eqIgnoreAsciiCase p.name name).map Parameter.value

theorem lookup_append (params params' : List Parameter) (name : Str) :
    lookup (params ++ params') name = (lookup params name).or (lookup params' name) := by
  simp only [lookup, List.find?_append, Option.map_or]

/-! ## Reading -/

/-- The character may stand in a token. -/
def isTokenChar (c : Char) : Bool := c.isAlphanum || (lit "-.!%*_+`'~").contains c

/-- Read on in a quoted text up to its closing quote, and give what follows.  The flag
says that a backslash came last. -/
def readQuotedFrom : Bool → Str → Option (Str × Str)
  | _, [] => none
  | true, c :: rest => (readQuotedFrom false rest).map (Prod.map (c :: ·) id)
  | false, c :: rest =>
      if c = '"' then some ([], rest)
      else if c = '\\' then readQuotedFrom true rest
      else (readQuotedFrom false rest).map (Prod.map (c :: ·) id)

/-- Read a quoted text after its opening quote. -/
def readQuoted (s : Str) : Option (Str × Str) := readQuotedFrom false s

/-- Read a parameter, and what follows it. -/
def readParameter (s : Str) : Option (Parameter × Str) :=
  let name := s.takeWhile isTokenChar
  if name = [] then none
  else
    match s.dropWhile isTokenChar with
    | '=' :: '"' :: rest =>
        (readQuoted rest).map fun (value, after) => (⟨name, value, true⟩, after)
    | '=' :: rest =>
        let value := rest.takeWhile isTokenChar
        if value = [] then none else some (⟨name, value, false⟩, rest.dropWhile isTokenChar)
    | _ => none

/-- Skip blanks. -/
def skipBlanks (s : Str) : Str := s.dropWhile (· == ' ')

/-- Read at most so many parameters, each after a comma. -/
def readMoreUpTo : ℕ → Str → Option (List Parameter)
  | _, [] => some []
  | n + 1, ',' :: more =>
      match readParameter (skipBlanks more) with
      | none => none
      | some (p, rest) => (readMoreUpTo n rest).map (p :: ·)
  | _, _ => none

/-- Read the parameters that follow, each after a comma. -/
def readMore (s : Str) : Option (List Parameter) := readMoreUpTo s.length s

/-- Read a list of one parameter or more. -/
def read (s : Str) : Option (List Parameter) :=
  match readParameter s with
  | none => none
  | some (p, rest) => (readMore rest).map (p :: ·)

/-! ## Quoted texts -/

@[simp] theorem readQuotedFrom_quote (s : Str) :
    readQuotedFrom false ('"' :: s) = some ([], s) := rfl

@[simp] theorem readQuotedFrom_slash (s : Str) :
    readQuotedFrom false ('\\' :: s) = readQuotedFrom true s := rfl

@[simp] theorem readQuotedFrom_escaped (c : Char) (s : Str) :
    readQuotedFrom true (c :: s) =
      (readQuotedFrom false s).map (Prod.map (c :: ·) id) := rfl

theorem readQuotedFrom_char {c : Char} (hquote : c ≠ '"') (hslash : c ≠ '\\') (s : Str) :
    readQuotedFrom false (c :: s) =
      (readQuotedFrom false s).map (Prod.map (c :: ·) id) := by
  rw [readQuotedFrom, if_neg hquote, if_neg hslash]

theorem map_cons_eq_some {c : Char} {r : Option (Str × Str)} {v rest : Str}
    (h : r.map (Prod.map (c :: ·) id) = some (v, rest)) :
    ∃ v', v = c :: v' ∧ r = some (v', rest) := by
  obtain ⟨⟨v', rest'⟩, hr, heq⟩ := Option.map_eq_some_iff.mp h
  obtain ⟨rfl, rfl⟩ := Prod.mk.inj heq
  exact ⟨v', rfl, hr⟩

/-- What follows the closing quote is not looked at. -/
theorem readQuotedFrom_append {b : Bool} {s v rest : Str}
    (h : readQuotedFrom b s = some (v, rest)) (t : Str) :
    readQuotedFrom b (s ++ t) = some (v, rest ++ t) := by
  induction s generalizing b v with
  | nil => simp [readQuotedFrom] at h
  | cons c s ih =>
      rw [List.cons_append]
      cases b with
      | true =>
          rw [readQuotedFrom_escaped] at h ⊢
          obtain ⟨v', rfl, hs⟩ := map_cons_eq_some h
          rw [ih hs]
          rfl
      | false =>
          by_cases hquote : c = '"'
          · subst hquote
            rw [readQuotedFrom_quote, Option.some.injEq, Prod.mk.injEq] at h
            obtain ⟨rfl, rfl⟩ := h
            rfl
          · by_cases hslash : c = '\\'
            · subst hslash
              rw [readQuotedFrom_slash] at h ⊢
              exact ih h
            · rw [readQuotedFrom_char hquote hslash] at h ⊢
              obtain ⟨v', rfl, hs⟩ := map_cons_eq_some h
              rw [ih hs]
              rfl

/-- A reader that passes a quote closed before it, closed there, or takes it for a
character of the text. -/
theorem readQuotedFrom_cut {b : Bool} {u q v rest : Str}
    (h : readQuotedFrom b (u ++ '"' :: q) = some (v, rest)) :
    (∃ u', rest = u' ++ '"' :: q ∧
        ∀ q', readQuotedFrom b (u ++ '"' :: q') = some (v, u' ++ '"' :: q')) ∨
      (rest = q ∧ ∀ q', readQuotedFrom b (u ++ '"' :: q') = some (v, q')) ∨
      ∃ v', readQuoted q = some (v', rest) := by
  induction u generalizing b v with
  | nil =>
      rw [List.nil_append] at h
      cases b with
      | true =>
          rw [readQuotedFrom_escaped] at h
          obtain ⟨v', -, hq⟩ := map_cons_eq_some h
          exact Or.inr (Or.inr ⟨v', hq⟩)
      | false =>
          rw [readQuotedFrom_quote, Option.some.injEq, Prod.mk.injEq] at h
          obtain ⟨rfl, rfl⟩ := h
          exact Or.inr (Or.inl ⟨rfl, fun q' => rfl⟩)
  | cons c u ih =>
      -- a character of the text comes first in what is read, whatever follows
      have hchar : ∀ {v' : Str}, readQuotedFrom false (u ++ '"' :: q) = some (v', rest) →
          (∀ q', readQuotedFrom b ((c :: u) ++ '"' :: q') =
            (readQuotedFrom false (u ++ '"' :: q')).map (Prod.map (c :: ·) id)) →
          v = c :: v' →
          (∃ u', rest = u' ++ '"' :: q ∧
              ∀ q', readQuotedFrom b ((c :: u) ++ '"' :: q') = some (v, u' ++ '"' :: q')) ∨
            (rest = q ∧ ∀ q', readQuotedFrom b ((c :: u) ++ '"' :: q') = some (v, q')) ∨
            ∃ v', readQuoted q = some (v', rest) := by
        rintro v' hu hstep rfl
        rcases ih hu with ⟨u', hrest, hall⟩ | ⟨hrest, hall⟩ | hinside
        · exact Or.inl ⟨u', hrest, fun q' => by rw [hstep, hall q']; rfl⟩
        · exact Or.inr (Or.inl ⟨hrest, fun q' => by rw [hstep, hall q']; rfl⟩)
        · exact Or.inr (Or.inr hinside)
      rw [List.cons_append] at h
      cases b with
      | true =>
          rw [readQuotedFrom_escaped] at h
          obtain ⟨v', hv, hu⟩ := map_cons_eq_some h
          exact hchar hu (fun q' => rfl) hv
      | false =>
          by_cases hquote : c = '"'
          · subst hquote
            rw [readQuotedFrom_quote, Option.some.injEq, Prod.mk.injEq] at h
            obtain ⟨rfl, rfl⟩ := h
            exact Or.inl ⟨u, rfl, fun q' => rfl⟩
          · by_cases hslash : c = '\\'
            · subst hslash
              exact ih h
            · rw [readQuotedFrom_char hquote hslash] at h
              obtain ⟨v', hv, hu⟩ := map_cons_eq_some h
              exact hchar hu (fun q' => readQuotedFrom_char hquote hslash _) hv

/-- The text stands for itself between quotes. -/
def Verbatim (s : Str) : Prop := '"' ∉ s ∧ '\\' ∉ s

instance (s : Str) : Decidable (Verbatim s) := by
  unfold Verbatim
  infer_instance

theorem verbatim_cons {c : Char} {s : Str} :
    Verbatim (c :: s) ↔ (c ≠ '"' ∧ c ≠ '\\') ∧ Verbatim s := by
  simp only [Verbatim, List.mem_cons, not_or, ne_comm (b := c)]
  tauto

/-- A text without quotes and backslashes is read as it is. -/
theorem readQuoted_verbatim {v : Str} (h : Verbatim v) (rest : Str) :
    readQuoted (v ++ '"' :: rest) = some (v, rest) := by
  induction v with
  | nil => rfl
  | cons c v ih =>
      obtain ⟨⟨hquote, hslash⟩, hv⟩ := verbatim_cons.mp h
      rw [readQuoted] at ih ⊢
      rw [List.cons_append, readQuotedFrom_char hquote hslash, ih hv]
      rfl

/-- Once a backslash is read, what is read falls behind the text: it never has as many
backslashes at that place. -/
theorem readQuotedFrom_behind {b : Bool} {j : ℕ} {w rest v rest' x y : Str}
    (h : readQuotedFrom b (w ++ '"' :: rest) = some (v, rest')) (hx : x.head? ≠ some '\\') :
    v ++ x ≠ List.replicate (j + 1) '\\' ++ (w ++ y) := by
  have hempty : ∀ {j : ℕ} {z : Str}, ([] : Str) ++ x ≠ List.replicate (j + 1) '\\' ++ z := by
    intro j z heq
    rw [List.nil_append, List.replicate_succ] at heq
    simp [heq] at hx
  have hfirst : ∀ {j : ℕ} {c : Char} {v' z : Str},
      c :: v' ++ x = List.replicate (j + 1) '\\' ++ z →
        c = '\\' ∧ v' ++ x = List.replicate j '\\' ++ z := by
    intro j c v' z heq
    rw [List.replicate_succ] at heq
    exact List.cons_eq_cons.mp heq
  have hmore : ∀ (j : ℕ) (z : Str),
      List.replicate j '\\' ++ '\\' :: z = List.replicate (j + 1) '\\' ++ z := by
    intro j z
    rw [List.replicate_succ', List.append_assoc]
    rfl
  induction w generalizing b j v with
  | nil =>
      intro heq
      cases b with
      | true =>
          obtain ⟨v', rfl, -⟩ := map_cons_eq_some h
          exact absurd (hfirst heq).1 (by decide)
      | false =>
          obtain ⟨rfl, -⟩ := Prod.mk.inj (Option.some.inj h)
          exact hempty heq
  | cons c w ih =>
      intro heq
      cases b with
      | true =>
          obtain ⟨v', rfl, hw⟩ := map_cons_eq_some h
          obtain ⟨rfl, hv'⟩ := hfirst heq
          rw [List.cons_append, hmore] at hv'
          exact ih hw hv'
      | false =>
          by_cases hquote : c = '"'
          · subst hquote
            obtain ⟨rfl, -⟩ := Prod.mk.inj (Option.some.inj h)
            exact hempty heq
          · by_cases hslash : c = '\\'
            · subst hslash
              rw [List.cons_append, hmore] at heq
              exact ih h heq
            · rw [List.cons_append, readQuotedFrom_char hquote hslash] at h
              obtain ⟨v', rfl, -⟩ := map_cons_eq_some h
              exact hslash (hfirst heq).1

/-- A text that is read as it stands, as far as what comes before a colon tells, is
one without quotes and backslashes, and its closing quote is the one behind it. -/
theorem verbatim_of_readQuoted {v rest v' rest' x y : Str}
    (h : readQuoted (v ++ '"' :: rest) = some (v', rest')) (heq : v' ++ x = v ++ y)
    (hx : x.head? ≠ some '\\' ∧ x.head? ≠ some '"') : Verbatim v ∧ v' = v ∧ rest' = rest := by
  rw [readQuoted] at h
  induction v generalizing v' with
  | nil =>
      obtain ⟨rfl, rfl⟩ := Prod.mk.inj (Option.some.inj h)
      exact ⟨by decide, rfl, rfl⟩
  | cons c v ih =>
      by_cases hquote : c = '"'
      · subst hquote
        obtain ⟨rfl, -⟩ := Prod.mk.inj (Option.some.inj h)
        rw [List.nil_append] at heq
        simp [heq] at hx
      · by_cases hslash : c = '\\'
        · subst hslash
          have hread : readQuotedFrom true (v ++ '"' :: rest) = some (v', rest') := h
          exact absurd heq (readQuotedFrom_behind (j := 0) hread hx.1)
        · rw [List.cons_append, readQuotedFrom_char hquote hslash] at h
          obtain ⟨v'', rfl, hv⟩ := map_cons_eq_some h
          obtain ⟨hverbatim, rfl, hrest⟩ := ih hv (List.cons_eq_cons.mp heq).2
          exact ⟨verbatim_cons.mpr ⟨⟨hquote, hslash⟩, hverbatim⟩, rfl, hrest⟩

/-! ## Parameters -/

/-- What may follow a parameter: nothing, or a comma. -/
def Separated (rest : Str) : Prop := rest = [] ∨ ∃ t, rest = ',' :: t

/-- A token ends where no token character follows. -/
theorem takeWhile_token {s t : Str} (hs : ∀ c ∈ s, isTokenChar c = true)
    (ht : ∀ c ∈ t.head?, isTokenChar c = false) :
    (s ++ t).takeWhile isTokenChar = s ∧ (s ++ t).dropWhile isTokenChar = t := by
  have hnone : t.takeWhile isTokenChar = [] ∧ t.dropWhile isTokenChar = t := by
    cases t with
    | nil => exact ⟨rfl, rfl⟩
    | cons c t =>
        have hc := ht c rfl
        simp [hc]
  rw [List.takeWhile_append_of_pos hs, List.dropWhile_append_of_pos hs, hnone.1, hnone.2,
    List.append_nil]
  exact ⟨rfl, rfl⟩

/-- What follows a character that stands in no token does not lengthen one. -/
theorem takeWhile_stopped (s : Str) {t : Str} (ht : ∀ c ∈ t.head?, isTokenChar c = false) :
    (s ++ t).takeWhile isTokenChar = s.takeWhile isTokenChar ∧
      (s ++ t).dropWhile isTokenChar = s.dropWhile isTokenChar ++ t := by
  have hsplit := takeWhile_token (s := s.takeWhile isTokenChar)
    (t := s.dropWhile isTokenChar ++ t) (fun c hc => List.mem_takeWhile_imp hc) ?_
  · rwa [← List.append_assoc, List.takeWhile_append_dropWhile] at hsplit
  · intro c hc
    cases hdrop : s.dropWhile isTokenChar with
    | nil =>
        rw [hdrop] at hc
        exact ht c hc
    | cons d rest =>
        rw [hdrop] at hc
        obtain rfl : d = c := by simpa using hc
        have hhead := List.head?_dropWhile_not isTokenChar s
        rw [hdrop] at hhead
        simpa using hhead

/-- A token. -/
def IsToken (s : Str) : Prop := s ≠ [] ∧ ∀ c ∈ s, isTokenChar c = true

instance (s : Str) : Decidable (IsToken s) := by
  unfold IsToken
  infer_instance

theorem readParameter_quoted {name : Str} (hname : IsToken name) (s : Str) :
    readParameter (name ++ '=' :: '"' :: s) =
      (readQuoted s).map fun (value, after) => (⟨name, value, true⟩, after) := by
  obtain ⟨htake, hdrop⟩ := takeWhile_token (t := '=' :: '"' :: s) hname.2
    (by simp [isTokenChar, lit])
  simp only [readParameter, htake, hdrop, if_neg hname.1]

theorem readParameter_token {name s : Str} (hname : IsToken name) (hs : s.head? ≠ some '"') :
    readParameter (name ++ '=' :: s) =
      if s.takeWhile isTokenChar = [] then none
      else some (⟨name, s.takeWhile isTokenChar, false⟩, s.dropWhile isTokenChar) := by
  obtain ⟨htake, hdrop⟩ := takeWhile_token (t := '=' :: s) hname.2
    (by simp [isTokenChar, lit])
  simp only [readParameter, htake, hdrop, if_neg hname.1]
  split
  · next rest heq =>
    obtain ⟨-, rfl⟩ := List.cons_eq_cons.mp heq
    exact absurd rfl hs
  · next rest _ heq =>
    obtain ⟨-, rfl⟩ := List.cons_eq_cons.mp heq
    rfl
  · next hnone => exact absurd rfl (hnone s)

/-- What is read as a parameter. -/
inductive ReadsParameter : Str → Parameter → Str → Prop where
  | quoted (name s value rest : Str) (hname : IsToken name)
      (hvalue : readQuoted s = some (value, rest)) :
      ReadsParameter (name ++ '=' :: '"' :: s) ⟨name, value, true⟩ rest
  | token (name s : Str) (hname : IsToken name) (hopen : s.head? ≠ some '"')
      (hvalue : s.takeWhile isTokenChar ≠ []) :
      ReadsParameter (name ++ '=' :: s) ⟨name, s.takeWhile isTokenChar, false⟩
        (s.dropWhile isTokenChar)

theorem readParameter_eq_some_iff {s : Str} {p : Parameter} {rest : Str} :
    readParameter s = some (p, rest) ↔ ReadsParameter s p rest := by
  constructor
  · intro h
    simp only [readParameter] at h
    split at h
    · simp at h
    · next hne =>
      have hsplit := List.takeWhile_append_dropWhile (p := isTokenChar) (l := s)
      have hname : IsToken (s.takeWhile isTokenChar) :=
        ⟨hne, fun c hc => List.mem_takeWhile_imp hc⟩
      split at h
      · next r hdrop =>
        obtain ⟨⟨value, after⟩, hread, heq⟩ := Option.map_eq_some_iff.mp h
        obtain ⟨rfl, rfl⟩ := Prod.mk.inj heq
        rw [hdrop] at hsplit
        have hquoted := ReadsParameter.quoted _ r value after hname hread
        rwa [hsplit] at hquoted
      · next r hopen hdrop =>
        split at h
        · simp at h
        · next hvalue =>
          obtain ⟨rfl, rfl⟩ := Prod.mk.inj (Option.some.inj h)
          rw [hdrop] at hsplit
          have hhead : r.head? ≠ some '"' := by
            intro hquote
            obtain ⟨t, rfl⟩ := List.head?_eq_some_iff.mp hquote
            exact hopen t rfl
          have htoken := ReadsParameter.token _ r hname hhead hvalue
          rwa [hsplit] at htoken
      · simp at h
  · rintro (⟨name, r, value, rest, hname, hvalue⟩ | ⟨name, r, hname, hopen, hvalue⟩)
    · rw [readParameter_quoted hname, hvalue]
      rfl
    · rw [readParameter_token hname hopen, if_neg hvalue]

/-- A parameter is read whatever follows it after a comma. -/
theorem ReadsParameter.append {s : Str} {p : Parameter} {rest t : Str}
    (h : ReadsParameter s p rest) (ht : Separated t) : ReadsParameter (s ++ t) p (rest ++ t) := by
  have hstop : ∀ c ∈ t.head?, isTokenChar c = false := by
    rcases ht with rfl | ⟨u, rfl⟩
    · simp
    · simp [isTokenChar, lit]
  cases h with
  | quoted name r value rest hname hvalue =>
      rw [List.append_assoc, List.cons_append, List.cons_append]
      exact .quoted name (r ++ t) value (rest ++ t) hname (readQuotedFrom_append hvalue t)
  | token name r hname hopen hvalue =>
      obtain ⟨htake, hdrop⟩ := takeWhile_stopped r hstop
      rw [List.append_assoc, List.cons_append, ← htake, ← hdrop]
      refine .token name (r ++ t) hname ?_ (by rwa [htake])
      cases r with
      | nil => exact absurd rfl hvalue
      | cons c r => exact hopen

/-- A parameter that is read past a quote is read up to where the quoted text goes on,
ends with the quote, or takes what follows for a part of its value. -/
theorem ReadsParameter.cut {u q rest : Str} {p : Parameter}
    (h : ReadsParameter (u ++ '"' :: q) p rest) :
    (∃ u', rest = u' ++ '"' :: q ∧
        ∀ q', ReadsParameter (u ++ '"' :: q') p (u' ++ '"' :: q')) ∨
      (rest = q ∧ ∀ q', ReadsParameter (u ++ '"' :: q') p q') ∨
      ∃ v, readQuoted q = some (v, rest) := by
  -- the name ends before the quote
  have hsplit : ∀ {name r : Str}, IsToken name → name ++ '=' :: r = u ++ '"' :: q →
      ∃ w, u = name ++ '=' :: w ∧ r = w ++ '"' :: q := by
    intro name r hname heq
    rcases List.append_eq_append_iff.mp heq with ⟨w, hu, hr⟩ | ⟨w, hname', hr⟩
    · cases w with
      | nil => simp at hr
      | cons c w =>
          obtain ⟨rfl, rfl⟩ := List.cons_eq_cons.mp hr
          exact ⟨w, hu, rfl⟩
    · cases w with
      | nil => simp at hr
      | cons c w =>
          obtain ⟨rfl, -⟩ := List.cons_eq_cons.mp hr
          have hquote := hname.2 '"' (by simp [hname'])
          simp [isTokenChar, lit] at hquote
  generalize hs : u ++ '"' :: q = s at h
  cases h with
  | quoted name r value rest hname hvalue =>
      obtain ⟨w, rfl, hr⟩ := hsplit hname hs.symm
      cases w with
      | nil =>
          obtain ⟨-, rfl⟩ := List.cons_eq_cons.mp hr
          exact Or.inr (Or.inr ⟨value, hvalue⟩)
      | cons c w =>
          obtain ⟨rfl, rfl⟩ := List.cons_eq_cons.mp hr
          have htext : ∀ q', (name ++ '=' :: '"' :: w) ++ '"' :: q' =
              name ++ '=' :: '"' :: (w ++ '"' :: q') := by
            intro q'
            simp
          rcases readQuotedFrom_cut hvalue with ⟨u', hrest, hall⟩ | ⟨hrest, hall⟩ | hinside
          · refine Or.inl ⟨u', hrest, fun q' => ?_⟩
            rw [htext]
            exact .quoted name _ value _ hname (hall q')
          · refine Or.inr (Or.inl ⟨hrest, fun q' => ?_⟩)
            rw [htext]
            exact .quoted name _ value _ hname (hall q')
          · exact Or.inr (Or.inr hinside)
  | token name r hname hopen hvalue =>
      obtain ⟨w, rfl, rfl⟩ := hsplit hname hs.symm
      have hstop : ∀ q' : Str, ∀ c ∈ ('"' :: q').head?, isTokenChar c = false := by
        simp [isTokenChar, lit]
      have hw : w ≠ [] := by
        rintro rfl
        exact hopen rfl
      refine Or.inl ⟨w.dropWhile isTokenChar, (takeWhile_stopped w (hstop q)).2, fun q' => ?_⟩
      rw [(takeWhile_stopped w (hstop q)).1] at hvalue ⊢
      rw [← (takeWhile_stopped w (hstop q')).1] at hvalue ⊢
      rw [← (takeWhile_stopped w (hstop q')).2, List.append_assoc, List.cons_append]
      refine .token name _ hname ?_ hvalue
      obtain ⟨c, w, rfl⟩ := List.exists_cons_of_ne_nil hw
      exact hopen

/-! ## Lists of parameters -/

/-- What is read as parameters that follow others. -/
inductive ReadsMore : Str → List Parameter → Prop where
  | nil : ReadsMore [] []
  | cons (more : Str) (p : Parameter) (rest : Str) (params : List Parameter)
      (hp : ReadsParameter (skipBlanks more) p rest) (hrest : ReadsMore rest params) :
      ReadsMore (',' :: more) (p :: params)

theorem readQuotedFrom_length {b : Bool} {s v rest : Str}
    (h : readQuotedFrom b s = some (v, rest)) : rest.length < s.length := by
  induction s generalizing b v with
  | nil => simp [readQuotedFrom] at h
  | cons c s ih =>
      have hmap : ∀ {v : Str}, (readQuotedFrom false s).map (Prod.map (c :: ·) id) =
          some (v, rest) → rest.length < (c :: s).length := by
        intro v hv
        obtain ⟨v', -, hs⟩ := map_cons_eq_some hv
        exact Nat.lt_succ_of_lt (ih hs)
      cases b with
      | true => exact hmap h
      | false =>
          by_cases hquote : c = '"'
          · subst hquote
            obtain ⟨-, rfl⟩ := Prod.mk.inj (Option.some.inj h)
            exact Nat.lt_succ_self _
          · by_cases hslash : c = '\\'
            · subst hslash
              exact Nat.lt_succ_of_lt (ih h)
            · rw [readQuotedFrom_char hquote hslash] at h
              exact hmap h

theorem ReadsParameter.length_lt {s rest : Str} {p : Parameter} (h : ReadsParameter s p rest) :
    rest.length < s.length := by
  cases h with
  | quoted name r value rest hname hvalue =>
      have hless := readQuotedFrom_length hvalue
      simp only [List.length_append, List.length_cons]
      omega
  | token name r hname hopen hvalue =>
      have hless : (r.dropWhile isTokenChar).length ≤ r.length :=
        (List.dropWhile_sublist _).length_le
      simp only [List.length_append, List.length_cons]
      omega

theorem readMoreUpTo_of_reads {s : Str} {params : List Parameter} (h : ReadsMore s params)
    {n : ℕ} (hn : s.length ≤ n) : readMoreUpTo n s = some params := by
  induction h generalizing n with
  | nil => cases n <;> rfl
  | cons more p rest params hp hrest ih =>
      obtain ⟨n, rfl⟩ : ∃ k, n = k + 1 := ⟨n - 1, by simp at hn; omega⟩
      have hblanks : (skipBlanks more).length ≤ more.length :=
        (List.dropWhile_sublist _).length_le
      have hless := hp.length_lt
      have hle : rest.length ≤ n := by simp at hn; omega
      rw [readMoreUpTo, readParameter_eq_some_iff.mpr hp]
      simp only [ih hle, Option.map_some]

theorem reads_of_readMoreUpTo {n : ℕ} {s : Str} {params : List Parameter}
    (h : readMoreUpTo n s = some params) : ReadsMore s params := by
  induction n generalizing s params with
  | zero =>
      cases s with
      | nil =>
          obtain rfl := Option.some.inj h
          exact .nil
      | cons c s => simp [readMoreUpTo] at h
  | succ n ih =>
      unfold readMoreUpTo at h
      split at h
      · obtain rfl := Option.some.inj h
        exact .nil
      · next more hn =>
        split at h
        · simp at h
        · next p rest hp =>
          obtain ⟨params', hrest, rfl⟩ := Option.map_eq_some_iff.mp h
          obtain rfl := Nat.succ.inj hn
          exact .cons more p rest params' (readParameter_eq_some_iff.mp hp) (ih hrest)
      · simp at h

theorem readMore_eq_some_iff {s : Str} {params : List Parameter} :
    readMore s = some params ↔ ReadsMore s params :=
  ⟨reads_of_readMoreUpTo, fun h => readMoreUpTo_of_reads h le_rfl⟩

/-- A text is read in one way. -/
theorem ReadsMore.unique {s : Str} {params params' : List Parameter} (h : ReadsMore s params)
    (h' : ReadsMore s params') : params = params' := by
  have heq := (readMore_eq_some_iff.mpr h).symm.trans (readMore_eq_some_iff.mpr h')
  exact Option.some.inj heq

theorem ReadsMore.cons_iff {more : Str} {params : List Parameter} :
    ReadsMore (',' :: more) params ↔ ∃ p rest params', params = p :: params' ∧
      ReadsParameter (skipBlanks more) p rest ∧ ReadsMore rest params' := by
  constructor
  · rintro (_ | ⟨_, p, rest, params', hp, hrest⟩)
    exact ⟨p, rest, params', rfl, hp, hrest⟩
  · rintro ⟨p, rest, params', rfl, hp, hrest⟩
    exact .cons more p rest params' hp hrest

/-- Lists are joined. -/
theorem ReadsMore.append {s t : Str} {params params' : List Parameter}
    (h : ReadsMore s params) (h' : ReadsMore t params') (ht : Separated t) :
    ReadsMore (s ++ t) (params ++ params') := by
  induction h with
  | nil => exact h'
  | cons more p rest params hp hrest ih =>
      refine .cons (more ++ t) p (rest ++ t) (params ++ params') ?_ ih
      have hne : skipBlanks more ≠ [] := by
        intro hnil
        have hless := hp.length_lt
        simp [hnil] at hless
      have hskip : skipBlanks (more ++ t) = skipBlanks more ++ t := by
        rw [skipBlanks, List.dropWhile_append, if_neg]
        · rfl
        · simpa [skipBlanks] using hne
      rw [hskip]
      exact hp.append ht

/-- A list is cut after a quote: what follows it is no part of a value, since it cannot be
read on from inside one. -/
theorem ReadsMore.split {t q : Str} {params : List Parameter}
    (hinside : ∀ v after, readQuoted q = some (v, after) → ∀ params, ¬ ReadsMore after params)
    (h : ReadsMore (t ++ '"' :: q) params) :
    ∃ before after, params = before ++ after ∧ ReadsMore (t ++ ['"']) before ∧
      ReadsMore q after := by
  generalize hs : t ++ '"' :: q = s at h
  induction h generalizing t with
  | nil => simp at hs
  | cons more p rest params hp hrest ih =>
      cases t with
      | nil => simp at hs
      | cons c t =>
          rw [List.cons_append] at hs
          obtain ⟨rfl, rfl⟩ := List.cons_eq_cons.mp hs
          have hskip : ∀ q', skipBlanks (t ++ '"' :: q') = skipBlanks t ++ '"' :: q' := by
            intro q'
            rw [skipBlanks, List.dropWhile_append]
            split
            · next hnil =>
              rw [skipBlanks, List.isEmpty_iff.mp hnil]
              rfl
            · rfl
          rw [hskip] at hp
          rcases hp.cut with ⟨u', rfl, hall⟩ | ⟨rfl, hall⟩ | ⟨v, hv⟩
          · obtain ⟨before, after, rfl, hbefore, hafter⟩ := ih rfl
            refine ⟨p :: before, after, rfl, ?_, hafter⟩
            refine .cons (t ++ ['"']) p (u' ++ ['"']) before ?_ hbefore
            rw [hskip]
            exact hall []
          · refine ⟨[p], params, rfl, ?_, hrest⟩
            refine .cons (t ++ ['"']) p [] [] ?_ .nil
            rw [hskip]
            exact hall []
          · exact absurd hrest (hinside v rest hv params)

theorem ReadsParameter.unique {s rest rest' : Str} {p p' : Parameter}
    (h : ReadsParameter s p rest) (h' : ReadsParameter s p' rest') : p = p' ∧ rest = rest' := by
  have heq := (readParameter_eq_some_iff.mpr h).symm.trans (readParameter_eq_some_iff.mpr h')
  exact Prod.mk.inj (Option.some.inj heq)

theorem read_eq_some_iff {s : Str} {params : List Parameter} :
    read s = some params ↔ ∃ p rest params', params = p :: params' ∧
      ReadsParameter s p rest ∧ ReadsMore rest params' := by
  rw [read]
  constructor
  · intro h
    split at h
    · simp at h
    · next p rest hp =>
      obtain ⟨params', hrest, rfl⟩ := Option.map_eq_some_iff.mp h
      exact ⟨p, rest, params', rfl, readParameter_eq_some_iff.mp hp,
        readMore_eq_some_iff.mp hrest⟩
  · rintro ⟨p, rest, params', rfl, hp, hrest⟩
    rw [readParameter_eq_some_iff.mpr hp]
    simp only [readMore_eq_some_iff.mpr hrest, Option.map_some]

/-! ## Printed lists -/

/-- The value of a parameter can be told from what follows it. -/
structure Parameter.Clear (p : Parameter) : Prop where
  name : IsToken p.name
  quoted : p.isQuoted = true → Verbatim p.value
  token : p.isQuoted = false → IsToken p.value

/-- A parameter is read from its text. -/
theorem reads_render {p : Parameter} (h : p.Clear) {rest : Str} (hrest : Separated rest) :
    ReadsParameter (p.render ++ rest) p rest := by
  obtain ⟨name, value, isQuoted⟩ := p
  obtain ⟨hname, hquoted, htoken⟩ := h
  cases isQuoted with
  | true =>
      have htext : Parameter.render ⟨name, value, true⟩ ++ rest =
          name ++ '=' :: '"' :: (value ++ '"' :: rest) := by
        simp [Parameter.render, lit]
      rw [htext]
      exact .quoted name _ value rest hname (readQuoted_verbatim (hquoted rfl) rest)
  | false =>
      have hvalue : IsToken value := htoken rfl
      have htext : Parameter.render ⟨name, value, false⟩ ++ rest =
          name ++ '=' :: (value ++ rest) := by
        simp [Parameter.render, lit]
      have hstop : ∀ c ∈ rest.head?, isTokenChar c = false := by
        rcases hrest with rfl | ⟨t, rfl⟩
        · simp
        · simp [isTokenChar, lit]
      obtain ⟨htake, hdrop⟩ := takeWhile_token hvalue.2 hstop
      have hread := ReadsParameter.token name (value ++ rest) hname ?_
        (by rw [htake]; exact hvalue.1)
      · rwa [htake, hdrop, ← htext] at hread
      · intro hquote
        obtain ⟨c, value, rfl⟩ := List.exists_cons_of_ne_nil hvalue.1
        obtain rfl : c = '"' := by simpa using hquote
        have htok := hvalue.2 '"' List.mem_cons_self
        simp [isTokenChar, lit] at htok

/-- The text of parameters that follow others. -/
def renderMore (params : List Parameter) : Str := params.flatMap fun p => lit ", " ++ p.render

theorem separated_renderMore (params : List Parameter) : Separated (renderMore params) := by
  cases params with
  | nil => exact Or.inl rfl
  | cons p params => exact Or.inr ⟨_, rfl⟩

theorem render_cons_cons (p q : Parameter) (params : List Parameter) :
    render (p :: q :: params) = p.render ++ lit ", " ++ render (q :: params) := by
  simp [render, List.intercalate]

theorem render_cons (p : Parameter) (params : List Parameter) :
    render (p :: params) = p.render ++ renderMore params := by
  induction params generalizing p with
  | nil => simp [render, renderMore, List.intercalate]
  | cons q params ih =>
      rw [render_cons_cons, ih, renderMore, renderMore, List.flatMap_cons]
      simp

/-- What no parameter has in it their text does not have. -/
theorem notMem_render {params : List Parameter} {c : Char} (hc : c ∉ lit "=\", ")
    (h : ∀ p ∈ params, c ∉ p.name ∧ c ∉ p.value) : c ∉ render params := by
  have hall : c ≠ '=' ∧ c ≠ '"' ∧ c ≠ ',' ∧ c ≠ ' ' := by simpa [lit] using hc
  obtain ⟨hequals, hquote, hcomma, hblank⟩ := hall
  have hrender : ∀ p ∈ params, c ∉ p.render := by
    intro p hp
    obtain ⟨hname, hvalue⟩ := h p hp
    rw [Parameter.render]
    split <;> simp [lit, hname, hvalue, hequals, hquote]
  cases params with
  | nil => simp [render, List.intercalate]
  | cons p params =>
      rw [List.forall_mem_cons] at hrender
      rw [render_cons, List.mem_append, not_or, renderMore, List.mem_flatMap]
      refine ⟨hrender.1, ?_⟩
      rintro ⟨q, hq, hmem⟩
      have hrest := hrender.2 q hq
      simp [lit, hcomma, hblank, hrest] at hmem

/-- A token does not begin with a blank. -/
theorem skipBlanks_token {name : Str} (h : IsToken name) (s : Str) :
    skipBlanks (' ' :: (name ++ s)) = name ++ s := by
  obtain ⟨c, name, rfl⟩ := List.exists_cons_of_ne_nil h.1
  have hc : c ≠ ' ' := by
    rintro rfl
    have hblank := h.2 ' ' List.mem_cons_self
    simp [isTokenChar, lit] at hblank
  simp [skipBlanks, hc]

theorem Parameter.render_eq (p : Parameter) : ∃ s, p.render = p.name ++ '=' :: s := by
  rw [Parameter.render]
  split
  · exact ⟨'"' :: (p.value ++ ['"']), by simp [lit]⟩
  · exact ⟨p.value, by simp [lit]⟩

/-- The text of a quoted parameter that follows others, and what comes after it. -/
def quotedText (name value rest : Str) : Str :=
  ',' :: ' ' :: (name ++ '=' :: '"' :: (value ++ '"' :: rest))

/-- A quoted parameter is read where it follows others. -/
theorem ReadsMore.quotedText_iff {name text after : Str} (hname : IsToken name)
    {params : List Parameter} :
    ReadsMore (quotedText name text after) params ↔
      ∃ value rest params', params = ⟨name, value, true⟩ :: params' ∧
        readQuoted (text ++ '"' :: after) = some (value, rest) ∧ ReadsMore rest params' := by
  rw [quotedText, ReadsMore.cons_iff, skipBlanks_token hname]
  constructor
  · rintro ⟨p, rest, params', rfl, hp, hrest⟩
    have hread := readParameter_eq_some_iff.mpr hp
    rw [readParameter_quoted hname] at hread
    obtain ⟨⟨value, after⟩, hvalue, heq⟩ := Option.map_eq_some_iff.mp hread
    obtain ⟨rfl, rfl⟩ := Prod.mk.inj heq
    exact ⟨value, after, params', rfl, hvalue, hrest⟩
  · rintro ⟨value, rest, params', rfl, hvalue, hrest⟩
    exact ⟨_, rest, params', rfl, .quoted name _ value rest hname hvalue, hrest⟩

/-- A parameter whose value is clear is read where it follows others. -/
theorem ReadsMore.render_iff {p : Parameter} (h : p.Clear) {rest : Str} (hrest : Separated rest)
    {params : List Parameter} :
    ReadsMore (',' :: ' ' :: (p.render ++ rest)) params ↔
      ∃ params', params = p :: params' ∧ ReadsMore rest params' := by
  obtain ⟨s, hs⟩ := p.render_eq
  have hread := reads_render h hrest
  rw [ReadsMore.cons_iff, hs, List.append_assoc, skipBlanks_token h.name, ← List.append_assoc,
    ← hs]
  constructor
  · rintro ⟨p', rest', params', rfl, hp', hrest'⟩
    obtain ⟨rfl, rfl⟩ := hp'.unique hread
    exact ⟨params', rfl, hrest'⟩
  · rintro ⟨params', rfl, hrest'⟩
    exact ⟨p, rest, params', rfl, hread, hrest'⟩

/-- Parameters are read from their text, one after the other. -/
theorem readsMore_renderMore {params : List Parameter} (h : ∀ p ∈ params, p.Clear) :
    ReadsMore (renderMore params) params := by
  induction params with
  | nil => exact .nil
  | cons p params ih =>
      rw [List.forall_mem_cons] at h
      have htext : renderMore (p :: params) =
          ',' :: ' ' :: (p.render ++ renderMore params) := by
        simp [renderMore, lit]
      rw [htext, ReadsMore.render_iff h.1 (separated_renderMore params)]
      exact ⟨params, rfl, ih h.2⟩

/-- A list is read from its text. -/
theorem read_render {params : List Parameter} (hne : params ≠ []) (h : ∀ p ∈ params, p.Clear) :
    read (render params) = some params := by
  obtain ⟨p, params, rfl⟩ := List.exists_cons_of_ne_nil hne
  rw [List.forall_mem_cons] at h
  rw [render_cons, read_eq_some_iff]
  exact ⟨p, _, params, rfl, reads_render h.1 (separated_renderMore params),
    readsMore_renderMore h.2⟩

end Parameters
