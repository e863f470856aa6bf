import SlmodemSipBridge.Support.Net

/-!
# Reading back what is printed

Numbers, words and lines that are printed come back from the readers of the
standard library: a decimal number from `parse`, the words of a text from
`split_whitespace`, the lines of a text from `lines`, and the end of a block of
lines from a search for the empty line behind it.
-/

namespace Rust

/-! ## Literals -/

/-- Literals next to each other are one literal. -/
theorem lit_append (s t : String) : lit s ++ lit t = lit (s ++ t) := by simp [lit]

theorem lit_append_append (s t : String) (rest : Str) :
    lit s ++ (lit t ++ rest) = lit (s ++ t) ++ rest := by
  rw [← List.append_assoc, lit_append]

/-! ## Numbers -/

/-- Digits read on are a number no smaller. -/
theorem le_ofDigitChars (s : Str) (n : ℕ) : n ≤ Nat.ofDigitChars 10 s n := by
  rw [Nat.ofDigitChars_eq_ofDigitChars_zero]
  have hpow : 1 ≤ 10 ^ s.length := Nat.one_le_pow _ _ (by decide)
  calc n = 1 * n := (Nat.one_mul n).symm
    _ ≤ 10 ^ s.length * n := Nat.mul_le_mul_right n hpow
    _ ≤ 10 ^ s.length * n + Nat.ofDigitChars 10 s 0 := Nat.le_add_right _ _

theorem parseDigits_of_digits {max : ℕ} {s : Str} (hdigits : ∀ c ∈ s, c.isDigit = true) (n : ℕ)
    (h : Nat.ofDigitChars 10 s n ≤ max) :
    parseDigits max n s = some (Nat.ofDigitChars 10 s n) := by
  induction s generalizing n with
  | nil => rfl
  | cons c s ih =>
      rw [List.forall_mem_cons] at hdigits
      have hc : '0' ≤ c ∧ c ≤ '9' := by
        have hdigit := hdigits.1
        simp only [Char.isDigit, ge_iff_le, Bool.and_eq_true, decide_eq_true_eq] at hdigit
        exact hdigit
      have hnext : Nat.ofDigitChars 10 (c :: s) n =
          Nat.ofDigitChars 10 s (n * 10 + (c.toNat - '0'.toNat)) := by
        rw [Nat.ofDigitChars_cons, Nat.mul_comm]
      rw [hnext] at h ⊢
      have hle := le_ofDigitChars s (n * 10 + (c.toNat - '0'.toNat))
      simp only [parseDigits, if_pos hc, if_pos (Nat.le_trans hle h)]
      exact ih hdigits.2 _ h

theorem isDigit_of_mem_decimal {n : ℕ} {c : Char} (h : c ∈ decimal n) : c.isDigit = true :=
  Nat.isDigit_of_mem_toDigits (by decide) (by decide) h

theorem decimal_ne_nil (n : ℕ) : decimal n ≠ [] := Nat.toDigits_ne_nil

/-- A number that is not too large is read back. -/
theorem parseUnsigned_decimal {max n : ℕ} (h : n ≤ max) :
    parseUnsigned max (decimal n) = some n := by
  have hvalue : Nat.ofDigitChars 10 (decimal n) 0 = n := Nat.ofDigitChars_ten_toDigits
  have hdigits : ∀ c ∈ decimal n, c.isDigit = true := fun c hc => isDigit_of_mem_decimal hc
  have hread : parseDigits max 0 (decimal n) = some n := by
    rw [parseDigits_of_digits hdigits 0 (by rwa [hvalue]), hvalue]
  have hsign : '+' ∉ decimal n := by
    intro hmem
    have hplus := hdigits '+' hmem
    contradiction
  unfold parseUnsigned
  split
  · next hnil => exact absurd hnil (decimal_ne_nil n)
  · next hplus => simp [hplus] at hsign
  · next digits hplus => simp [hplus] at hsign
  · exact hread

/-! ## Words -/

/-- A text without whitespace. -/
def NoBlanks (s : Str) : Prop := ∀ c ∈ s, isWhitespace c = false

instance (s : Str) : Decidable (NoBlanks s) :=
  List.decidableBAll (fun c => isWhitespace c = false) s

/-- Digits are no whitespace. -/
theorem isWhitespace_of_isDigit {c : Char} (h : c.isDigit = true) :
    isWhitespace c = false := by
  simp only [Char.isDigit, ge_iff_le, Bool.and_eq_true, decide_eq_true_eq] at h
  have hlo : 48 ≤ c.toNat := h.1
  have hhi : c.toNat ≤ 57 := h.2
  simp only [isWhitespace, Bool.or_eq_false_iff, Bool.and_eq_false_iff, beq_eq_false_iff_ne,
    decide_eq_false_iff_not]
  omega

theorem noBlanks_decimal (n : ℕ) : NoBlanks (decimal n) :=
  fun _ hc => isWhitespace_of_isDigit (isDigit_of_mem_decimal hc)

theorem NoBlanks.append {s t : Str} (hs : NoBlanks s) (ht : NoBlanks t) : NoBlanks (s ++ t) :=
  fun c hc => (List.mem_append.mp hc).elim (hs c) (ht c)

/-- The digits of a number. -/
theorem mem_toDigits {b n : ℕ} {c : Char} (hb : 1 < b) (h : c ∈ Nat.toDigits b n) :
    ∃ d < b, c = d.digitChar := by
  induction n using Nat.strongRecOn with
  | ind n ih =>
      rw [Nat.toDigits_eq_if hb] at h
      by_cases hn : n < b
      · rw [if_pos hn, List.mem_singleton] at h
        exact ⟨n, hn, h⟩
      · rw [if_neg hn, List.mem_append, List.mem_singleton] at h
        rcases h with h | h
        · exact ih (n / b) (Nat.div_lt_self (by omega) hb) h
        · exact ⟨n % b, Nat.mod_lt n (by omega), h⟩

theorem noBlanks_hex (n : ℕ) : NoBlanks (hex n) := by
  intro c hc
  obtain ⟨d, hd, rfl⟩ := mem_toDigits (by decide) hc
  have hdigits : ∀ d < 16, isWhitespace d.digitChar = false := by decide
  exact hdigits d hd

theorem noBlanks_intercalate {sep : Str} {words : List Str} (hsep : NoBlanks sep)
    (h : ∀ word ∈ words, NoBlanks word) : NoBlanks (List.intercalate sep words) := by
  induction words with
  | nil => exact nofun
  | cons word words ih =>
      rw [List.forall_mem_cons] at h
      cases words with
      | nil => simpa using h.1
      | cons next words =>
          rw [List.intercalate_cons_cons]
          exact (h.1.append hsep).append (ih h.2)

theorem noBlanks_displayV4 (addr : Ipv4Addr) : NoBlanks addr.display := by
  have hdot : NoBlanks ['.'] := by decide
  exact ((((((noBlanks_decimal _).append hdot).append (noBlanks_decimal _)).append hdot).append
    (noBlanks_decimal _)).append hdot).append (noBlanks_decimal _)

theorem noBlanks_displaySegments (segments : List UInt16) :
    NoBlanks (displaySegments segments) := by
  apply noBlanks_intercalate (by decide)
  intro word hword
  obtain ⟨segment, -, rfl⟩ := List.mem_map.mp hword
  exact noBlanks_hex segment.toNat

/-- An address is displayed without whitespace. -/
theorem noBlanks_display (ip : IpAddr) : NoBlanks ip.display := by
  cases ip with
  | v4 addr => exact noBlanks_displayV4 addr
  | v6 addr =>
      rw [IpAddr.display, Ipv6Addr.display]
      split
      · exact NoBlanks.append (by decide) (noBlanks_displayV4 _)
      · simp only
        split
        · exact ((noBlanks_displaySegments _).append (by decide)).append
            (noBlanks_displaySegments _)
        · exact noBlanks_displaySegments _

/-- The first word of a text, and the words behind the blank that ends it. -/
theorem splitWhitespace_word {word : Str} (hne : word ≠ []) (h : NoBlanks word) {c : Char}
    (hc : isWhitespace c = true) (rest : Str) :
    splitWhitespace (word ++ c :: rest) = word :: splitWhitespace rest := by
  rw [splitWhitespace, List.splitOnP_append_cons_of_forall_mem h c hc]
  simp [splitWhitespace, hne]

/-- A single word. -/
theorem splitWhitespace_single {word : Str} (hne : word ≠ []) (h : NoBlanks word) :
    splitWhitespace word = [word] := by
  rw [splitWhitespace, List.splitOnP_eq_singleton h]
  simp [hne]

/-! ## Blanks at the ends -/

/-- Blanks at the end do not reach back over another character. -/
theorem trimEnd_append_cons {s t : Str} {c : Char} (hc : isWhitespace c = false) :
    trimEnd (s ++ c :: t) = s ++ c :: trimEnd t := by
  have hnot : ¬ isWhitespace c = true := by simp [hc]
  unfold trimEnd
  induction t using List.reverseRecOn with
  | nil =>
      rw [List.rdropWhile_concat_neg _ _ _ hnot, List.rdropWhile_nil]
  | append_singleton t d ih =>
      have hcons : s ++ c :: (t ++ [d]) = (s ++ c :: t) ++ [d] := by simp
      by_cases hd : isWhitespace d = true
      · rw [hcons, List.rdropWhile_concat_pos _ _ _ hd, ih, List.rdropWhile_concat_pos _ _ _ hd]
      · rw [hcons, List.rdropWhile_concat_neg _ _ _ hd, List.rdropWhile_concat_neg _ _ _ hd]
        simp

/-- The text begins with a character other than a blank. -/
def Flush (s : Str) : Prop := ∀ c ∈ s.head?, isWhitespace c = false

-- Only the character at hand is tested, not every character.
instance (first : Option Char) : Decidable (∀ c ∈ first, isWhitespace c = false) :=
  Option.decidableForallMem first

instance (s : Str) : Decidable (Flush s) :=
  inferInstanceAs (Decidable (∀ c ∈ s.head?, isWhitespace c = false))

theorem Flush.append {s : Str} (h : Flush s) (hne : s ≠ []) (t : Str) : Flush (s ++ t) := by
  obtain ⟨c, rest, rfl⟩ := List.exists_cons_of_ne_nil hne
  exact h

theorem trimStart_of_flush {s : Str} (h : Flush s) : trimStart s = s := by
  cases s with
  | nil => rfl
  | cons c s =>
      have hc : isWhitespace c = false := h c rfl
      simp [trimStart, hc]

/-- The text neither begins nor ends with a blank, and is not empty. -/
structure Trimmed (s : Str) : Prop where
  ne : s ≠ []
  first : Flush s
  last : ∀ c ∈ s.getLast?, isWhitespace c = false

instance (s : Str) : Decidable (Trimmed s) :=
  decidable_of_iff (s ≠ [] ∧ Flush s ∧ ∀ c ∈ s.getLast?, isWhitespace c = false)
    ⟨fun h => ⟨h.1, h.2.1, h.2.2⟩, fun h => ⟨h.ne, h.first, h.last⟩⟩

/-- The end without a blank. -/
def FlushEnd (s : Str) : Prop := s ≠ [] ∧ ∀ c ∈ s.getLast?, isWhitespace c = false

instance (s : Str) : Decidable (FlushEnd s) := inferInstanceAs (Decidable (_ ∧ _))

theorem Trimmed.flushEnd {s : Str} (h : Trimmed s) : FlushEnd s := ⟨h.ne, h.last⟩

/-- The beginning of the one text and the end of the other. -/
theorem Flush.trimmed_append {s t : Str} (hs : Flush s) (hne : s ≠ []) (ht : FlushEnd t) :
    Trimmed (s ++ t) where
  ne := by simp [hne]
  first := hs.append hne t
  last := by
    rw [List.getLast?_append_of_ne_nil _ ht.1]
    exact ht.2

theorem Trimmed.trimEnd_append {s : Str} (h : Trimmed s) (t : Str) :
    trimEnd (t ++ s) = t ++ s := by
  have hlast : isWhitespace (s.getLast h.ne) = false :=
    h.last _ (List.getLast?_eq_some_getLast h.ne)
  rw [← List.dropLast_append_getLast h.ne, ← List.append_assoc]
  exact trimEnd_append_cons hlast

theorem Trimmed.trim_eq {s : Str} (h : Trimmed s) : trim s = s := by
  rw [trim, trimStart_of_flush h.first]
  exact h.trimEnd_append []

theorem trim_ne_nil {s : Str} (h : Flush s) (hne : s ≠ []) : trim s ≠ [] := by
  obtain ⟨c, rest, rfl⟩ := List.exists_cons_of_ne_nil hne
  have hc : isWhitespace c = false := h c rfl
  rw [trim, trimStart_of_flush h]
  have hend := trimEnd_append_cons (s := []) (t := rest) hc
  rw [List.nil_append] at hend
  rw [hend]
  exact List.cons_ne_nil _ _

theorem mem_of_mem_trim {c : Char} {s : Str} (h : c ∈ trim s) : c ∈ s := by
  have hend : c ∈ trimStart s := (List.rdropWhile_prefix _ _).subset h
  exact (List.dropWhile_suffix _).subset hend

theorem NoBlanks.trimmed {s : Str} (h : NoBlanks s) (hne : s ≠ []) : Trimmed s where
  ne := hne
  first := fun c hc => h c (List.mem_of_mem_head? hc)
  last := fun c hc => h c (List.mem_of_getLast? hc)

theorem NoBlanks.trim_eq {s : Str} (h : NoBlanks s) : trim s = s := by
  by_cases hne : s = []
  · rw [hne]
    rfl
  · exact (h.trimmed hne).trim_eq

/-! ## Lines -/

/-- A text of one line. -/
def OneLine (s : Str) : Prop := '\n' ∉ s ∧ '\r' ∉ s

instance (s : Str) : Decidable (OneLine s) := inferInstanceAs (Decidable (_ ∧ _))

theorem OneLine.append {s t : Str} (hs : OneLine s) (ht : OneLine t) : OneLine (s ++ t) :=
  ⟨by simp [hs.1, ht.1], by simp [hs.2, ht.2]⟩

theorem NoBlanks.oneLine {s : Str} (h : NoBlanks s) : OneLine s := by
  constructor
  · intro hmem
    have hblank := h '\n' hmem
    contradiction
  · intro hmem
    have hblank := h '\r' hmem
    contradiction

/-- A line end. -/
def crlf : Str := lit "\r\n"

/-- The lines of a text, each with its line end. -/
def joinLines (ls : List Str) : Str := ls.flatMap (· ++ crlf)

@[simp] theorem joinLines_cons (l : Str) (ls : List Str) :
    joinLines (l :: ls) = l ++ crlf ++ joinLines ls := rfl

@[simp] theorem joinLines_append (ls ls' : List Str) :
    joinLines (ls ++ ls') = joinLines ls ++ joinLines ls' := by
  simp [joinLines]

/-- A line behind others stands between two line ends. -/
theorem infix_joinLines {lead : List Str} (hne : lead ≠ []) (l : Str) (rest : List Str) :
    crlf ++ l ++ crlf <:+: joinLines (lead ++ l :: rest) := by
  refine ⟨joinLines lead.dropLast ++ lead.getLast hne, joinLines rest, ?_⟩
  have hlead : joinLines lead = joinLines lead.dropLast ++ lead.getLast hne ++ crlf := by
    conv_lhs => rw [← List.dropLast_append_getLast hne]
    simp [joinLines]
  rw [joinLines_append, hlead]
  simp [joinLines]

/-- The first line of a text. -/
theorem lines_crlf {l : Str} (h : '\n' ∉ l) (rest : Str) :
    lines (l ++ crlf ++ rest) = l :: lines rest := by
  have hcut : l ++ crlf ++ rest = (l ++ ['\r']) ++ '\n' :: rest := by simp [crlf, lit]
  have hline : '\n' ∉ l ++ ['\r'] := by simp [h]
  rw [lines, hcut, List.splitOn_append_cons_self_of_not_mem hline]
  obtain ⟨piece, pieces, hpieces⟩ :=
    List.exists_cons_of_ne_nil (List.splitOn_ne_nil '\n' rest)
  rw [hpieces, endLines, lines, hpieces]
  simp [stripCarriageReturn]

theorem lines_joinLines {ls : List Str} (h : ∀ l ∈ ls, '\n' ∉ l) (rest : Str) :
    lines (joinLines ls ++ rest) = ls ++ lines rest := by
  induction ls with
  | nil => rfl
  | cons l ls ih =>
      rw [List.forall_mem_cons] at h
      rw [joinLines_cons, List.append_assoc, lines_crlf h.1, ih h.2]
      rfl

/-! ## The empty line -/

/-- A line end and an empty line. -/
def emptyLine : Str := lit "\r\n\r\n"

/-- The search passes over a character that no carriage return is. -/
theorem find_emptyLine_cons {c : Char} (hc : c ≠ '\r') (s : Str) :
    find emptyLine (c :: s) = (find emptyLine s).map (c.utf8Size + ·) := by
  have hnot : ¬ emptyLine.isPrefixOf (c :: s) = true := by
    simp [emptyLine, lit, hc.symm]
  rw [find, if_neg hnot]

/-- The search passes over a text of one line. -/
theorem find_emptyLine_append {l : Str} (h : OneLine l) (s : Str) :
    find emptyLine (l ++ s) = (find emptyLine s).map (byteLen l + ·) := by
  induction l with
  | nil => simp [byteLen]
  | cons c l ih =>
      have hc : c ≠ '\r' := fun heq => h.2 (heq ▸ List.mem_cons_self)
      have hl : OneLine l :=
        ⟨fun hn => h.1 (List.mem_cons_of_mem c hn), fun hr => h.2 (List.mem_cons_of_mem c hr)⟩
      rw [List.cons_append, find_emptyLine_cons hc, ih hl, Option.map_map]
      congr 1
      funext n
      simp only [Function.comp_apply, byteLen]
      omega

/-- The search passes over a line end that a line follows. -/
theorem find_emptyLine_crlf {l : Str} (hl : OneLine l) (hne : l ≠ []) (s : Str) :
    find emptyLine (crlf ++ (l ++ s)) =
      (find emptyLine (l ++ s)).map (byteLen crlf + ·) := by
  obtain ⟨c, rest, rfl⟩ := List.exists_cons_of_ne_nil hne
  have hc : c ≠ '\r' := fun heq => hl.2 (heq ▸ List.mem_cons_self)
  have hcrlf : crlf ++ (c :: rest ++ s) = '\r' :: '\n' :: (c :: rest ++ s) := rfl
  have hnot : ¬ emptyLine.isPrefixOf ('\r' :: '\n' :: (c :: rest ++ s)) = true := by
    simp [emptyLine, lit, hc.symm]
  rw [hcrlf, find, if_neg hnot, find_emptyLine_cons (by decide), Option.map_map]
  congr 1
  funext n
  have hlen : byteLen crlf = '\r'.utf8Size + '\n'.utf8Size := by decide
  rw [hlen, Function.comp_apply, Nat.add_assoc]

/-- The search finds the end of a block of lines that are not empty. -/
theorem find_emptyLine_joinLines {ls : List Str} (hne : ls ≠ [])
    (h : ∀ l ∈ ls, OneLine l ∧ l ≠ []) (body : Str) :
    ∃ n, find emptyLine (joinLines ls ++ crlf ++ body) = some n ∧
      n + byteLen emptyLine = byteLen (joinLines ls ++ crlf) := by
  induction ls with
  | nil => exact absurd rfl hne
  | cons l ls ih =>
      rw [List.forall_mem_cons] at h
      obtain ⟨⟨hline, -⟩, hrest⟩ := h
      have hsplit : joinLines (l :: ls) ++ crlf ++ body =
          l ++ (crlf ++ (joinLines ls ++ crlf ++ body)) := by simp
      rw [hsplit, find_emptyLine_append hline]
      cases ls with
      | nil =>
          refine ⟨byteLen l, ?_, ?_⟩
          · have hstop : find emptyLine (crlf ++ (joinLines [] ++ crlf ++ body)) = some 0 := by
              simp [joinLines, crlf, emptyLine, lit, find]
            rw [hstop]
            rfl
          · simp [joinLines, byteLen, crlf, emptyLine, lit, byteLen_append]
      | cons l' ls =>
          obtain ⟨n, hfind, hn⟩ := ih (by simp) hrest
          have hl' := hrest l' List.mem_cons_self
          have hnext : joinLines (l' :: ls) ++ crlf ++ body =
              l' ++ (crlf ++ joinLines ls ++ crlf ++ body) := by simp
          refine ⟨byteLen l + (byteLen crlf + n), ?_, ?_⟩
          · rw [hnext, find_emptyLine_crlf hl'.1 hl'.2, ← hnext, hfind]
            rfl
          · rw [joinLines_cons]
            simp only [byteLen_append] at hn ⊢
            omega

end Rust
