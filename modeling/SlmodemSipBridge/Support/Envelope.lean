import SlmodemSipBridge.Support.Delimited
import SlmodemSipBridge.Support.Printed

/-!
# Messages of a start line, header fields and a body

The text of a message is a line for its start and a line for each field, an empty
line, and the body.  A message is read back from its text when no line is broken
by a line feed and no value has blanks around it: a carriage return in the middle
of a line, or a body with empty lines, does no harm.
-/

namespace Envelope

open Rust

/-! ## Fields -/

/-- A header field. -/
structure Field where
  name : Str
  value : Str
  deriving DecidableEq, Repr

/-- The line of a field. -/
def Field.line (f : Field) : Str := f.name ++ lit ": " ++ f.value

/-- The field of a line: what stands before its first colon, and what stands behind
it without the blanks around. -/
def Field.read (line : Str) : Option Field :=
  match line.dropWhile (· != ':') with
  | [] => none
  | _ :: value => some ⟨line.takeWhile (· != ':'), trim value⟩

/-- The field stands on one line that says where its name ends. -/
structure Field.Printable (f : Field) : Prop where
  colon : ':' ∉ f.name
  name : '\n' ∉ f.name
  value : '\n' ∉ f.value
  trimmed : Trimmed f.value

theorem Field.line_eq (f : Field) : f.line = f.name ++ ':' :: ' ' :: f.value := by
  simp [Field.line, lit]

theorem Field.line_ne (f : Field) : f.line ≠ [] := by simp [Field.line_eq]

theorem Field.Printable.line {f : Field} (h : f.Printable) : '\n' ∉ f.line := by
  have hname := h.name
  have hvalue := h.value
  simp [Field.line_eq, hname, hvalue]

theorem trim_blank {s : Str} (h : Trimmed s) : trim (' ' :: s) = s := by
  have hstart : trimStart (' ' :: s) = trimStart s := by
    have hspace : isWhitespace ' ' = true := by decide
    simp [trimStart, hspace]
  rw [trim, hstart, ← trim, h.trim_eq]

/-- A field is read from its line. -/
theorem Field.read_line {f : Field} (h : f.Printable) : Field.read f.line = some f := by
  obtain ⟨htake, hdrop⟩ := takeWhile_ne h.colon (' ' :: f.value)
  rw [← Field.line_eq] at htake hdrop
  have hvalue := trim_blank h.trimmed
  simp only [Field.read, hdrop, htake, hvalue]

theorem mapM_read_line {fields : List Field} (h : ∀ f ∈ fields, f.Printable) :
    (fields.map Field.line).mapM Field.read = some fields := by
  induction fields with
  | nil => rfl
  | cons f fields ih =>
      rw [List.forall_mem_cons] at h
      rw [List.map_cons, List.mapM_cons, Field.read_line h.1, ih h.2]
      rfl

theorem flushEnd_append {t : Str} (h : FlushEnd t) (s : Str) : FlushEnd (s ++ t) := by
  refine ⟨by simp [h.1], ?_⟩
  rw [List.getLast?_append_of_ne_nil _ h.1]
  exact h.2

/-- A text that begins with a character and ends with a text that are no blanks. -/
theorem trimmed_of_head {s t : Str} {c : Char} (hs : s.head? = some c)
    (hc : isWhitespace c = false) (ht : FlushEnd t) : Trimmed (s ++ t) := by
  have hne : s ≠ [] := by
    rintro rfl
    contradiction
  have hflush : Flush s := by
    intro d hd
    obtain rfl : c = d := Option.some.inj (hs.symm.trans hd)
    exact hc
  exact hflush.trimmed_append hne ht

/-! ## The end of the header -/

/-- The search for the empty line passes over a line in front of its end. -/
theorem find_emptyLine_line {l : Str} (h : '\n' ∉ l) (s : Str) :
    find emptyLine (l ++ (crlf ++ s)) =
      (find emptyLine (crlf ++ s)).map (byteLen l + ·) := by
  induction l with
  | nil => simp [byteLen]
  | cons c l ih =>
      have hl : '\n' ∉ l := fun hmem => h (List.mem_cons_of_mem c hmem)
      have hnot : ¬ emptyLine.isPrefixOf (c :: (l ++ (crlf ++ s))) = true := by
        cases l with
        | nil => simp [emptyLine, crlf, lit]
        | cons d l =>
            have hd : '\n' ≠ d := fun heq => hl (heq ▸ List.mem_cons_self)
            simp [emptyLine, lit, hd]
      rw [List.cons_append, find, if_neg hnot, ih hl, Option.map_map]
      congr 1
      funext n
      simp only [Function.comp_apply, byteLen]
      omega

/-- It passes over the line end in front of a line that is not empty. -/
theorem find_emptyLine_next {l : Str} (h : '\n' ∉ l) (hne : l ≠ []) (s : Str) :
    find emptyLine (crlf ++ (l ++ (crlf ++ s))) =
      (find emptyLine (l ++ (crlf ++ s))).map (byteLen crlf + ·) := by
  have hcrlf : crlf ++ (l ++ (crlf ++ s)) = '\r' :: '\n' :: (l ++ (crlf ++ s)) := rfl
  have hnot : ¬ emptyLine.isPrefixOf ('\r' :: '\n' :: (l ++ (crlf ++ s))) = true := by
    obtain ⟨c, rest, rfl⟩ := List.exists_cons_of_ne_nil hne
    cases rest with
    | nil => simp [emptyLine, crlf, lit]
    | cons d rest =>
        have hd : '\n' ≠ d := fun heq => h (by simp [← heq])
        simp [emptyLine, lit, hd]
  rw [hcrlf, find, if_neg hnot, find_emptyLine_cons (by decide), Option.map_map]
  congr 1
  funext n
  have hlen : byteLen crlf = '\r'.utf8Size + '\n'.utf8Size := by decide
  rw [hlen, Function.comp_apply, Nat.add_assoc]

/-- The search finds the end of the last line. -/
theorem find_emptyLine_lines {ls : List Str} (hne : ls ≠ [])
    (h : ∀ l ∈ ls, '\n' ∉ l ∧ l ≠ []) (body : Str) :
    ∃ n, find emptyLine (joinLines ls ++ crlf ++ body) = some n ∧
      n + byteLen crlf = byteLen (joinLines ls) := by
  induction ls with
  | nil => exact absurd rfl hne
  | cons l ls ih =>
      rw [List.forall_mem_cons] at h
      obtain ⟨⟨hline, -⟩, hrest⟩ := h
      have hsplit : joinLines (l :: ls) ++ crlf ++ body =
          l ++ (crlf ++ (joinLines ls ++ crlf ++ body)) := by simp
      rw [hsplit, find_emptyLine_line hline]
      cases ls with
      | nil =>
          refine ⟨byteLen l, ?_, ?_⟩
          · have hstop : find emptyLine (crlf ++ (joinLines [] ++ crlf ++ body)) = some 0 := by
              simp [joinLines, crlf, emptyLine, lit, find]
            rw [hstop]
            rfl
          · simp [joinLines, byteLen_append]
      | cons l' ls =>
          obtain ⟨n, hfind, hn⟩ := ih (by simp) hrest
          obtain ⟨hline', hne'⟩ := hrest l' List.mem_cons_self
          have hnext : joinLines (l' :: ls) ++ crlf ++ body =
              l' ++ (crlf ++ (joinLines ls ++ crlf ++ body)) := by simp
          refine ⟨byteLen l + (byteLen crlf + n), ?_, ?_⟩
          · rw [hnext, find_emptyLine_next hline' hne', ← hnext, hfind]
            rfl
          · rw [joinLines_cons]
            simp only [byteLen_append] at hn ⊢
            omega

/-! ## Messages -/

/-- A message. -/
structure Message where
  start : Str
  fields : List Field
  body : Str
  deriving DecidableEq, Repr

/-- The lines in front of the empty one. -/
def Message.headLines (m : Message) : List Str := m.start :: m.fields.map Field.line

/-- The text of a message. -/
def Message.text (m : Message) : Str := joinLines m.headLines ++ crlf ++ m.body

/-- Read a message: its lines up to the first empty one, and the rest. -/
def Message.read (s : Str) : Option Message :=
  match find emptyLine s with
  | none => none
  | some n =>
      match splitAtByte s (n + byteLen crlf) with
      | none => none
      | some (head, rest) =>
          match lines head with
          | [] => none
          | start :: fieldLines =>
              (fieldLines.mapM Field.read).map fun fields =>
                ⟨start, fields, rest.drop crlf.length⟩

/-- The value of the first field of that name. -/
def Message.value (m : Message) (name : Str) : Option Str :=
  (m.fields.find? fun f => eqIgnoreAsciiCase f.name name).map Field.value

/-- The start of the message and its fields stand on a line each. -/
structure Message.Printable (m : Message) : Prop where
  start : '\n' ∉ m.start
  start_ne : m.start ≠ []
  fields : ∀ f ∈ m.fields, f.Printable

theorem Message.Printable.headLine {m : Message} (h : m.Printable) :
    ∀ l ∈ m.headLines, '\n' ∉ l ∧ l ≠ [] := by
  rw [Message.headLines, List.forall_mem_cons, List.forall_mem_map]
  exact ⟨⟨h.start, h.start_ne⟩, fun f hf => ⟨(h.fields f hf).line, f.line_ne⟩⟩

/-- A message is read from its text. -/
theorem Message.read_text {m : Message} (h : m.Printable) : Message.read m.text = some m := by
  have hlines : m.headLines ≠ [] := List.cons_ne_nil _ _
  obtain ⟨n, hfind, hn⟩ := find_emptyLine_lines hlines h.headLine m.body
  have hsplit : splitAtByte m.text (n + byteLen crlf) =
      some (joinLines m.headLines, crlf ++ m.body) := by
    rw [hn, Message.text, List.append_assoc]
    exact splitAtByte_append _ _
  have hhead : lines (joinLines m.headLines) = m.start :: m.fields.map Field.line := by
    have hjoin := lines_joinLines (fun l hl => (h.headLine l hl).1) []
    rw [List.append_nil] at hjoin
    rw [hjoin]
    exact List.append_nil _
  have hbody : (crlf ++ m.body).drop crlf.length = m.body := List.drop_left
  have hfields := mapM_read_line h.fields
  rw [← Message.text] at hfind
  simp only [Message.read, hfind, hsplit, hhead, hfields, hbody, Option.map_some]

end Envelope
