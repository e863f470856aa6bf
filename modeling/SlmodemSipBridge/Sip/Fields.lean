import Mathlib.Data.List.Infix
import SlmodemSipBridge.Sip.Readable
import SlmodemSipBridge.Support.Delimited
import SlmodemSipBridge.Support.Printed

/-!
# Messages that are printed line by line

A line of a message has a name in front of its first colon.  A search for a
header passes over the lines with other names, whatever stands behind their
colons, and reads the value of its own line.
-/

namespace SlmodemSipBridge.Sip

open Rust

/-! ## Lines with a name -/

/-- The line begins with the name and its first colon. -/
structure NamedLine (name line : Str) : Prop where
  colon : ':' ∉ name
  flush : Flush (name ++ [':'])
  begins : ∃ rest, line = name ++ ':' :: rest

/-- Only a colon is a colon in lower case. -/
theorem toAsciiLower_eq_colon {c : Char} (h : toAsciiLower c = ':') : c = ':' := by
  unfold toAsciiLower at h
  split at h
  · next hupper =>
    have hbound : c.toNat < 91 := Nat.lt_succ_of_le hupper.2
    have hlower : ∀ n < 91, 'A'.toNat ≤ n → Char.ofNat (n + 32) ≠ ':' := by decide
    exact absurd h (hlower c.toNat hbound hupper.1)
  · exact h

theorem colon_notMem_lowercase {name : Str} (h : ':' ∉ name) :
    ':' ∉ toAsciiLowercase name := by
  intro hmem
  obtain ⟨c, hc, hcolon⟩ := List.mem_map.mp hmem
  exact h (toAsciiLower_eq_colon hcolon ▸ hc)

section Named

variable {name line : Str} (h : NamedLine name line)
include h

/-- Blanks are trimmed only behind the colon. -/
theorem NamedLine.trim_eq : ∃ rest, trim line = name ++ ':' :: rest := by
  obtain ⟨rest, rfl⟩ := h.begins
  have hfirst : Flush (name ++ ':' :: rest) := by
    have hflush := h.flush
    cases name <;> exact hflush
  exact ⟨trimEnd rest, by rw [trim, trimStart_of_flush hfirst, trimEnd_append_cons (by decide)]⟩

theorem NamedLine.trim_prefix : trim line <+: line := by
  obtain ⟨rest, rfl⟩ := h.begins
  have hfirst : Flush (name ++ ':' :: rest) := by
    have hflush := h.flush
    cases name <;> exact hflush
  rw [trim, trimStart_of_flush hfirst]
  exact List.rdropWhile_prefix _ _

/-- A search for another header passes over the line. -/
theorem NamedLine.headerOfLine_other {other : Str} (hcolon : ':' ∉ other)
    (hother : eqIgnoreAsciiCase name other = false) :
    headerOfLine (other ++ lit ":") line = none := by
  obtain ⟨rest, htrim⟩ := h.trim_eq
  rw [headerOfLine, htrim]
  apply if_neg
  rintro ⟨-, heq⟩
  have hlower : toAsciiLowercase
      ((name ++ ':' :: rest).take (other ++ lit ":").length) =
        toAsciiLowercase other ++ [':'] := by
    rw [beq_iff_eq.mp heq]
    simp [toAsciiLowercase, lit, toAsciiLower]
  -- The two texts have the same first colon, so the names agree.
  have hcut : toAsciiLowercase other ++ ':' ::
      toAsciiLowercase ((name ++ ':' :: rest).drop (other ++ lit ":").length) =
        toAsciiLowercase name ++ ':' :: toAsciiLowercase rest := by
    have hsplit := congrArg toAsciiLowercase
      (List.take_append_drop (other ++ lit ":").length (name ++ ':' :: rest))
    simp only [toAsciiLowercase, List.map_append, List.map_cons] at hsplit hlower ⊢
    rw [hlower, List.append_assoc] at hsplit
    exact hsplit
  have hname := (append_delimiter_inj (colon_notMem_lowercase hcolon)
    (colon_notMem_lowercase h.colon) hcut).1
  rw [eqIgnoreAsciiCase, ← hname, beq_self_eq_true] at hother
  contradiction

/-- A line that begins with enough ASCII characters can be cut behind them. -/
theorem NamedLine.isCharBoundary {n : ℕ} (hascii : IsAscii (line.take n))
    (hlong : n < byteLen (trim line)) : IsCharBoundary (trim line) n := by
  have htake : IsAscii ((trim line).take n) := by
    intro c hc
    exact hascii c ((h.trim_prefix.take n).subset hc)
  by_cases hn : n ≤ (trim line).length
  · refine ⟨(trim line).take n, (trim line).drop n, (List.take_append_drop n _).symm, ?_⟩
    rw [byteLen_of_isAscii htake, List.length_take, Nat.min_eq_left hn]
  · rw [List.take_of_length_le (by omega)] at htake
    rw [byteLen_of_isAscii htake] at hlong
    omega

end Named

/-! ## Headers -/

/-- A line of a message: a name and a value. -/
def field (name value : Str) : Str := name ++ lit ": " ++ value

theorem field_eq (name value : Str) : field name value = name ++ ':' :: ' ' :: value := by
  simp [field, lit]

theorem namedLine_field {name : Str} (hcolon : ':' ∉ name) (hflush : Flush (name ++ [':']))
    (value : Str) : NamedLine name (field name value) :=
  ⟨hcolon, hflush, ' ' :: value, field_eq name value⟩

theorem oneLine_field {name value : Str} (hname : OneLine name) (hvalue : OneLine value) :
    OneLine (field name value) ∧ field name value ≠ [] :=
  ⟨(hname.append (by decide)).append hvalue, by simp [field, lit]⟩

/-- Where the lines up to that of the header can be cut, the search can compare them. -/
theorem comparable_of_header {pre line : Str} {before after : List Str}
    (hown : byteLen pre < byteLen (trim line) → IsCharBoundary (trim line) (byteLen pre))
    (hheader : headerOfLine pre line ≠ none)
    (hbefore : ∀ l ∈ before,
      byteLen pre < byteLen (trim l) → IsCharBoundary (trim l) (byteLen pre)) :
    Comparable pre (before ++ line :: after) := by
  induction before with
  | nil =>
      apply comparable_cons_iff.mpr
      exact ⟨hown, fun hnone => absurd hnone hheader⟩
  | cons l before ih =>
      rw [List.forall_mem_cons] at hbefore
      apply comparable_cons_iff.mpr
      exact ⟨hbefore.1, fun _ => ih hbefore.2⟩

section Header

variable {name value : Str} (hvalue : Trimmed value) (hflush : Flush (name ++ [':']))
include hvalue hflush

theorem trim_field : trim (field name value) = field name value := by
  have hfirst : Flush (field name value) := by
    rw [field_eq]
    cases name <;> exact hflush
  rw [trim, trimStart_of_flush hfirst, field]
  exact hvalue.trimEnd_append (name ++ lit ": ")

/-- The line of a header has its value. -/
theorem headerOfLine_field : headerOfLine (name ++ lit ":") (field name value) = some value := by
  have hcut : field name value = (name ++ lit ":") ++ (' ' :: value) := by
    rw [field_eq]
    simp [lit]
  have hblank : trim (' ' :: value) = value := by
    have hstart : trimStart (' ' :: value) = trimStart value := by
      have hspace : isWhitespace ' ' = true := by decide
      simp [trimStart, hspace]
    rw [trim, hstart, ← trim, hvalue.trim_eq]
  have hlen : (name ++ lit ":").length < ((name ++ lit ":") ++ (' ' :: value)).length := by
    simp
  rw [headerOfLine, trim_field hvalue hflush, hcut, List.take_left, List.drop_left, hblank]
  exact if_pos ⟨hlen, beq_self_eq_true _⟩

/-- The value of a header, behind lines with other names. -/
theorem headerValue_of_lines {msg : Str} {before after : List Str} (hcolon : ':' ∉ name)
    (hlines : lines msg = before ++ field name value :: after)
    (hbefore : ∀ l ∈ before, ∃ other, NamedLine other l ∧ eqIgnoreAsciiCase other name = false) :
    headerValue msg name = some value := by
  have hpass : before.findSome? (headerOfLine (name ++ lit ":")) = none := by
    rw [List.findSome?_eq_none_iff]
    intro l hl
    obtain ⟨other, hline, hother⟩ := hbefore l hl
    exact hline.headerOfLine_other hcolon hother
  rw [headerValue, hlines, List.findSome?_append, hpass, Option.none_or, List.findSome?_cons,
    headerOfLine_field hvalue hflush]

/-- A search for a header, behind lines with other names that it can compare. -/
theorem extractHeader_of_lines {msg : Str} {before after : List Str} (hcolon : ':' ∉ name)
    (hname : IsAscii (name ++ lit ":"))
    (hlines : lines msg = before ++ field name value :: after)
    (hbefore : ∀ l ∈ before, ∃ other, NamedLine other l ∧
      eqIgnoreAsciiCase other name = false ∧ IsAscii (l.take (name ++ lit ":").length)) :
    extractHeader msg name = .ok (some value) := by
  have hlen : byteLen (name ++ lit ":") = (name ++ lit ":").length :=
    byteLen_of_isAscii hname
  have hown : IsCharBoundary (trim (field name value)) (byteLen (name ++ lit ":")) := by
    refine ⟨name ++ lit ":", ' ' :: value, ?_, rfl⟩
    rw [trim_field hvalue hflush, field_eq]
    simp [lit]
  have hcompared : Comparable (name ++ lit ":") (lines msg) := by
    rw [hlines]
    apply comparable_of_header (fun _ => hown)
    · rw [headerOfLine_field hvalue hflush]
      exact Option.some_ne_none value
    · intro l hl
      obtain ⟨other, hline, -, hascii⟩ := hbefore l hl
      rw [hlen]
      exact hline.isCharBoundary hascii
  obtain ⟨found, hfound⟩ := (extractHeaderIn_ok_iff hname (lines msg)).mpr hcompared
  have hfirst := extractHeaderIn_eq_ok hname hfound
  have hspec : headerValue msg name = some value := by
    apply headerValue_of_lines hvalue hflush hcolon hlines
    intro l hl
    obtain ⟨other, hline, hother, -⟩ := hbefore l hl
    exact ⟨other, hline, hother⟩
  rw [extractHeader, hfound, ← hfirst]
  exact congrArg Except.ok hspec

end Header

end SlmodemSipBridge.Sip
