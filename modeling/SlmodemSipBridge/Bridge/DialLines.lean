import SlmodemSipBridge.Bridge.DialWait
import SlmodemSipBridge.Support.LineScan

/-!
# The line a dial string comes from

`wait_for_dial_string` empties its line buffer when a line grows beyond the limit
and gathers the rest of that line as if it began there.  The file runs the wait
over its events, relates it to the lines of the stream, and says when the dial
string returned is that of a whole line.
-/

namespace SlmodemSipBridge.Bridge

open Rust LineScan

/-! ## A run of the wait -/

/-- Run `wait_for_dial_string` over its events: how it goes on, and the events it
leaves. -/
def waitRun : List UInt8 → List WaitEvent → WaitOutcome × List WaitEvent
  | lineBuf, [] => (.waiting lineBuf, [])
  | lineBuf, e :: es =>
      match waitStep lineBuf e with
      | .waiting lineBuf => waitRun lineBuf es
      | outcome => (outcome, es)

/-- The bytes that are read until slmodemd's socket is closed. -/
def bytesRead : List WaitEvent → List UInt8
  | [] => []
  | .slRead none :: _ => []
  | .slRead (some data) :: es => if data.val = [] then [] else data.val ++ bytesRead es
  | .silenceTick written :: es => if written then bytesRead es else []
  | .heartbeat :: es => bytesRead es

/-- The newline. -/
def newline : UInt8 := 10

/-- The outcome of a scan as one of the wait. -/
def ofScan : Outcome UInt8 Str → WaitOutcome
  | .gathering lineBuf => .waiting lineBuf
  | .found ds rest => .dialled ds rest

/-- The bytes of slmodemd are scanned for a dial command. -/
theorem waitBytes_eq_scan (lineBuf bytes : List UInt8) :
    waitBytes lineBuf bytes =
      ofScan (scan newline lineBufLimit dialCommand lineBuf bytes) := by
  induction bytes generalizing lineBuf with
  | nil => rfl
  | cons b rest ih =>
      by_cases hb : b = newline
      · have hten : b = 10 := hb
        rw [waitBytes, if_pos hten, scan, if_pos hb]
        cases dialCommand lineBuf with
        | none => exact ih []
        | some ds => rfl
      · have hten : ¬ b = 10 := hb
        rw [waitBytes, if_neg hten, scan, if_neg hb]
        by_cases hfull : lineBufLimit < (lineBuf ++ [b]).length
        · rw [if_pos hfull, if_pos hfull]
          exact ih []
        · rw [if_neg hfull, if_neg hfull]
          exact ih (lineBuf ++ [b])

/-- The wait returns where the scan of the bytes read finds a command. -/
theorem waitRun_dialled_iff (lineBuf : List UInt8) (events : List WaitEvent) (ds : Str)
    (rest : List UInt8) :
    (∃ tail left, waitRun lineBuf events = (.dialled ds tail, left) ∧
        tail ++ bytesRead left = rest) ↔
      scan newline lineBufLimit dialCommand lineBuf (bytesRead events) =
        .found ds rest := by
  induction events generalizing lineBuf with
  | nil => simp [waitRun, bytesRead, scan]
  | cons e es ih =>
      cases e with
      | slRead read =>
          cases read with
          | none => simp [waitRun, waitStep, bytesRead, scan]
          | some data =>
              by_cases hempty : data.val = []
              · simp [waitRun, waitStep, bytesRead, scan, hempty]
              · simp only [waitRun, waitStep, bytesRead, if_neg hempty, scan_append,
                  waitBytes_eq_scan]
                cases hscan : scan newline lineBufLimit dialCommand lineBuf data.val with
                | gathering lineBuf' => exact ih lineBuf'
                | found ds' tail =>
                    simp only [ofScan, Prod.mk.injEq, WaitOutcome.dialled.injEq,
                      Outcome.found.injEq]
                    constructor
                    · rintro ⟨_, _, ⟨⟨rfl, rfl⟩, rfl⟩, rfl⟩
                      exact ⟨rfl, rfl⟩
                    · rintro ⟨rfl, rfl⟩
                      exact ⟨tail, es, ⟨⟨rfl, rfl⟩, rfl⟩, rfl⟩
      | silenceTick written =>
          cases written with
          | false => simp [waitRun, waitStep, bytesRead, scan]
          | true => exact ih lineBuf
      | heartbeat => exact ih lineBuf

/-! ## Commands -/

/-- The line begins with `DIAL:` and the rest, trimmed, is the dial string. -/
def IsCommand (line : List UInt8) (ds : Str) : Prop :=
  ∃ text, fromUtf8Lossy line = lit "DIAL:" ++ text ∧ trim text = ds ∧ ds ≠ []

theorem dialCommand_eq_some_iff {line : List UInt8} {ds : Str} :
    dialCommand line = some ds ↔ IsCommand line ds := by
  simp only [dialCommand, IsCommand]
  by_cases hprefix : startsWith (lit "DIAL:") (fromUtf8Lossy line) = true
  · obtain ⟨text, htext⟩ := List.isPrefixOf_iff_prefix.mp hprefix
    rw [if_pos hprefix, ← htext, List.drop_left]
    by_cases hempty : trim text = []
    · simp [hempty]
    · have hfull : (trim text).isEmpty = false := by simpa using hempty
      simp only [hfull, Bool.false_eq_true, if_false, Option.some.injEq]
      constructor
      · rintro rfl
        exact ⟨text, rfl, rfl, hempty⟩
      · rintro ⟨other, hother, htrim, -⟩
        rwa [List.append_cancel_left hother]
  · rw [if_neg hprefix]
    constructor
    · simp
    · rintro ⟨text, htext, -⟩
      exact absurd (List.isPrefixOf_iff_prefix.mpr ⟨text, htext.symm⟩) hprefix

/-- A line within the limit that is a command with a dial string. -/
def ProperCommand (line : List UInt8) : Prop :=
  line.length ≤ lineBufLimit ∧ ∃ ds, IsCommand line ds

/-- If the wait returns a dial string, then at the end of a complete line of the
stream, within the limit, that is a command with this dial string, and that is the
first such line. -/
def WholeLinesOnly (events : List WaitEvent) : Prop :=
  ∀ ds tail left, waitRun [] events = (.dialled ds tail, left) →
    ∃ before line after,
      completeLines newline (bytesRead events) = before ++ line :: after ∧
        tail ++ bytesRead left =
          (after.map (· ++ [newline])).flatten ++ lastLine newline (bytesRead events) ∧
        line.length ≤ lineBufLimit ∧ IsCommand line ds ∧
        ∀ l ∈ before, ¬ ProperCommand l

/-- No line beyond the limit, in front of the first proper command, ends like a
command: of such a line the last bytes are kept, as many as are left over when the
buffer is emptied every 257 bytes. -/
def NoDeceptiveTail (events : List WaitEvent) : Prop :=
  ∀ before line after,
    completeLines newline (bytesRead events) = before ++ line :: after →
      (∀ l ∈ before, ¬ ProperCommand l) → lineBufLimit < line.length →
        ∀ ds, ¬ IsCommand (kept lineBufLimit line) ds

theorem dialCommand_eq_none_iff {line : List UInt8} :
    dialCommand line = none ↔ ∀ ds, ¬ IsCommand line ds := by
  rw [Option.eq_none_iff_forall_ne_some]
  exact forall_congr' fun ds => not_congr dialCommand_eq_some_iff

/-- Where the wait returns among the lines of the stream. -/
theorem waitRun_dialled_lines (events : List WaitEvent) (ds : Str) (rest : List UInt8) :
    (∃ tail left, waitRun [] events = (.dialled ds tail, left) ∧
        tail ++ bytesRead left = rest) ↔
      ∃ before line after,
        completeLines newline (bytesRead events) = before ++ line :: after ∧
          (∀ l ∈ before, dialCommand (kept lineBufLimit l) = none) ∧
          dialCommand (kept lineBufLimit line) = some ds ∧
          rest = (after.map (· ++ [newline])).flatten ++ lastLine newline (bytesRead events) :=
  (waitRun_dialled_iff [] events ds rest).trans
    (scan_eq_found_iff (cut_completeLines newline (bytesRead events)))

/-- What follows a line tells which line it is. -/
theorem line_eq_of_behind {stream last : List UInt8}
    {before before' after after' : List (List UInt8)} {line line' : List UInt8}
    (hcut : Cut newline stream (before ++ line :: after) last)
    (hcut' : Cut newline stream (before' ++ line' :: after') last)
    (hbehind : (after.map (· ++ [newline])).flatten ++ last =
      (after'.map (· ++ [newline])).flatten ++ last) : line = line' := by
  have hafter : after = after' := by
    rw [← hcut.behind.completeLines_eq, hbehind, hcut'.behind.completeLines_eq]
  have hsame : (before ++ [line]) ++ after = (before' ++ [line']) ++ after := by
    have hlines := hcut.completeLines_eq.symm.trans hcut'.completeLines_eq
    rw [← hafter] at hlines
    simpa using hlines
  have hlast := congrArg List.getLast? (List.append_cancel_right hsame)
  simpa using hlast

/-- For every run of the wait, over any bytes in any reads: the dial string is that
of a whole line within the limit, the first one that has one, exactly when no
longer line in front of that one ends like a command. -/
theorem wait_wholeLinesOnly_iff (events : List WaitEvent) :
    WholeLinesOnly events ↔ NoDeceptiveTail events := by
  constructor
  · intro h before line after hsplit hbefore hlong ds hcommand
    -- The first line up to that one of which a command is kept.
    have hfind : ((before ++ [line]).find? fun l =>
        (dialCommand (kept lineBufLimit l)).isSome).isSome := by
      rw [List.find?_isSome]
      refine ⟨line, by simp, ?_⟩
      rw [dialCommand_eq_some_iff.mpr hcommand]
      rfl
    obtain ⟨l, hl⟩ := Option.isSome_iff_exists.mp hfind
    obtain ⟨hkept, first, more, hcut, hquiet⟩ := List.find?_eq_some_iff_append.mp hl
    obtain ⟨ds', hds'⟩ := Option.isSome_iff_exists.mp hkept
    have hlines : completeLines newline (bytesRead events) = first ++ l :: (more ++ after) := by
      rw [hsplit, List.append_cons, hcut]
      simp
    obtain ⟨tail, left, hrun, hrest⟩ := (waitRun_dialled_lines events ds' _).mpr
      ⟨first, l, more ++ after, hlines, fun d hd => by simpa using hquiet d hd, hds', rfl⟩
    obtain ⟨before', l', after', hlines', hbehind, hshort, -, -⟩ := h ds' tail left hrun
    have hwhole := cut_completeLines newline (bytesRead events)
    have hsame : l = l' := by
      apply line_eq_of_behind (hlines ▸ hwhole) (hlines' ▸ hwhole)
      rw [← hrest, hbehind]
    rw [← hsame] at hshort
    have hmem : l ∈ before ++ [line] := by rw [hcut]; simp
    rcases List.mem_append.mp hmem with hmem | hmem
    · rw [kept_of_le hshort] at hds'
      exact hbefore l hmem ⟨hshort, ds', dialCommand_eq_some_iff.mp hds'⟩
    · rw [List.mem_singleton.mp hmem] at hshort
      omega
  · intro h ds tail left hrun
    obtain ⟨before, line, after, hsplit, hquiet, hread, hrest⟩ :=
      (waitRun_dialled_lines events ds (tail ++ bytesRead left)).mp ⟨tail, left, hrun, rfl⟩
    have hbefore : ∀ l ∈ before, ¬ ProperCommand l := by
      rintro l hl ⟨hshort, ds', hcommand⟩
      have hnone := hquiet l hl
      rw [kept_of_le hshort, dialCommand_eq_none_iff] at hnone
      exact hnone ds' hcommand
    have hshort : line.length ≤ lineBufLimit := by
      by_contra hlong
      exact h before line after hsplit hbefore (Nat.lt_of_not_le hlong) ds
        (dialCommand_eq_some_iff.mp hread)
    rw [kept_of_le hshort] at hread
    exact ⟨before, line, after, hsplit, hrest, hshort, dialCommand_eq_some_iff.mp hread,
      hbefore⟩

/-! ## A garbled line that ends like a command -/

/-- 257 bytes and then `DIAL:5`, all on one line. -/
def garbledLine : List UInt8 := List.replicate 257 120 ++ asciiBytes (lit "DIAL:5\n")

theorem length_garbledLine : garbledLine.length ≤ waitBufferSize := by decide +kernel

/-- The line in one read. -/
def garbledRead : List WaitEvent := [.slRead (some ⟨garbledLine, length_garbledLine⟩)]

/-- The end of the garbled line is dialled. -/
theorem wait_garbledDialled : ¬ ∀ events, WholeLinesOnly events := by
  intro h
  have hdialled : waitStep [] (.slRead (some ⟨garbledLine, length_garbledLine⟩)) =
      .dialled (lit "5") [] := by decide +kernel
  have hrun : waitRun [] garbledRead = (.dialled (lit "5") [], []) := by
    simp only [garbledRead, waitRun, hdialled]
  obtain ⟨before, line, after, hlines, -, hshort, -, -⟩ := h garbledRead _ _ _ hrun
  have hall : ∀ l ∈ completeLines newline (bytesRead garbledRead),
      ¬ l.length ≤ lineBufLimit := by decide +kernel
  exact hall line (by rw [hlines]; simp) hshort

end SlmodemSipBridge.Bridge
