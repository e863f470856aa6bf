import SlmodemSipBridge.Sip.Sdp

/-!
# Reading SIP messages

The parsing helpers of `sip.rs`.  They work on the text of a message by line
scans, prefix tests and byte offsets, so some of them can panic on a slice.
-/

namespace SlmodemSipBridge.Sip

open Rust

/-- The status code of a response's first line. -/
def parseStatusCode (msg : Str) : Option ℕ :=
  match lines msg with
  | [] => none
  | firstLine :: _ =>
      if !startsWith (lit "SIP/2.0 ") firstLine then none
      else
        match splitN 3 ' ' firstLine with
        | _ :: code :: _ => parseU16 code
        | _ => none

/-- The scan of `extract_header` over the lines. -/
def extractHeaderIn (pre : Str) : List Str → Checked (Option Str)
  | [] => .ok none
  | line :: rest =>
      let trimmed := trim line
      if byteLen pre < byteLen trimmed then do
        if eqIgnoreAsciiCase (← strTo trimmed (byteLen pre)) pre then
          return some (trim (← strFrom trimmed (byteLen pre)))
        else extractHeaderIn pre rest
      else extractHeaderIn pre rest

/-- The value of the first header of that name. -/
def extractHeader (msg : Str) (name : Str) : Checked (Option Str) :=
  extractHeaderIn (name ++ lit ":") (lines msg)

/-- The numeric CSeq value of a response. -/
def extractCseqNum (msg : Str) : Checked (Option ℕ) := do
  match ← extractHeader msg (lit "CSeq") with
  | none => return none
  | some value =>
      match splitWhitespace value with
      | [] => return none
      | num :: _ => return parseU32 num

/-- The value of a quoted parameter. -/
def extractQuotedParam (header param : Str) : Checked (Option Str) := do
  let search := param ++ lit "=\""
  match find search header with
  | none => return none
  | some found =>
      let start := found + byteLen search
      let rest ← strFrom header start
      match findChar (· == '"') rest with
      | none => return none
      | some stop => return some (← strTo rest stop)

/-- Whether a character ends a tag. -/
def endsTag (c : Char) : Bool :=
  c == ';' || c == '>' || c == ',' || isWhitespace c

/-- The tag parameter of a From or To header. -/
def extractTagParam (header : Str) : Checked (Option Str) := do
  let tagPrefix := lit "tag="
  match find tagPrefix header with
  | none => return none
  | some found =>
      let rest ← strFrom header (found + byteLen tagPrefix)
      let stop := (findChar endsTag rest).getD (byteLen rest)
      let tag := trim (← strTo rest stop)
      if tag.isEmpty then return none else return some tag

/-- Whether a line declares an SDP body. -/
def isSdpContentType (line : Str) : Bool :=
  let t := toAsciiLowercase (trim line)
  startsWith (lit "content-type:") t && contains (lit "application/sdp") t

/-- The SDP body of a message. -/
def extractSdpBody (msg : Str) : Checked (Option Str) :=
  if !(lines msg).any isSdpContentType then return none
  else
    let bodyStart :=
      match find (lit "\r\n\r\n") msg with
      | some pos => some (pos + 4)
      | none =>
          match find (lit "\n\n") msg with
          | some pos => some (pos + 2)
          | none => none
    match bodyStart with
    | none => return none
    | some start => do
        let body ← strFrom msg start
        if (trim body).isEmpty then return none else return some body

/-! ## Readers that never panic -/

/-- Slicing after a match of `find` is slicing at a boundary. -/
theorem strFrom_find {needle s : Str} {n : ℕ} (h : find needle s = some n) :
    ∃ rest, strFrom s (n + byteLen needle) = .ok rest := by
  obtain ⟨before, after, rfl, rfl⟩ := find_eq_some h
  refine ⟨after, ?_⟩
  rw [← byteLen_append]
  exact strFrom_append (before ++ needle) after

theorem strTo_findChar {p : Char → Bool} {s : Str} {n : ℕ}
    (h : findChar p s = some n) : ∃ head, strTo s n = .ok head := by
  obtain ⟨before, c, after, rfl, rfl, -, -⟩ := findChar_eq_some h
  exact ⟨before, strTo_append before (c :: after)⟩

theorem strTo_byteLen (s : Str) : strTo s (byteLen s) = .ok s := by
  simpa using strTo_append s []

theorem extractQuotedParam_total (header param : Str) :
    ∃ r, extractQuotedParam header param = .ok r := by
  simp only [extractQuotedParam]
  split
  · exact ⟨none, rfl⟩
  · next found hfound =>
    obtain ⟨rest, hrest⟩ := strFrom_find hfound
    simp only [hrest, bind, Except.bind]
    split
    · exact ⟨none, rfl⟩
    · next stop hstop =>
      obtain ⟨value, hvalue⟩ := strTo_findChar hstop
      rw [hvalue]
      exact ⟨some value, rfl⟩

theorem extractTagParam_total (header : Str) :
    ∃ r, extractTagParam header = .ok r := by
  simp only [extractTagParam]
  split
  · exact ⟨none, rfl⟩
  · next found hfound =>
    obtain ⟨rest, hrest⟩ := strFrom_find hfound
    have htag : ∃ tag,
        strTo rest ((findChar endsTag rest).getD (byteLen rest)) = .ok tag := by
      cases hstop : findChar endsTag rest with
      | none => exact ⟨rest, strTo_byteLen rest⟩
      | some stop => exact strTo_findChar hstop
    obtain ⟨tag, htag⟩ := htag
    simp only [hrest, bind, Except.bind, htag]
    split <;> exact ⟨_, rfl⟩

theorem extractSdpBody_total (msg : Str) : ∃ r, extractSdpBody msg = .ok r := by
  unfold extractSdpBody
  split
  · exact ⟨none, rfl⟩
  · simp only
    split
    · exact ⟨none, rfl⟩
    · next start hstart =>
      have hslice : ∃ body, strFrom msg start = .ok body := by
        cases hcrlf : find (lit "\r\n\r\n") msg with
        | some pos =>
            have hlen : byteLen (lit "\r\n\r\n") = 4 := by decide
            have hpos : pos + 4 = start := by simpa [hcrlf] using hstart
            have hfrom := strFrom_find hcrlf
            rwa [hlen, hpos] at hfrom
        | none =>
            cases hlf : find (lit "\n\n") msg with
            | none => simp [hcrlf, hlf] at hstart
            | some pos =>
                have hlen : byteLen (lit "\n\n") = 2 := by decide
                have hpos : pos + 2 = start := by simpa [hcrlf, hlf] using hstart
                have hfrom := strFrom_find hlf
                rwa [hlen, hpos] at hfrom
      obtain ⟨body, hbody⟩ := hslice
      simp only [hbody, bind, Except.bind]
      split <;> exact ⟨_, rfl⟩

/-- The one reader that can panic: a line before the header sought may have a
character across the byte at which its name would end. -/
example :
    extractHeader (lit "SIP/2.0 200 OK\r\nab€: 1\r\nTo: <sip:1@h>\r\n") (lit "To") =
      .error .notCharBoundary := by decide

end SlmodemSipBridge.Sip
