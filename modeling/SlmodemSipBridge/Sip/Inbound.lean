import SlmodemSipBridge.Sip.Wire

/-!
# Messages of another party

What the readers of `sip.rs` find in a message that another party has printed: its
status in the start line, the value of a header in the first field of that name,
whatever the case, and an SDP body behind the empty line.  The fields may stand in
any order, and there may be others.
-/

namespace SlmodemSipBridge.Sip

open Rust Bridge Envelope

/-! ## The lines of a message -/

/-- The first line of a response. -/
def statusLine (status : ℕ) (reason : Str) : Str :=
  lit "SIP/2.0 " ++ decimal status ++ lit " " ++ reason

/-- A line of a session description: a letter, an equals sign, and a value. -/
structure TypedLine (l : Str) : Prop where
  shape : ∃ letter value, l = letter :: '=' :: value ∧ 'a' ≤ letter ∧ letter ≤ 'z'
  ascii : IsAscii l

/-- The message is a response with that status in printable ASCII.  No name of a field
begins with a blank, and its body is a session description. -/
structure Lettered (m : Message) (status : ℕ) : Prop extends m.Printable where
  status_start : ∃ reason, m.start = statusLine status reason
  name : ∀ f ∈ m.fields, Flush (f.name ++ [':'])
  ascii : ∀ l ∈ m.headLines, IsAscii l
  body : ∀ l ∈ lines m.body, TypedLine l

theorem lines_text {m : Message} (h : m.Printable) :
    lines m.text = m.headLines ++ [] :: lines m.body := by
  have hempty := lines_crlf (l := []) (by simp) m.body
  rw [List.nil_append] at hempty
  rw [Message.text, List.append_assoc, lines_joinLines fun l hl => (h.headLine l hl).1, hempty]

/-! ## The value of a header -/

/-- A line has no header whose name lacks a character that stands in front of the
line's first colon. -/
theorem headerOfLine_of_mark {lead rest name : Str} {mark : Char}
    (hflush : Flush (lead ++ mark :: rest)) (hmark : isWhitespace mark = false)
    (hlower : toAsciiLower mark = mark) (hne : mark ≠ ':')
    (hlead : ':' ∉ toAsciiLowercase lead ∧ mark ∉ toAsciiLowercase lead)
    (hname : ':' ∉ toAsciiLowercase name ∧ mark ∉ toAsciiLowercase name) :
    headerOfLine (name ++ lit ":") (lead ++ mark :: rest) = none := by
  have htrim : trim (lead ++ mark :: rest) = lead ++ mark :: trimEnd rest := by
    rw [trim, trimStart_of_flush hflush, trimEnd_append_cons hmark]
  rw [headerOfLine, htrim]
  apply if_neg
  rintro ⟨-, heq⟩
  have hprefix : toAsciiLowercase
      ((lead ++ mark :: trimEnd rest).take (name ++ lit ":").length) =
        toAsciiLowercase name ++ [':'] := by
    rw [beq_iff_eq.mp heq]
    simp [toAsciiLowercase, lit, toAsciiLower]
  have hcut : toAsciiLowercase lead ++ mark :: toAsciiLowercase (trimEnd rest) =
      toAsciiLowercase name ++ ':' ::
        toAsciiLowercase ((lead ++ mark :: trimEnd rest).drop (name ++ lit ":").length) := by
    have hsplit := congrArg toAsciiLowercase
      (List.take_append_drop (name ++ lit ":").length (lead ++ mark :: trimEnd rest))
    simp only [toAsciiLowercase, List.map_append, List.map_cons, hlower] at hsplit hprefix ⊢
    rw [← hsplit, hprefix, List.append_assoc]
    rfl
  -- Both sides stop at their first colon or mark, and these differ.
  have hstop : ∀ {s : Str}, ':' ∉ s ∧ mark ∉ s → ∀ ch ∈ s, ¬ (ch = ':' ∨ ch = mark) := by
    rintro s ⟨hcolon, hno⟩ ch hch (rfl | rfl)
    · exact hcolon hch
    · exact hno hch
  have htail := (append_stop_inj (hstop hlead) (hstop hname) (stops_cons (.inr rfl) _)
    (stops_cons (.inl rfl) _) hcut).2
  exact hne (List.cons_eq_cons.mp htail).1

/-- What the line of a field says about a header. -/
theorem headerOfLine_line {f : Field} (h : f.Printable) (hflush : Flush (f.name ++ [':']))
    {name : Str} (hcolon : ':' ∉ name) :
    headerOfLine (name ++ lit ":") f.line =
      if eqIgnoreAsciiCase f.name name = true then some f.value else none := by
  have hfield : f.line = field f.name f.value := rfl
  by_cases hname : eqIgnoreAsciiCase f.name name = true
  · have hlen : f.name.length = name.length := by
      have heq := congrArg List.length (beq_iff_eq.mp hname)
      simpa [toAsciiLowercase] using heq
    have hpre : (name ++ lit ":").length = (f.name ++ lit ":").length := by
      rw [List.length_append, List.length_append, hlen]
    have hsame : eqIgnoreAsciiCase (f.name ++ lit ":") (name ++ lit ":") = true := by
      rw [eqIgnoreAsciiCase, beq_iff_eq] at hname ⊢
      simp only [toAsciiLowercase, List.map_append] at hname ⊢
      rw [hname]
    have hcut : field f.name f.value = (f.name ++ lit ":") ++ ' ' :: f.value := by
      rw [field_eq]
      simp [lit]
    rw [if_pos hname, hfield, headerOfLine, trim_field h.trimmed hflush, hcut, hpre,
      List.take_left, List.drop_left, trim_blank h.trimmed]
    exact if_pos ⟨by simp, hsame⟩
  · rw [if_neg hname, hfield]
    exact (namedLine_field h.colon hflush f.value).headerOfLine_other hcolon
      (Bool.eq_false_of_not_eq_true hname)

/-- A name that a header can have: neither the version of the protocol nor a line of
a session description is taken for it. -/
structure HeaderName (name : Str) : Prop where
  colon : ':' ∉ toAsciiLowercase name
  slash : '/' ∉ toAsciiLowercase name
  equals : '=' ∉ toAsciiLowercase name
  ascii : IsAscii name

theorem HeaderName.colon_notMem {name : Str} (h : HeaderName name) : ':' ∉ name := by
  intro hmem
  exact h.colon (List.mem_map.mpr ⟨':', hmem, by decide⟩)

instance (name : Str) : Decidable (HeaderName name) :=
  decidable_of_iff
    (':' ∉ toAsciiLowercase name ∧ '/' ∉ toAsciiLowercase name ∧
      '=' ∉ toAsciiLowercase name ∧ IsAscii name)
    ⟨fun h => ⟨h.1, h.2.1, h.2.2.1, h.2.2.2⟩, fun h => ⟨h.colon, h.slash, h.equals, h.ascii⟩⟩

theorem headerOfLine_statusLine {name : Str} (hname : HeaderName name) (status : ℕ)
    (reason : Str) : headerOfLine (name ++ lit ":") (statusLine status reason) = none := by
  have hcut : statusLine status reason =
      lit "SIP" ++ '/' :: (lit "2.0 " ++ decimal status ++ lit " " ++ reason) := by
    simp [statusLine, lit]
  rw [hcut]
  have hflush : Flush (lit "SIP") := by decide
  exact headerOfLine_of_mark (hflush.append (by decide) _) (by decide) (by decide) (by decide)
    (by decide) ⟨hname.colon, hname.slash⟩

theorem TypedLine.flush {l : Str} (h : TypedLine l) : Flush l := by
  obtain ⟨letter, value, rfl, hlow, hhigh⟩ := h.shape
  intro c hc
  obtain rfl : letter = c := Option.some.inj hc
  have hlow' : 97 ≤ letter.toNat := hlow
  have hhigh' : letter.toNat ≤ 122 := hhigh
  simp only [isWhitespace, Bool.or_eq_false_iff, Bool.and_eq_false_iff, beq_eq_false_iff_ne,
    decide_eq_false_iff_not]
  omega

theorem headerOfLine_typed {name : Str} (hname : HeaderName name) {l : Str} (h : TypedLine l) :
    headerOfLine (name ++ lit ":") l = none := by
  have hflush := h.flush
  obtain ⟨letter, value, rfl, hlow, hhigh⟩ := h.shape
  have hlow' : 97 ≤ letter.toNat := hlow
  have hletter : toAsciiLower letter = letter := by
    apply if_neg
    rintro ⟨-, hupper⟩
    have hupper' : letter.toNat ≤ 90 := hupper
    omega
  have hnot : ∀ {mark : Char}, mark.toNat < 97 → mark ∉ toAsciiLowercase [letter] := by
    intro mark hmark hmem
    simp only [toAsciiLowercase, List.map_cons, List.map_nil, hletter,
      List.mem_singleton] at hmem
    rw [hmem] at hmark
    omega
  exact @headerOfLine_of_mark [letter] _ _ _ hflush (by decide) (by decide) (by decide)
    ⟨hnot (by decide), hnot (by decide)⟩ ⟨hname.colon, hname.equals⟩

theorem headerOfLine_nil (name : Str) : headerOfLine (name ++ lit ":") [] = none := by
  simp [headerOfLine, trim, trimStart, trimEnd]

/-- The search over the fields finds the first one of the name. -/
theorem findSome_fieldLines {fields : List Field} {name : Str} (hcolon : ':' ∉ name)
    (hprintable : ∀ f ∈ fields, f.Printable) (hflush : ∀ f ∈ fields, Flush (f.name ++ [':'])) :
    (fields.map Field.line).findSome? (headerOfLine (name ++ lit ":")) =
      (fields.find? fun f => eqIgnoreAsciiCase f.name name).map Field.value := by
  induction fields with
  | nil => rfl
  | cons f fields ih =>
      rw [List.forall_mem_cons] at hprintable hflush
      rw [List.map_cons, List.findSome?_cons, List.find?_cons,
        headerOfLine_line hprintable.1 hflush.1 hcolon]
      by_cases hname : eqIgnoreAsciiCase f.name name = true
      · rw [if_pos hname, hname]
        rfl
      · rw [if_neg hname, Bool.eq_false_of_not_eq_true hname]
        exact ih hprintable.2 hflush.2

section Response

variable {m : Message} {status : ℕ} (h : Lettered m status)
include h

/-- The value of a header is that of its first field. -/
theorem headerValue_text {name : Str} (hname : HeaderName name) :
    headerValue m.text name = m.value name := by
  obtain ⟨reason, hstart⟩ := h.status_start
  have hbody : ([] :: lines m.body).findSome? (headerOfLine (name ++ lit ":")) = none := by
    rw [List.findSome?_eq_none_iff, List.forall_mem_cons]
    exact ⟨headerOfLine_nil name, fun l hl => headerOfLine_typed hname (h.body l hl)⟩
  rw [headerValue, lines_text h.toPrintable, List.findSome?_append, hbody, Option.or_none,
    Message.headLines, List.findSome?_cons, hstart, headerOfLine_statusLine hname,
    findSome_fieldLines hname.colon_notMem h.fields h.name]
  rfl

/-- Every line of the message is ASCII. -/
theorem isAscii_line : ∀ l ∈ lines m.text, IsAscii l := by
  rw [lines_text h.toPrintable, List.forall_mem_append, List.forall_mem_cons]
  exact ⟨h.ascii, by simp [IsAscii], fun l hl => (h.body l hl).ascii⟩

end Response

/-- A line of ASCII can be cut anywhere. -/
theorem isCharBoundary_of_isAscii {s : Str} (h : IsAscii s) {n : ℕ} (hn : n ≤ byteLen s) :
    IsCharBoundary s n := by
  rw [byteLen_of_isAscii h] at hn
  have htake : IsAscii (s.take n) := fun c hc => h c (List.mem_of_mem_take hc)
  refine ⟨s.take n, s.drop n, (List.take_append_drop n s).symm, ?_⟩
  rw [byteLen_of_isAscii htake, List.length_take, Nat.min_eq_left hn]

theorem comparable_of_isAscii {pre : Str} {rest : List Str} (h : ∀ l ∈ rest, IsAscii l) :
    Comparable pre rest := by
  rintro before line after rfl - hlong
  have hline : IsAscii (trim line) := fun c hc => h line (by simp) c (mem_of_mem_trim hc)
  exact isCharBoundary_of_isAscii hline hlong.le

/-- The readers return for the message, and the search for a header finds its field. -/
theorem extractHeader_text {m : Message} {status : ℕ} (h : Lettered m status) {name : Str}
    (hname : HeaderName name) : extractHeader m.text name = .ok (m.value name) := by
  have hpre : IsAscii (name ++ lit ":") := hname.ascii.append (by decide)
  obtain ⟨found, hfound⟩ :=
    (extractHeaderIn_ok_iff hpre (lines m.text)).mpr (comparable_of_isAscii (isAscii_line h))
  have hvalue := extractHeader_eq_ok hname.ascii hfound
  rw [headerValue_text h hname] at hvalue
  rw [extractHeader, hfound, hvalue]

/-! ## The status -/

/-- The status is read from the start line. -/
theorem parseStatusCode_text {m : Message} {status : ℕ} (h : Lettered m status)
    (hstatus : status < 2 ^ 16) : parseStatusCode m.text = some status := by
  obtain ⟨reason, hstart⟩ := h.status_start
  have hdigits : ' ' ∉ decimal status := by
    intro hmem
    have hblank := noBlanks_decimal status ' ' hmem
    contradiction
  have hcut : statusLine status reason =
      lit "SIP/2.0" ++ ' ' :: (decimal status ++ ' ' :: reason) := by
    simp [statusLine, lit]
  obtain ⟨hversion, hrest⟩ :=
    takeWhile_ne (by decide : ' ' ∉ lit "SIP/2.0") (decimal status ++ ' ' :: reason)
  obtain ⟨hcode, hlast⟩ := takeWhile_ne hdigits reason
  have hsplit : splitN 3 ' ' (statusLine status reason) =
      [lit "SIP/2.0", decimal status, reason] := by
    rw [hcut]
    simp only [splitN, hversion, hrest, hcode, hlast]
  have hprefix : startsWith (lit "SIP/2.0 ") (statusLine status reason) = true := by
    rw [statusLine, List.append_assoc, List.append_assoc]
    exact List.isPrefixOf_iff_prefix.mpr (List.prefix_append _ _)
  have hnum : parseU16 (decimal status) = some status :=
    parseUnsigned_decimal (Nat.le_pred_of_lt hstatus)
  rw [parseStatusCode, lines_text h.toPrintable, Message.headLines, hstart]
  simp only [List.cons_append, hprefix, Bool.not_true, Bool.false_eq_true, if_false, hsplit, hnum]

/-! ## The CSeq header -/

/-- The number of the CSeq header, and the method behind it. -/
theorem cseq_text {m : Message} {status : ℕ} (h : Lettered m status) {cseq : ℕ} {method : Str}
    (hcseq : cseq < 2 ^ 32) (hne : method ≠ []) (hmethod : NoBlanks method)
    (hvalue : m.value (lit "CSeq") = some (decimal cseq ++ lit " " ++ method)) :
    extractCseqNum m.text = .ok (some cseq) ∧ cseqOf m.text = some (cseq, method) := by
  have hwords : splitWhitespace (decimal cseq ++ lit " " ++ method) =
      [decimal cseq, method] := by
    have hcut : decimal cseq ++ lit " " ++ method = decimal cseq ++ ' ' :: method := by
      simp [lit]
    rw [hcut, splitWhitespace_word (decimal_ne_nil _) (noBlanks_decimal _) (by decide),
      splitWhitespace_single hne hmethod]
  have hnum : parseU32 (decimal cseq) = some cseq :=
    parseUnsigned_decimal (Nat.le_pred_of_lt hcseq)
  have hname : HeaderName (lit "CSeq") := by decide
  have hheader := extractHeader_text h hname
  have hfield := headerValue_text h hname
  rw [hvalue] at hheader hfield
  constructor
  · simp only [extractCseqNum, hheader, hwords, hnum, bind, Except.bind, pure, Except.pure]
  · simp only [cseqOf, hfield, Option.map_some, hwords, hnum]

/-! ## The body -/

/-- The line of a field declares no SDP body, unless it is that of the content type. -/
theorem isSdpContentType_field {f : Field} (h : f.Printable) (hflush : Flush (f.name ++ [':']))
    (hname : eqIgnoreAsciiCase f.name (lit "Content-Type") = false) :
    isSdpContentType f.line = false := by
  have hline : NamedLine f.name f.line := namedLine_field h.colon hflush f.value
  obtain ⟨rest, htrim⟩ := hline.trim_eq
  rw [isSdpContentType, htrim]
  simp only [Bool.and_eq_false_iff]
  left
  by_contra hstarts
  rw [Bool.not_eq_false, startsWith, List.isPrefixOf_iff_prefix] at hstarts
  obtain ⟨after, hafter⟩ := hstarts
  have hcut : lit "content-type" ++ ':' :: after =
      toAsciiLowercase f.name ++ ':' :: toAsciiLowercase rest := by
    simp only [toAsciiLowercase, List.map_append, List.map_cons] at hafter ⊢
    rw [show toAsciiLower ':' = ':' by decide] at hafter
    rw [← hafter]
    rfl
  have hsame := (append_delimiter_inj (by decide) (colon_notMem_lowercase h.colon) hcut).1
  rw [eqIgnoreAsciiCase, ← hsame] at hname
  contradiction

theorem isSdpContentType_statusLine (status : ℕ) (reason : Str) :
    isSdpContentType (statusLine status reason) = false := by
  have hflush : Flush (statusLine status reason) := by
    rw [statusLine, List.append_assoc, List.append_assoc]
    exact Flush.append (by decide) (by decide) _
  have hcut : statusLine status reason = 'S' :: (lit "IP/2.0 " ++ decimal status ++ lit " " ++
      reason) := by
    simp [statusLine, lit]
  have hfirst : isWhitespace 'S' = false := by decide
  have htrim := trimEnd_append_cons (s := []) (t := lit "IP/2.0 " ++ decimal status ++ lit " " ++
      reason) hfirst
  rw [List.nil_append, ← hcut] at htrim
  rw [isSdpContentType, trim, trimStart_of_flush hflush, htrim]
  rfl

/-- A message without a body has no SDP body. -/
theorem extractSdpBody_none {m : Message} {status : ℕ} (h : Lettered m status)
    (hbody : m.body = [])
    (htype : ∀ f ∈ m.fields, eqIgnoreAsciiCase f.name (lit "Content-Type") = false) :
    extractSdpBody m.text = .ok none := by
  obtain ⟨reason, hstart⟩ := h.status_start
  have hlines : lines m.text = m.headLines ++ [[]] := by
    rw [lines_text h.toPrintable, hbody]
    rfl
  have hnone : (lines m.text).any isSdpContentType = false := by
    rw [List.any_eq_false, hlines]
    simp only [List.forall_mem_append, Message.headLines, List.forall_mem_cons, hstart,
      List.forall_mem_map]
    refine ⟨⟨by simp [isSdpContentType_statusLine], ?_⟩, by decide, by simp⟩
    intro f hf
    rw [isSdpContentType_field (h.fields f hf) (h.name f hf) (htype f hf)]
    decide
  rw [extractSdpBody, hnone]
  rfl

/-- An SDP body is found behind the empty line. -/
theorem extractSdpBody_text {m : Message} {status : ℕ} (h : Lettered m status)
    (hflush : Flush m.body) (hne : m.body ≠ [])
    (htype : (⟨lit "Content-Type", lit "application/sdp"⟩ : Field) ∈ m.fields) :
    extractSdpBody m.text = .ok (some m.body) := by
  have hany : (lines m.text).any isSdpContentType = true := by
    rw [List.any_eq_true]
    refine ⟨_, ?_, (by decide :
      isSdpContentType (⟨lit "Content-Type", lit "application/sdp"⟩ : Field).line = true)⟩
    rw [lines_text h.toPrintable, Message.headLines]
    exact List.mem_append_left _ (List.mem_cons_of_mem _ (List.mem_map_of_mem htype))
  obtain ⟨n, hfind, hn⟩ := find_emptyLine_lines (List.cons_ne_nil _ _)
    h.toPrintable.headLine m.body
  have hslice : strFrom m.text (n + 4) = .ok m.body := by
    have hlen : n + 4 = byteLen (joinLines m.headLines ++ crlf) := by
      rw [byteLen_append, Message.headLines, ← hn]
      rfl
    rw [hlen, Message.text]
    exact strFrom_append _ _
  have htrim : (trim m.body).isEmpty = false :=
    List.isEmpty_eq_false_iff.mpr (trim_ne_nil hflush hne)
  have hempty : lit "\r\n\r\n" = emptyLine := rfl
  have hfind' : find emptyLine m.text = some n := hfind
  simp only [extractSdpBody, hany, Bool.not_true, hempty, hfind', hslice, htrim, bind,
    Except.bind, pure, Except.pure, Bool.false_eq_true, if_false]

end SlmodemSipBridge.Sip
