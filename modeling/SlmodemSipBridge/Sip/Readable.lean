import SlmodemSipBridge.Sip.Invite
import SlmodemSipBridge.Support.Utf8

/-!
# Which messages the parsers can read

The parsers of `sip.rs` and `sdp.rs` slice at offsets that a search found or
that a literal prefix has, which are character boundaries.  The one exception is
`extract_header`: it slices every line at the length of the name it looks for,
and panics if a character lies across that byte.
-/

namespace SlmodemSipBridge.Sip

open Rust Sdp

/-- A byte offset at which a text can be cut. -/
def IsCharBoundary (s : Str) (n : ℕ) : Prop := ∃ a b, s = a ++ b ∧ byteLen a = n

theorem splitAtByte_eq_none_iff {s : Str} {n : ℕ} :
    splitAtByte s n = none ↔ ¬ IsCharBoundary s n := by
  constructor
  · rintro hnone ⟨a, b, rfl, rfl⟩
    rw [splitAtByte_append] at hnone
    contradiction
  · intro hcut
    cases hsplit : splitAtByte s n with
    | none => rfl
    | some parts => exact absurd ⟨parts.1, parts.2, splitAtByte_eq_some hsplit⟩ hcut

/-- No line that a search for the header compares has a character across the byte
at which the name and its colon would end.  The lines compared are those up to the
first that has the header. -/
def Comparable (pre : Str) (rest : List Str) : Prop :=
  ∀ before line after, rest = before ++ line :: after →
    (∀ l ∈ before, headerOfLine pre l = none) →
    byteLen pre < byteLen (trim line) → IsCharBoundary (trim line) (byteLen pre)

theorem comparable_cons_iff {pre line : Str} {rest : List Str} :
    Comparable pre (line :: rest) ↔
      (byteLen pre < byteLen (trim line) → IsCharBoundary (trim line) (byteLen pre)) ∧
        (headerOfLine pre line = none → Comparable pre rest) := by
  constructor
  · intro h
    refine ⟨h [] line rest rfl (by simp), ?_⟩
    rintro hline before l after rfl hbefore
    apply h (line :: before) l after rfl
    intro d hd
    rcases List.mem_cons.mp hd with rfl | hd
    · exact hline
    · exact hbefore d hd
  · rintro ⟨hfirst, hrest⟩ before l after hsplit hbefore
    cases before with
    | nil =>
        obtain ⟨rfl, -⟩ := List.cons_eq_cons.mp hsplit
        exact hfirst
    | cons d before =>
        obtain ⟨rfl, htail⟩ := List.cons_eq_cons.mp hsplit
        exact hrest (hbefore _ List.mem_cons_self) before l after htail
          fun e he => hbefore e (List.mem_cons_of_mem _ he)

theorem extractHeaderIn_ok_iff {pre : Str} (hpre : IsAscii pre) (rest : List Str) :
    (∃ r, extractHeaderIn pre rest = .ok r) ↔ Comparable pre rest := by
  induction rest with
  | nil => simp [extractHeaderIn, Comparable]
  | cons line rest ih =>
      rw [comparable_cons_iff, extractHeaderIn]
      by_cases hlong : byteLen pre < byteLen (trim line)
      · simp only [if_pos hlong]
        cases hsplit : splitAtByte (trim line) (byteLen pre) with
        | none =>
            have hcut := splitAtByte_eq_none_iff.mp hsplit
            simp [strTo, hsplit, bind, Except.bind, hlong, hcut]
        | some parts =>
            obtain ⟨a, b⟩ := parts
            obtain ⟨htrim, ha⟩ := splitAtByte_eq_some hsplit
            have hboundary : IsCharBoundary (trim line) (byteLen pre) := ⟨a, b, htrim, ha⟩
            have hb : b ≠ [] := by
              rintro rfl
              rw [htrim, byteLen_append, ha] at hlong
              simp [byteLen] at hlong
            have hline := headerOfLine_append hpre htrim ha hb
            simp only [strTo, strFrom, hsplit, bind, Except.bind]
            by_cases heq : eqIgnoreAsciiCase a pre = true
            · rw [if_pos heq] at hline
              simp [heq, hline, hboundary, pure, Except.pure]
            · rw [if_neg heq] at hline
              rw [if_neg heq, ih]
              simp [hline, hboundary]
      · rw [if_neg hlong, ih]
        simp [hlong, headerOfLine_of_short hpre hlong]

/-! ## Every datagram -/

/-- The names of the headers that the client asks for. -/
def askedHeaders : List Str :=
  [lit "WWW-Authenticate", lit "Proxy-Authenticate", lit "To", lit "CSeq"]

theorem isAscii_asked : ∀ name ∈ askedHeaders, IsAscii (name ++ lit ":") := by decide

theorem wwwAuthenticate_mem_asked : lit "WWW-Authenticate" ∈ askedHeaders := by
  simp [askedHeaders]

theorem to_mem_asked : lit "To" ∈ askedHeaders := by simp [askedHeaders]

theorem cseq_mem_asked : lit "CSeq" ∈ askedHeaders := by simp [askedHeaders]

theorem challengeHeader_mem_asked (status : ℕ) : challengeHeader status ∈ askedHeaders := by
  unfold challengeHeader
  split <;> simp [askedHeaders]

/-- A search for the header in the message compares no line across a character. -/
def HeaderComparable (msg name : Str) : Prop := Comparable (name ++ lit ":") (lines msg)

theorem extractHeader_ok_iff {name : Str} (hname : name ∈ askedHeaders) (msg : Str) :
    (∃ r, extractHeader msg name = .ok r) ↔ HeaderComparable msg name :=
  extractHeaderIn_ok_iff (isAscii_asked name hname) (lines msg)

theorem extractCseqNum_of_extractHeader {msg : Str}
    (h : ∃ r, extractHeader msg (lit "CSeq") = .ok r) :
    ∃ r, extractCseqNum msg = .ok r := by
  obtain ⟨found, hfound⟩ := h
  simp only [extractCseqNum, hfound, bind, Except.bind]
  cases found with
  | none => exact ⟨none, rfl⟩
  | some value =>
      simp only
      split <;> exact ⟨_, rfl⟩

/-- The parsers all return for a message, for the headers found in it and for its
body.  `parse_status_code` takes no slice. -/
structure ParsersReturn (msg : Str) : Prop where
  header : ∀ name ∈ askedHeaders, ∃ r, extractHeader msg name = .ok r
  cseqNum : ∃ r, extractCseqNum msg = .ok r
  tagParam : ∀ value, ∃ r, extractTagParam value = .ok r
  sdpBody : ∃ r, extractSdpBody msg = .ok r
  challenge : ∀ value, ∃ r, parseDigestChallenge value = .ok r
  answer : ∀ body, ∃ r, parseAnswer body = .ok r

/-- For every datagram, the parsers all return exactly when the searches for the
headers that the client asks for compare no line across a character. -/
theorem parsersReturn_iff (datagram : List UInt8) :
    ParsersReturn (fromUtf8Lossy datagram) ↔
      ∀ name ∈ askedHeaders, HeaderComparable (fromUtf8Lossy datagram) name := by
  constructor
  · intro h name hname
    exact (extractHeader_ok_iff hname _).mp (h.header name hname)
  · intro h
    have hheader : ∀ name ∈ askedHeaders,
        ∃ r, extractHeader (fromUtf8Lossy datagram) name = .ok r :=
      fun name hname => (extractHeader_ok_iff hname _).mpr (h name hname)
    exact
      { header := hheader
        cseqNum := extractCseqNum_of_extractHeader (hheader _ cseq_mem_asked)
        tagParam := extractTagParam_total
        sdpBody := extractSdpBody_total _
        challenge := parseDigestChallenge_total
        answer := parseAnswer_total }

/-- A 200 with a line `ab€` in front of its To header. -/
def euroDatagram : List UInt8 :=
  asciiBytes (lit "SIP/2.0 200 OK\r\nab") ++ [0xE2, 0x82, 0xAC] ++
    asciiBytes (lit ": 1\r\nTo: <sip:1@h>\r\n\r\n")

/-- The search for its To header panics. -/
theorem parsers_panic_euro : ¬ ∀ datagram, ParsersReturn (fromUtf8Lossy datagram) := by
  intro h
  have hpanic : extractHeader (fromUtf8Lossy euroDatagram) (lit "To") =
      .error .notCharBoundary := by decide
  obtain ⟨found, hfound⟩ := (h euroDatagram).header (lit "To") (by simp [askedHeaders])
  rw [hpanic] at hfound
  contradiction

end SlmodemSipBridge.Sip
