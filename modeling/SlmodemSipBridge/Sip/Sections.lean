import SlmodemSipBridge.Sip.Sdp

/-!
# The sections of an SDP answer

A session description is a session part and any number of media sections, and a
`c=` line belongs to the part it stands in.  `parse_answer` is one loop over the
lines: the last address and the last port win, whatever section they stand in.
The file states what an answer means by its sections and when the parser finds
that.
-/

namespace SlmodemSipBridge.Sdp

open Rust

/-! ## Session descriptions -/

/-- A media section: its `m=` line and the lines up to the next one. -/
structure MediaSection where
  media : Str
  body : List Str
  deriving DecidableEq, Repr

/-- A session description: the session part and the media sections. -/
structure Description where
  session : List Str
  sections : List MediaSection
  deriving DecidableEq, Repr

/-- Cut the lines of a description into its parts. -/
def describe : List Str → Description
  | [] => ⟨[], []⟩
  | line :: rest =>
      let d := describe rest
      if startsWith (lit "m=") line then ⟨[], ⟨line, d.session⟩ :: d.sections⟩
      else { d with session := line :: d.session }

/-- The parts of a description are all of its lines, in order. -/
theorem describe_lines (rest : List Str) :
    (describe rest).session ++
        (describe rest).sections.flatMap (fun s => s.media :: s.body) = rest := by
  induction rest with
  | nil => rfl
  | cons line rest ih =>
      by_cases hmedia : startsWith (lit "m=") line = true
      · simpa [describe, hmedia] using ih
      · simpa [describe, hmedia] using ih

/-- The lines of a text without the blanks around them. -/
def trimmedLines (sdp : Str) : List Str := (lines sdp).map trim

/-- Whether a line is a `c=` line. -/
def isConnectionLine (line : Str) : Bool := startsWith (lit "c=") line

/-- Whether a line is an `m=audio` line. -/
def isAudioLine (line : Str) : Bool := startsWith (lit "m=audio ") line

/-- The address of a `c=` line, its third word. -/
def connectionOf (line : Str) : Option IpAddr :=
  if isConnectionLine line then
    match splitWhitespace (line.drop 2) with
    | _ :: _ :: addr :: _ => parseIpAddr addr
    | _ => none
  else none

/-- The port and the formats of an `m=audio` line. -/
def audioMedia (line : Str) : Option (ℕ × List Str) :=
  if isAudioLine line then
    match splitWhitespace (line.drop 8) with
    | port :: _ :: formats => (parseU16 port).map (·, formats)
    | _ => none
  else none

/-- The address is one in effect for the section: of its own `c=` lines if it has
some, otherwise of those of the session. -/
def Description.InEffect (d : Description) (s : MediaSection) (addr : IpAddr) : Prop :=
  if s.body.any isConnectionLine then addr ∈ s.body.filterMap connectionOf
  else addr ∈ d.session.filterMap connectionOf

instance (d : Description) (s : MediaSection) (addr : IpAddr) :
    Decidable (d.InEffect s addr) := by
  unfold Description.InEffect
  infer_instance

/-- The section is an audio section with PCMU that is not declined, and the answer
is its endpoint. -/
structure Description.Endpoint (d : Description) (s : MediaSection) (answer : SdpAnswer) :
    Prop where
  audio : ∃ formats, audioMedia s.media = some (answer.port.toNat, formats) ∧
    lit "0" ∈ formats
  accepted : answer.port ≠ 0
  addr : d.InEffect s answer.addr

/-- An answer that is accepted is the endpoint of one of its audio sections. -/
def AnswersEndpoint (sdp : Str) : Prop :=
  ∀ answer, parseAnswer sdp = .ok (.ok answer) →
    ∃ s ∈ (describe (trimmedLines sdp)).sections,
      (describe (trimmedLines sdp)).Endpoint s answer

/-! ## What a line says to the parser -/

theorem strFrom_of_prefix {pattern line : Str} (h : startsWith pattern line = true) :
    strFrom line (byteLen pattern) = .ok (line.drop pattern.length) := by
  obtain ⟨rest, rfl⟩ := List.isPrefixOf_iff_prefix.mp h
  rw [strFrom_append, List.drop_left]

theorem connectionLine_eq (line : Str) : connectionLine line = .ok (connectionOf line) := by
  by_cases hc : startsWith (lit "c=") line = true
  · have hslice := strFrom_of_prefix hc
    have hlen : byteLen (lit "c=") = 2 := by decide
    have hdrop : (lit "c=").length = 2 := rfl
    rw [hlen, hdrop] at hslice
    simp only [connectionLine, connectionOf, isConnectionLine, hc, if_true, hslice, bind,
      Except.bind]
    rcases splitWhitespace (line.drop 2) with _ | ⟨netType, _ | ⟨addrType, _ | ⟨addr, rest⟩⟩⟩
    all_goals rfl
  · simp only [connectionLine, connectionOf, isConnectionLine, hc]
    rfl

/-- The line offers PCMU on a port. -/
def OffersPcmu (line : Str) : Prop :=
  ∃ port formats, audioMedia line = some (port, formats) ∧ lit "0" ∈ formats

theorem any_pcmu_iff (formats : List Str) :
    formats.any (· == lit "0") = true ↔ lit "0" ∈ formats := by
  rw [List.any_eq_true]
  constructor
  · rintro ⟨format, hformat, heq⟩
    rwa [← beq_iff_eq.mp heq]
  · intro h
    exact ⟨lit "0", h, beq_self_eq_true _⟩

/-- The parser takes the port of an audio line that offers PCMU, and stops at any
other audio line. -/
theorem audioLine_eq_ok_iff {line : Str} (haudio : isAudioLine line = true)
    (port : UInt16) :
    audioLine line = .ok (.ok port) ↔
      ∃ n formats, audioMedia line = some (n, formats) ∧ lit "0" ∈ formats ∧
        port = UInt16.ofNat n := by
  have hslice := strFrom_of_prefix haudio
  have hlen : byteLen (lit "m=audio ") = 8 := by decide
  have hdrop : (lit "m=audio ").length = 8 := rfl
  rw [hlen, hdrop] at hslice
  simp only [audioLine, audioMedia, haudio, if_true, hslice, bind, Except.bind]
  cases hwords : splitWhitespace (line.drop 8) with
  | nil => simp [pure, Except.pure]
  | cons first rest =>
      cases hport : parseU16 first with
      | none => cases rest <;> simp [hport, pure, Except.pure]
      | some n =>
          match rest with
          | [] => simp [hport, pure, Except.pure]
          | [proto] => simp [hport, pure, Except.pure]
          | proto :: format :: formats =>
              by_cases hpcmu : lit "0" ∈ format :: formats
              · simp only [hport, if_pos ((any_pcmu_iff _).mpr hpcmu), pure, Except.pure,
                  Except.ok.injEq, Option.map_some, Option.some.injEq, Prod.mk.injEq]
                constructor
                · rintro rfl
                  exact ⟨n, _, ⟨rfl, rfl⟩, hpcmu, rfl⟩
                · rintro ⟨_, _, ⟨rfl, rfl⟩, -, rfl⟩
                  rfl
              · simp only [hport, if_neg (mt (any_pcmu_iff _).mp hpcmu), pure, Except.pure,
                  Except.ok.injEq, reduceCtorEq, Option.map_some, Option.some.injEq,
                  Prod.mk.injEq, false_iff]
                rintro ⟨_, _, ⟨rfl, rfl⟩, hmem, -⟩
                exact hpcmu hmem

/-! ## What the loop keeps -/

/-- The last address of the lines, in whatever section. -/
def lastAddr (rest : List Str) : Option IpAddr := (rest.filterMap connectionOf).getLast?

/-- The port of an audio line. -/
def audioPort (line : Str) : Option ℕ := (audioMedia line).map Prod.fst

/-- The port of the last audio line. -/
def lastPort (rest : List Str) : Option ℕ := (rest.filterMap audioPort).getLast?

theorem getLast?_filterMap_cons {α β : Type} (f : α → Option β) (a : α) (rest : List α) :
    ((a :: rest).filterMap f).getLast? = (rest.filterMap f).getLast?.or (f a) := by
  cases hfa : f a with
  | none => simp [hfa]
  | some b =>
      cases hlast : (rest.filterMap f).getLast? <;> simp [hfa, List.getLast?_cons, hlast]

theorem audioMedia_of_not_audio {line : Str} (h : ¬ isAudioLine line = true) :
    audioMedia line = none := if_neg h

/-- An iteration on a line without an audio offer. -/
theorem parseLines_cons_other (st : ParseState) {line : Str} (rest : List Str)
    (h : ¬ isAudioLine (trim line) = true) :
    parseLines st (line :: rest) =
      parseLines
        { st with connectionAddr := (connectionOf (trim line)).or st.connectionAddr } rest := by
  rw [isAudioLine] at h
  simp only [parseLines, connectionLine_eq, bind, Except.bind, if_neg h]
  cases connectionOf (trim line) <;> rfl

/-- An iteration on an audio line. -/
theorem parseLines_cons_audio (st : ParseState) {line : Str} (rest : List Str)
    (h : isAudioLine (trim line) = true) :
    parseLines st (line :: rest) =
      match audioLine (trim line) with
      | .error why => .error why
      | .ok (.error e) => .ok (.error e)
      | .ok (.ok port) =>
          parseLines
            { connectionAddr := (connectionOf (trim line)).or st.connectionAddr
              mediaPort := some port
              hasAudioLine := true } rest := by
  rw [isAudioLine] at h
  simp only [parseLines, connectionLine_eq, bind, Except.bind, if_pos h]
  cases audioLine (trim line) with
  | error why => rfl
  | ok result =>
      cases result with
      | error e => rfl
      | ok port => cases connectionOf (trim line) <;> rfl

/-- The loop accepts lines whose audio lines all offer PCMU, and ends with the
last address and the last port. -/
theorem parseLines_eq_ok_iff (st st' : ParseState) (rest : List Str) :
    parseLines st rest = .ok (.ok st') ↔
      (∀ line ∈ rest.map trim, isAudioLine line = true → OffersPcmu line) ∧
        st' =
          { connectionAddr := (lastAddr (rest.map trim)).or st.connectionAddr
            mediaPort := ((lastPort (rest.map trim)).map UInt16.ofNat).or st.mediaPort
            hasAudioLine := st.hasAudioLine || (rest.map trim).any isAudioLine } := by
  induction rest generalizing st with
  | nil =>
      simp only [parseLines, List.map_nil, List.not_mem_nil, false_implies, implies_true,
        lastAddr, lastPort, List.filterMap_nil, List.getLast?_nil, Option.map_none,
        Option.none_or, List.any_nil, Bool.or_false, true_and, Except.ok.injEq]
      exact eq_comm
  | cons line rest ih =>
      simp only [List.map_cons, List.forall_mem_cons, lastAddr, lastPort,
        getLast?_filterMap_cons, Option.or_assoc, List.any_cons]
      by_cases haudio : isAudioLine (trim line) = true
      · rw [parseLines_cons_audio st rest haudio]
        obtain ⟨result, hresult⟩ := audioLine_total haudio
        cases result with
        | error e =>
            have hno : ¬ OffersPcmu (trim line) := by
              rintro ⟨n, formats, hmedia, hpcmu⟩
              have hok := (audioLine_eq_ok_iff haudio (UInt16.ofNat n)).mpr
                ⟨n, formats, hmedia, hpcmu, rfl⟩
              simp [hresult] at hok
            simp [hresult, haudio, hno]
        | ok port =>
            obtain ⟨n, formats, hmedia, hpcmu, rfl⟩ :=
              (audioLine_eq_ok_iff haudio port).mp hresult
            have hport : audioPort (trim line) = some n := by simp [audioPort, hmedia]
            have hoffers : OffersPcmu (trim line) := ⟨n, formats, hmedia, hpcmu⟩
            have hlast : ∀ last : Option ℕ,
                (last.map UInt16.ofNat).or (some (UInt16.ofNat n)) =
                  ((last.or (some n)).map UInt16.ofNat).or st.mediaPort := by
              intro last
              cases last <;> rfl
            simp only [hresult, ih, haudio, hport, hoffers, lastAddr, lastPort, hlast,
              true_implies, true_and, Bool.true_or, Bool.or_true]
      · rw [parseLines_cons_other st rest haudio, ih]
        have hport : audioPort (trim line) = none := by
          simp [audioPort, audioMedia_of_not_audio haudio]
        simp [haudio, hport, lastAddr, lastPort]

/-! ## When the answer is an endpoint of the description -/

theorem parseDigits_le {max acc : ℕ} {s : Str} {n : ℕ} (hacc : acc ≤ max)
    (h : parseDigits max acc s = some n) : n ≤ max := by
  induction s generalizing acc with
  | nil =>
      obtain rfl : acc = n := by simpa [parseDigits] using h
      exact hacc
  | cons c s ih =>
      simp only [parseDigits] at h
      split at h
      · split at h
        · next hle => exact ih hle h
        · simp at h
      · simp at h

theorem parseU16_lt {s : Str} {n : ℕ} (h : parseU16 s = some n) : n < 2 ^ 16 := by
  have hle : n ≤ 2 ^ 16 - 1 := by
    simp only [parseU16, parseUnsigned] at h
    split at h
    · simp at h
    · simp at h
    · exact parseDigits_le (Nat.zero_le _) h
    · exact parseDigits_le (Nat.zero_le _) h
  omega

theorem audioMedia_port_lt {line : Str} {n : ℕ} {formats : List Str}
    (h : audioMedia line = some (n, formats)) : n < 2 ^ 16 := by
  simp only [audioMedia] at h
  split at h
  · split at h
    · obtain ⟨port, hport, heq⟩ := Option.map_eq_some_iff.mp h
      obtain ⟨rfl, -⟩ := Prod.mk.inj heq
      exact parseU16_lt hport
    · simp at h
  · simp at h

theorem lastPort_of_no_audio {rest : List Str} (h : ¬ rest.any isAudioLine = true) :
    lastPort rest = none := by
  have hnone : rest.filterMap audioPort = [] := by
    rw [List.filterMap_eq_nil_iff]
    intro line hline
    have hother : ¬ isAudioLine line = true :=
      fun haudio => h (List.any_eq_true.mpr ⟨line, hline, haudio⟩)
    rw [audioPort, audioMedia_of_not_audio hother]
    rfl
  rw [lastPort, hnone]
  rfl

/-- What `parse_answer` accepts, and what it makes of it. -/
theorem parseAnswer_eq_ok_iff (sdp : Str) (answer : SdpAnswer) :
    parseAnswer sdp = .ok (.ok answer) ↔
      (∀ line ∈ trimmedLines sdp, isAudioLine line = true → OffersPcmu line) ∧
        lastAddr (trimmedLines sdp) = some answer.addr ∧
        (lastPort (trimmedLines sdp)).map UInt16.ofNat = some answer.port := by
  have hlines := parseLines_eq_ok_iff ⟨none, none, false⟩
  obtain ⟨result, hresult⟩ := parseLines_total ⟨none, none, false⟩ (lines sdp)
  cases result with
  | error e =>
      simp only [parseAnswer, hresult, bind, Except.bind, pure, Except.pure, Except.ok.injEq,
        reduceCtorEq, false_iff]
      rintro ⟨haccepted, -⟩
      have hok := (hlines _ (lines sdp)).mpr ⟨haccepted, rfl⟩
      simp [hresult] at hok
  | ok st =>
      obtain ⟨haccepted, hst⟩ := (hlines st (lines sdp)).mp hresult
      have htrimmed : (lines sdp).map trim = trimmedLines sdp := rfl
      rw [htrimmed] at haccepted hst
      rw [Option.or_none, Option.or_none, Bool.false_or] at hst
      subst hst
      rw [and_iff_right haccepted]
      simp only [parseAnswer, hresult, bind, Except.bind]
      by_cases haudio : (trimmedLines sdp).any isAudioLine = true
      · obtain ⟨addr, port⟩ := answer
        cases hlast : lastAddr (trimmedLines sdp) with
        | none => simp [haudio, pure, Except.pure]
        | some last =>
            cases hport : lastPort (trimmedLines sdp) with
            | none => simp [haudio, pure, Except.pure]
            | some n => simp [haudio, pure, Except.pure]
      · simp [haudio, lastPort_of_no_audio haudio, pure, Except.pure]

theorem isAudioLine_of_audioMedia {line : Str} {media : ℕ × List Str}
    (h : audioMedia line = some media) : isAudioLine line = true := by
  by_contra hother
  rw [audioMedia_of_not_audio hother] at h
  contradiction

/-- The port fits the answer's 16 bits. -/
theorem toNat_of_lastPort {rest : List Str} {port : ℕ} (h : lastPort rest = some port) :
    (UInt16.ofNat port).toNat = port := by
  obtain ⟨line, -, hline⟩ := List.mem_filterMap.mp (List.mem_of_getLast? h)
  obtain ⟨⟨n, formats⟩, hmedia, rfl⟩ := Option.map_eq_some_iff.mp hline
  rw [UInt16.toNat_ofNat', Nat.mod_eq_of_lt (audioMedia_port_lt hmedia)]

theorem media_mem {rest : List Str} {s : MediaSection} (h : s ∈ (describe rest).sections) :
    s.media ∈ rest := by
  rw [← describe_lines rest]
  apply List.mem_append_right
  exact List.mem_flatMap.mpr ⟨s, h, List.mem_cons_self⟩

/-- For every session description: what `parse_answer` accepts is the endpoint of
one of its audio sections exactly when, if every audio line offers PCMU, the last
audio line has a port other than 0 and the last address of the description is in
effect for an audio section with that port. -/
theorem parseAnswer_endpoint_iff (sdp : Str) :
    AnswersEndpoint sdp ↔
      ((∀ line ∈ trimmedLines sdp, isAudioLine line = true → OffersPcmu line) →
        ∀ addr port, lastAddr (trimmedLines sdp) = some addr →
          lastPort (trimmedLines sdp) = some port →
            port ≠ 0 ∧ ∃ s ∈ (describe (trimmedLines sdp)).sections,
              audioPort s.media = some port ∧
                (describe (trimmedLines sdp)).InEffect s addr) := by
  constructor
  · intro h haccepted addr port haddr hport
    obtain ⟨s, hs, hend⟩ := h ⟨addr, UInt16.ofNat port⟩
      ((parseAnswer_eq_ok_iff _ _).mpr ⟨haccepted, haddr, by rw [hport]; rfl⟩)
    obtain ⟨formats, hmedia, -⟩ := hend.audio
    have htoNat := toNat_of_lastPort hport
    refine ⟨?_, s, hs, ?_, hend.addr⟩
    · rintro rfl
      exact hend.accepted rfl
    · rw [audioPort, hmedia]
      exact congrArg some htoNat
  · intro h answer hanswer
    obtain ⟨haccepted, haddr, hport⟩ := (parseAnswer_eq_ok_iff _ _).mp hanswer
    obtain ⟨port, hlast, hof⟩ := Option.map_eq_some_iff.mp hport
    obtain ⟨hne, s, hs, hsport, heffect⟩ := h haccepted _ _ haddr hlast
    have htoNat : answer.port.toNat = port := hof ▸ toNat_of_lastPort hlast
    obtain ⟨⟨n, formats⟩, hmedia, rfl⟩ := Option.map_eq_some_iff.mp hsport
    refine ⟨s, hs, ⟨formats, ?_, ?_⟩, ?_, heffect⟩
    · rw [hmedia, htoNat]
    · obtain ⟨n', formats', hmedia', hpcmu⟩ :=
        haccepted s.media (media_mem hs) (isAudioLine_of_audioMedia hmedia)
      rw [hmedia, Option.some.injEq, Prod.mk.injEq] at hmedia'
      rw [hmedia'.2]
      exact hpcmu
    · intro hzero
      rw [hzero] at htoNat
      exact hne htoNat.symm

/-! ## An answer with a video section -/

/-- The address of the video section comes last. -/
def videoAnswer : Str :=
  lit "v=0\r\nc=IN IP4 10.0.0.1\r\nm=audio 4000 RTP/AVP 0\r\n" ++
    lit "m=video 5000 RTP/AVP 31\r\nc=IN IP4 10.0.0.2\r\n"

/-- The audio is sent to the address of the video section. -/
theorem parseAnswer_takesVideoAddress : ¬ ∀ sdp, AnswersEndpoint sdp := by
  intro h
  have hsections : (describe (trimmedLines videoAnswer)).sections =
      [⟨lit "m=audio 4000 RTP/AVP 0", []⟩,
        ⟨lit "m=video 5000 RTP/AVP 31", [lit "c=IN IP4 10.0.0.2"]⟩] := by decide
  obtain ⟨s, hs, hend⟩ := h videoAnswer ⟨.v4 ⟨10, 0, 0, 2⟩, 4000⟩ (by decide)
  rw [hsections, List.mem_cons, List.mem_singleton] at hs
  rcases hs with rfl | rfl
  · have haddr := hend.addr
    revert haddr
    decide
  · obtain ⟨formats, hmedia, -⟩ := hend.audio
    rw [audioMedia_of_not_audio (by decide)] at hmedia
    contradiction

end SlmodemSipBridge.Sdp
