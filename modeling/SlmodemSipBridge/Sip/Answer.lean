import SlmodemSipBridge.Sip.Inbound
import SlmodemSipBridge.Support.NetDisplay

/-!
# The answer to an offer

A session description as another party prints it: one audio stream with any formats,
PCMU among them, and any lines of other types around it.  `parse_answer` takes the
endpoint from it that was meant.
-/

namespace SlmodemSipBridge.Sip

open Rust Sdp Bridge Envelope

/-! ## Descriptions -/

/-- A session description with one audio stream.  It may have any number of formats and
of lines of other types. -/
structure Answer where
  lead : List Str
  addr : IpAddr
  timing : List Str
  port : UInt16
  formats : List Str
  attributes : List Str

/-- The connection line of an address. -/
def connectionText (addr : IpAddr) : Str := lit "c=IN " ++ ipVer addr ++ lit " " ++ addr.display

/-- The audio line of a port and its formats. -/
def audioText (port : UInt16) (formats : List Str) : Str :=
  lit "m=audio " ++ decimal port.toNat ++ lit " RTP/AVP" ++
    formats.flatMap fun format => ' ' :: format

/-- The lines of the description. -/
def Answer.allLines (a : Answer) : List Str :=
  a.lead ++ connectionText a.addr ::
    (a.timing ++ audioText a.port a.formats :: a.attributes)

/-- The text of the description. -/
def Answer.text (a : Answer) : Str := joinLines a.allLines

/-- The endpoint that the description announces. -/
def Answer.endpoint (a : Answer) : SocketAddr := ⟨a.addr, a.port⟩

/-- A line of a description that can be printed. -/
structure SdpLine (l : Str) : Prop extends TypedLine l where
  newline : '\n' ∉ l
  trimmed : Trimmed l

/-- A line that is neither a connection line nor a media line. -/
structure OtherLine (l : Str) : Prop extends SdpLine l where
  connection : l.head? ≠ some 'c'
  media : l.head? ≠ some 'm'

/-- A payload type. -/
structure Format (s : Str) : Prop where
  ne : s ≠ []
  noBlanks : NoBlanks s
  ascii : IsAscii s

/-- The description can be read, and PCMU is among its formats. -/
structure Answer.Sound (a : Answer) : Prop where
  lead : ∀ l ∈ a.lead, OtherLine l
  timing : ∀ l ∈ a.timing, OtherLine l
  attributes : ∀ l ∈ a.attributes, OtherLine l
  formats : ∀ f ∈ a.formats, Format f
  pcmu : lit "0" ∈ a.formats

/-! ## The two lines that are read -/

theorem display_ne_nil (ip : IpAddr) : ip.display ≠ [] := by
  intro hnil
  have hip := parseIpAddr_display ip
  rw [hnil] at hip
  have hempty : (parseIpAddr []).isSome = false := by decide
  rw [hip] at hempty
  contradiction

theorem isAscii_intercalate {sep : Str} {words : List Str} (hsep : IsAscii sep)
    (h : ∀ word ∈ words, IsAscii word) : IsAscii (List.intercalate sep words) := by
  induction words with
  | nil => exact nofun
  | cons word words ih =>
      rw [List.forall_mem_cons] at h
      cases words with
      | nil => simpa using h.1
      | cons next words =>
          rw [List.intercalate_cons_cons]
          exact (h.1.append hsep).append (ih h.2)

theorem isAscii_displaySegments (segments : List UInt16) :
    IsAscii (displaySegments segments) := by
  apply isAscii_intercalate (by decide)
  intro word hword
  obtain ⟨segment, -, rfl⟩ := List.mem_map.mp hword
  exact isAscii_hex segment.toNat

theorem isAscii_displayV4 (addr : Ipv4Addr) : IsAscii addr.display := by
  have hdot : IsAscii ['.'] := by decide
  exact ((((((isAscii_decimal _).append hdot).append (isAscii_decimal _)).append hdot).append
    (isAscii_decimal _)).append hdot).append (isAscii_decimal _)

/-- An address is displayed in ASCII. -/
theorem isAscii_display (ip : IpAddr) : IsAscii ip.display := by
  cases ip with
  | v4 addr => exact isAscii_displayV4 addr
  | v6 addr =>
      rw [IpAddr.display, Ipv6Addr.display]
      split
      · exact IsAscii.append (by decide) (isAscii_displayV4 _)
      · simp only
        split
        · exact ((isAscii_displaySegments _).append (by decide)).append
            (isAscii_displaySegments _)
        · exact isAscii_displaySegments _

theorem printed_connection (addr : IpAddr) : SdpLine (connectionText addr) where
  shape := ⟨'c', lit "IN " ++ ipVer addr ++ lit " " ++ addr.display, by
    simp [connectionText, lit], by decide, by decide⟩
  ascii := by
    have hver : IsAscii (ipVer addr) := by
      cases addr with
      | v4 _ => exact (by decide : IsAscii (lit "IP4"))
      | v6 _ => exact (by decide : IsAscii (lit "IP6"))
    exact ((IsAscii.append (by decide) hver).append (by decide)).append (isAscii_display addr)
  newline := by
    have hver := (noBlanks_ipVer addr).oneLine.1
    have hip := (noBlanks_display addr).oneLine.1
    simp [connectionText, lit, hver, hip]
  trimmed := by
    have hend := ((noBlanks_display addr).trimmed (display_ne_nil addr)).flushEnd
    exact trimmed_of_head (c := 'c') (s := lit "c=IN " ++ ipVer addr ++ lit " ") rfl (by decide)
      hend

theorem printed_audio (port : UInt16) {formats : List Str} (h : ∀ f ∈ formats, Format f)
    (hne : formats ≠ []) : SdpLine (audioText port formats) where
  shape := ⟨'m', lit "audio " ++ decimal port.toNat ++ lit " RTP/AVP" ++
    formats.flatMap fun format => ' ' :: format, by simp [audioText, lit], by decide, by decide⟩
  ascii := by
    have hformats : IsAscii (formats.flatMap fun format => ' ' :: format) := by
      intro c hc
      obtain ⟨format, hformat, hmem⟩ := List.mem_flatMap.mp hc
      rcases List.mem_cons.mp hmem with rfl | hmem
      · decide
      · exact (h format hformat).ascii c hmem
    exact ((IsAscii.append (by decide) (isAscii_decimal _)).append (by decide)).append hformats
  newline := by
    have hport := (noBlanks_decimal port.toNat).oneLine.1
    have hformats : '\n' ∉ formats.flatMap fun format => ' ' :: format := by
      intro hmem
      obtain ⟨format, hformat, hmem⟩ := List.mem_flatMap.mp hmem
      rcases List.mem_cons.mp hmem with heq | hmem
      · contradiction
      · exact (h format hformat).noBlanks.oneLine.1 hmem
    simp only [audioText, List.mem_append, not_or]
    exact ⟨⟨⟨by decide, hport⟩, by decide⟩, hformats⟩
  trimmed := by
    have hlast := h _ (List.getLast_mem hne)
    have hend : FlushEnd (formats.flatMap fun format => ' ' :: format) := by
      rw [← List.dropLast_append_getLast hne, List.flatMap_append]
      apply flushEnd_append
      rw [List.flatMap_singleton]
      exact flushEnd_append (hlast.noBlanks.trimmed hlast.ne).flushEnd [' ']
    exact trimmed_of_head (c := 'm')
      (s := lit "m=audio " ++ decimal port.toNat ++ lit " RTP/AVP") rfl (by decide) hend

theorem splitWhitespace_blank (s : Str) : splitWhitespace (' ' :: s) = splitWhitespace s := by
  have hblank : isWhitespace ' ' = true := by decide
  rw [splitWhitespace, List.splitOnP_cons_eq_if_modifyHead, if_pos hblank]
  simp [splitWhitespace]

theorem splitWhitespace_formats {formats : List Str} (h : ∀ f ∈ formats, Format f) :
    splitWhitespace (formats.flatMap fun format => ' ' :: format) = formats := by
  induction formats with
  | nil => rfl
  | cons f formats ih =>
      rw [List.forall_mem_cons] at h
      rw [List.flatMap_cons, List.cons_append, splitWhitespace_blank]
      cases formats with
      | nil => simpa using splitWhitespace_single h.1.ne h.1.noBlanks
      | cons next formats =>
          have hrest := ih h.2
          rw [List.flatMap_cons, List.cons_append, splitWhitespace_blank] at hrest
          rw [List.flatMap_cons, List.cons_append,
            splitWhitespace_word h.1.ne h.1.noBlanks (by decide), hrest]

/-- The port and the formats of the audio line are read back. -/
theorem audioMedia_text (port : UInt16) {formats : List Str} (h : ∀ f ∈ formats, Format f)
    (hne : formats ≠ []) : audioMedia (audioText port formats) = some (port.toNat, formats) := by
  obtain ⟨f, fs, rfl⟩ := List.exists_cons_of_ne_nil hne
  have hdrop : (audioText port (f :: fs)).drop 8 =
      decimal port.toNat ++ ' ' :: (lit "RTP/AVP" ++
        ' ' :: (f ++ fs.flatMap fun format => ' ' :: format)) := by
    simp [audioText, lit]
  have hformats := splitWhitespace_formats h
  rw [List.flatMap_cons, List.cons_append, splitWhitespace_blank] at hformats
  have hwords : splitWhitespace ((audioText port (f :: fs)).drop 8) =
      decimal port.toNat :: lit "RTP/AVP" :: f :: fs := by
    rw [hdrop, splitWhitespace_word (decimal_ne_nil _) (noBlanks_decimal _) (by decide),
      splitWhitespace_word (by decide) (by decide) (by decide), hformats]
  have hline : isAudioLine (audioText port (f :: fs)) = true := by
    simp [isAudioLine, startsWith, audioText, lit]
  have hport : parseU16 (decimal port.toNat) = some port.toNat :=
    parseUnsigned_decimal (Nat.le_pred_of_lt port.toNat_lt)
  rw [audioMedia, if_pos hline, hwords]
  simp [hport]

/-! ## The endpoint is read -/

section Answer

variable {a : Answer} (h : a.Sound)
include h

/-- Every line of a sound description can be printed. -/
theorem Answer.Sound.line : ∀ l ∈ a.allLines, SdpLine l := by
  have hne : a.formats ≠ [] := List.ne_nil_of_mem h.pcmu
  simp only [Answer.allLines, List.forall_mem_append, List.forall_mem_cons]
  exact ⟨fun l hl => (h.lead l hl).toSdpLine, printed_connection a.addr,
    fun l hl => (h.timing l hl).toSdpLine, printed_audio a.port h.formats hne,
    fun l hl => (h.attributes l hl).toSdpLine⟩

theorem Answer.Sound.lines_text : lines a.text = a.allLines := by
  have hcut := lines_joinLines (fun l hl => (h.line l hl).newline) []
  have hnil : lines [] = [] := by decide
  rwa [List.append_nil, hnil, List.append_nil] at hcut

/-- The parser takes the endpoint from the description. -/
theorem Answer.Sound.parseAnswer_text : parseAnswer a.text = .ok (.ok ⟨a.addr, a.port⟩) := by
  have hne : a.formats ≠ [] := List.ne_nil_of_mem h.pcmu
  have htrimmed : trimmedLines a.text = a.allLines := by
    rw [trimmedLines, h.lines_text]
    calc a.allLines.map trim = a.allLines.map id :=
          List.map_congr_left fun l hl => (h.line l hl).trimmed.trim_eq
      _ = a.allLines := List.map_id _
  have hmedia := audioMedia_text a.port h.formats hne
  have hport : audioPort (audioText a.port a.formats) = some a.port.toNat := by
    rw [audioPort, hmedia]
    rfl
  have haddr : connectionOf (connectionText a.addr) = some a.addr :=
    connectionOf_offer (parseIpAddr_display a.addr) (display_ne_nil a.addr)
  have hnot : (connectionText a.addr).head? ≠ some 'm' := by simp [connectionText, lit]
  have hnot' : (audioText a.port a.formats).head? ≠ some 'c' := by simp [audioText, lit]
  rw [parseAnswer_eq_ok_iff, htrimmed]
  refine ⟨?_, ?_, ?_⟩
  · simp only [Answer.allLines, List.forall_mem_append, List.forall_mem_cons]
    have hother : ∀ {l : Str}, l.head? ≠ some 'm' → isAudioLine l = true → OffersPcmu l :=
      fun hhead haudio => absurd haudio (isAudioLine_of_head hhead)
    exact ⟨fun l hl => hother (h.lead l hl).media, hother hnot,
      fun l hl => hother (h.timing l hl).media,
      fun _ => ⟨a.port.toNat, a.formats, hmedia, h.pcmu⟩,
      fun l hl => hother (h.attributes l hl).media⟩
  · rw [lastAddr, Answer.allLines, filterMap_single haddr]
    · rfl
    · exact fun l hl => connectionOf_of_head (h.lead l hl).connection
    · simp only [List.forall_mem_append, List.forall_mem_cons]
      exact ⟨fun l hl => connectionOf_of_head (h.timing l hl).connection,
        connectionOf_of_head hnot',
        fun l hl => connectionOf_of_head (h.attributes l hl).connection⟩
  · have hcut : a.allLines = (a.lead ++ connectionText a.addr :: a.timing) ++
        audioText a.port a.formats :: a.attributes := by
      simp [Answer.allLines]
    rw [hcut, lastPort, filterMap_single hport]
    · simp
    · simp only [List.forall_mem_append, List.forall_mem_cons]
      exact ⟨fun l hl => audioPort_of_head (h.lead l hl).media, audioPort_of_head hnot,
        fun l hl => audioPort_of_head (h.timing l hl).media⟩
    · exact fun l hl => audioPort_of_head (h.attributes l hl).media

end Answer

end SlmodemSipBridge.Sip
