import SlmodemSipBridge.Sip.Sections
import SlmodemSipBridge.Support.NetDisplay
import SlmodemSipBridge.Support.Printed

/-!
# Reading back an offer

What `parse_answer` finds in the text that `build_offer` makes: its lines come
back as they were printed, one of them is a connection line and one an audio
line, and so the endpoint is that of the offer.
-/

namespace SlmodemSipBridge.Sdp

open Rust

/-! ## The offer -/

/-- The lines of an offer. -/
def offerLines (localIp : IpAddr) (rtpPort : UInt16) (sessionId : ℕ) : List Str :=
  [lit "v=0",
    lit "o=slmodem-sip-bridge " ++ decimal sessionId ++ lit " " ++ decimal sessionId ++
      lit " IN " ++ ipVer localIp ++ lit " " ++ localIp.display,
    lit "s=slmodem-sip-bridge",
    lit "c=IN " ++ ipVer localIp ++ lit " " ++ localIp.display,
    lit "t=0 0",
    lit "m=audio " ++ decimal rtpPort.toNat ++ lit " RTP/AVP 0",
    lit "a=rtpmap:0 PCMU/8000",
    lit "a=ptime:20",
    lit "a=sendrecv"]

section Offer

variable {ip : IpAddr} {port : UInt16} (sessionId : ℕ)

theorem buildOffer_eq (hport : 0 < port) :
    buildOffer ip port sessionId = .ok (joinLines (offerLines ip port sessionId)) := by
  have hversion : decimal sdpVersion = lit "0" := by decide
  have hptime : decimal ptimeMs = lit "20" := by decide
  simp only [buildOffer, hport, decide_true, assert_true, bind, Except.bind, pure, Except.pure,
    offerLines, joinLines, List.flatMap_cons, List.flatMap_nil, crlf, hversion, hptime,
    List.append_assoc, List.append_nil, lit_append, lit_append_append, String.reduceAppend]

theorem noBlanks_ipVer (ip : IpAddr) : NoBlanks (ipVer ip) := by
  have hv4 : NoBlanks (lit "IP4") := by decide
  have hv6 : NoBlanks (lit "IP6") := by decide
  cases ip with
  | v4 addr => exact hv4
  | v6 addr => exact hv6

/-- Each line of an offer is one line. -/
theorem oneLine_offerLine : ∀ l ∈ offerLines ip port sessionId, OneLine l := by
  have hdisplay := (noBlanks_display ip).oneLine
  have hver := (noBlanks_ipVer ip).oneLine
  have hid := (noBlanks_decimal sessionId).oneLine
  have hport := (noBlanks_decimal port.toNat).oneLine
  have hconnection : OneLine (lit "c=IN " ++ ipVer ip ++ lit " " ++ ip.display) :=
    ((OneLine.append (by decide) hver).append (by decide)).append hdisplay
  have horigin : OneLine (lit "o=slmodem-sip-bridge " ++ decimal sessionId ++ lit " " ++
      decimal sessionId ++ lit " IN " ++ ipVer ip ++ lit " " ++ ip.display) :=
    (((((OneLine.append (by decide) hid).append (by decide)).append hid).append
      (by decide)).append hver).append (by decide) |>.append hdisplay
  have haudio : OneLine (lit "m=audio " ++ decimal port.toNat ++ lit " RTP/AVP 0") :=
    (OneLine.append (by decide) hport).append (by decide)
  simp only [offerLines, List.forall_mem_cons, List.not_mem_nil, false_implies, implies_true,
    and_true]
  exact ⟨by decide, horigin, by decide, hconnection, by decide, haudio, by decide, by decide,
    by decide⟩

/-- No line of an offer has blanks around it. -/
theorem trimmed_offerLine (hne : ip.display ≠ []) :
    ∀ l ∈ offerLines ip port sessionId, Trimmed l := by
  have hdisplay : Trimmed ip.display := (noBlanks_display ip).trimmed hne
  have hends : ∀ {lead : Str}, Flush lead → lead ≠ [] → Trimmed (lead ++ ip.display) :=
    fun hlead hne => hlead.trimmed_append hne hdisplay.flushEnd
  simp only [offerLines, List.forall_mem_cons, List.not_mem_nil, false_implies, implies_true,
    and_true]
  refine ⟨by decide, ?_, by decide, ?_, by decide, ?_, by decide, by decide, by decide⟩
  · exact hends (by simp [Flush, lit, isWhitespace]) (by simp [lit])
  · exact hends (by simp [Flush, lit, isWhitespace]) (by simp [lit])
  · have hlead : Flush (lit "m=audio " ++ decimal port.toNat) := by
      simp [Flush, lit, isWhitespace]
    exact hlead.trimmed_append (by simp [lit]) (by decide)

theorem trimmedLines_offer (hne : ip.display ≠ []) :
    trimmedLines (joinLines (offerLines ip port sessionId)) = offerLines ip port sessionId := by
  have hline : ∀ l ∈ offerLines ip port sessionId, '\n' ∉ l :=
    fun l hl => (oneLine_offerLine sessionId l hl).1
  have hcut := lines_joinLines hline []
  have hnil : lines [] = [] := by decide
  rw [List.append_nil, hnil, List.append_nil] at hcut
  rw [trimmedLines, hcut]
  calc (offerLines ip port sessionId).map trim = (offerLines ip port sessionId).map id :=
        List.map_congr_left fun l hl => (trimmed_offerLine sessionId hne l hl).trim_eq
    _ = offerLines ip port sessionId := List.map_id _

/-- The address of the connection line. -/
theorem connectionOf_offer (hip : parseIpAddr ip.display = some ip) (hne : ip.display ≠ []) :
    connectionOf (lit "c=IN " ++ ipVer ip ++ lit " " ++ ip.display) = some ip := by
  have hdrop : (lit "c=IN " ++ ipVer ip ++ lit " " ++ ip.display).drop 2 =
      lit "IN" ++ ' ' :: (ipVer ip ++ ' ' :: ip.display) := by simp [lit]
  have hverNe : ipVer ip ≠ [] := by cases ip <;> simp [ipVer, lit]
  have hwords : splitWhitespace ((lit "c=IN " ++ ipVer ip ++ lit " " ++ ip.display).drop 2) =
      [lit "IN", ipVer ip, ip.display] := by
    rw [hdrop, splitWhitespace_word (by decide) (by decide) (by decide),
      splitWhitespace_word hverNe (noBlanks_ipVer ip) (by decide),
      splitWhitespace_single hne (noBlanks_display ip)]
  have hline : isConnectionLine (lit "c=IN " ++ ipVer ip ++ lit " " ++ ip.display) = true := by
    simp [isConnectionLine, startsWith, lit]
  rw [connectionOf, if_pos hline, hwords]
  exact hip

/-- The port and the formats of the audio line. -/
theorem audioMedia_offer :
    audioMedia (lit "m=audio " ++ decimal port.toNat ++ lit " RTP/AVP 0") =
      some (port.toNat, [lit "0"]) := by
  have hdrop : (lit "m=audio " ++ decimal port.toNat ++ lit " RTP/AVP 0").drop 8 =
      decimal port.toNat ++ ' ' :: lit "RTP/AVP 0" := by simp [lit]
  have hrest : splitWhitespace (lit "RTP/AVP 0") = [lit "RTP/AVP", lit "0"] := by decide
  have hwords : splitWhitespace
      ((lit "m=audio " ++ decimal port.toNat ++ lit " RTP/AVP 0").drop 8) =
        [decimal port.toNat, lit "RTP/AVP", lit "0"] := by
    rw [hdrop, splitWhitespace_word (decimal_ne_nil _) (noBlanks_decimal _) (by decide), hrest]
  have hline : isAudioLine (lit "m=audio " ++ decimal port.toNat ++ lit " RTP/AVP 0") = true := by
    simp [isAudioLine, startsWith, lit]
  have hport : parseU16 (decimal port.toNat) = some port.toNat :=
    parseUnsigned_decimal (Nat.le_pred_of_lt port.toNat_lt)
  rw [audioMedia, if_pos hline, hwords]
  simp [hport]

/-- A line with another first letter is no connection line. -/
theorem connectionOf_of_head {line : Str} (h : line.head? ≠ some 'c') :
    connectionOf line = none := by
  have hline : ¬ isConnectionLine line = true := by
    intro hprefix
    obtain ⟨rest, rfl⟩ := List.isPrefixOf_iff_prefix.mp hprefix
    exact h rfl
  rw [connectionOf, if_neg hline]

theorem isAudioLine_of_head {line : Str} (h : line.head? ≠ some 'm') :
    ¬ isAudioLine line = true := by
  intro hprefix
  obtain ⟨rest, rfl⟩ := List.isPrefixOf_iff_prefix.mp hprefix
  exact h rfl

theorem audioPort_of_head {line : Str} (h : line.head? ≠ some 'm') : audioPort line = none := by
  rw [audioPort, audioMedia, if_neg (isAudioLine_of_head h)]
  rfl

/-- Only one line has a value. -/
theorem filterMap_single {α β : Type} {f : α → Option β} {before after : List α} {a : α} {b : β}
    (ha : f a = some b) (hbefore : ∀ x ∈ before, f x = none) (hafter : ∀ x ∈ after, f x = none) :
    (before ++ a :: after).filterMap f = [b] := by
  rw [List.filterMap_append, List.filterMap_cons_some ha,
    List.filterMap_eq_nil_iff.mpr hbefore, List.filterMap_eq_nil_iff.mpr hafter]
  rfl

theorem lastAddr_offer (hip : parseIpAddr ip.display = some ip) (hne : ip.display ≠ []) :
    lastAddr (offerLines ip port sessionId) = some ip := by
  have hcut : offerLines ip port sessionId = (offerLines ip port sessionId).take 3 ++
      (lit "c=IN " ++ ipVer ip ++ lit " " ++ ip.display) ::
        (offerLines ip port sessionId).drop 4 := rfl
  rw [lastAddr, hcut, filterMap_single (connectionOf_offer hip hne)]
  · rfl
  · intro l hl
    apply connectionOf_of_head
    revert l
    simp [offerLines, lit]
  · intro l hl
    apply connectionOf_of_head
    revert l
    simp [offerLines, lit]

theorem lastPort_offer : lastPort (offerLines ip port sessionId) = some port.toNat := by
  have haudio : audioPort (lit "m=audio " ++ decimal port.toNat ++ lit " RTP/AVP 0") =
      some port.toNat := by
    rw [audioPort, audioMedia_offer]
    rfl
  have hcut : offerLines ip port sessionId = (offerLines ip port sessionId).take 5 ++
      (lit "m=audio " ++ decimal port.toNat ++ lit " RTP/AVP 0") ::
        (offerLines ip port sessionId).drop 6 := rfl
  rw [lastPort, hcut, filterMap_single haudio]
  · rfl
  · intro l hl
    apply audioPort_of_head
    revert l
    simp [offerLines, lit]
  · intro l hl
    apply audioPort_of_head
    revert l
    simp [offerLines, lit]

/-- The only audio line of an offer offers PCMU. -/
theorem offersPcmu_offer :
    ∀ l ∈ offerLines ip port sessionId, isAudioLine l = true → OffersPcmu l := by
  have hother : ∀ l : Str, l.head? ≠ some 'm' → isAudioLine l = true → OffersPcmu l :=
    fun l hl haudio => absurd haudio (isAudioLine_of_head hl)
  simp only [offerLines, List.forall_mem_cons, List.not_mem_nil, false_implies, implies_true,
    and_true]
  refine ⟨?_, ?_, ?_, ?_, ?_, ?_, ?_, ?_, ?_⟩
  case refine_6 => exact fun _ => ⟨port.toNat, [lit "0"], audioMedia_offer, by simp⟩
  all_goals
    apply hother
    simp [lit]

/-- The endpoint of an offer is read back. -/
theorem parseAnswer_offer :
    parseAnswer (joinLines (offerLines ip port sessionId)) = .ok (.ok ⟨ip, port⟩) := by
  have hip := parseIpAddr_display ip
  have hne : ip.display ≠ [] := by
    intro hnil
    rw [hnil] at hip
    have hempty : (parseIpAddr []).isSome = false := by decide
    rw [hip] at hempty
    contradiction
  rw [parseAnswer_eq_ok_iff, trimmedLines_offer sessionId hne]
  refine ⟨offersPcmu_offer sessionId, lastAddr_offer sessionId hip hne, ?_⟩
  rw [lastPort_offer, Option.map_some, UInt16.ofNat_toNat]

end Offer

end SlmodemSipBridge.Sdp
