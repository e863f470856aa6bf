import SlmodemSipBridge.Bridge.Session
import SlmodemSipBridge.Sip.Fields
import SlmodemSipBridge.Sip.Invite
import SlmodemSipBridge.Sip.Offer

/-!
# Reading back the client's own messages

What the parsers of `sip.rs` find in the messages that the builders make: the
identifiers and the offer of an INVITE, and the tag in the To header of an ACK.
-/

namespace SlmodemSipBridge.Sip

open Rust Bridge

/-! ## The lines of a request -/

/-- The lines in front of the To header. -/
def SipClient.leadLines (c : SipClient) (method uri branch localTag : Str) : List Str :=
  [method ++ lit " " ++ uri ++ lit " SIP/2.0",
    field (lit "Via") (lit "SIP/2.0/UDP " ++ c.localIp.display ++ lit ":" ++
      decimal c.localPort.toNat ++ lit ";branch=" ++ branch ++ lit ";rport"),
    field (lit "From") (lit "\"" ++ c.callerName ++ lit "\" <sip:" ++ c.callerId ++ lit "@" ++
      c.sipDomain ++ lit ">;tag=" ++ localTag)]

/-- The credential line, if there is one. -/
def InviteRequest.authLines (r : InviteRequest) : List Str :=
  r.auth.toList.map fun auth => field auth.1 auth.2

/-- The lines of an INVITE between the CSeq header and the credentials. -/
def SipClient.midLines (c : SipClient) : List Str :=
  [field (lit "Contact") (lit "<sip:" ++ c.username ++ lit "@" ++ c.localIp.display ++
      lit ":" ++ decimal c.localPort.toNat ++ lit ">"),
    field (lit "Max-Forwards") (lit "70"),
    field (lit "User-Agent") (lit "slmodem-sip-bridge"),
    field (lit "Allow") (lit "INVITE, ACK, BYE, CANCEL")]

/-- The lines of an INVITE in front of the empty one. -/
def SipClient.inviteLines (c : SipClient) (r : InviteRequest) : List Str :=
  c.leadLines (lit "INVITE") r.uri r.branch r.localTag ++
    [field (lit "To") (lit "<" ++ r.uri ++ lit ">"),
      field (lit "Call-ID") r.callId,
      field (lit "CSeq") (decimal r.cseq ++ lit " INVITE")] ++
    c.midLines ++ r.authLines ++
    [field (lit "Content-Type") (lit "application/sdp"),
      field (lit "Content-Length") (decimal (byteLen r.sdp))]

theorem joinLines_authLines (r : InviteRequest) : joinLines r.authLines = r.authLine := by
  cases hauth : r.auth with
  | none => simp [InviteRequest.authLine, InviteRequest.authLines, hauth, joinLines]
  | some auth =>
      simp [InviteRequest.authLine, InviteRequest.authLines, hauth, field, joinLines, crlf]

theorem buildInvite_eq (c : SipClient) (r : InviteRequest) :
    c.buildInvite r = joinLines (c.inviteLines r) ++ crlf ++ r.sdp := by
  rw [SipClient.inviteLines, joinLines_append, joinLines_append, joinLines_append,
    joinLines_append, joinLines_authLines]
  delta SipClient.buildInvite
  simp only [SipClient.leadLines, SipClient.midLines, joinLines,
    List.flatMap_cons, List.flatMap_nil, field, crlf, List.append_assoc, List.nil_append,
    lit_append, lit_append_append, String.reduceAppend]

/-- The lines of an ACK behind the To header. -/
def Call.tailLines (call : Call) : List Str :=
  [field (lit "Call-ID") call.callId,
    field (lit "CSeq") (decimal call.cseq ++ lit " ACK"),
    field (lit "Max-Forwards") (lit "70"),
    field (lit "User-Agent") (lit "slmodem-sip-bridge"),
    field (lit "Content-Length") (lit "0")]

theorem buildAck_eq (c : SipClient) (call : Call) :
    c.buildAck call =
      joinLines (c.leadLines (lit "ACK") call.inviteUri call.viaBranch call.localTag ++
        field (lit "To") (lit "<" ++ call.inviteUri ++ lit ">" ++ call.toTag) ::
          call.tailLines) ++ crlf := by
  rw [joinLines_append]
  delta SipClient.buildAck
  simp only [SipClient.leadLines, Call.tailLines, joinLines,
    List.flatMap_cons, List.flatMap_nil, field, crlf, List.append_assoc, List.nil_append,
    lit_append, lit_append_append, String.reduceAppend]

/-! ## Configured clients -/

/-- ASCII text of one line. -/
structure Plain (s : Str) : Prop where
  ascii : IsAscii s
  oneLine : OneLine s

instance (s : Str) : Decidable (Plain s) :=
  decidable_of_iff (IsAscii s ∧ OneLine s) ⟨fun h => ⟨h.1, h.2⟩, fun h => ⟨h.1, h.2⟩⟩

theorem IsAscii.append {s t : Str} (hs : IsAscii s) (ht : IsAscii t) : IsAscii (s ++ t) :=
  fun c hc => (List.mem_append.mp hc).elim (hs c) (ht c)

theorem Plain.append {s t : Str} (hs : Plain s) (ht : Plain t) : Plain (s ++ t) :=
  ⟨hs.ascii.append ht.ascii, hs.oneLine.append ht.oneLine⟩

theorem isAscii_take_append {s t : Str} {n : ℕ} (hs : IsAscii s) (hn : n ≤ s.length) :
    IsAscii ((s ++ t).take n) := by
  rw [List.take_append_of_le_length hn]
  exact fun c hc => hs c (List.mem_of_mem_take hc)

/-- The configured texts are ASCII of one line.  A host name or an address holds no
equals sign. -/
structure SipClient.Configured (c : SipClient) : Prop where
  sipDomain : Plain c.sipDomain
  host : '=' ∉ c.sipDomain
  username : Plain c.username
  callerId : Plain c.callerId
  callerName : Plain c.callerName

/-- An identifier of a call: a word. -/
structure Identifier (s : Str) : Prop where
  ne : s ≠ []
  noBlanks : NoBlanks s

theorem identifier_callId (micros pid : ℕ) : Identifier (generateCallId micros pid) where
  ne := by simp [generateCallId, lit]
  noBlanks := ((noBlanks_decimal micros).append (by decide)).append (noBlanks_decimal pid)

theorem identifier_tag (hash : UInt64) : Identifier (generateTag hash) :=
  ⟨Nat.toDigits_ne_nil, noBlanks_hex hash.toNat⟩

theorem identifier_branch (hash : UInt64) : Identifier (generateBranch hash) where
  ne := by simp [generateBranch, magicCookie, lit]
  noBlanks := NoBlanks.append (by decide) (noBlanks_hex hash.toNat)

/-- Dial characters are ASCII, and no line ends or equals signs. -/
theorem plain_dialText (dial : DialString) : Plain dial.text ∧ '=' ∉ dial.text := by
  have hall := dial.forall_mem (p := fun c => c.toNat < 128 && c != '\n' && c != '\r' && c != '=')
    (by decide)
  simp only [Bool.and_eq_true, decide_eq_true_eq, bne_iff_ne] at hall
  have hascii : IsAscii dial.text := fun c hc => (hall c hc).1.1.1
  refine ⟨⟨hascii, ?_, ?_⟩, ?_⟩
  · exact fun hc => (hall _ hc).1.1.2 rfl
  · exact fun hc => (hall _ hc).1.2 rfl
  · exact fun hc => (hall _ hc).2 rfl

section Lines

variable {c : SipClient} (hc : c.Configured) (dial : DialString)
include hc

theorem plain_inviteUri : Plain (c.inviteUri dial.text) :=
  ((Plain.append (by decide) (plain_dialText dial).1).append (by decide)).append hc.sipDomain

theorem equals_notMem_inviteUri : '=' ∉ c.inviteUri dial.text := by
  have hdial := (plain_dialText dial).2
  have hhost := hc.host
  simp [SipClient.inviteUri, lit, hdial, hhost]

variable {method : Str} (hmethod : method ∈ [lit "INVITE", lit "ACK"])
include hmethod

/-- The lines in front of the To header have other names, and begin with ASCII. -/
theorem leadLine_named (branch localTag : Str) :
    ∀ l ∈ c.leadLines method (c.inviteUri dial.text) branch localTag,
      ∃ other ∈ [method ++ lit " sip", lit "Via", lit "From"],
        NamedLine other l ∧ IsAscii (l.take 8) := by
  have hmethods : ∀ m ∈ [lit "INVITE", lit "ACK"],
      Plain m ∧ ':' ∉ m ++ lit " sip" ∧ Flush (m ++ lit " sip" ++ [':']) := by decide
  obtain ⟨hplain, hcolon, hflush⟩ := hmethods method hmethod
  have hrequest : NamedLine (method ++ lit " sip")
      (method ++ lit " " ++ c.inviteUri dial.text ++ lit " SIP/2.0") := by
    refine ⟨hcolon, hflush, dial.text ++ lit "@" ++ c.sipDomain ++ lit " SIP/2.0", ?_⟩
    simp [SipClient.inviteUri, lit]
  have hascii : IsAscii (method ++ lit " " ++ c.inviteUri dial.text ++ lit " SIP/2.0") :=
    ((hplain.append (by decide)).append (plain_inviteUri hc dial)).append (by decide) |>.ascii
  have hvia : ∀ rest, IsAscii ((field (lit "Via") (lit "SIP/2.0/UDP " ++ rest)).take 8) := by
    intro rest
    rw [field, ← List.append_assoc]
    exact isAscii_take_append (by decide) (by decide)
  have hfrom : ∀ rest, IsAscii
      ((field (lit "From") (lit "\"" ++ c.callerName ++ lit "\" <sip:" ++ rest)).take 8) := by
    intro rest
    rw [field, ← List.append_assoc]
    have hname : IsAscii (lit "\"" ++ c.callerName ++ lit "\" <sip:") :=
      (IsAscii.append (by decide) hc.callerName.ascii).append (by decide)
    apply isAscii_take_append (IsAscii.append (by decide) hname)
    simp only [List.length_append]
    have hlit : (lit "From").length + (lit ": ").length + (lit "\"").length +
        (lit "\" <sip:").length = 14 := by decide
    omega
  simp only [SipClient.leadLines, List.forall_mem_cons, List.not_mem_nil, false_implies,
    implies_true, and_true]
  refine ⟨⟨_, by simp, hrequest, fun x hx => hascii x (List.mem_of_mem_take hx)⟩,
    ⟨lit "Via", by simp, namedLine_field (by decide) (by decide) _, ?_⟩,
    ⟨lit "From", by simp, namedLine_field (by decide) (by decide) _, ?_⟩⟩
  · simpa only [List.append_assoc] using hvia _
  · simpa only [List.append_assoc] using hfrom _

/-- The lines in front of the To header are lines. -/
theorem oneLine_leadLine {branch localTag : Str} (hbranch : OneLine branch)
    (htag : OneLine localTag) :
    ∀ l ∈ c.leadLines method (c.inviteUri dial.text) branch localTag, OneLine l ∧ l ≠ [] := by
  have hmethods : ∀ m ∈ [lit "INVITE", lit "ACK"], OneLine m := by decide
  have hip := (noBlanks_display c.localIp).oneLine
  have hport := (noBlanks_decimal c.localPort.toNat).oneLine
  have hrequest : OneLine (method ++ lit " " ++ c.inviteUri dial.text ++ lit " SIP/2.0") :=
    (((hmethods method hmethod).append (by decide)).append
      (plain_inviteUri hc dial).oneLine).append (by decide)
  have hvia : OneLine (lit "SIP/2.0/UDP " ++ c.localIp.display ++ lit ":" ++
      decimal c.localPort.toNat ++ lit ";branch=" ++ branch ++ lit ";rport") :=
    (((((OneLine.append (by decide) hip).append (by decide)).append hport).append
      (by decide)).append hbranch).append (by decide)
  have hfrom : OneLine (lit "\"" ++ c.callerName ++ lit "\" <sip:" ++ c.callerId ++ lit "@" ++
      c.sipDomain ++ lit ">;tag=" ++ localTag) :=
    ((((((OneLine.append (by decide) hc.callerName.oneLine).append (by decide)).append
      hc.callerId.oneLine).append (by decide)).append hc.sipDomain.oneLine).append
      (by decide)).append htag
  simp only [SipClient.leadLines, List.forall_mem_cons, List.not_mem_nil, false_implies,
    implies_true, and_true]
  exact ⟨⟨hrequest, by simp [lit]⟩, oneLine_field (by decide) hvia,
    oneLine_field (by decide) hfrom⟩

end Lines

/-! ## The INVITE -/

/-- The request is for the dial string: its fields are words, and its credentials, if
any, are ASCII of one line. -/
structure InviteRequest.Addressed (r : InviteRequest) (c : SipClient) (dial : DialString) :
    Prop where
  uri : r.uri = c.inviteUri dial.text
  callId : Identifier r.callId
  localTag : Identifier r.localTag
  branch : Identifier r.branch
  auth : ∀ auth ∈ r.auth,
    auth.1 ∈ [lit "Authorization", lit "Proxy-Authorization"] ∧ Plain auth.2

section Invite

variable {c : SipClient} (hc : c.Configured) {dial : DialString} {r : InviteRequest}
  (hr : r.Addressed c dial)
include hc hr

/-- The lines of an INVITE are lines. -/
theorem oneLine_inviteLine : ∀ l ∈ c.inviteLines r, OneLine l ∧ l ≠ [] := by
  have hmethod : lit "INVITE" ∈ [lit "INVITE", lit "ACK"] := by simp
  have hlead := oneLine_leadLine hc dial hmethod hr.branch.noBlanks.oneLine
    hr.localTag.noBlanks.oneLine
  have hto : OneLine (lit "<" ++ r.uri ++ lit ">") := by
    rw [hr.uri]
    exact (OneLine.append (by decide) (plain_inviteUri hc dial).oneLine).append (by decide)
  have hcseq : OneLine (decimal r.cseq ++ lit " INVITE") :=
    (noBlanks_decimal r.cseq).oneLine.append (by decide)
  have hcontact : OneLine (lit "<sip:" ++ c.username ++ lit "@" ++ c.localIp.display ++
      lit ":" ++ decimal c.localPort.toNat ++ lit ">") :=
    (((((OneLine.append (by decide) hc.username.oneLine).append (by decide)).append
      (noBlanks_display c.localIp).oneLine).append (by decide)).append
      (noBlanks_decimal c.localPort.toNat).oneLine).append (by decide)
  have hauth : ∀ l ∈ r.authLines, OneLine l ∧ l ≠ [] := by
    intro l hl
    obtain ⟨auth, hmem, rfl⟩ := List.mem_map.mp hl
    obtain ⟨hname, hvalue⟩ := hr.auth auth (Option.mem_toList.mp hmem)
    have hnames : ∀ name ∈ [lit "Authorization", lit "Proxy-Authorization"], OneLine name := by
      decide
    exact oneLine_field (hnames _ hname) hvalue.oneLine
  rw [← hr.uri] at hlead
  simp only [SipClient.inviteLines, SipClient.midLines, List.forall_mem_append,
    List.forall_mem_cons, List.not_mem_nil, false_implies, implies_true, and_true]
  refine ⟨⟨⟨⟨hlead, oneLine_field (by decide) hto,
      oneLine_field (by decide) hr.callId.noBlanks.oneLine, oneLine_field (by decide) hcseq⟩,
    oneLine_field (by decide) hcontact, oneLine_field (by decide) (by decide),
      oneLine_field (by decide) (by decide), oneLine_field (by decide) (by decide)⟩,
    hauth⟩, oneLine_field (by decide) (by decide),
      oneLine_field (by decide) (noBlanks_decimal _).oneLine⟩

theorem lines_invite : lines (c.buildInvite r) = c.inviteLines r ++ lines (crlf ++ r.sdp) := by
  rw [buildInvite_eq, List.append_assoc]
  exact lines_joinLines (fun l hl => (oneLine_inviteLine hc hr l hl).1.1) (crlf ++ r.sdp)

/-- The lines in front of the Call-ID have other names. -/
theorem named_beforeCallId : ∀ l ∈ c.leadLines (lit "INVITE") r.uri r.branch r.localTag ++
      [field (lit "To") (lit "<" ++ r.uri ++ lit ">")],
    ∃ other ∈ [lit "INVITE" ++ lit " sip", lit "Via", lit "From"] ++ [lit "To"],
      NamedLine other l ∧ IsAscii (l.take 8) := by
  have hmethod : lit "INVITE" ∈ [lit "INVITE", lit "ACK"] := by simp
  have hlead := leadLine_named hc dial hmethod r.branch r.localTag
  have hto : IsAscii (field (lit "To") (lit "<" ++ r.uri ++ lit ">")) := by
    rw [hr.uri]
    exact IsAscii.append (by decide)
      ((IsAscii.append (by decide) (plain_inviteUri hc dial).ascii).append (by decide))
  rw [← hr.uri] at hlead
  simp only [List.forall_mem_append, List.forall_mem_cons, List.not_mem_nil, false_implies,
    implies_true, and_true]
  constructor
  · intro l hl
    obtain ⟨other, hother, hline⟩ := hlead l hl
    exact ⟨other, List.mem_append_left _ hother, hline⟩
  · exact ⟨lit "To", by simp, namedLine_field (by decide) (by decide) _,
      fun x hx => hto x (List.mem_of_mem_take hx)⟩

/-- The lines of an INVITE from the Call-ID on. -/
theorem lines_invite_cut : lines (c.buildInvite r) =
    (c.leadLines (lit "INVITE") r.uri r.branch r.localTag ++
      [field (lit "To") (lit "<" ++ r.uri ++ lit ">")]) ++
      field (lit "Call-ID") r.callId ::
        field (lit "CSeq") (decimal r.cseq ++ lit " INVITE") ::
          ((c.midLines ++ r.authLines ++ [field (lit "Content-Type") (lit "application/sdp")]) ++
            field (lit "Content-Length") (decimal (byteLen r.sdp)) ::
              lines (crlf ++ r.sdp)) := by
  rw [lines_invite hc hr, SipClient.inviteLines]
  simp only [List.append_assoc, List.cons_append, List.nil_append]

theorem extractHeader_callId :
    extractHeader (c.buildInvite r) (lit "Call-ID") = .ok (some r.callId) := by
  apply extractHeader_of_lines (hr.callId.noBlanks.trimmed hr.callId.ne) (by decide) (by decide)
    (by decide) (lines_invite_cut hc hr)
  intro l hl
  obtain ⟨other, hother, hline, hascii⟩ := named_beforeCallId hc hr l hl
  have hnames : ∀ other ∈ [lit "INVITE" ++ lit " sip", lit "Via", lit "From"] ++ [lit "To"],
      eqIgnoreAsciiCase other (lit "Call-ID") = false := by decide
  exact ⟨other, hline, hnames other hother, hascii⟩

theorem extractCseqNum_invite (hcseq : r.cseq < 2 ^ 32) :
    extractCseqNum (c.buildInvite r) = .ok (some r.cseq) := by
  have hvalue : Trimmed (decimal r.cseq ++ lit " INVITE") := by
    have hdigits := (noBlanks_decimal r.cseq).trimmed (decimal_ne_nil r.cseq)
    exact hdigits.first.trimmed_append hdigits.ne (by decide)
  have hcut := (lines_invite_cut hc hr).trans (List.append_cons _ _ _)
  have hheader : extractHeader (c.buildInvite r) (lit "CSeq") =
      .ok (some (decimal r.cseq ++ lit " INVITE")) := by
    apply extractHeader_of_lines hvalue (by decide) (by decide) (by decide) hcut
    intro l hl
    rcases List.mem_append.mp hl with hl | hl
    · obtain ⟨other, hother, hline, hascii⟩ := named_beforeCallId hc hr l hl
      have hnames : ∀ other ∈ [lit "INVITE" ++ lit " sip", lit "Via", lit "From"] ++ [lit "To"],
          eqIgnoreAsciiCase other (lit "CSeq") = false := by decide
      have hsub : l.take 5 <+: l.take 8 := List.take_prefix_take_left (by decide)
      exact ⟨other, hline, hnames other hother, fun x hx => hascii x (hsub.subset hx)⟩
    · rw [List.mem_singleton.mp hl]
      exact ⟨lit "Call-ID", namedLine_field (by decide) (by decide) r.callId, by decide,
        isAscii_take_append (by decide) (by decide)⟩
  have hwords : splitWhitespace (decimal r.cseq ++ lit " INVITE") =
      [decimal r.cseq, lit "INVITE"] := by
    have hblank : lit " INVITE" = ' ' :: lit "INVITE" := rfl
    rw [hblank, splitWhitespace_word (decimal_ne_nil _) (noBlanks_decimal _) (by decide)]
    rfl
  have hnum : parseU32 (decimal r.cseq) = some r.cseq :=
    parseUnsigned_decimal (Nat.le_pred_of_lt hcseq)
  simp only [extractCseqNum, hheader, hwords, hnum, bind, Except.bind, pure, Except.pure]

omit hc in
/-- The lines of an INVITE between the Call-ID and the Content-Length have other names. -/
theorem named_beforeContentLength :
    ∀ l ∈ field (lit "Call-ID") r.callId ::
        field (lit "CSeq") (decimal r.cseq ++ lit " INVITE") ::
          (c.midLines ++ r.authLines ++ [field (lit "Content-Type") (lit "application/sdp")]),
      ∃ other, NamedLine other l ∧ eqIgnoreAsciiCase other (lit "Content-Length") = false := by
  have hother : ∀ name ∈ [lit "Call-ID", lit "CSeq", lit "Contact", lit "Max-Forwards",
      lit "User-Agent", lit "Allow", lit "Authorization", lit "Proxy-Authorization",
      lit "Content-Type"], ':' ∉ name ∧ Flush (name ++ [':']) ∧
        eqIgnoreAsciiCase name (lit "Content-Length") = false := by decide
  have hfield : ∀ name ∈ [lit "Call-ID", lit "CSeq", lit "Contact", lit "Max-Forwards",
      lit "User-Agent", lit "Allow", lit "Authorization", lit "Proxy-Authorization",
      lit "Content-Type"], ∀ value, ∃ other, NamedLine other (field name value) ∧
        eqIgnoreAsciiCase other (lit "Content-Length") = false := by
    intro name hname value
    obtain ⟨hcolon, hflush, hne⟩ := hother name hname
    exact ⟨name, namedLine_field hcolon hflush value, hne⟩
  have hauth : ∀ l ∈ r.authLines,
      ∃ other, NamedLine other l ∧ eqIgnoreAsciiCase other (lit "Content-Length") = false := by
    intro l hl
    obtain ⟨auth, hmem, rfl⟩ := List.mem_map.mp hl
    obtain ⟨hname, -⟩ := hr.auth auth (Option.mem_toList.mp hmem)
    apply hfield
    rcases List.mem_pair.mp hname with hname | hname <;> simp [hname]
  simp only [SipClient.midLines, List.forall_mem_append, List.forall_mem_cons,
    List.not_mem_nil, false_implies, implies_true, and_true]
  exact ⟨hfield _ (by simp) _, hfield _ (by simp) _, ⟨⟨hfield _ (by simp) _,
    hfield _ (by simp) _, hfield _ (by simp) _, hfield _ (by simp) _⟩, hauth⟩,
    hfield _ (by simp) _⟩

/-- The Content-Length of an INVITE is the length of its body. -/
theorem headerValue_contentLength :
    headerValue (c.buildInvite r) (lit "Content-Length") = some (decimal (byteLen r.sdp)) := by
  have hvalue : Trimmed (decimal (byteLen r.sdp)) :=
    (noBlanks_decimal _).trimmed (decimal_ne_nil _)
  have hcut : lines (c.buildInvite r) =
      ((c.leadLines (lit "INVITE") r.uri r.branch r.localTag ++
          [field (lit "To") (lit "<" ++ r.uri ++ lit ">")]) ++
        field (lit "Call-ID") r.callId ::
          field (lit "CSeq") (decimal r.cseq ++ lit " INVITE") ::
            (c.midLines ++ r.authLines ++
              [field (lit "Content-Type") (lit "application/sdp")])) ++
      field (lit "Content-Length") (decimal (byteLen r.sdp)) :: lines (crlf ++ r.sdp) := by
    rw [lines_invite_cut hc hr]
    simp only [List.append_assoc, List.cons_append, List.nil_append]
  apply headerValue_of_lines hvalue (by decide) (by decide) hcut
  intro l hl
  rcases List.mem_append.mp hl with hl | hl
  · obtain ⟨other, hother, hline, -⟩ := named_beforeCallId hc hr l hl
    have hnames : ∀ other ∈ [lit "INVITE" ++ lit " sip", lit "Via", lit "From"] ++ [lit "To"],
        eqIgnoreAsciiCase other (lit "Content-Length") = false := by decide
    exact ⟨other, hline, hnames other hother⟩
  · exact named_beforeContentLength hr l hl

/-- The body of an INVITE is found behind the first empty line. -/
theorem extractSdpBody_invite (hbody : Flush r.sdp) (hne : r.sdp ≠ []) :
    extractSdpBody (c.buildInvite r) = .ok (some r.sdp) := by
  have htype : (lines (c.buildInvite r)).any isSdpContentType = true := by
    rw [List.any_eq_true]
    refine ⟨field (lit "Content-Type") (lit "application/sdp"), ?_, by decide⟩
    rw [lines_invite_cut hc hr]
    simp
  have hlines : c.inviteLines r ≠ [] := by simp [SipClient.inviteLines, SipClient.leadLines]
  obtain ⟨n, hfind, hn⟩ := find_emptyLine_joinLines hlines (oneLine_inviteLine hc hr) r.sdp
  rw [← buildInvite_eq] at hfind
  have hlen : byteLen emptyLine = 4 := by decide
  have hslice : strFrom (c.buildInvite r) (n + 4) = .ok r.sdp := by
    rw [← hlen, hn, buildInvite_eq]
    exact strFrom_append _ _
  have htrim : (trim r.sdp).isEmpty = false :=
    List.isEmpty_eq_false_iff.mpr (trim_ne_nil hbody hne)
  have hempty : lit "\r\n\r\n" = emptyLine := rfl
  simp only [extractSdpBody, htype, Bool.not_true, hempty, hfind, hslice, htrim, bind,
    Except.bind, pure, Except.pure, Bool.false_eq_true, if_false]

end Invite

/-! ## The tag of an ACK -/

/-- A tag that `extract_tag_param` finds. -/
def ReadableTag (tag : Str) : Prop := ∃ header, extractTagParam header = .ok (some tag)

theorem noBlanks_of_not_endsTag {s : Str} (h : ∀ ch ∈ s, endsTag ch = false) : NoBlanks s := by
  intro ch hch
  have hend := h ch hch
  simp only [endsTag, Bool.or_eq_false_iff] at hend
  exact hend.2

/-- Such a tag is not empty and has no character that would end it. -/
theorem ReadableTag.spec {tag : Str} (h : ReadableTag tag) :
    tag ≠ [] ∧ ∀ ch ∈ tag, endsTag ch = false := by
  obtain ⟨header, h⟩ := h
  simp only [extractTagParam, pure, Except.pure] at h
  split at h
  · simp at h
  · next found hfound =>
    obtain ⟨rest, hrest⟩ := strFrom_find hfound
    simp only [hrest, bind, Except.bind] at h
    have hpiece : ∃ piece, strTo rest ((findChar endsTag rest).getD (byteLen rest)) = .ok piece ∧
        ∀ ch ∈ piece, endsTag ch = false := by
      cases hstop : findChar endsTag rest with
      | none => exact ⟨rest, strTo_byteLen rest, findChar_eq_none_iff.mp hstop⟩
      | some stop =>
          obtain ⟨before, ch, after, rfl, rfl, -, hbefore⟩ := findChar_eq_some hstop
          exact ⟨before, strTo_append before (ch :: after), hbefore⟩
    obtain ⟨piece, hpiece, hends⟩ := hpiece
    simp only [hpiece, (noBlanks_of_not_endsTag hends).trim_eq] at h
    split at h
    · simp at h
    · next hne =>
      obtain rfl := Option.some.inj (Except.ok.inj h)
      exact ⟨by simpa using hne, hends⟩

/-- The tag of a header value that has no other equals sign. -/
theorem extractTagParam_append {lead tag : Str} (hlead : '=' ∉ lead) (hne : tag ≠ [])
    (hends : ∀ ch ∈ tag, endsTag ch = false) :
    extractTagParam (lead ++ lit ";tag=" ++ tag) = .ok (some tag) := by
  have hvalue : lead ++ lit ";tag=" ++ tag = (lead ++ lit ";tag") ++ '=' :: tag := by simp [lit]
  have hpiece : '=' ∉ lead ++ lit ";tag" := by simp [hlead, lit]
  have hsuffix : lit "tag" <:+ lead ++ lit ";tag" := ⟨lead ++ lit ";", by simp [lit]⟩
  have hstemEquals : '=' ∉ lit "tag" := by decide
  obtain ⟨before, hbefore, hfind⟩ := find_stem_of_suffix hstemEquals hpiece hsuffix tag
  rw [← hvalue] at hfind
  have hcut : lead ++ lit ";tag=" ++ tag = (before ++ lit "tag=") ++ tag := by
    rw [hvalue, hbefore]
    simp [lit]
  have hstem : lit "tag" ++ ['='] = lit "tag=" := rfl
  rw [hstem] at hfind
  have hrest : strFrom (lead ++ lit ";tag=" ++ tag) (byteLen before + byteLen (lit "tag=")) =
      .ok tag := by
    rw [hcut, ← byteLen_append]
    exact strFrom_append _ tag
  have hstop : findChar endsTag tag = none := findChar_eq_none_iff.mpr hends
  simp only [extractTagParam, hfind, hrest, hstop, Option.getD_none, strTo_byteLen,
    (noBlanks_of_not_endsTag hends).trim_eq, List.isEmpty_eq_false_iff.mpr hne, bind,
    Except.bind, pure, Except.pure, Bool.false_eq_true, if_false]

/-- A header value without an equals sign has no tag. -/
theorem extractTagParam_of_no_equals {header : Str} (h : '=' ∉ header) :
    extractTagParam header = .ok none := by
  have hfind : find (lit "tag=") header = none := by
    cases hfound : find (lit "tag=") header with
    | none => rfl
    | some n =>
        obtain ⟨before, after, rfl, -⟩ := find_eq_some hfound
        simp [lit] at h
  simp [extractTagParam, hfind, pure, Except.pure]

section Ack

variable {c : SipClient} (hc : c.Configured) {dial : DialString} {call : Call}
  (huri : call.inviteUri = c.inviteUri dial.text) (hbranch : OneLine call.viaBranch)
  (htag : OneLine call.localTag)
include hc huri hbranch htag

/-- The To header of an ACK is read back. -/
theorem extractHeader_to (hvalue : Trimmed (lit "<" ++ call.inviteUri ++ lit ">" ++ call.toTag))
    (hline : OneLine call.toTag) :
    extractHeader (c.buildAck call) (lit "To") =
      .ok (some (lit "<" ++ call.inviteUri ++ lit ">" ++ call.toTag)) := by
  have hmethod : lit "ACK" ∈ [lit "INVITE", lit "ACK"] := by simp
  have hlead := oneLine_leadLine hc dial hmethod hbranch htag
  have hnamed := leadLine_named hc dial hmethod call.viaBranch call.localTag
  have huriLine := (plain_inviteUri hc dial).oneLine
  rw [← huri] at hlead hnamed huriLine
  have hto : OneLine (lit "<" ++ call.inviteUri ++ lit ">" ++ call.toTag) :=
    ((OneLine.append (by decide) huriLine).append (by decide)).append hline
  have hcut : lines (c.buildAck call) =
      c.leadLines (lit "ACK") call.inviteUri call.viaBranch call.localTag ++
        field (lit "To") (lit "<" ++ call.inviteUri ++ lit ">" ++ call.toTag) ::
          lines (joinLines call.tailLines ++ crlf) := by
    have hhead : ∀ l ∈ c.leadLines (lit "ACK") call.inviteUri call.viaBranch call.localTag ++
        [field (lit "To") (lit "<" ++ call.inviteUri ++ lit ">" ++ call.toTag)],
        '\n' ∉ l := by
      intro l hl
      rcases List.mem_append.mp hl with hl | hl
      · exact (hlead l hl).1.1
      · rw [List.mem_singleton.mp hl]
        exact (oneLine_field (by decide) hto).1.1
    have hall := lines_joinLines hhead (joinLines call.tailLines ++ crlf)
    rw [← List.append_assoc, ← joinLines_append, ← List.append_cons, ← buildAck_eq,
      ← List.append_cons] at hall
    exact hall
  apply extractHeader_of_lines hvalue (by decide) (by decide) (by decide) hcut
  intro l hl
  obtain ⟨other, hother, hline, hascii⟩ := hnamed l hl
  have hnames : ∀ other ∈ [lit "ACK" ++ lit " sip", lit "Via", lit "From"],
      eqIgnoreAsciiCase other (lit "To") = false := by decide
  have hsub : l.take 3 <+: l.take 8 := List.take_prefix_take_left (by decide)
  exact ⟨other, hline, hnames other hother, fun x hx => hascii x (hsub.subset hx)⟩

/-- The tag that an ACK carries. -/
def ackTag (c : SipClient) (call : Call) : Checked (Option Str) := do
  match ← extractHeader (c.buildAck call) (lit "To") with
  | none => return none
  | some header => extractTagParam header

/-- The tag of an ACK is the call's. -/
theorem ackTag_eq (hremote : ∀ tag ∈ call.remoteTag, ReadableTag tag) :
    ackTag c call = .ok call.remoteTag := by
  have hlead : '=' ∉ lit "<" ++ call.inviteUri ++ lit ">" := by
    have hnot := equals_notMem_inviteUri hc dial
    rw [← huri] at hnot
    simp [lit, hnot]
  have hfirst : Flush (lit "<" ++ call.inviteUri) := Flush.append (by decide) (by decide) _
  cases hcase : call.remoteTag with
  | none =>
      have htoTag : call.toTag = [] := by rw [Call.toTag, hcase]
      have hvalue : Trimmed (lit "<" ++ call.inviteUri ++ lit ">" ++ call.toTag) := by
        rw [htoTag, List.append_nil]
        exact hfirst.trimmed_append (by simp [lit]) (by decide)
      have hheader := extractHeader_to hc huri hbranch htag hvalue (by simp [htoTag, OneLine])
      rw [htoTag, List.append_nil] at hheader
      simp only [ackTag, hheader, bind, Except.bind]
      exact extractTagParam_of_no_equals hlead
  | some tag =>
      obtain ⟨hne, hends⟩ := (hremote tag hcase).spec
      have htoTag : call.toTag = lit ";tag=" ++ tag := (call.toTag_eq_iff tag).mpr hcase
      have hwords : NoBlanks tag := noBlanks_of_not_endsTag hends
      have hvalue : Trimmed (lit "<" ++ call.inviteUri ++ lit ">" ++ call.toTag) := by
        rw [htoTag, ← List.append_assoc]
        have hlong : Flush (lit "<" ++ call.inviteUri ++ lit ">" ++ lit ";tag=") :=
          (hfirst.append (by simp [lit]) _).append (by simp [lit]) _
        exact hlong.trimmed_append (by simp [lit]) (hwords.trimmed hne).flushEnd
      have hline : OneLine call.toTag := by
        rw [htoTag]
        exact OneLine.append (by decide) hwords.oneLine
      have hheader := extractHeader_to hc huri hbranch htag hvalue hline
      rw [htoTag, ← List.append_assoc] at hheader
      simp only [ackTag, hheader, bind, Except.bind]
      exact extractTagParam_append hlead hne hends

end Ack

/-! ## Reading back -/

/-- An offer begins with its version. -/
theorem flush_offer (ip : IpAddr) (port : UInt16) (sessionId : ℕ) :
    Flush (joinLines (Sdp.offerLines ip port sessionId)) ∧
      joinLines (Sdp.offerLines ip port sessionId) ≠ [] := by
  constructor
  · exact Flush.append (by decide) (by decide) _
  · simp [Sdp.offerLines, lit]

/-- Messages read back: an INVITE gives its identifiers and its offer, the offer its
endpoint, and an ACK the tag of its call. -/
theorem messages_readBack {c : SipClient} (hc : c.Configured) (dial : DialString)
    (ip : IpAddr) {port : UInt16} (hport : 0 < port) (sessionId : ℕ) :
    (∃ offer, Sdp.buildOffer ip port sessionId = .ok offer ∧
      Sdp.parseAnswer offer = .ok (.ok ⟨ip, port⟩) ∧
      ∀ r : InviteRequest, r.Addressed c dial → r.cseq < 2 ^ 32 → r.sdp = offer →
        extractHeader (c.buildInvite r) (lit "Call-ID") = .ok (some r.callId) ∧
        extractCseqNum (c.buildInvite r) = .ok (some r.cseq) ∧
        extractSdpBody (c.buildInvite r) = .ok (some offer) ∧
        headerValue (c.buildInvite r) (lit "Content-Length") =
          some (decimal (byteLen offer))) ∧
    ∀ call : Call, call.inviteUri = c.inviteUri dial.text →
      Identifier call.viaBranch → Identifier call.localTag →
      (∀ tag ∈ call.remoteTag, ReadableTag tag) → ackTag c call = .ok call.remoteTag := by
  constructor
  · refine ⟨_, Sdp.buildOffer_eq sessionId hport, Sdp.parseAnswer_offer sessionId, ?_⟩
    intro r hr hcseq hsdp
    have hoffer := flush_offer ip port sessionId
    rw [← hsdp] at hoffer ⊢
    exact ⟨extractHeader_callId hc hr, extractCseqNum_invite hc hr hcseq,
      extractSdpBody_invite hc hr hoffer.1 hoffer.2, headerValue_contentLength hc hr⟩
  · intro call huri hbranch htag hremote
    exact ackTag_eq hc huri hbranch.noBlanks.oneLine htag.noBlanks.oneLine hremote

/-- A second INVITE to `5`, with credentials. -/
def challengedRequest (offer : Str) : InviteRequest where
  uri := trunkClient.inviteUri (lit "5")
  callId := generateCallId 7 1
  localTag := generateTag 10
  branch := generateBranch 11
  cseq := 2
  sdp := offer
  auth := some (lit "Authorization", lit "Digest username=\"u\"")

/-- The call to `5` once it has a tag of the trunk's. -/
def taggedCall : Call :=
  { callOf (challengedRequest []) with remoteTag := some (lit "t1") }

theorem messages_readBack_challenged :
    (∃ offer, Sdp.buildOffer (.v4 ⟨10, 0, 0, 1⟩) 10000 3 = .ok offer ∧
      extractCseqNum (trunkClient.buildInvite (challengedRequest offer)) = .ok (some 2) ∧
      extractSdpBody (trunkClient.buildInvite (challengedRequest offer)) = .ok (some offer)) ∧
    ackTag trunkClient taggedCall = .ok (some (lit "t1")) := by
  have hclient : trunkClient.Configured :=
    ⟨by decide, by decide, by decide, by decide, by decide⟩
  have hport : (0 : UInt16) < 10000 := by decide
  obtain ⟨⟨offer, hoffer, -, hinvite⟩, hack⟩ :=
    messages_readBack hclient ⟨lit "5", by decide, by decide⟩ (.v4 ⟨10, 0, 0, 1⟩) hport 3
  constructor
  · have haddressed : (challengedRequest offer).Addressed trunkClient
        ⟨lit "5", by decide, by decide⟩ :=
      { uri := rfl
        callId := identifier_callId 7 1
        localTag := identifier_tag 10
        branch := identifier_branch 11
        auth := by
          intro auth hauth
          obtain rfl := Option.mem_some.mp hauth
          decide }
    have hsecond : 2 < 2 ^ 32 := by decide
    obtain ⟨-, hcseq, hbody, -⟩ := hinvite _ haddressed hsecond rfl
    exact ⟨offer, hoffer, hcseq, hbody⟩
  · apply hack taggedCall rfl (identifier_branch 11) (identifier_tag 10)
    intro tag htag
    obtain rfl := Option.mem_some.mp htag
    exact ⟨lit "<sip:5@h>;tag=t1", by decide⟩

end SlmodemSipBridge.Sip
