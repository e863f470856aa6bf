import SlmodemSipBridge.Sip.RoundTrip
import SlmodemSipBridge.Support.Encode
import SlmodemSipBridge.Support.Envelope

/-!
# The requests as a peer reads them

The four builders of `sip.rs` write messages of header fields, and a peer that
decodes the octets of a datagram reads the fields back, whatever stands in the
credentials: a request is legible unless a line feed breaks one of its lines.
-/

namespace SlmodemSipBridge.Sip

open Rust Bridge Envelope

/-! ## The messages -/

/-- The first line of a request. -/
def requestLine (method uri : Str) : Str := method ++ lit " " ++ uri ++ lit " SIP/2.0"

/-- The Via header of a transaction. -/
def SipClient.viaOf (c : SipClient) (branch : Str) : Field :=
  ⟨lit "Via", lit "SIP/2.0/UDP " ++ c.localIp.display ++ lit ":" ++
    decimal c.localPort.toNat ++ lit ";branch=" ++ branch ++ lit ";rport"⟩

/-- The From header of a call. -/
def SipClient.callerOf (c : SipClient) (localTag : Str) : Field :=
  ⟨lit "From", lit "\"" ++ c.callerName ++ lit "\" <sip:" ++ c.callerId ++ lit "@" ++
    c.sipDomain ++ lit ">;tag=" ++ localTag⟩

/-- The Contact header. -/
def SipClient.contact (c : SipClient) : Field :=
  ⟨lit "Contact", lit "<sip:" ++ c.username ++ lit "@" ++ c.localIp.display ++ lit ":" ++
    decimal c.localPort.toNat ++ lit ">"⟩

/-- The CSeq header. -/
def cseqField (cseq : ℕ) (method : Str) : Field :=
  ⟨lit "CSeq", decimal cseq ++ lit " " ++ method⟩

/-- The Max-Forwards header, the same in every request. -/
def maxForwards : Field := ⟨lit "Max-Forwards", lit "70"⟩

/-- The User-Agent header, the name of the program. -/
def userAgentField : Field := ⟨lit "User-Agent", lit "slmodem-sip-bridge"⟩

/-- The Content-Length header. -/
def lengthField (body : Str) : Field := ⟨lit "Content-Length", decimal (byteLen body)⟩

/-- The message of a request within a call: it has no body. -/
def SipClient.callMessage (c : SipClient) (method target : Str) (call : Call) (branch : Str)
    (cseq : ℕ) : Message where
  start := requestLine method call.inviteUri
  fields := [c.viaOf branch, c.callerOf call.localTag, ⟨lit "To", target ++ call.toTag⟩,
    ⟨lit "Call-ID", call.callId⟩, cseqField cseq method, maxForwards, userAgentField,
    lengthField []]
  body := []

/-- The message of a request. -/
def SipClient.message (c : SipClient) : Request → Message
  | .register r =>
      { start := requestLine (lit "REGISTER") (lit "sip:" ++ c.sipDomain)
        fields :=
          [c.viaOf r.branch,
            ⟨lit "From", lit "<sip:" ++ c.username ++ lit "@" ++ c.sipDomain ++ lit ">;tag=" ++
              r.tag⟩,
            ⟨lit "To", lit "<sip:" ++ c.username ++ lit "@" ++ c.sipDomain ++ lit ">"⟩,
            ⟨lit "Call-ID", r.callId⟩, cseqField r.cseq (lit "REGISTER"), c.contact,
            ⟨lit "Expires", lit "180"⟩, maxForwards, userAgentField] ++
          (r.auth.toList.map fun value => ⟨lit "Authorization", value⟩) ++ [lengthField []]
        body := [] }
  | .invite r =>
      { start := requestLine (lit "INVITE") r.uri
        fields :=
          [c.viaOf r.branch, c.callerOf r.localTag, ⟨lit "To", lit "<" ++ r.uri ++ lit ">"⟩,
            ⟨lit "Call-ID", r.callId⟩, cseqField r.cseq (lit "INVITE"), c.contact,
            maxForwards, userAgentField, ⟨lit "Allow", lit "INVITE, ACK, BYE, CANCEL"⟩] ++
          (r.auth.toList.map fun auth => ⟨auth.1, auth.2⟩) ++
          [⟨lit "Content-Type", lit "application/sdp"⟩, lengthField r.sdp]
        body := r.sdp }
  | .ack call =>
      c.callMessage (lit "ACK") (lit "<" ++ call.inviteUri ++ lit ">") call call.viaBranch
        call.cseq
  | .bye call branch =>
      c.callMessage (lit "BYE")
        (lit "<sip:" ++ trimStartMatches (lit "sip:") call.inviteUri ++ lit ">") call branch
        (call.cseq + 1)

/-! ## The builders write them -/

theorem decimal_zero : decimal 0 = lit "0" := by decide

/-- The lines of the credentials. -/
theorem joinLines_auth (name : Str) (auth : Option Str) :
    joinLines ((auth.toList.map fun value => (⟨name, value⟩ : Field)).map Field.line) =
      match auth with
      | some value => name ++ lit ": " ++ value ++ lit "\r\n"
      | none => [] := by
  cases auth <;> simp [joinLines, Field.line, crlf]

theorem buildRegister_eq (c : SipClient) (r : RegisterRequest) :
    c.buildRegister r = (c.message (.register r)).text := by
  obtain ⟨branch, tag, callId, cseq, auth⟩ := r
  rw [Message.text, Message.headLines]
  delta SipClient.message SipClient.buildRegister
  simp only [List.map_append, joinLines_cons, joinLines_append, joinLines_auth]
  -- The lines of the credentials are a case distinction on either side.
  cases auth <;>
    simp only [List.map_cons, List.map_nil, joinLines, List.flatMap_cons, List.flatMap_nil,
      Field.line, requestLine, SipClient.viaOf, SipClient.contact, cseqField, maxForwards,
      userAgentField, lengthField, byteLen, decimal_zero, crlf, List.append_assoc,
      List.append_nil, lit_append, lit_append_append, String.reduceAppend]

theorem buildInvite_eq_text (c : SipClient) (r : InviteRequest) :
    c.buildInvite r = (c.message (.invite r)).text := by
  have hauth : joinLines
      ((r.auth.toList.map fun auth => (⟨auth.1, auth.2⟩ : Field)).map Field.line) =
        r.authLine := by
    cases hcase : r.auth with
    | none => simp [InviteRequest.authLine, hcase, joinLines]
    | some auth => simp [InviteRequest.authLine, hcase, joinLines, Field.line, crlf]
  rw [Message.text, Message.headLines]
  delta SipClient.message SipClient.buildInvite
  simp only [List.map_append, joinLines_cons, joinLines_append, hauth]
  simp only [List.map_cons, List.map_nil, joinLines, List.flatMap_cons, List.flatMap_nil,
    Field.line, requestLine, SipClient.viaOf, SipClient.callerOf, SipClient.contact, cseqField,
    maxForwards, userAgentField, lengthField, crlf, List.append_assoc, List.nil_append,
    lit_append, lit_append_append, String.reduceAppend]

theorem buildAck_eq_text (c : SipClient) (call : Call) :
    c.buildAck call = (c.message (.ack call)).text := by
  rw [Message.text, Message.headLines]
  delta SipClient.message SipClient.buildAck SipClient.callMessage
  simp only [List.map_cons, List.map_nil, joinLines, List.flatMap_cons, List.flatMap_nil,
    Field.line, requestLine, SipClient.viaOf, SipClient.callerOf, cseqField, maxForwards,
    userAgentField, lengthField, byteLen, decimal_zero, crlf, List.append_assoc,
    List.append_nil, lit_append, lit_append_append, String.reduceAppend]

theorem buildBye_eq_text (c : SipClient) (call : Call) (branch : Str) :
    c.buildBye call branch = (c.message (.bye call branch)).text := by
  rw [Message.text, Message.headLines]
  delta SipClient.message SipClient.buildBye SipClient.callMessage
  simp only [List.map_cons, List.map_nil, joinLines, List.flatMap_cons, List.flatMap_nil,
    Field.line, requestLine, SipClient.viaOf, SipClient.callerOf, cseqField, maxForwards,
    userAgentField, lengthField, byteLen, decimal_zero, crlf, List.append_assoc,
    List.append_nil, lit_append, lit_append_append, String.reduceAppend]

/-- The client sends the text of the message. -/
theorem wire_eq_text (c : SipClient) (request : Request) :
    c.wire request = (c.message request).text := by
  cases request with
  | register r => exact buildRegister_eq c r
  | invite r => exact buildInvite_eq_text c r
  | ack call => exact buildAck_eq_text c call
  | bye call branch => exact buildBye_eq_text c call branch

/-! ## What is printed in ASCII -/

theorem isAscii_decimal (n : ℕ) : IsAscii (decimal n) := by
  intro c hc
  have hdigit := isDigit_of_mem_decimal hc
  simp only [Char.isDigit, ge_iff_le, Bool.and_eq_true, decide_eq_true_eq] at hdigit
  have hle : c.toNat ≤ 57 := hdigit.2
  omega

theorem isAscii_hex (n : ℕ) : IsAscii (hex n) := by
  intro c hc
  obtain ⟨d, hd, rfl⟩ := mem_toDigits (by decide) hc
  have hdigits : ∀ d < 16, d.digitChar.toNat < 128 := by decide
  exact hdigits d hd

/-- An identifier that the client generates. -/
structure Word (s : Str) : Prop extends Identifier s where
  ascii : IsAscii s

theorem word_callId (micros pid : ℕ) : Word (generateCallId micros pid) where
  toIdentifier := identifier_callId micros pid
  ascii := ((isAscii_decimal micros).append (by decide)).append (isAscii_decimal pid)

theorem word_tag (hash : UInt64) : Word (generateTag hash) where
  toIdentifier := identifier_tag hash
  ascii := isAscii_hex hash.toNat

theorem word_branch (hash : UInt64) : Word (generateBranch hash) where
  toIdentifier := identifier_branch hash
  ascii := IsAscii.append (by decide) (isAscii_hex hash.toNat)

/-! ## Legible requests -/

/-- No line feed breaks a configured text. -/
structure SipClient.Legible (c : SipClient) : Prop where
  sipDomain : '\n' ∉ c.sipDomain
  username : '\n' ∉ c.username
  callerId : '\n' ∉ c.callerId
  callerName : '\n' ∉ c.callerName

/-- The fields of a call are words, and its URI is on one line. -/
structure Call.Legible (call : Call) : Prop where
  callId : Word call.callId
  localTag : Word call.localTag
  branch : Word call.viaBranch
  uri : '\n' ∉ call.inviteUri
  remoteTag : ∀ tag ∈ call.remoteTag, NoBlanks tag

/-- The request can be read line by line. -/
def Request.Legible : Request → Prop
  | .register r =>
      Word r.callId ∧ Word r.tag ∧ Word r.branch ∧
        ∀ value ∈ r.auth, '\n' ∉ value ∧ Trimmed value
  | .invite r =>
      Word r.callId ∧ Word r.localTag ∧ Word r.branch ∧ '\n' ∉ r.uri ∧
        ∀ auth ∈ r.auth, auth.1 ∈ [lit "Authorization", lit "Proxy-Authorization"] ∧
          '\n' ∉ auth.2 ∧ Trimmed auth.2
  | .ack call => call.Legible
  | .bye call branch => call.Legible ∧ Word branch

theorem Word.newline {s : Str} (h : Word s) : '\n' ∉ s := h.noBlanks.oneLine.1

theorem Word.trimmed {s : Str} (h : Word s) : Trimmed s := h.noBlanks.trimmed h.ne

/-! ## Every line is a line -/

/-- Names of headers. -/
theorem printable_of_name {name value : Str} (hname : ':' ∉ name ∧ '\n' ∉ name)
    (hvalue : '\n' ∉ value) (htrimmed : Trimmed value) :
    (⟨name, value⟩ : Field).Printable :=
  ⟨hname.1, hname.2, hvalue, htrimmed⟩

theorem printable_cseq (cseq : ℕ) {method : Str}
    (hmethod : '\n' ∉ method ∧ Trimmed method) : (cseqField cseq method).Printable := by
  have hdigits := noBlanks_decimal cseq
  apply printable_of_name (by decide)
  · have hdecimal := hdigits.oneLine.1
    simp [lit, hdecimal, hmethod.1]
  · have hfirst := (hdigits.trimmed (decimal_ne_nil _)).first
    exact (hfirst.append (decimal_ne_nil _) _).trimmed_append (by simp [lit]) hmethod.2.flushEnd

theorem printable_length (body : Str) : (lengthField body).Printable := by
  have hdigits := noBlanks_decimal (byteLen body)
  exact printable_of_name (by decide) hdigits.oneLine.1 (hdigits.trimmed (decimal_ne_nil _))

theorem printable_via (c : SipClient) {branch : Str} (hbranch : Word branch) :
    (c.viaOf branch).Printable := by
  have hip := (noBlanks_display c.localIp).oneLine.1
  have hport := (noBlanks_decimal c.localPort.toNat).oneLine.1
  have hword := hbranch.newline
  apply printable_of_name (by decide)
  · simp [lit, hip, hport, hword]
  · exact trimmed_of_head (c := 'S') rfl (by decide) (by decide)

theorem newline_notMem_stripRepeated {s : Str} (h : '\n' ∉ s) (pattern : Str) (n : ℕ) :
    '\n' ∉ stripRepeated pattern n s := by
  induction n generalizing s with
  | zero => exact h
  | succ n ih =>
      rw [stripRepeated]
      split
      · exact ih fun hmem => h (List.mem_of_mem_drop hmem)
      · exact h

section Configured

variable {c : SipClient} (hc : c.Legible)
include hc

theorem printable_caller {localTag : Str} (htag : Word localTag) :
    (c.callerOf localTag).Printable := by
  have hname := hc.callerName
  have hid := hc.callerId
  have hdomain := hc.sipDomain
  have hword := htag.newline
  apply printable_of_name (by decide)
  · simp [lit, hname, hid, hdomain, hword]
  · exact trimmed_of_head (c := '"') rfl (by decide) htag.trimmed.flushEnd

theorem printable_contact : c.contact.Printable := by
  have huser := hc.username
  have hip := (noBlanks_display c.localIp).oneLine.1
  have hport := (noBlanks_decimal c.localPort.toNat).oneLine.1
  apply printable_of_name (by decide)
  · simp [lit, huser, hip, hport]
  · exact trimmed_of_head (c := '<') rfl (by decide) (by decide)

/-- A message of a call is printable. -/
theorem printable_callMessage {call : Call} (hcall : call.Legible) {method target branch : Str}
    (hmethod : '\n' ∉ method ∧ Trimmed method) (htarget : '\n' ∉ target)
    (hhead : target.head? = some '<') (hend : FlushEnd target) (hbranch : Word branch)
    (cseq : ℕ) : (c.callMessage method target call branch cseq).Printable where
  start := by
    have huri := hcall.uri
    simp [SipClient.callMessage, requestLine, lit, hmethod.1, huri]
  start_ne := by simp [SipClient.callMessage, requestLine, lit]
  fields := by
    have hto : '\n' ∉ call.toTag ∧ Trimmed (target ++ call.toTag) := by
      have hne : target ≠ [] := hend.1
      have htrimmed : ∀ {t : Str}, FlushEnd t → Trimmed (target ++ t) :=
        fun ht => trimmed_of_head hhead (by decide) ht
      cases htag : call.remoteTag with
      | none =>
          have hflush : Trimmed (([] : Str) ++ target) := by
            refine ⟨hne, ?_, hend.2⟩
            intro d hd
            obtain rfl : '<' = d := Option.some.inj (hhead.symm.trans hd)
            decide
          simpa [Call.toTag, htag] using hflush
      | some tag =>
          have hblanks := hcall.remoteTag tag htag
          have htext : NoBlanks (lit ";tag=" ++ tag) := NoBlanks.append (by decide) hblanks
          have htoTag : call.toTag = lit ";tag=" ++ tag := (call.toTag_eq_iff tag).mpr htag
          rw [htoTag]
          exact ⟨htext.oneLine.1, htrimmed (htext.trimmed (by simp [lit])).flushEnd⟩
    have hline : '\n' ∉ target ++ call.toTag := by simp [htarget, hto.1]
    simp only [SipClient.callMessage, List.forall_mem_cons, List.not_mem_nil, false_implies,
      implies_true, and_true]
    exact ⟨printable_via c hbranch, printable_caller hc hcall.localTag,
      printable_of_name (by decide) hline hto.2,
      printable_of_name (by decide) hcall.callId.newline hcall.callId.trimmed,
      printable_cseq cseq hmethod, printable_of_name (by decide) (by decide) (by decide),
      printable_of_name (by decide) (by decide) (by decide), printable_length []⟩

theorem printable_register {r : RegisterRequest} (hr : (Request.register r).Legible) :
    (c.message (.register r)).Printable where
  start := by
    have hdomain := hc.sipDomain
    simp [SipClient.message, requestLine, lit, hdomain]
  start_ne := by simp [SipClient.message, requestLine, lit]
  fields := by
    obtain ⟨hcallId, htag, hbranch, hauth⟩ := hr
    have huser := hc.username
    have hdomain := hc.sipDomain
    have hword := htag.newline
    have hfrom : '\n' ∉ lit "<sip:" ++ c.username ++ lit "@" ++ c.sipDomain ++ lit ">;tag=" ++
        r.tag := by
      simp [lit, huser, hdomain, hword]
    have hto : '\n' ∉ lit "<sip:" ++ c.username ++ lit "@" ++ c.sipDomain ++ lit ">" := by
      simp [lit, huser, hdomain]
    simp only [SipClient.message, List.forall_mem_append, List.forall_mem_cons,
      List.not_mem_nil, false_implies, implies_true, and_true, List.forall_mem_map,
      Option.mem_toList]
    refine ⟨⟨⟨printable_via c hbranch, ?_, ?_, ?_, ?_, printable_contact hc, ?_, ?_, ?_⟩, ?_⟩,
      printable_length []⟩
    · exact printable_of_name (by decide) hfrom
        (trimmed_of_head (c := '<') rfl (by decide) htag.trimmed.flushEnd)
    · exact printable_of_name (by decide) hto
        (trimmed_of_head (c := '<') rfl (by decide) (by decide))
    · exact printable_of_name (by decide) hcallId.newline hcallId.trimmed
    · exact printable_cseq r.cseq (by decide)
    · exact printable_of_name (by decide) (by decide) (by decide)
    · exact printable_of_name (by decide) (by decide) (by decide)
    · exact printable_of_name (by decide) (by decide) (by decide)
    · intro value hvalue
      obtain ⟨hline, htrimmed⟩ := hauth value hvalue
      exact printable_of_name (by decide) hline htrimmed

theorem printable_invite {r : InviteRequest} (hr : (Request.invite r).Legible) :
    (c.message (.invite r)).Printable where
  start := by
    have huri := hr.2.2.2.1
    simp [SipClient.message, requestLine, lit, huri]
  start_ne := by simp [SipClient.message, requestLine, lit]
  fields := by
    obtain ⟨hcallId, htag, hbranch, huri, hauth⟩ := hr
    have hto : '\n' ∉ lit "<" ++ r.uri ++ lit ">" := by simp [lit, huri]
    have hnames : ∀ name ∈ [lit "Authorization", lit "Proxy-Authorization"],
        ':' ∉ name ∧ '\n' ∉ name := by decide
    simp only [SipClient.message, List.forall_mem_append, List.forall_mem_cons,
      List.not_mem_nil, false_implies, implies_true, and_true, List.forall_mem_map,
      Option.mem_toList]
    refine ⟨⟨⟨printable_via c hbranch, printable_caller hc htag, ?_, ?_, ?_,
      printable_contact hc, ?_, ?_, ?_⟩, ?_⟩, ?_, printable_length r.sdp⟩
    · exact printable_of_name (by decide) hto
        (trimmed_of_head (c := '<') rfl (by decide) (by decide))
    · exact printable_of_name (by decide) hcallId.newline hcallId.trimmed
    · exact printable_cseq r.cseq (by decide)
    · exact printable_of_name (by decide) (by decide) (by decide)
    · exact printable_of_name (by decide) (by decide) (by decide)
    · exact printable_of_name (by decide) (by decide) (by decide)
    · intro auth hmem
      obtain ⟨hname, hline, htrimmed⟩ := hauth auth hmem
      exact printable_of_name (hnames _ hname) hline htrimmed
    · exact printable_of_name (by decide) (by decide) (by decide)

/-- A legible request is printable. -/
theorem printable_message {request : Request} (h : request.Legible) :
    (c.message request).Printable := by
  cases request with
  | register r => exact printable_register hc h
  | invite r => exact printable_invite hc h
  | ack call =>
      have huri := Call.Legible.uri h
      have htarget : '\n' ∉ lit "<" ++ call.inviteUri ++ lit ">" := by simp [lit, huri]
      exact printable_callMessage hc h (by decide) htarget rfl
        (trimmed_of_head (c := '<') rfl (by decide) (by decide)).flushEnd
        (Call.Legible.branch h) call.cseq
  | bye call branch =>
      obtain ⟨hcall, hbranch⟩ := h
      have hstripped := newline_notMem_stripRepeated hcall.uri (lit "sip:") call.inviteUri.length
      have htarget : '\n' ∉ lit "<sip:" ++ trimStartMatches (lit "sip:") call.inviteUri ++
          lit ">" := by
        simp [lit, trimStartMatches] at hstripped ⊢
        exact hstripped
      exact printable_callMessage hc hcall (by decide) htarget rfl
        (trimmed_of_head (c := '<') rfl (by decide) (by decide)).flushEnd hbranch
        (call.cseq + 1)

end Configured

/-! ## What a peer reads -/

/-- The message in a datagram. -/
def readDatagram (bytes : List UInt8) : Option Message := Message.read (fromUtf8Lossy bytes)

/-- A peer reads the message that was sent. -/
theorem readDatagram_wire {c : SipClient} (hc : c.Legible) {request : Request}
    (h : request.Legible) :
    readDatagram (utf8Bytes (c.wire request)) = some (c.message request) := by
  rw [readDatagram, fromUtf8Lossy_utf8Bytes, wire_eq_text]
  exact Message.read_text (printable_message hc h)

end SlmodemSipBridge.Sip
