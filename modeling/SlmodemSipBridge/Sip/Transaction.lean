import SlmodemSipBridge.Sip.Drawn
import SlmodemSipBridge.Sip.Reply
import SlmodemSipBridge.Sip.RequestUri

/-!
# A request and its reply

The round trip of a transaction: a server reads the request of the client from the
octets, replies to what it has read, and the client reads from the octets of the reply
what the server meant, in the transaction of its request.
-/

namespace SlmodemSipBridge.Sip

open Rust Bridge Envelope

/-! ## What identifies a request -/

/-- The Call-ID of a request. -/
def Request.callId : Request → Str
  | .register r => r.callId
  | .invite r => r.callId
  | .ack call => call.callId
  | .bye call _ => call.callId

theorem Request.method_mem (request : Request) :
    request.method ∈ [lit "REGISTER", lit "INVITE", lit "ACK", lit "BYE"] := by
  cases request <;> simp [Request.method]

/-- The tag of the callee that a request has. -/
def Request.remoteTag : Request → Option Str
  | .ack call => call.remoteTag
  | .bye call _ => call.remoteTag
  | _ => none

/-- The To header of a request. -/
def SipClient.calleeOf (c : SipClient) : Request → Str
  | .register _ => lit "<sip:" ++ c.username ++ lit "@" ++ c.sipDomain ++ lit ">"
  | .invite r => lit "<" ++ r.uri ++ lit ">"
  | .ack call => lit "<" ++ call.inviteUri ++ lit ">" ++ call.toTag
  | .bye call _ =>
      lit "<sip:" ++ trimStartMatches (lit "sip:") call.inviteUri ++ lit ">" ++ call.toTag

/-! ## Requests can be answered -/

theorem isAscii_via (c : SipClient) {branch : Str} (h : Word branch) :
    IsAscii (c.viaOf branch).value :=
  ((((((IsAscii.append (by decide) (isAscii_display c.localIp)).append (by decide)).append
    (isAscii_decimal _)).append (by decide)).append h.ascii).append (by decide))

theorem isAscii_cseq (cseq : ℕ) {method : Str} (h : IsAscii method) :
    IsAscii (cseqField cseq method).value :=
  ((isAscii_decimal cseq).append (by decide)).append h

theorem isAscii_stripRepeated {s : Str} (h : IsAscii s) (pattern : Str) (n : ℕ) :
    IsAscii (stripRepeated pattern n s) := by
  induction n generalizing s with
  | zero => exact h
  | succ n ih =>
      rw [stripRepeated]
      split
      · exact ih fun c hc => h c (List.mem_of_mem_drop hc)
      · exact h

theorem forall_method : ∀ method ∈ [lit "REGISTER", lit "INVITE", lit "ACK", lit "BYE"],
    method ≠ [] ∧ NoBlanks method := by decide

section Ascii

variable {c : SipClient} (hplain : c.Configured)
include hplain

theorem isAscii_caller {localTag : Str} (h : Word localTag) :
    IsAscii (c.callerOf localTag).value :=
  ((((((IsAscii.append (by decide) hplain.callerName.ascii).append (by decide)).append
    hplain.callerId.ascii).append (by decide)).append hplain.sipDomain.ascii).append
      (by decide)).append h.ascii

theorem isAscii_inviteUri {uri : Str} (h : ∃ dial : DialString, uri = c.inviteUri dial.text) :
    IsAscii uri := by
  obtain ⟨dial, rfl⟩ := h
  exact (plain_inviteUri hplain dial).ascii

/-- The five headers of a message within a call. -/
theorem isAscii_callMessage {call : Call} (hcall : call.Placed c)
    (htag : ∀ tag ∈ call.remoteTag, IsAscii tag) {method target branch : Str}
    (hmethod : IsAscii method) (htarget : IsAscii target) (hbranch : Word branch) (cseq : ℕ) :
    ∀ name ∈ copiedNames, ∀ value,
      (c.callMessage method target call branch cseq).value name = some value →
        IsAscii value := by
  have htoTag : IsAscii call.toTag := by
    unfold Call.toTag
    cases hremote : call.remoteTag with
    | none => exact nofun
    | some tag => exact IsAscii.append (by decide) (htag tag hremote)
  simp only [copiedNames, List.forall_mem_cons, List.not_mem_nil, false_implies, implies_true,
    and_true]
  refine ⟨?_, ?_, ?_, ?_, ?_⟩ <;> intro value hvalue <;> obtain rfl := Option.some.inj hvalue
  · exact isAscii_via c hbranch
  · exact isAscii_caller hplain hcall.localTag
  · exact htarget.append htoTag
  · exact hcall.callId.ascii
  · exact isAscii_cseq cseq hmethod

/-- The headers that are copied from a request are ASCII. -/
theorem isAscii_copied {request : Request} (h : request.Proper c)
    (htag : ∀ tag ∈ request.remoteTag, IsAscii tag) :
    ∀ name ∈ copiedNames, ∀ value, (c.message request).value name = some value →
      IsAscii value := by
  cases request with
  | register r =>
      obtain ⟨⟨hcallId, htag, hbranch, -⟩, -⟩ := h
      simp only [copiedNames, List.forall_mem_cons, List.not_mem_nil, false_implies,
        implies_true, and_true]
      have hto : IsAscii (lit "<sip:" ++ c.username ++ lit "@" ++ c.sipDomain) :=
        ((IsAscii.append (by decide) hplain.username.ascii).append (by decide)).append
          hplain.sipDomain.ascii
      refine ⟨?_, ?_, ?_, ?_, ?_⟩ <;> intro value hvalue <;> obtain rfl := Option.some.inj hvalue
      · exact isAscii_via c hbranch
      · exact (hto.append (by decide)).append htag.ascii
      · exact hto.append (by decide)
      · exact hcallId.ascii
      · exact isAscii_cseq r.cseq (by decide)
  | invite r =>
      obtain ⟨⟨hcallId, htag, hbranch, -⟩, ⟨dial, -, -, huri, -⟩, -⟩ := h
      simp only [copiedNames, List.forall_mem_cons, List.not_mem_nil, false_implies,
        implies_true, and_true]
      refine ⟨?_, ?_, ?_, ?_, ?_⟩ <;> intro value hvalue <;> obtain rfl := Option.some.inj hvalue
      · exact isAscii_via c hbranch
      · exact isAscii_caller hplain htag
      · exact (IsAscii.append (by decide) (isAscii_inviteUri hplain ⟨dial, huri⟩)).append
          (by decide)
      · exact hcallId.ascii
      · exact isAscii_cseq r.cseq (by decide)
  | ack call =>
      have hcall : call.Placed c := h
      have huri := isAscii_inviteUri hplain hcall.dial
      exact isAscii_callMessage hplain hcall htag (by decide)
        ((IsAscii.append (by decide) huri).append (by decide)) hcall.branch call.cseq
  | bye call branch =>
      obtain ⟨hcall, hbranch⟩ := h
      have huri := isAscii_inviteUri hplain hcall.dial
      have hstripped := isAscii_stripRepeated huri (lit "sip:") call.inviteUri.length
      exact isAscii_callMessage hplain hcall htag (by decide)
        ((IsAscii.append (by decide) hstripped).append (by decide)) hbranch (call.cseq + 1)

/-- A proper request can be answered. -/
theorem answerable_message (hc : c.Presentable) {request : Request} (h : request.Proper c)
    (htag : ∀ tag ∈ request.remoteTag, IsAscii tag) :
    Answerable (c.message request) request.callId (c.calleeOf request) request.method
      request.cseq where
  printable := by
    intro name hname value hvalue
    have hfields := (printable_message hc.toLegible h.legible).fields
    obtain ⟨f, hfind, rfl⟩ := Option.map_eq_some_iff.mp hvalue
    have hf := hfields f (List.mem_of_find?_eq_some hfind)
    exact ⟨isAscii_copied hplain h htag name hname f.value hvalue, hf.value, hf.trimmed⟩
  callId_eq := by cases request <;> rfl
  callee_eq := by cases request <;> rfl
  cseq_eq := by cases request <;> rfl
  cseq_lt := by
    cases request with
    | register r => exact h.2.trans_lt (by decide)
    | invite r => exact h.2.2.trans_lt (by decide)
    | ack call => exact (Call.Placed.cseq h).trans_lt (by decide)
    | bye call branch => exact (Nat.succ_le_succ h.1.cseq).trans_lt (by decide)
  method_ne := (forall_method _ request.method_mem).1
  noBlanks := (forall_method _ request.method_mem).2

end Ascii

/-! ## The round trip -/

/-- The datagram is a sound reply to the request. -/
def IsReply (c : SipClient) (request : Request) (r : Reply) (data : Datagram) : Prop :=
  r.Sound ∧ data.val = utf8Bytes (r.message (c.message request)).text

/-- A reply is understood. -/
theorem IsReply.understood {c : SipClient} {request : Request} {r : Reply} {data : Datagram}
    (hdata : IsReply c request r data) (hc : c.Presentable) (hplain : c.Configured)
    (h : request.Proper c) (htag : ∀ tag ∈ request.remoteTag, IsAscii tag) :
    Understood r request.callId (c.calleeOf request) request.method request.cseq
      (fromUtf8Lossy data.val) := by
  rw [hdata.2]
  exact reply_understood (answerable_message hplain hc h htag) hdata.1

theorem configured_trunk : trunkClient.Configured :=
  ⟨by decide, by decide, by decide, by decide, by decide⟩

/-- The first INVITE of a call to `5`. -/
def trunkInvite : InviteRequest where
  uri := trunkClient.inviteUri (lit "5")
  callId := generateCallId 10 2
  localTag := generateTag 3
  branch := generateBranch 4
  cseq := 1
  sdp := joinLines (Sdp.offerLines trunkClient.localIp 4000 7)
  auth := none

/-- Early media at another endpoint than the client's, with events beside the audio. -/
def trunkProgress : Reply where
  status := 183
  reason := lit "Session Progress"
  tag := some (lit "t")
  challenge := none
  answer := some
    { lead := [lit "v=0", lit "o=- 1 1 IN IP4 10.0.0.9", lit "s=-"]
      addr := .v4 ⟨10, 0, 0, 9⟩
      timing := [lit "t=0 0"]
      port := 4004
      formats := [lit "0", lit "101"]
      attributes := [lit "a=rtpmap:101 telephone-event/8000"] }

theorem proper_trunkInvite : (Request.invite trunkInvite).Proper trunkClient := by
  refine ⟨⟨word_callId 10 2, word_tag 3, word_branch 4, by decide, ?_⟩, ?_, Nat.le_succ 1⟩
  · intro auth hauth
    contradiction
  · exact ⟨⟨lit "5", by decide, by decide⟩, 4000, 7, rfl, Sdp.buildOffer_eq 7 (by decide)⟩

theorem otherLine_of {letter : Char} {value : Str}
    (hletter : ('a' ≤ letter ∧ letter ≤ 'z') ∧ letter ≠ 'c' ∧ letter ≠ 'm')
    (hascii : IsAscii (letter :: '=' :: value)) (hline : '\n' ∉ letter :: '=' :: value)
    (htrimmed : Trimmed (letter :: '=' :: value)) : OtherLine (letter :: '=' :: value) where
  shape := ⟨letter, value, rfl, hletter.1⟩
  ascii := hascii
  newline := hline
  trimmed := htrimmed
  connection := by simpa using hletter.2.1
  media := by simpa using hletter.2.2

theorem sound_trunkProgress : trunkProgress.Sound where
  status := by decide
  reason := by decide
  tag := by
    intro tag htag
    obtain rfl := Option.some.inj htag
    decide
  challenge := by
    intro posed hposed
    contradiction
  answer := by
    intro a ha
    obtain rfl := Option.some.inj ha
    constructor
    · simp only [List.forall_mem_cons, List.not_mem_nil, false_implies, implies_true, and_true]
      exact ⟨otherLine_of (by decide) (by decide) (by decide) (by decide),
        otherLine_of (by decide) (by decide) (by decide) (by decide),
        otherLine_of (by decide) (by decide) (by decide) (by decide)⟩
    · rw [List.forall_mem_singleton]
      exact otherLine_of (by decide) (by decide) (by decide) (by decide)
    · rw [List.forall_mem_singleton]
      exact otherLine_of (by decide) (by decide) (by decide) (by decide)
    · rw [List.forall_mem_cons, List.forall_mem_singleton]
      exact ⟨⟨by decide, by decide, by decide⟩, ⟨by decide, by decide, by decide⟩⟩
    · exact List.mem_cons_self

end SlmodemSipBridge.Sip
