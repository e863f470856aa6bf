import SlmodemSipBridge.Sip.Registration
import SlmodemSipBridge.Sip.Verifier
import SlmodemSipBridge.Sip.Wire

/-!
# Every request of the client is legible

What `register` and `invite` draw, from the clock, from the hashers and from the
responses they read, they can put into a request: no response makes the client send
a message that its peer cannot read.
-/

namespace SlmodemSipBridge.Sip

open Rust Bridge Envelope

/-! ## Configured clients -/

/-- The configured texts have no line feeds, those that are quoted in credentials have
no quotes, and md5 is lowercase hexadecimal. -/
structure SipClient.Presentable (c : SipClient) : Prop extends c.Legible where
  userQuote : '"' ∉ c.username
  domainQuote : '"' ∉ c.sipDomain
  md5 : ∀ s, IsHex (c.md5Hex s)

/-- The request is an INVITE to a dial string with an offer of the client's address. -/
def InviteRequest.Offers (c : SipClient) (r : InviteRequest) : Prop :=
  ∃ (dial : DialString) (port : UInt16) (sessionId : ℕ), r.uri = c.inviteUri dial.text ∧
    Sdp.buildOffer c.localIp port sessionId = .ok r.sdp

/-- The call is one to a dial string and in its first or second transaction. -/
structure Call.Placed (c : SipClient) (call : Call) : Prop extends call.Legible where
  dial : ∃ dial : DialString, call.inviteUri = c.inviteUri dial.text
  cseq : call.cseq ≤ 2

/-- The request is legible, and for a dial string or the registrar. -/
def Request.Proper (c : SipClient) : Request → Prop
  | .register r => (Request.register r).Legible ∧ r.cseq ≤ 2
  | .invite r => (Request.invite r).Legible ∧ r.Offers c ∧ r.cseq ≤ 2
  | .ack call => call.Placed c
  | .bye call branch => call.Placed c ∧ Word branch

theorem Request.Proper.legible {c : SipClient} {request : Request} (h : request.Proper c) :
    request.Legible := by
  cases request with
  | register r => exact h.1
  | invite r => exact h.1
  | ack call => exact Call.Placed.toLegible h
  | bye call branch => exact ⟨h.1.toLegible, h.2⟩

/-- Every request that is shown is proper. -/
def AllProper (c : SipClient) (acts : List SipShown) : Prop :=
  ∀ site request, .sent site request ∈ acts → request.Proper c

@[simp] theorem allProper_nil (c : SipClient) : AllProper c [] := by
  intro site request h
  contradiction

@[simp] theorem allProper_read (c : SipClient) (call : Option Call) (resp : Str)
    (acts : List SipShown) : AllProper c (.read call resp :: acts) ↔ AllProper c acts := by
  simp [AllProper]

@[simp] theorem allProper_answered (c : SipClient) (call : Call) (resp : Str)
    (acts : List SipShown) : AllProper c (.answered call resp :: acts) ↔ AllProper c acts := by
  simp [AllProper]

@[simp] theorem allProper_sent (c : SipClient) (site : Site) (request : Request)
    (acts : List SipShown) :
    AllProper c (.sent site request :: acts) ↔ request.Proper c ∧ AllProper c acts := by
  constructor
  · intro h
    exact ⟨h site request List.mem_cons_self,
      fun site' request' hmem => h site' request' (List.mem_cons_of_mem _ hmem)⟩
  · rintro ⟨hfirst, hrest⟩ site' request' hmem
    rcases List.mem_cons.mp hmem with heq | hmem
    · obtain ⟨-, rfl⟩ := SipShown.sent.inj heq
      exact hfirst
    · exact hrest site' request' hmem

/-! ## Where the client is -/

/-- What `register` holds is legible. -/
def RegisterState.Drawn : RegisterState → Prop
  | .awaiting callId tag => Word callId ∧ Word tag
  | _ => True

/-- What the response loop holds is proper: its call and its INVITE are for one URI, and
before the retry it is in the first transaction. -/
structure InviteLoop.Drawn (c : SipClient) (l : InviteLoop) : Prop where
  call : l.call.Placed c
  invite : (Request.invite l.invite).Proper c
  sameUri : l.invite.uri = l.call.inviteUri
  first : l.authRetryDone = false → l.call.cseq = 1

/-- What `invite` holds is proper, from its arguments to the call that it returns. -/
def InviteState.Drawn (c : SipClient) : InviteState → Prop
  | .called args => ∃ (dial : DialString) (port : UInt16) (sessionId : ℕ),
      args.dial = dial.text ∧ Sdp.buildOffer c.localIp port sessionId = .ok args.sdpOffer
  | .looping l => l.Drawn c
  | .receiving l => l.Drawn c
  | .returned (.ok call) => call.Placed c
  | _ => True

/-- The client nonce for a challenge of the registrar is a digest. -/
def RegisterEvent.Hexed : RegisterEvent → Prop
  | .first _ retry => IsHex retry.cnonce
  | _ => True

/-- The client nonce for a challenge of the call is a digest. -/
def InviteEvent.Hexed : InviteEvent → Prop
  | .received _ inputs => IsHex inputs.cnonce
  | _ => True

section Client

variable {c : SipClient} (hc : c.Presentable)
include hc

/-- A URI of the client can be quoted. -/
theorem quotable_inviteUri (dial : DialString) :
    '"' ∉ c.inviteUri dial.text ∧ '\n' ∉ c.inviteUri dial.text := by
  have hall := dial.forall_mem (p := fun ch => ch != '\n' && ch != '"') (by decide)
  simp only [Bool.and_eq_true, bne_iff_ne] at hall
  have hquote : '"' ∉ dial.text := fun hmem => (hall _ hmem).2 rfl
  have hline : '\n' ∉ dial.text := fun hmem => (hall _ hmem).1 rfl
  have hdomain := hc.domainQuote
  have hdomainLine := hc.sipDomain
  simp [SipClient.inviteUri, lit, hquote, hline, hdomain, hdomainLine]

theorem quotable_registerUri :
    '"' ∉ lit "sip:" ++ c.sipDomain ∧ '\n' ∉ lit "sip:" ++ c.sipDomain := by
  have hdomain := hc.domainQuote
  have hdomainLine := hc.sipDomain
  simp [lit, hdomain, hdomainLine]

/-! ## Registering -/

theorem register_proper {r r' : RegisterState} {e : RegisterEvent} {acts : List SipShown}
    (he : e.Hexed) (hr : r.Drawn) (h : (registerMachine c).step r e = some (r', acts)) :
    AllProper c acts ∧ r'.Drawn := by
  cases registerStepped_of_step h with
  | started ids request =>
      simp only [registerMachine, registerStep] at h
      split at h
      · obtain ⟨heq, hshown⟩ := Prod.mk.inj (Option.some.inj h)
        obtain ⟨rfl, rfl⟩ := RegisterState.awaiting.inj heq
        obtain ⟨-, rfl⟩ := SipShown.sent.inj (List.cons_eq_cons.mp hshown).1
        have hids : Word (generateCallId ids.micros ids.pid) ∧
            Word (generateTag ids.tagHash) := ⟨word_callId _ _, word_tag _⟩
        refine ⟨?_, hids⟩
        rw [allProper_sent]
        exact ⟨⟨⟨hids.1, hids.2, word_branch _, by simp⟩, Nat.le_succ 1⟩,
          allProper_nil c⟩
      · simp at h
  | unsent ids => exact ⟨allProper_nil c, trivial⟩
  | noResponse callId tag retry => exact ⟨allProper_nil c, trivial⟩
  | first callId tag data retry acts hfirst =>
      rw [allProper_read]
      cases (registerFirst_eq_ok c (some data) retry hfirst).2 with
      | accepted hstatus => exact ⟨allProper_nil c, trivial⟩
      | retried hstatus hchallenge hsent =>
          have hvalues := @oneLined_of_usable 401 _ _ hchallenge
          have hanswer := answer_legible c.password (lit "REGISTER") hc.md5
            he hvalues hc.username (quotable_registerUri hc).2
          refine ⟨?_, trivial⟩
          rw [allProper_sent]
          refine ⟨⟨⟨hr.1, hr.2, word_branch _, ?_⟩, le_rfl⟩, allProper_nil c⟩
          intro value hvalue
          obtain rfl := Option.some.inj hvalue
          exact hanswer
      | unsent hstatus hchallenge hsent => exact ⟨allProper_nil c, trivial⟩
      | refused hstatus hother => exact ⟨allProper_nil c, trivial⟩
  | firstPanics callId tag data retry why hfirst => exact ⟨by simp, trivial⟩
  | timedOut deadline now hlate => exact ⟨allProper_nil c, trivial⟩
  | receives deadline now hearly => exact ⟨allProper_nil c, trivial⟩
  | silent deadline => exact ⟨allProper_nil c, trivial⟩
  | second deadline data hsecond =>
      refine ⟨by simp, ?_⟩
      obtain ⟨-, ⟨-, rfl⟩ | ⟨-, ⟨result, rfl⟩, -⟩⟩ :=
        registerSecond_eq_ok c (.received (some data)) hsecond
      · trivial
      · trivial
  | secondPanics deadline data why hsecond => exact ⟨by simp, trivial⟩

/-! ## The INVITE -/

omit hc in
/-- The tag of a response is a word. -/
theorem noBlanks_toTag {resp tag : Str} (h : toTagOf resp = some tag) : NoBlanks tag := by
  obtain ⟨header, -, hparam⟩ := Option.bind_eq_some_iff.mp h
  have hread : ReadableTag tag := by
    refine ⟨header, ?_⟩
    obtain ⟨found, hfound⟩ := extractTagParam_total header
    simp only [tagParam, hfound, Except.toOption, Option.join_some] at hparam
    rw [hfound]
    exact congrArg Except.ok hparam
  exact noBlanks_of_not_endsTag hread.spec.2

omit hc in
/-- With the tag of a response a call stays placed. -/
theorem Call.Placed.tagged {call : Call} (h : call.Placed c) (resp : Str) :
    (call.tagged resp).Placed c where
  callId := h.callId
  localTag := h.localTag
  branch := h.branch
  uri := h.uri
  remoteTag := by
    intro tag htag
    cases hremote : call.remoteTag with
    | none =>
        rw [Option.mem_def, Call.tagged, hremote, Option.none_or] at htag
        exact noBlanks_toTag htag
    | some tag' =>
        rw [Option.mem_def, Call.tagged, hremote, Option.some_or] at htag
        exact h.remoteTag tag (hremote.trans htag)
  dial := h.dial
  cseq := h.cseq

omit hc in
/-- Its endpoint and its state make no difference to what a call sends. -/
theorem Call.Placed.at {call : Call} (h : call.Placed c) (remoteRtp : Option SocketAddr)
    (state : CallState) : ({ call with remoteRtp := remoteRtp, state := state } : Call).Placed c :=
  { callId := h.callId
    localTag := h.localTag
    branch := h.branch
    uri := h.uri
    remoteTag := h.remoteTag
    dial := h.dial
    cseq := h.cseq }

theorem placed_first {args : InviteArgs} (ids : InviteStart) {dial : DialString}
    (hdial : args.dial = dial.text) : (callOf (firstInvite c args ids)).Placed c where
  callId := word_callId _ _
  localTag := word_tag _
  branch := word_branch _
  uri := by
    have hline := (quotable_inviteUri hc dial).2
    rwa [← hdial] at hline
  remoteTag := by
    intro tag htag
    contradiction
  dial := ⟨dial, congrArg c.inviteUri hdial⟩
  cseq := Nat.le_succ 1

theorem inviteStart_proper {args : InviteArgs} (ids : InviteStart)
    (h : (InviteState.called args).Drawn c) :
    AllProper c (inviteStart c args ids).2 ∧ (inviteStart c args ids).1.Drawn c := by
  obtain ⟨dial, port, sessionId, hdial, hoffer⟩ := h
  have hcall := placed_first hc ids hdial
  have hinvite : (Request.invite (firstInvite c args ids)).Proper c := by
    refine ⟨⟨hcall.callId, hcall.localTag, hcall.branch, hcall.uri, ?_⟩,
      ⟨dial, port, sessionId, congrArg c.inviteUri hdial, hoffer⟩, Nat.le_succ 1⟩
    intro auth hauth
    contradiction
  have hout := inviteStart_outcome c args ids
  generalize inviteStart c args ids = out at hout ⊢
  cases hout with
  | undialable why hempty => exact ⟨allProper_nil c, trivial⟩
  | unsent hsent => exact ⟨allProper_nil c, trivial⟩
  | overflowed hsent hdeadline =>
      rw [allProper_sent]
      exact ⟨⟨hinvite, allProper_nil c⟩, trivial⟩
  | sent hsent hdeadline =>
      refine ⟨?_, ⟨hcall, hinvite, rfl, fun _ => rfl⟩⟩
      rw [allProper_sent]
      exact ⟨hinvite, allProper_nil c⟩

omit hc in
theorem inviteHead_proper {l : InviteLoop} (inputs : HeadInputs) (h : l.Drawn c) :
    AllProper c (inviteHead l inputs).2 ∧ (inviteHead l inputs).1.Drawn c := by
  have hsame : ∀ l' : InviteLoop, l'.call = l.call → l'.invite = l.invite →
      l'.authRetryDone = l.authRetryDone → l'.Drawn c := by
    intro l' hcall hinvite hdone
    exact ⟨hcall ▸ h.call, hinvite ▸ h.invite, by rw [hinvite, hcall]; exact h.sameUri,
      by rw [hdone, hcall]; exact h.first⟩
  have hout := inviteHead_outcome l inputs
  generalize inviteHead l inputs = out at hout ⊢
  cases hout with
  | exceeded why hlimit => exact ⟨allProper_nil c, trivial⟩
  | timedOut hlate => exact ⟨allProper_nil c, trivial⟩
  | retransmitted hdue hsent =>
      refine ⟨?_, hsame _ rfl rfl rfl⟩
      rw [allProper_sent]
      exact ⟨h.invite, allProper_nil c⟩
  | unsent hdue hsent => exact ⟨allProper_nil c, trivial⟩
  | quiet hidle => exact ⟨allProper_nil c, hsame _ rfl rfl rfl⟩

/-- The INVITE that answers a challenge. -/
theorem retryInvite_proper {l : InviteLoop} {status : ℕ} {resp : Str} {digest : DigestChallenge}
    {inputs : AnswerInputs} (hl : l.Drawn c) (hfirst : l.authRetryDone = false)
    (husable : usableChallenge status resp = some digest) (hhex : IsHex inputs.cnonce) :
    (Request.invite (retryInvite c l status digest inputs)).Proper c ∧
      (l.call.retried (generateBranch inputs.branchHash)).Placed c := by
  obtain ⟨dial, hdial⟩ := hl.call.dial
  have hcseq := hl.first hfirst
  have hsecond : l.call.cseq + 1 ≤ 2 := by omega
  have huri := (quotable_inviteUri hc dial).2
  rw [← hdial] at huri
  have hanswer := answer_legible c.password (lit "INVITE") hc.md5 hhex
    (oneLined_of_usable husable) hc.username huri
  obtain ⟨dial', port, sessionId, huri', hoffer⟩ := hl.invite.2.1
  constructor
  · refine ⟨⟨hl.call.callId, hl.call.localTag, word_branch _, hl.call.uri, ?_⟩,
      ⟨dial', port, sessionId, hl.sameUri.symm.trans huri', hoffer⟩, hsecond⟩
    intro auth hauth
    obtain rfl := Option.some.inj hauth
    refine ⟨?_, hanswer⟩
    simp only [credentials, credentialHeader]
    split <;> simp
  · exact
      { callId := hl.call.callId
        localTag := hl.call.localTag
        branch := word_branch _
        uri := hl.call.uri
        remoteTag := hl.call.remoteTag
        dial := hl.call.dial
        cseq := hsecond }

theorem dispatch_proper {l : InviteLoop} {status : ℕ} {resp : Str} {inputs : AnswerInputs}
    {next : InviteState} {acts : List SipShown} (hl : l.Drawn c) (hhex : IsHex inputs.cnonce)
    (h : DispatchOutcome c l status resp inputs (.ok (next, acts))) :
    AllProper c acts ∧ next.Drawn c := by
  cases h with
  | trying hstatus => exact ⟨allProper_nil c, hl.call, hl.invite, hl.sameUri, hl.first⟩
  | ringing hstatus hnone => exact ⟨allProper_nil c, hl.call, hl.invite, hl.sameUri, hl.first⟩
  | earlyMedia rtpAddr hstatus hsome => exact ⟨allProper_nil c, hl.call.at _ _⟩
  | answered hstatus =>
      rw [allProper_answered]
      exact ⟨allProper_nil c, hl.call.at _ _⟩
  | rejected hstatus hother hack =>
      rw [allProper_sent]
      exact ⟨⟨hl.call, allProper_nil c⟩, trivial⟩
  | rejectedUnsent hstatus hother hack => exact ⟨allProper_nil c, trivial⟩
  | unexpected hstatus => exact ⟨allProper_nil c, hl⟩
  | challenged _ hstatus hchallenge =>
      cases hchallenge with
      | again hdone => exact ⟨allProper_nil c, trivial⟩
      | unusable error hfirst hread hnone => exact ⟨allProper_nil c, trivial⟩
      | ackUnsent digest hfirst hread husable hack => exact ⟨allProper_nil c, trivial⟩
      | retryUnsent digest hfirst hread husable hack hinvite =>
          rw [allProper_sent]
          exact ⟨⟨hl.call, allProper_nil c⟩, trivial⟩
      | retried digest hfirst hread husable hack hinvite =>
          obtain ⟨hproper, hplaced⟩ := retryInvite_proper hc hl hfirst husable hhex
          rw [allProper_sent, allProper_sent]
          refine ⟨⟨hl.call, hproper, allProper_nil c⟩, hplaced, hl.invite, hl.sameUri, ?_⟩
          intro hnot
          simp [InviteLoop.afterRetry, InviteLoop.restarted] at hnot

theorem invite_proper {s s' : InviteState} {e : InviteEvent} {acts : List SipShown}
    (he : e.Hexed) (hs : s.Drawn c) (h : InviteStepped c s e s' acts) :
    AllProper c acts ∧ s'.Drawn c := by
  cases h with
  | start args ids => exact inviteStart_proper hc ids hs
  | head l inputs => exact inviteHead_proper inputs hs
  | silent l inputs => exact ⟨allProper_nil c, hs⟩
  | response l data inputs next shown hresponse =>
      rw [allProper_read]
      cases hresponse with
      | unparsed hstatus => exact ⟨allProper_nil c, hs⟩
      | stale status hstatus hstale => exact ⟨allProper_nil c, hs⟩
      | admitted status _ hadmitted hdispatch =>
          have htagged : (l.tagged (fromUtf8Lossy data.val)).Drawn c :=
            ⟨hs.call.tagged _, hs.invite, hs.sameUri, hs.first⟩
          exact dispatch_proper hc htagged he hdispatch
  | crash l data inputs why hresponse => exact ⟨by simp, trivial⟩

end Client

/-! ## The client of the trunk -/

theorem presentable_trunk : trunkClient.Presentable where
  sipDomain := by decide
  username := by decide
  callerId := by decide
  callerName := by decide
  userQuote := by decide
  domainQuote := by decide
  md5 := by
    intro s
    change IsHex (trunkMd5 s)
    unfold trunkMd5 IsHex
    split_ifs <;> decide +kernel

end SlmodemSipBridge.Sip
