import SlmodemSipBridge.Bridge.Delivery

/-!
# The dialogue that the peer hears

What the peer of the bridge can tell from the octets alone: every request it reads
opens a transaction, repeats or authorizes one that it has read before, or
acknowledges or ends the call of an INVITE that it has read before.
-/

namespace SlmodemSipBridge.Bridge

open Rust Transition Media Rtp Sip Envelope

/-! ## What a peer looks at -/

/-- The method of a request. -/
def methodOf (m : Message) : Str := m.start.takeWhile (· != ' ')

/-- What follows the method: the URI and the version. -/
def targetOf (m : Message) : Str := m.start.dropWhile (· != ' ')

/-- The number of a request, and the method that goes with it. -/
def cseqIn (m : Message) : Option (ℕ × Str) :=
  match (m.value (lit "CSeq")).map splitWhitespace with
  | some [num, method] => (parseU32 num).map (·, method)
  | _ => none

/-- The credentials of a request. -/
def credentialsIn (m : Message) : Option Str :=
  (m.value (lit "Authorization")).or (m.value (lit "Proxy-Authorization"))

/-- The second message has the URI, the caller and the identifier of the first. -/
structure Continues (m₀ m : Message) : Prop where
  target : targetOf m = targetOf m₀
  caller : m.value (lit "From") = m₀.value (lit "From")
  callId : m.value (lit "Call-ID") = m₀.value (lit "Call-ID")

/-- The second message is for the callee of the first, as its tag may say. -/
def SameCallee (m₀ m : Message) : Prop :=
  ∃ callee tag, m₀.value (lit "To") = some callee ∧ m.value (lit "To") = some (callee ++ tag)

/-- What a request may be after the messages that were heard before it. -/
inductive FollowsUp (heard : List Message) (m : Message) : Prop where
  | opens (hmethod : methodOf m ∈ [lit "REGISTER", lit "INVITE"])
      (hcseq : cseqIn m = some (1, methodOf m)) (hbare : credentialsIn m = none) :
      FollowsUp heard m
  | repeats (hmethod : methodOf m = lit "INVITE") (hmem : m ∈ heard) : FollowsUp heard m
  | authorizes (m₀ : Message) (n : ℕ) (hmem : m₀ ∈ heard)
      (hmethod : methodOf m ∈ [lit "REGISTER", lit "INVITE"])
      (hbefore : cseqIn m₀ = some (n, methodOf m)) (hcseq : cseqIn m = some (n + 1, methodOf m))
      (hcontinues : Continues m₀ m) (hto : m.value (lit "To") = m₀.value (lit "To"))
      (hbody : m.body = m₀.body) (hbare : credentialsIn m₀ = none)
      (hcredentials : (credentialsIn m).isSome = true) : FollowsUp heard m
  | acknowledges (m₀ : Message) (n : ℕ) (hmem : m₀ ∈ heard) (hmethod : methodOf m = lit "ACK")
      (hbefore : cseqIn m₀ = some (n, lit "INVITE")) (hcseq : cseqIn m = some (n, lit "ACK"))
      (hcontinues : Continues m₀ m) (hto : SameCallee m₀ m)
      (hvia : m.value (lit "Via") = m₀.value (lit "Via")) : FollowsUp heard m
  | hangsUp (m₀ : Message) (n : ℕ) (hmem : m₀ ∈ heard) (hmethod : methodOf m = lit "BYE")
      (hbefore : cseqIn m₀ = some (n, lit "INVITE")) (hcseq : cseqIn m = some (n + 1, lit "BYE"))
      (hcontinues : Continues m₀ m) (hto : SameCallee m₀ m) : FollowsUp heard m

/-- The peer hears the request that is shown, if it is one. -/
def heardIn (c : SipClient) : BridgeShown → Option Message
  | .sip (.sent _ request) => readDatagram (utf8Bytes (c.wire request))
  | _ => none

/-- The peer keeps what it has heard.  It can read each request, and each follows up
what it has heard before. -/
def listener (c : SipClient) : Monitor (List Message) BridgeShown where
  next heard o := heard ++ (heardIn c o).toList
  allows heard o :=
    ∀ site request, o = .sip (.sent site request) →
      ∃ m, heardIn c o = some m ∧ FollowsUp heard m

/-! ## What the messages say -/

/-- The method of a request line. -/
theorem methodOf_line {m : Message} {method uri : Str} (hblank : ' ' ∉ method)
    (hstart : m.start = requestLine method uri) :
    methodOf m = method ∧ targetOf m = lit " " ++ uri ++ lit " SIP/2.0" := by
  have hcut : m.start = method ++ ' ' :: (uri ++ lit " SIP/2.0") := by
    rw [hstart]
    simp [requestLine, lit]
  obtain ⟨htake, hdrop⟩ := takeWhile_ne hblank (uri ++ lit " SIP/2.0")
  constructor
  · rw [methodOf, hcut, htake]
  · rw [targetOf, hcut, hdrop]
    simp [lit]

theorem cseqIn_of_value {m : Message} {n : ℕ} {method : Str} (hn : n < 2 ^ 32)
    (hne : method ≠ []) (hmethod : NoBlanks method)
    (hvalue : m.value (lit "CSeq") = some (decimal n ++ lit " " ++ method)) :
    cseqIn m = some (n, method) := by
  have hcut : decimal n ++ lit " " ++ method = decimal n ++ ' ' :: method := by simp [lit]
  have hwords : splitWhitespace (decimal n ++ lit " " ++ method) = [decimal n, method] := by
    rw [hcut, splitWhitespace_word (decimal_ne_nil n) (noBlanks_decimal n) (by decide),
      splitWhitespace_single hne hmethod]
  have hnum : parseU32 (decimal n) = some n := parseUnsigned_decimal (Nat.le_pred_of_lt hn)
  simp only [cseqIn, hvalue, Option.map_some, hwords, hnum]

/-- What a peer makes of a request. -/
structure Heard (m : Message) (method uri caller callId callee via : Str) (cseq : ℕ) : Prop where
  methodOf : methodOf m = method
  targetOf : targetOf m = lit " " ++ uri ++ lit " SIP/2.0"
  caller : m.value (lit "From") = some caller
  callId : m.value (lit "Call-ID") = some callId
  callee : m.value (lit "To") = some callee
  via : m.value (lit "Via") = some via
  cseqIn : cseqIn m = some (cseq, method)

section Client

variable (c : SipClient)

theorem register_heard {r : RegisterRequest} (hcseq : r.cseq ≤ 2) :
    Heard (c.message (.register r)) (lit "REGISTER") (lit "sip:" ++ c.sipDomain)
      (lit "<sip:" ++ c.username ++ lit "@" ++ c.sipDomain ++ lit ">;tag=" ++ r.tag) r.callId
      (lit "<sip:" ++ c.username ++ lit "@" ++ c.sipDomain ++ lit ">")
      (c.viaOf r.branch).value r.cseq where
  methodOf := (methodOf_line (by decide) rfl).1
  targetOf := (methodOf_line (by decide) rfl).2
  caller := rfl
  callId := rfl
  callee := rfl
  via := rfl
  cseqIn := cseqIn_of_value (by omega) (by decide) (by decide) rfl

theorem invite_heard {r : InviteRequest} (hcseq : r.cseq ≤ 2) :
    Heard (c.message (.invite r)) (lit "INVITE") r.uri (c.callerOf r.localTag).value r.callId
      (lit "<" ++ r.uri ++ lit ">") (c.viaOf r.branch).value r.cseq where
  methodOf := (methodOf_line (by decide) rfl).1
  targetOf := (methodOf_line (by decide) rfl).2
  caller := rfl
  callId := rfl
  callee := rfl
  via := rfl
  cseqIn := cseqIn_of_value (by omega) (by decide) (by decide) rfl

theorem callMessage_heard {method target branch : Str} {call : Call} {cseq : ℕ}
    (hblank : ' ' ∉ method) (hne : method ≠ []) (hmethod : NoBlanks method) (hcseq : cseq ≤ 3) :
    Heard (c.callMessage method target call branch cseq) method call.inviteUri
      (c.callerOf call.localTag).value call.callId (target ++ call.toTag)
      (c.viaOf branch).value cseq where
  methodOf := (methodOf_line hblank rfl).1
  targetOf := (methodOf_line hblank rfl).2
  caller := rfl
  callId := rfl
  callee := rfl
  via := rfl
  cseqIn := cseqIn_of_value (by omega) hne hmethod rfl

/-- What a REGISTER says of credentials. -/
theorem credentialsIn_register (r : RegisterRequest) :
    credentialsIn (c.message (.register r)) = r.auth := by
  cases hauth : r.auth <;> simp only [SipClient.message, hauth] <;> rfl

/-- What an INVITE says of credentials. -/
theorem credentialsIn_invite {r : InviteRequest}
    (h : ∀ auth ∈ r.auth, auth.1 ∈ [lit "Authorization", lit "Proxy-Authorization"]) :
    credentialsIn (c.message (.invite r)) = r.auth.map Prod.snd := by
  cases hauth : r.auth with
  | none =>
      simp only [SipClient.message, hauth]
      rfl
  | some auth =>
      have hname := h auth hauth
      obtain ⟨name, value⟩ := auth
      simp only [SipClient.message, hauth]
      rcases List.mem_pair.mp hname with rfl | rfl <;> rfl

/-- The `sip:` that is cut from the URI of a dial string is the one in front of it. -/
theorem trimStartMatches_inviteUri (dial : DialString) :
    trimStartMatches (lit "sip:") (c.inviteUri dial.text) =
      dial.text ++ lit "@" ++ c.sipDomain := by
  have hdial := dial.forall_mem (p := fun ch => ch != 's') (by decide)
  obtain ⟨first, rest, htext⟩ := List.exists_cons_of_ne_nil dial.ne
  have hfirst : 's' ≠ first := by
    have hne := hdial first (by simp [htext])
    simpa using (bne_iff_ne.mp hne).symm
  have hnot : ¬ (lit "sip:").isPrefixOf (dial.text ++ lit "@" ++ c.sipDomain) = true := by
    rw [List.isPrefixOf_iff_prefix, htext]
    rintro ⟨after, hafter⟩
    exact hfirst (List.cons_eq_cons.mp hafter).1
  have hstop : ∀ n, stripRepeated (lit "sip:") n (dial.text ++ lit "@" ++ c.sipDomain) =
      dial.text ++ lit "@" ++ c.sipDomain := by
    intro n
    cases n with
    | zero => rfl
    | succ n => rw [stripRepeated, if_neg hnot]
  have hcut : c.inviteUri dial.text = lit "sip:" ++ (dial.text ++ lit "@" ++ c.sipDomain) := by
    simp [SipClient.inviteUri]
  have hprefix : (lit "sip:").isPrefixOf
      (lit "sip:" ++ (dial.text ++ lit "@" ++ c.sipDomain)) = true :=
    List.isPrefixOf_iff_prefix.mpr (List.prefix_append _ _)
  obtain ⟨n, hn⟩ : ∃ n, (c.inviteUri dial.text).length = n + 1 := by
    refine ⟨(c.inviteUri dial.text).length - 1, ?_⟩
    rw [hcut]
    simp [lit]
  rw [trimStartMatches, hn, hcut, stripRepeated, if_pos hprefix, List.drop_left, hstop]

theorem ack_heard {call : Call} (h : call.Placed c) :
    Heard (c.message (.ack call)) (lit "ACK") call.inviteUri (c.callerOf call.localTag).value
      call.callId (lit "<" ++ call.inviteUri ++ lit ">" ++ call.toTag)
      (c.viaOf call.viaBranch).value call.cseq :=
  callMessage_heard c (by decide) (by decide) (by decide) (h.cseq.trans (Nat.le_succ 2))

/-- A BYE names its callee as the ACK does. -/
theorem bye_heard {call : Call} (h : call.Placed c) (branch : Str) :
    Heard (c.message (.bye call branch)) (lit "BYE") call.inviteUri
      (c.callerOf call.localTag).value call.callId
      (lit "<" ++ call.inviteUri ++ lit ">" ++ call.toTag) (c.viaOf branch).value
      (call.cseq + 1) := by
  obtain ⟨dial, hdial⟩ := h.dial
  have hcallee : lit "<sip:" ++ trimStartMatches (lit "sip:") call.inviteUri ++ lit ">" =
      lit "<" ++ call.inviteUri ++ lit ">" := by
    rw [hdial, trimStartMatches_inviteUri]
    simp [SipClient.inviteUri, lit]
  rw [← hcallee]
  exact callMessage_heard c (by decide) (by decide) (by decide) (Nat.succ_le_succ h.cseq)

end Client

/-! ## What the bridge may send -/

/-- What the user agent may send where it is. -/
inductive MaySend : AgentState → Site → Request → Prop where
  | register (request : RegisterRequest) (hcseq : request.cseq = 1) (hauth : request.auth = none) :
      MaySend .opening .register (.register request)
  | registerAuth (first second : RegisterRequest) (h : AuthorizedRegister first second) :
      MaySend (.registering first) .registerAuth (.register second)
  | invite (invite : InviteRequest) (hcseq : invite.cseq = 1) (hauth : invite.auth = none) :
      MaySend .dialled .invite (.invite invite)
  | retransmit (first latest : InviteRequest) :
      MaySend (.inviting first latest) .retransmit (.invite first)
  | challengeAck (first : InviteRequest) (call : Call) (hcall : CallOf first call) :
      MaySend (.inviting first first) .challengeAck (.ack call)
  | errorAck (first latest : InviteRequest) (call : Call) (hcall : CallOf latest call) :
      MaySend (.inviting first latest) .errorAck (.ack call)
  | authInvite (first second : InviteRequest) (h : AuthorizedInvite first second) :
      MaySend (.challenged first) .authInvite (.invite second)
  | ack (latest : InviteRequest) (remote : Option SocketAddr) (call : Call) (site : Site)
      (hsite : site = .answerAck ∨ site = .pollAck) :
      MaySend (.established latest remote (.answered call)) site (.ack call)
  | bye (latest : InviteRequest) (remote : Option SocketAddr) (confirmation : Confirmation)
      (call : Call) (branch : Str) (hcall : CallOf latest call) :
      MaySend (.established latest remote confirmation) .bye (.bye call branch)

theorem maySend_of_allows {q : AgentState} {site : Site} {request : Request}
    (h : q.allows (.sip (.sent site request))) : MaySend q site request := by
  cases q with
  | opening =>
      cases request <;> cases site <;> first
        | exact False.elim h
        | exact .register _ h.1 h.2
  | registering first =>
      cases request <;> cases site <;> first
        | exact False.elim h
        | exact .registerAuth _ _ h
  | dialled =>
      cases request <;> cases site <;> first
        | exact False.elim h
        | exact .invite _ h.1 h.2
  | inviting first latest =>
      cases request <;> cases site <;> first
        | exact False.elim h
        | exact (show _ = first from h) ▸ .retransmit first latest
        | exact .errorAck _ _ _ h
        | exact (show latest = first ∧ _ from h).1 ▸ .challengeAck _ _ h.2
  | challenged first =>
      cases request <;> cases site <;> first
        | exact False.elim h
        | exact .authInvite _ _ h
  | established latest remote confirmation =>
      cases request <;> cases site <;> cases remote <;> cases confirmation <;> first
        | exact False.elim h
        | exact .bye _ _ _ _ _ h.1
        | exact (show _ = _ from h) ▸ .ack _ _ _ _ (by simp)
  | registered => cases request <;> cases site <;> exact False.elim h
  | idle => cases request <;> cases site <;> exact False.elim h
  | ended latest => cases request <;> cases site <;> exact False.elim h
  | stopped => exact False.elim h

/-! ## What the peer has heard -/

/-- The peer has heard the requests that the user agent follows up. -/
def Knows (c : SipClient) : AgentState → List Message → Prop
  | .registering request, heard => c.message (.register request) ∈ heard
  | .inviting first latest, heard =>
      c.message (.invite first) ∈ heard ∧ c.message (.invite latest) ∈ heard
  | .challenged first, heard => c.message (.invite first) ∈ heard
  | .established latest _ confirmation, heard =>
      c.message (.invite latest) ∈ heard ∧
        ∀ call, confirmation = .answered call → CallOf latest call
  | _, _ => True

section Follow

variable {c : SipClient} {heard : List Message}

theorem followsUp_registerAuth {first second : RegisterRequest}
    (hknown : c.message (.register first) ∈ heard) (h : AuthorizedRegister first second)
    (hproper : (Request.register second).Proper c) :
    FollowsUp heard (c.message (.register second)) := by
  have hsecond := hproper.2
  have hfirst : first.cseq ≤ 2 := by
    have hcseq := h.cseq
    omega
  have hread := register_heard c hfirst
  have hread' := register_heard c hsecond
  refine .authorizes (c.message (.register first)) first.cseq hknown ?_ ?_ ?_ ?_ ?_ rfl ?_ ?_
  · rw [hread'.methodOf]
    simp
  · rw [hread.cseqIn, hread'.methodOf]
  · rw [hread'.cseqIn, hread'.methodOf, h.cseq]
  · constructor
    · rw [hread.targetOf, hread'.targetOf]
    · rw [hread.caller, hread'.caller, h.tag]
    · rw [hread.callId, hread'.callId, h.callId]
  · rw [hread.callee, hread'.callee]
  · rw [credentialsIn_register, h.unauthorized]
  · rw [credentialsIn_register, h.authorized]

theorem followsUp_authInvite {first second : InviteRequest}
    (hknown : c.message (.invite first) ∈ heard) (h : AuthorizedInvite first second)
    (hproper : (Request.invite second).Proper c) :
    FollowsUp heard (c.message (.invite second)) := by
  have hsecond := hproper.2.2
  have hfirst : first.cseq ≤ 2 := by
    have hcseq := h.cseq
    omega
  have hread := invite_heard c hfirst
  have hread' := invite_heard c hsecond
  have hnone : ∀ auth ∈ first.auth,
      auth.1 ∈ [lit "Authorization", lit "Proxy-Authorization"] := by
    rw [h.unauthorized]
    simp
  have hnames : ∀ auth ∈ second.auth,
      auth.1 ∈ [lit "Authorization", lit "Proxy-Authorization"] :=
    fun auth hauth => (hproper.1.2.2.2.2 auth hauth).1
  refine .authorizes (c.message (.invite first)) first.cseq hknown ?_ ?_ ?_ ?_ ?_ h.sdp ?_ ?_
  · rw [hread'.methodOf]
    simp
  · rw [hread.cseqIn, hread'.methodOf]
  · rw [hread'.cseqIn, hread'.methodOf, h.cseq]
  · constructor
    · rw [hread.targetOf, hread'.targetOf, h.uri]
    · rw [hread.caller, hread'.caller, h.localTag]
    · rw [hread.callId, hread'.callId, h.callId]
  · rw [hread.callee, hread'.callee, h.uri]
  · rw [credentialsIn_invite c hnone, h.unauthorized]
    rfl
  · rw [credentialsIn_invite c hnames, Option.isSome_map, h.authorized]

/-- The messages of a call continue its INVITE. -/
theorem continues_of_call {latest : InviteRequest} {call : Call} {m : Message}
    {method callee via : Str} {cseq : ℕ} (hof : CallOf latest call) (hlatest : latest.cseq ≤ 2)
    (hm : Heard m method call.inviteUri (c.callerOf call.localTag).value call.callId
      callee via cseq) : Continues (c.message (.invite latest)) m := by
  have hread := invite_heard c hlatest
  constructor
  · rw [hm.targetOf, hread.targetOf, hof.uri]
  · rw [hm.caller, hread.caller, hof.localTag]
  · rw [hm.callId, hread.callId, hof.callId]

theorem followsUp_ack {latest : InviteRequest} {call : Call}
    (hknown : c.message (.invite latest) ∈ heard) (hof : CallOf latest call)
    (hplaced : call.Placed c) : FollowsUp heard (c.message (.ack call)) := by
  have hlatest : latest.cseq ≤ 2 := hof.cseq ▸ hplaced.cseq
  have hread := invite_heard c hlatest
  have hack := ack_heard c hplaced
  refine .acknowledges _ latest.cseq hknown hack.methodOf hread.cseqIn ?_
    (continues_of_call hof hlatest hack) ⟨_, call.toTag, hread.callee, ?_⟩ ?_
  · rw [hack.cseqIn, hof.cseq]
  · rw [hack.callee, hof.uri]
  · rw [hack.via, hread.via, hof.branch]

theorem followsUp_bye {latest : InviteRequest} {call : Call} (branch : Str)
    (hknown : c.message (.invite latest) ∈ heard) (hof : CallOf latest call)
    (hplaced : call.Placed c) : FollowsUp heard (c.message (.bye call branch)) := by
  have hlatest : latest.cseq ≤ 2 := hof.cseq ▸ hplaced.cseq
  have hread := invite_heard c hlatest
  have hbye := bye_heard c hplaced branch
  refine .hangsUp _ latest.cseq hknown hbye.methodOf hread.cseqIn ?_
    (continues_of_call hof hlatest hbye) ⟨_, call.toTag, hread.callee, ?_⟩
  · rw [hbye.cseqIn, hof.cseq]
  · rw [hbye.callee, hof.uri]

/-- What may be sent follows up what was heard, and is known from then on. -/
theorem followsUp_sent {q : AgentState} {site : Site} {request : Request}
    (h : MaySend q site request) (hknows : Knows c q heard) (hproper : request.Proper c) :
    FollowsUp heard (c.message request) ∧
      Knows c (q.next (.sip (.sent site request))) (heard ++ [c.message request]) := by
  cases h with
  | register request hcseq hauth =>
      have hread := register_heard c hproper.2
      refine ⟨.opens ?_ ?_ ?_, by simp [AgentState.next, Knows]⟩
      · rw [hread.methodOf]
        simp
      · rw [hread.cseqIn, hread.methodOf, hcseq]
      · rw [credentialsIn_register, hauth]
  | registerAuth first second h =>
      exact ⟨followsUp_registerAuth hknows h hproper, by simp [AgentState.next, Knows]⟩
  | invite invite hcseq hauth =>
      have hread := invite_heard c hproper.2.2
      have hnone : ∀ auth ∈ invite.auth,
          auth.1 ∈ [lit "Authorization", lit "Proxy-Authorization"] := by
        rw [hauth]
        simp
      refine ⟨.opens ?_ ?_ ?_, by simp [AgentState.next, Knows]⟩
      · rw [hread.methodOf]
        simp
      · rw [hread.cseqIn, hread.methodOf, hcseq]
      · rw [credentialsIn_invite c hnone, hauth]
        rfl
  | retransmit first latest =>
      refine ⟨.repeats (invite_heard c hproper.2.2).methodOf hknows.1, ?_⟩
      exact ⟨by simp, List.mem_append_left _ hknows.2⟩
  | challengeAck first call hcall =>
      exact ⟨followsUp_ack hknows.2 hcall hproper, List.mem_append_left _ hknows.1⟩
  | errorAck first latest call hcall => exact ⟨followsUp_ack hknows.2 hcall hproper, trivial⟩
  | authInvite first second h =>
      exact ⟨followsUp_authInvite hknows h hproper, List.mem_append_left _ hknows, by simp⟩
  | ack latest remote call site hsite =>
      have hof := hknows.2 call rfl
      refine ⟨followsUp_ack hknows.1 hof hproper, ?_⟩
      rcases hsite with rfl | rfl
      · exact ⟨List.mem_append_left _ hknows.1, by simp⟩
      · exact ⟨List.mem_append_left _ hknows.1, by simp⟩
  | bye latest remote confirmation call branch hcall =>
      exact ⟨followsUp_bye branch hknows.1 hcall hproper.1, trivial⟩

/-- An observation that is no request changes nothing of what is known. -/
theorem knows_of_unsent {q : AgentState} {o : BridgeShown} (hknows : Knows c q heard)
    (hallows : q.allows o) (hunsent : ∀ site request, o ≠ .sip (.sent site request)) :
    Knows c (q.next o) heard := by
  cases o with
  | media o => cases q <;> exact hknows
  | dialled tail => cases q <;> trivial
  | drained bytes => cases q <;> exact hknows
  | waiting => cases q <;> trivial
  | stopped => cases q <;> trivial
  | sip o =>
      cases o with
      | sent site request => exact absurd rfl (hunsent site request)
      | read call resp =>
          cases q with
          | registering request =>
              change Knows c (if parseStatusCode resp = some 200 then _ else _) heard
              split
              · trivial
              · exact hknows
          | inviting first latest =>
              cases hoffer : earlyOffer latest.cseq resp with
              | none => simpa [AgentState.next, hoffer] using hknows
              | some remote => simpa [AgentState.next, hoffer, Knows] using hknows.2
          | _ => exact hknows
      | answered call resp =>
          cases q with
          | inviting first latest =>
              refine ⟨hknows.2, ?_⟩
              rintro call' heq
              obtain rfl := Confirmation.answered.inj heq
              exact hallows
          | established latest remote confirmation =>
              refine ⟨hknows.1, ?_⟩
              rintro call' heq
              obtain rfl := Confirmation.answered.inj heq
              cases confirmation with
              | early => exact hallows
              | answered call'' => cases remote <;> exact False.elim hallows
              | acked call'' => cases remote <;> exact False.elim hallows
          | _ => exact False.elim hallows

end Follow

theorem heardIn_sent {c : SipClient} (hc : c.Presentable) {request : Request}
    (h : request.Proper c) (site : Site) :
    heardIn c (.sip (.sent site request)) = some (c.message request) :=
  readDatagram_wire hc.toLegible h.legible

theorem heardIn_unsent (c : SipClient) {o : BridgeShown}
    (h : ∀ site request, o ≠ .sip (.sent site request)) : heardIn c o = none := by
  cases o with
  | sip o =>
      cases o with
      | sent site request => exact absurd rfl (h site request)
      | read call resp => rfl
      | answered call resp => rfl
  | _ => rfl

/-- What the user agent allows the listener allows, who knows what is followed up. -/
theorem listener_simulates {c : SipClient} (hc : c.Presentable) (q : AgentState)
    (heard : List Message) (o : BridgeShown) (hknows : Knows c q heard) (hproper : o.Proper c)
    (hallows : userAgent.allows q o) :
    (listener c).allows heard o ∧ Knows c (userAgent.next q o) ((listener c).next heard o) := by
  by_cases hsent : ∃ site request, o = .sip (.sent site request)
  · obtain ⟨site, request, rfl⟩ := hsent
    have hread := heardIn_sent hc hproper site
    obtain ⟨hfollows, hknows'⟩ := followsUp_sent (maySend_of_allows hallows) hknows hproper
    constructor
    · rintro site' request' heq
      exact ⟨_, hread, hfollows⟩
    · change Knows c _ (heard ++ (heardIn c _).toList)
      rw [hread]
      exact hknows'
  · have hunsent : ∀ site request, o ≠ .sip (.sent site request) :=
      fun site request heq => hsent ⟨site, request, heq⟩
    constructor
    · intro site request heq
      exact absurd heq (hunsent site request)
    · change Knows c _ (heard ++ (heardIn c o).toList)
      rw [heardIn_unsent c hunsent, Option.toList_none, List.append_nil]
      exact knows_of_unsent hknows hallows hunsent

/-- In every run the peer can read each request, and each follows up what it has heard
before. -/
theorem bridge_dialogue {config : Config} (hc : config.client.Presentable)
    {events : List BridgeEvent} {b : BridgeState} {trace : List BridgeShown}
    (hevents : ∀ e ∈ events, e.Hexed)
    (hrun : (bridgeMachine config).run bridgeStart events = some (b, trace)) :
    (listener config.client).Accepts [] trace := by
  have hproper := proper_of_run hc hevents hrun
  have hstart : Knows config.client .opening [] := trivial
  exact userAgent.accepts_of_simulates (listener_simulates hc) hstart hproper
    (userAgent_run hrun).1

theorem bridge_dialogue_retried :
    ∃ t trace,
      (bridgeMachine trunkConfig).run bridgeStart trunkRetried = some (t, trace) ∧
        trace.filterMap BridgeShown.site = [.register, .invite, .challengeAck, .authInvite] ∧
        (listener trunkConfig.client).Accepts [] trace := by
  obtain ⟨t, trace, hrun, hsites⟩ := run_trunkRetried
  exact ⟨t, trace, hrun, hsites,
    @bridge_dialogue trunkConfig presentable_trunk _ _ _ hexed_trunkRetried hrun⟩

end SlmodemSipBridge.Bridge
