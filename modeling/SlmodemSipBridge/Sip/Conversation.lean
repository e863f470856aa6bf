import SlmodemSipBridge.Sip.Transaction

/-!
# Conversations with servers that cooperate

What the trunk may do to a call that it connects in the end: keep silent, ring, repeat
itself, and once pose a challenge.  However long that takes, as long as it is within
the deadline and the iterations of the loop, `invite` returns the call with the endpoint
that was announced.
-/

namespace SlmodemSipBridge.Sip

open Rust Bridge Envelope Transition

/-! ## Conversations -/

/-- An iteration of the response loop: its head, and what is received then. -/
structure Turn where
  head : HeadInputs
  datagram : Option Datagram
  answer : AnswerInputs

/-- The events of an iteration. -/
def Turn.events (t : Turn) : List InviteEvent :=
  [.head t.head, .received t.datagram t.answer]

/-- The turn begins before the deadline, and what it sends goes out. -/
structure Turn.InTime (t : Turn) (deadline : ℕ) : Prop where
  early : t.head.deadlineTest < deadline
  headSent : t.head.sent = true
  ackSent : t.answer.ackSent = true
  inviteSent : t.answer.inviteSent = true
  hexed : IsHex t.answer.cnonce

/-- The turn brings a sound reply to the request. -/
def Turn.Brings (c : SipClient) (t : Turn) (request : InviteRequest) (reply : Reply) : Prop :=
  ∃ data, t.datagram = some data ∧ IsReply c (.invite request) reply data

/-- The reply is one to wait after. -/
def Reply.Provisional (r : Reply) : Prop :=
  r.status < 200 ∧ (r.status = 180 ∨ r.status = 183 → r.answer = none)

/-- The reply connects the call. -/
def Reply.Connects (r : Reply) : Prop :=
  (r.status = 180 ∨ r.status = 183 ∨ r.status = 200) ∧ r.answer.isSome

/-- The INVITE that answers a challenge to an INVITE. -/
def InviteRequest.answering (request : InviteRequest) (c : SipClient) (status : ℕ)
    (digest : DigestChallenge) (inputs : AnswerInputs) : InviteRequest :=
  { request with
    branch := generateBranch inputs.branchHash
    cseq := request.cseq + 1
    auth := some (credentialHeader status,
      digest.authHeaderValue c.md5Hex inputs.cnonce c.username c.password (lit "INVITE")
        request.uri) }

/-- The turns of a call that the trunk connects by `final`.  The request is the last
INVITE, and `earlier` the one that was challenged. -/
inductive Converses (c : SipClient) (deadline : ℕ) (final : Reply) :
    InviteRequest → Option InviteRequest → List Turn → Prop where
  | silence {request : InviteRequest} {earlier : Option InviteRequest} {t : Turn} {ts : List Turn}
      (htime : t.InTime deadline) (hnone : t.datagram = none)
      (hrest : Converses c deadline final request earlier ts) :
      Converses c deadline final request earlier (t :: ts)
  | provisional {request : InviteRequest} {earlier : Option InviteRequest} {t : Turn}
      {ts : List Turn} (reply : Reply) (htime : t.InTime deadline)
      (hbrings : t.Brings c request reply) (hprovisional : reply.Provisional)
      (hrest : Converses c deadline final request earlier ts) :
      Converses c deadline final request earlier (t :: ts)
  | late {request request₀ : InviteRequest} {t : Turn} {ts : List Turn} (reply : Reply)
      (htime : t.InTime deadline) (hbrings : t.Brings c request₀ reply)
      (hrest : Converses c deadline final request (some request₀) ts) :
      Converses c deadline final request (some request₀) (t :: ts)
  | challenged {request : InviteRequest} {t : Turn} {ts : List Turn} (reply : Reply)
      (posed : Posed) (htime : t.InTime deadline) (hbrings : t.Brings c request reply)
      (hstatus : reply.status = 401 ∨ reply.status = 407) (hposed : reply.challenge = some posed)
      (hrest : Converses c deadline final
        (request.answering c reply.status posed.digest t.answer) (some request) ts) :
      Converses c deadline final request none (t :: ts)
  | connected {request : InviteRequest} {earlier : Option InviteRequest} {t : Turn}
      (htime : t.InTime deadline) (hbrings : t.Brings c request final)
      (hconnects : final.Connects) :
      Converses c deadline final request earlier [t]

/-- A conversation ends with an answer. -/
theorem Converses.answered {c : SipClient} {deadline : ℕ} {final : Reply}
    {request : InviteRequest} {earlier : Option InviteRequest} {ts : List Turn}
    (h : Converses c deadline final request earlier ts) : final.answer.isSome := by
  induction h with
  | connected htime hbrings hconnects => exact hconnects.2
  | _ => assumption

/-! ## The loop in a conversation -/

/-- The loop goes on in its transaction. -/
structure InviteLoop.Continues (l l' : InviteLoop) : Prop where
  callId : l'.call.callId = l.call.callId
  localTag : l'.call.localTag = l.call.localTag
  uri : l'.call.inviteUri = l.call.inviteUri
  cseq : l'.call.cseq = l.call.cseq
  invite : l'.invite = l.invite
  deadline : l'.deadline = l.deadline
  authRetryDone : l'.authRetryDone = l.authRetryDone

/-- The loop has sent the request, after the earlier one. -/
structure InviteLoop.Awaits (c : SipClient) (deadline : ℕ) (request : InviteRequest)
    (earlier : Option InviteRequest) (l : InviteLoop) : Prop where
  drawn : l.Drawn c
  proper : (Request.invite request).Proper c
  callId : l.call.callId = request.callId
  localTag : l.call.localTag = request.localTag
  uri : l.call.inviteUri = request.uri
  cseq : l.call.cseq = request.cseq
  sdp : l.invite.sdp = request.sdp
  deadline : l.deadline = deadline
  first : earlier = none → l.authRetryDone = false
  earlier : ∀ request₀ ∈ earlier, (Request.invite request₀).Proper c ∧
    request₀.cseq ≠ request.cseq

/-- The call is the one that the reply connects. -/
structure Call.ConnectedBy (final : Reply) (request : InviteRequest) (call : Call) : Prop where
  callId : call.callId = request.callId
  endpoint : call.remoteRtp = final.answer.map Answer.endpoint
  state : call.state = if final.status = 200 then .answered else .earlyMedia

section Awaits

variable {c : SipClient} {deadline : ℕ} {request : InviteRequest} {earlier : Option InviteRequest}
  {l : InviteLoop} (h : l.Awaits c deadline request earlier)
include h

theorem InviteLoop.Awaits.continues {l' : InviteLoop} (hl : l.Continues l') (hdrawn : l'.Drawn c) :
    l'.Awaits c deadline request earlier where
  drawn := hdrawn
  proper := h.proper
  callId := hl.callId.trans h.callId
  localTag := hl.localTag.trans h.localTag
  uri := hl.uri.trans h.uri
  cseq := hl.cseq.trans h.cseq
  sdp := (congrArg InviteRequest.sdp hl.invite).trans h.sdp
  deadline := hl.deadline.trans h.deadline
  first := fun hnone => hl.authRetryDone.trans (h.first hnone)
  earlier := h.earlier

/-- In time, the head goes on to a receive. -/
theorem InviteLoop.Awaits.head {t : Turn} (ht : t.InTime deadline)
    (hcount : l.iterations < responseLoopLimit) :
    ∃ l' acts, (inviteMachine c).step (.looping l) (.head t.head) =
        some (.receiving l', acts) ∧
      l'.Awaits c deadline request earlier ∧ l'.iterations = l.iterations + 1 := by
  have hstep : (inviteMachine c).step (.looping l) (.head t.head) =
      some (inviteHead l t.head) := rfl
  have hdrawn := (inviteHead_proper (c := c) t.head h.drawn).2
  have hout := inviteHead_outcome l t.head
  rw [hstep]
  generalize inviteHead l t.head = out at hout hdrawn ⊢
  cases hout with
  | exceeded why hlimit => exact absurd hcount (Nat.not_lt.mpr hlimit)
  | timedOut hlate => exact absurd ht.early (by rw [← h.deadline]; exact Nat.not_lt.mpr hlate)
  | retransmitted hdue hsent =>
      exact ⟨_, _, rfl, h.continues ⟨rfl, rfl, rfl, rfl, rfl, rfl, rfl⟩ hdrawn, rfl⟩
  | unsent hdue hsent => simp [ht.headSent] at hsent
  | quiet hidle =>
      exact ⟨_, _, rfl, h.continues ⟨rfl, rfl, rfl, rfl, rfl, rfl, rfl⟩ hdrawn, rfl⟩

end Awaits

/-! ## The responses of a conversation -/

section Responses

variable {reply : Reply} {callId callee method resp : Str} {cseq : ℕ}
  (hu : Understood reply callId callee method cseq resp)
include hu

/-- A reply in the transaction of the loop is admitted. -/
theorem Understood.admitted {l : InviteLoop} (hcseq : l.call.cseq = cseq) :
    Admitted l resp reply.status where
  status_eq := hu.status_eq
  fresh := by simp [isStale, hu.cseqNum_eq, hcseq, bind, Except.bind, pure, Except.pure]
  remembered := by
    cases hcall : l.call.rememberTag resp with
    | ok call => exact congrArg Except.ok (rememberTag_eq_ok hcall)
    | error why =>
        have herror := (rememberTag_eq_error hcall).2
        rw [hu.callee_eq] at herror
        contradiction

/-- A reply in another transaction is dropped. -/
theorem Understood.dropped {l : InviteLoop} (hcseq : cseq ≠ l.call.cseq) (c : SipClient)
    (inputs : AnswerInputs) : inviteResponse c l resp inputs = .ok (.looping l, []) := by
  simp [inviteResponse, hu.status_eq, isStale, hu.cseqNum_eq, hcseq, bind, Except.bind, pure,
    Except.pure]

end Responses

/-- An admitted response is dispatched by its status. -/
theorem Admitted.inviteResponse_eq {l : InviteLoop} {resp : Str} {status : ℕ}
    (h : Admitted l resp status) (c : SipClient) (inputs : AnswerInputs) :
    inviteResponse c l resp inputs = inviteDispatch c (l.tagged resp) status resp inputs := by
  simp only [inviteResponse, h.status_eq, h.fresh, h.remembered, bind, Except.bind,
    Bool.false_eq_true, if_false]
  rfl

/-- A provisional reply without an answer leaves the loop in its transaction. -/
theorem provisional_dispatch {l : InviteLoop} {status : ℕ} {resp : Str} (hstatus : status < 200)
    (hnone : status = 180 ∨ status = 183 → acceptedEndpoint resp = none) (c : SipClient)
    (inputs : AnswerInputs) :
    ∃ l', inviteDispatch c l status resp inputs = .ok (.looping l', []) ∧ l.Continues l' ∧
      l'.iterations = l.iterations := by
  have hout := inviteDispatch_outcome c l status resp inputs
  generalize inviteDispatch c l status resp inputs = out at hout
  cases hout with
  | trying _ => exact ⟨_, rfl, ⟨rfl, rfl, rfl, rfl, rfl, rfl, rfl⟩, rfl⟩
  | ringing _ _ => exact ⟨_, rfl, ⟨rfl, rfl, rfl, rfl, rfl, rfl, rfl⟩, rfl⟩
  | earlyMedia rtpAddr hmedia hsome => simp [hnone hmedia] at hsome
  | answered h200 => omega
  | challenged _ hauth _ => omega
  | rejected hrange _ _ => omega
  | rejectedUnsent hrange _ _ => omega
  | unexpected _ => exact ⟨_, rfl, ⟨rfl, rfl, rfl, rfl, rfl, rfl, rfl⟩, rfl⟩

/-- The first challenge that can be used is answered. -/
theorem challenge_dispatch {l : InviteLoop} {status : ℕ} {resp : Str} {digest : DigestChallenge}
    {c : SipClient} {inputs : AnswerInputs} (hstatus : status = 401 ∨ status = 407)
    (hfirst : l.authRetryDone = false) (hreturns : ParsersReturn resp)
    (husable : usableChallenge status resp = some digest) (hack : inputs.ackSent = true)
    (hinvite : inputs.inviteSent = true) :
    ∃ acts, inviteDispatch c l status resp inputs = .ok (.looping (l.afterRetry inputs), acts) := by
  have hout := inviteDispatch_outcome c l status resp inputs
  generalize inviteDispatch c l status resp inputs = out at hout ⊢
  cases hout with
  | trying _ => omega
  | ringing _ _ => omega
  | earlyMedia _ _ _ => omega
  | answered _ => omega
  | rejected _ hother _ => omega
  | rejectedUnsent _ hother _ => omega
  | unexpected hother => omega
  | challenged _ _ hchallenge =>
      cases hchallenge with
      | again hdone => simp [hfirst] at hdone
      | panicked why _ hlookup =>
          obtain ⟨found, hfound⟩ := hreturns.header _ (challengeHeader_mem_asked status)
          rw [hlookup] at hfound
          contradiction
      | unusable _ _ _ hnone => simp [husable] at hnone
      | ackUnsent _ _ _ _ hunsent => simp [hack] at hunsent
      | retryUnsent _ _ _ _ _ hunsent => simp [hinvite] at hunsent
      | retried digest' _ _ _ _ _ => exact ⟨_, rfl⟩

/-- A reply with an answer sets the call up at its endpoint. -/
theorem connect_dispatch {l : InviteLoop} {status : ℕ} {resp : Str} {endpoint : SocketAddr}
    (hstatus : status = 180 ∨ status = 183 ∨ status = 200)
    (hsome : acceptedEndpoint resp = some endpoint) (c : SipClient) (inputs : AnswerInputs) :
    ∃ call acts, inviteDispatch c l status resp inputs = .ok (.returned (.ok call), acts) ∧
      call.callId = l.call.callId ∧ call.remoteRtp = some endpoint ∧
        call.state = if status = 200 then .answered else .earlyMedia := by
  have hout := inviteDispatch_outcome c l status resp inputs
  generalize inviteDispatch c l status resp inputs = out at hout ⊢
  cases hout with
  | trying _ => omega
  | ringing _ hnone => simp [hsome] at hnone
  | earlyMedia rtpAddr hmedia hfound =>
      have hearly : status ≠ 200 := by omega
      exact ⟨_, _, rfl, rfl, hfound.symm.trans hsome, (if_neg hearly).symm⟩
  | answered h200 =>
      exact ⟨_, _, rfl, rfl, by simp [Call.answeredBy, hsome], (if_pos h200).symm⟩
  | challenged _ hauth _ => omega
  | rejected hrange _ _ => omega
  | rejectedUnsent hrange _ _ => omega
  | unexpected hother => omega

/-! ## The turns of a conversation -/

theorem received_step {c : SipClient} {l : InviteLoop} {data : Datagram} {inputs : AnswerInputs}
    {next : InviteState} {acts : List SipShown}
    (h : inviteResponse c l (fromUtf8Lossy data.val) inputs = .ok (next, acts)) :
    (inviteMachine c).step (.receiving l) (.received (some data) inputs) =
      some (next, .read (some l.call) (fromUtf8Lossy data.val) :: acts) := by
  simp only [inviteMachine, inviteStep, h]

theorem silence_step {c : SipClient} (l : InviteLoop) {t : Turn} (h : t.datagram = none) :
    (inviteMachine c).step (.receiving l) (.received t.datagram t.answer) =
      some (.looping l, []) := by
  rw [h]
  rfl

theorem drawn_of_received {c : SipClient} (hc : c.Presentable) {l : InviteLoop} {data : Datagram}
    {inputs : AnswerInputs} {next : InviteState} {acts : List SipShown} (hl : l.Drawn c)
    (hhex : IsHex inputs.cnonce)
    (hstep : (inviteMachine c).step (.receiving l) (.received (some data) inputs) =
      some (next, acts)) : next.Drawn c := by
  have he : (InviteEvent.received (some data) inputs).Hexed := hhex
  have hs : (InviteState.receiving l).Drawn c := hl
  exact (invite_proper hc he hs (inviteStepped_of_step hstep)).2

/-- The INVITE that answers a challenge, as the servers see it. -/
theorem InviteLoop.Awaits.retryInvite_eq {c : SipClient} {deadline : ℕ} {request : InviteRequest}
    {earlier : Option InviteRequest} {l : InviteLoop} (h : l.Awaits c deadline request earlier)
    (resp : Str) (status : ℕ) (digest : DigestChallenge) (inputs : AnswerInputs) :
    retryInvite c (l.tagged resp) status digest inputs =
      request.answering c status digest inputs := by
  simp only [retryInvite, authInvite, credentials, InviteRequest.answering, InviteLoop.tagged,
    Call.tagged, Call.retried, h.callId, h.localTag, h.uri, h.cseq, h.sdp]

section Turns

variable {c : SipClient} (hc : c.Presentable) (hplain : c.Configured)
include hc hplain

/-- What a turn brings is understood. -/
theorem Turn.Brings.understood {t : Turn} {request : InviteRequest} {reply : Reply}
    (h : t.Brings c request reply) (hproper : (Request.invite request).Proper c) :
    ∃ data, t.datagram = some data ∧
      Understood reply request.callId (c.calleeOf (.invite request)) (lit "INVITE") request.cseq
        (fromUtf8Lossy data.val) := by
  obtain ⟨data, hdata, hreply⟩ := h
  exact ⟨data, hdata, hreply.understood hc hplain hproper nofun⟩

variable {deadline : ℕ} {request : InviteRequest} {earlier : Option InviteRequest}
  {l : InviteLoop} (h : l.Awaits c deadline request earlier) {t : Turn} {reply : Reply}
include h

/-- A provisional reply is waited after. -/
theorem InviteLoop.Awaits.provisional (ht : t.InTime deadline)
    (hbrings : t.Brings c request reply) (hprovisional : reply.Provisional) :
    ∃ l' acts, (inviteMachine c).step (.receiving l) (.received t.datagram t.answer) =
        some (.looping l', acts) ∧
      l'.Awaits c deadline request earlier ∧ l'.iterations = l.iterations := by
  obtain ⟨data, hdata, hu⟩ := hbrings.understood hc hplain h.proper
  have hnone : reply.status = 180 ∨ reply.status = 183 →
      acceptedEndpoint (fromUtf8Lossy data.val) = none := by
    intro hmedia
    rw [hu.endpoint, hprovisional.2 hmedia]
    rfl
  obtain ⟨l', hdispatch, hcontinues, hcount⟩ := provisional_dispatch
    (l := l.tagged (fromUtf8Lossy data.val)) hprovisional.1 hnone c t.answer
  rw [← (hu.admitted h.cseq).inviteResponse_eq] at hdispatch
  have hsame : l.Continues l' :=
    ⟨hcontinues.callId, hcontinues.localTag, hcontinues.uri, hcontinues.cseq, hcontinues.invite,
      hcontinues.deadline, hcontinues.authRetryDone⟩
  have hstep := received_step hdispatch
  have hdrawn := drawn_of_received hc h.drawn ht.hexed hstep
  rw [hdata]
  exact ⟨l', _, hstep, h.continues hsame hdrawn, hcount⟩

/-- A reply to the INVITE that was challenged is dropped. -/
theorem InviteLoop.Awaits.late {request₀ : InviteRequest} (hearlier : earlier = some request₀)
    (hbrings : t.Brings c request₀ reply) :
    ∃ acts, (inviteMachine c).step (.receiving l) (.received t.datagram t.answer) =
      some (.looping l, acts) := by
  obtain ⟨hproper, hother⟩ := h.earlier request₀ hearlier
  obtain ⟨data, hdata, hu⟩ := hbrings.understood hc hplain hproper
  rw [hdata]
  exact ⟨_, received_step (hu.dropped (h.cseq ▸ hother) c t.answer)⟩

/-- The challenge is answered, and the loop goes on in the second transaction. -/
theorem InviteLoop.Awaits.challenged {posed : Posed} (hearlier : earlier = none)
    (ht : t.InTime deadline) (hbrings : t.Brings c request reply)
    (hstatus : reply.status = 401 ∨ reply.status = 407) (hposed : reply.challenge = some posed) :
    ∃ l' acts, (inviteMachine c).step (.receiving l) (.received t.datagram t.answer) =
        some (.looping l', acts) ∧
      l'.Awaits c deadline (request.answering c reply.status posed.digest t.answer)
        (some request) ∧ l'.iterations = l.iterations := by
  obtain ⟨data, hdata, hu⟩ := hbrings.understood hc hplain h.proper
  have hfirst : l.authRetryDone = false := h.first hearlier
  have husable : usableChallenge reply.status (fromUtf8Lossy data.val) = some posed.digest := by
    rw [hu.digest, hposed]
    rfl
  obtain ⟨acts, hdispatch⟩ := challenge_dispatch (l := l.tagged (fromUtf8Lossy data.val)) (c := c)
    hstatus hfirst hu.returns husable ht.ackSent ht.inviteSent
  rw [← (hu.admitted h.cseq).inviteResponse_eq] at hdispatch
  have hstep := received_step hdispatch
  have hdrawn := drawn_of_received hc h.drawn ht.hexed hstep
  have htagged : (l.tagged (fromUtf8Lossy data.val)).Drawn c :=
    ⟨h.drawn.call.tagged _, h.drawn.invite, h.drawn.sameUri, h.drawn.first⟩
  have hproper := (retryInvite_proper hc htagged hfirst husable ht.hexed).1
  rw [h.retryInvite_eq] at hproper
  rw [hdata]
  refine ⟨_, _, hstep, ?_, rfl⟩
  exact
    { drawn := hdrawn
      proper := hproper
      callId := h.callId
      localTag := h.localTag
      uri := h.uri
      cseq := congrArg (· + 1) h.cseq
      sdp := h.sdp
      deadline := h.deadline
      first := nofun
      earlier := by
        rintro request₀ ⟨⟩
        exact ⟨h.proper, Nat.ne_of_lt (Nat.lt_succ_self request.cseq)⟩ }

/-- The reply that connects the call returns it. -/
theorem InviteLoop.Awaits.connected (hbrings : t.Brings c request reply)
    (hconnects : reply.Connects) :
    ∃ call acts, (inviteMachine c).step (.receiving l) (.received t.datagram t.answer) =
        some (.returned (.ok call), acts) ∧ call.ConnectedBy reply request := by
  obtain ⟨data, hdata, hu⟩ := hbrings.understood hc hplain h.proper
  obtain ⟨answer, hanswer⟩ := Option.isSome_iff_exists.mp hconnects.2
  have hsome : acceptedEndpoint (fromUtf8Lossy data.val) = some answer.endpoint := by
    rw [hu.endpoint, hanswer]
    rfl
  obtain ⟨call, acts, hdispatch, hcallId, hendpoint, hstate⟩ := connect_dispatch
    (l := l.tagged (fromUtf8Lossy data.val)) hconnects.1 hsome c t.answer
  rw [← (hu.admitted h.cseq).inviteResponse_eq] at hdispatch
  rw [hdata]
  refine ⟨call, _, received_step hdispatch, hcallId.trans h.callId, ?_, hstate⟩
  rw [hendpoint, hanswer]
  rfl

end Turns

/-! ## Whole conversations -/

/-- A turn is its head and its receive. -/
theorem turn_run {c : SipClient} {l l' : InviteLoop} {next : InviteState} {t : Turn}
    {acts acts' : List SipShown}
    (hhead : (inviteMachine c).step (.looping l) (.head t.head) = some (.receiving l', acts))
    (hreceived : (inviteMachine c).step (.receiving l') (.received t.datagram t.answer) =
      some (next, acts')) :
    (inviteMachine c).run (.looping l) t.events = some (next, acts ++ acts') :=
  (inviteMachine c).run_cons_of_step hhead ((inviteMachine c).run_of_step hreceived)

/-- A conversation may begin with any turn that leads back to the loop. -/
theorem returns_of_turn {c : SipClient} {final : Reply} {request : InviteRequest}
    {l l₁ l' : InviteLoop} {t : Turn} {ts : List Turn} {acts acts' : List SipShown}
    (hhead : (inviteMachine c).step (.looping l) (.head t.head) = some (.receiving l₁, acts))
    (hreceived : (inviteMachine c).step (.receiving l₁) (.received t.datagram t.answer) =
      some (.looping l', acts'))
    (hrest : ∃ call later, (inviteMachine c).run (.looping l') (ts.flatMap Turn.events) =
      some (.returned (.ok call), later) ∧ call.ConnectedBy final request) :
    ∃ call later, (inviteMachine c).run (.looping l) ((t :: ts).flatMap Turn.events) =
      some (.returned (.ok call), later) ∧ call.ConnectedBy final request := by
  obtain ⟨call, later, hrun, hcall⟩ := hrest
  refine ⟨call, acts ++ acts' ++ later, ?_, hcall⟩
  rw [List.flatMap_cons]
  exact (inviteMachine c).run_append_of_run (turn_run hhead hreceived) hrun

/-- Every conversation within the deadline and the iterations of the loop ends with the
call that it connects. -/
theorem Converses.returns {c : SipClient} (hc : c.Presentable) (hplain : c.Configured)
    {deadline : ℕ} {final : Reply} {request : InviteRequest} {earlier : Option InviteRequest}
    {ts : List Turn} (h : Converses c deadline final request earlier ts) {l : InviteLoop}
    (hl : l.Awaits c deadline request earlier)
    (hcount : l.iterations + ts.length ≤ responseLoopLimit) :
    ∃ call acts, (inviteMachine c).run (.looping l) (ts.flatMap Turn.events) =
      some (.returned (.ok call), acts) ∧ call.ConnectedBy final request := by
  induction h generalizing l with
  | silence htime hnone hrest ih =>
      rw [List.length_cons] at hcount
      obtain ⟨l₁, acts, hhead, hl₁, hiter⟩ := hl.head htime (by omega)
      exact returns_of_turn hhead (silence_step l₁ hnone) (ih hl₁ (by omega))
  | provisional reply htime hbrings hprovisional hrest ih =>
      rw [List.length_cons] at hcount
      obtain ⟨l₁, acts, hhead, hl₁, hiter⟩ := hl.head htime (by omega)
      obtain ⟨l', acts', hreceived, hl', hsame⟩ :=
        hl₁.provisional hc hplain htime hbrings hprovisional
      exact returns_of_turn hhead hreceived (ih hl' (by omega))
  | late reply htime hbrings hrest ih =>
      rw [List.length_cons] at hcount
      obtain ⟨l₁, acts, hhead, hl₁, hiter⟩ := hl.head htime (by omega)
      obtain ⟨acts', hreceived⟩ := hl₁.late hc hplain rfl hbrings
      exact returns_of_turn hhead hreceived (ih hl₁ (by omega))
  | challenged reply posed htime hbrings hstatus hposed hrest ih =>
      rw [List.length_cons] at hcount
      obtain ⟨l₁, acts, hhead, hl₁, hiter⟩ := hl.head htime (by omega)
      obtain ⟨l', acts', hreceived, hl', hsame⟩ :=
        hl₁.challenged hc hplain rfl htime hbrings hstatus hposed
      obtain ⟨call, later, hrun, hcall⟩ := ih hl' (by omega)
      exact returns_of_turn hhead hreceived
        ⟨call, later, hrun, hcall.callId, hcall.endpoint, hcall.state⟩
  | connected htime hbrings hconnects =>
      rw [List.length_singleton] at hcount
      obtain ⟨l₁, acts, hhead, hl₁, hiter⟩ := hl.head htime (by omega)
      obtain ⟨call, acts', hreceived, hcall⟩ := hl₁.connected hc hplain hbrings hconnects
      refine ⟨call, acts ++ acts', ?_, hcall⟩
      rw [List.flatMap_cons, List.flatMap_nil, List.append_nil]
      exact turn_run hhead hreceived

end SlmodemSipBridge.Sip
