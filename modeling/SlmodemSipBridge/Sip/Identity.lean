import SlmodemSipBridge.Sip.Outcome
import SlmodemSipBridge.Sip.Poll

/-!
# The identity of a call's requests

Call-ID, From tag and Request-URI of all requests of a call, the transactions
that its INVITEs create, and the CSeq numbers that its ACKs and its BYE carry.
The watch follows a call from its first INVITE on; the runs here are those of
`invite`.
-/

namespace SlmodemSipBridge.Sip

open Rust Transition

/-! ## What a request carries -/

/-- Call-ID, From tag and Request-URI. -/
structure RequestIdentity where
  callId : Str
  fromTag : Str
  requestUri : Str
  deriving DecidableEq

/-- The identity of an INVITE. -/
def InviteRequest.identity (r : InviteRequest) : RequestIdentity :=
  ⟨r.callId, r.localTag, r.uri⟩

/-- The identity of a call's ACKs and of its BYE. -/
def Call.identity (call : Call) : RequestIdentity :=
  ⟨call.callId, call.localTag, call.inviteUri⟩

/-- The identity of a request.  A REGISTER belongs to no call. -/
def Request.identity : Request → Option RequestIdentity
  | .register _ => none
  | .invite r => some r.identity
  | .ack call => some call.identity
  | .bye call _ => some call.identity

/-- The CSeq number of a request. -/
def Request.cseq : Request → ℕ
  | .register r => r.cseq
  | .invite r => r.cseq
  | .ack call => call.cseq
  | .bye call _ => call.cseq + 1

/-- The Via branch of a request. -/
def Request.branch : Request → Str
  | .register r => r.branch
  | .invite r => r.branch
  | .ack call => call.viaBranch
  | .bye _ branch => branch

/-- A challenge that passes the CSeq filter. -/
def IsChallenge (call : Call) (resp : Str) : Prop :=
  (parseStatusCode resp = some 401 ∨ parseStatusCode resp = some 407) ∧
    isStale call.cseq resp = .ok false

instance (call : Call) (resp : Str) : Decidable (IsChallenge call resp) := by
  unfold IsChallenge
  infer_instance

/-! ## The watch -/

/-- The INVITEs created for the call, the latest first, the response read last,
the challenges so far and the highest CSeq number sent. -/
structure RequestLog where
  created : List InviteRequest
  lastRead : Option Str
  challenges : ℕ
  highest : ℕ

/-- A call without requests. -/
def RequestLog.start : RequestLog := ⟨[], none, 0, 0⟩

/-- The log after a response. -/
def RequestLog.heard (log : RequestLog) (call : Call) (resp : Str) : RequestLog :=
  { log with
    lastRead := some resp
    challenges := log.challenges + if IsChallenge call resp then 1 else 0 }

/-- The log after a request. -/
def RequestLog.add (log : RequestLog) (site : Site) (request : Request) : RequestLog :=
  { log with
    created :=
      match request with
      | .invite r => if site = .retransmit then log.created else r :: log.created
      | _ => log.created
    highest := max log.highest request.cseq }

/-- The log after an observation. -/
def RequestLog.next (log : RequestLog) : SipShown → RequestLog
  | .read (some call) resp => log.heard call resp
  | .sent site request => log.add site request
  | _ => log

/-- The request is for the call of the INVITEs so far. -/
def RequestLog.SameCall (log : RequestLog) (request : Request) : Prop :=
  ∀ r ∈ log.created, request.identity = some r.identity

/-- An INVITE may be created: the first with the number 1, the second with the
number 2 and on the first challenge. -/
def RequestLog.MayCreate (log : RequestLog) (r : InviteRequest) : Prop :=
  (log.created = [] ∧ r.cseq = 1) ∨
    (log.created.length = 1 ∧ r.cseq = 2 ∧ log.challenges = 1 ∧
      ∃ resp ∈ log.lastRead,
        parseStatusCode resp = some 401 ∨ parseStatusCode resp = some 407)

/-- The request is in the transaction of the INVITE created last. -/
def RequestLog.InTransaction (log : RequestLog) (request : Request) : Prop :=
  ∃ r ∈ log.created.head?, request.cseq = r.cseq ∧ request.branch = r.branch

/-- The request has the number after that of the INVITE created last. -/
def RequestLog.Succeeds (log : RequestLog) (request : Request) : Prop :=
  ∃ r ∈ log.created.head?, request.cseq = r.cseq + 1

/-- The response read last has the CSeq number of the request, if it has one. -/
def RequestLog.Answers (log : RequestLog) (request : Request) : Prop :=
  ∃ resp ∈ log.lastRead, ∀ n ∈ cseqNumber resp, n = request.cseq

/-- The sites at which `invite` sends an ACK. -/
def isInviteAck (site : Site) : Bool := site = .challengeAck ∨ site = .errorAck

/-- A request has the identity of its call.  An INVITE is created in its turn or
was created before; an ACK is for the transaction of the last INVITE and, in
`invite`, of the response it acknowledges; a BYE has the next number, a new one. -/
def RequestLog.Allows (log : RequestLog) : SipShown → Prop
  | .sent site request =>
      log.SameCall request ∧
        match request with
        | .register _ => False
        | .invite r => if site = .retransmit then r ∈ log.created else log.MayCreate r
        | .ack _ =>
            log.InTransaction request ∧ (isInviteAck site = true → log.Answers request)
        | .bye _ _ => log.Succeeds request ∧ log.highest < request.cseq
  | _ => True

/-- The watch over the requests of a call. -/
def identityWatch : Monitor RequestLog SipShown where
  next := RequestLog.next
  allows := RequestLog.Allows

/-! ## The call from step to step -/

/-- The same call later: it may have got a tag, an endpoint and an answer. -/
def Call.Continues (call later : Call) : Prop :=
  later =
    { call with
      remoteTag := later.remoteTag
      remoteRtp := later.remoteRtp
      state := later.state }

theorem Call.Continues.refl (call : Call) : call.Continues call := rfl

/-- A poll leaves the call the same call. -/
theorem PollOutcome.continues {call : Call} {resp : Str} {ackSent : Bool}
    {polled : Polled} {acks : List SipShown}
    (h : PollOutcome call resp ackSent (.ok (polled, acks))) :
    call.Continues polled.call := by
  rcases h.silent_or_answered with ⟨-, hcall, -⟩ | ⟨-, -, hcall, -, -⟩
  · rw [hcall]
    exact .refl call
  · rw [hcall]
    rfl

/-! ## What the loop knows about its requests -/

/-- The call is the one of the log, in its last transaction, and no request has
a higher number. -/
structure CallLogged (call : Call) (log : RequestLog) : Prop where
  same : ∀ r ∈ log.created, r.identity = call.identity
  current : log.InTransaction (.ack call)
  highest : log.highest ≤ call.cseq

/-- What the loop retransmits was created, and until the retry nothing else was. -/
structure LoopLogged (l : InviteLoop) (log : RequestLog) : Prop where
  call : CallLogged l.call log
  invite : l.invite ∈ log.created
  number : l.invite.cseq ≤ l.call.cseq
  first : l.authRetryDone = false →
    log.created.length = 1 ∧ l.call.cseq = 1 ∧ log.challenges = 0

/-- The state of `invite` agrees with the log. -/
def InviteState.Logged : InviteState → RequestLog → Prop
  | .called _, log => log = .start
  | .looping l, log => LoopLogged l log
  | .receiving l, log => LoopLogged l log
  | .returned (.ok call), log => CallLogged call log
  | _, _ => True

/-- What is logged of a call does not depend on its tag, endpoint and state. -/
theorem CallLogged.continues {call later : Call} {log : RequestLog}
    (h : CallLogged call log) (hlater : call.Continues later) : CallLogged later log := by
  have hidentity : later.identity = call.identity := by
    rw [hlater]
    rfl
  have hcseq : later.cseq = call.cseq := by rw [hlater]
  have hbranch : later.viaBranch = call.viaBranch := by rw [hlater]
  constructor
  · intro r hr
    rw [hidentity]
    exact h.same r hr
  · obtain ⟨r, hr, hnumber, hvia⟩ := h.current
    exact ⟨r, hr, hcseq.trans hnumber, hbranch.trans hvia⟩
  · rw [hcseq]
    exact h.highest

theorem CallLogged.heard {call : Call} {log : RequestLog} (h : CallLogged call log)
    (reader : Call) (resp : Str) : CallLogged call (log.heard reader resp) :=
  ⟨h.same, h.current, h.highest⟩

theorem CallLogged.sameCall {call : Call} {log : RequestLog} (h : CallLogged call log)
    {request : Request} (hrequest : request.identity = some call.identity) :
    log.SameCall request := by
  intro r hr
  rw [h.same r hr]
  exact hrequest

/-- The loop agrees with the log whatever its timers and its tag are. -/
theorem LoopLogged.congr {l l' : InviteLoop} {log : RequestLog} (h : LoopLogged l log)
    (hcall : l.call.Continues l'.call) (hinvite : l'.invite = l.invite)
    (hdone : l'.authRetryDone = l.authRetryDone) : LoopLogged l' log := by
  have hcseq : l'.call.cseq = l.call.cseq := by rw [hcall]
  constructor
  · exact h.call.continues hcall
  · rw [hinvite]
    exact h.invite
  · rw [hinvite, hcseq]
    exact h.number
  · intro hfirst
    rw [hcseq]
    exact h.first (hdone ▸ hfirst)

/-- A response that is no challenge of the call leaves the loop in agreement. -/
theorem LoopLogged.heard {l : InviteLoop} {log : RequestLog} (h : LoopLogged l log)
    {resp : Str} (hresp : ¬ IsChallenge l.call resp) :
    LoopLogged l (log.heard l.call resp) := by
  constructor
  · exact h.call.heard l.call resp
  · exact h.invite
  · exact h.number
  · intro hfirst
    obtain ⟨hlength, hcseq, hchallenges⟩ := h.first hfirst
    refine ⟨hlength, hcseq, ?_⟩
    simp [RequestLog.heard, hresp, hchallenges]

theorem tagged_continues (call : Call) (resp : Str) : call.Continues (call.tagged resp) :=
  rfl

/-- The ACK that answers an admitted response is for its transaction. -/
theorem ack_allowed {l : InviteLoop} {log : RequestLog} (hl : LoopLogged l log)
    {resp : Str} {status : ℕ} (hadmitted : Admitted l resp status) (site : Site) :
    (log.heard l.call resp).Allows (.sent site (.ack (l.call.tagged resp))) := by
  have hlogged := (hl.call.heard l.call resp).continues (tagged_continues l.call resp)
  refine ⟨hlogged.sameCall rfl, hlogged.current, ?_⟩
  intro _
  refine ⟨resp, rfl, ?_⟩
  intro n hn
  by_contra hne
  have hstale := (isStale_eq_ok hadmitted.fresh).mpr ⟨n, hn, hne⟩
  simp at hstale

theorem isChallenge_iff {l : InviteLoop} {resp : Str} {status : ℕ}
    (h : Admitted l resp status) :
    IsChallenge l.call resp ↔ status = 401 ∨ status = 407 := by
  simp [IsChallenge, h.status_eq, h.fresh]

theorem inviteStart_logged {client : SipClient} {args : InviteArgs} {ids : InviteStart}
    {next : InviteState} {shown : List SipShown}
    (hout : StartOutcome client args ids (next, shown)) :
    identityWatch.Accepts .start shown ∧ next.Logged (identityWatch.after .start shown) := by
  have haccepts : identityWatch.Accepts .start
      [.sent .invite (.invite (firstInvite client args ids))] := by
    refine ⟨⟨?_, Or.inl ⟨rfl, rfl⟩⟩, trivial⟩
    intro r hr
    simp [RequestLog.start] at hr
  cases hout with
  | undialable why hdial => exact ⟨trivial, trivial⟩
  | unsent hsent => exact ⟨trivial, trivial⟩
  | overflowed _ _ => exact ⟨haccepts, trivial⟩
  | sent hsent _ =>
      constructor
      · exact haccepts
      · refine ⟨⟨?_, ⟨_, rfl, rfl, rfl⟩, ?_⟩, ?_, ?_, ?_⟩
        · intro r hr
          obtain rfl := List.mem_singleton.mp hr
          rfl
        · exact Nat.le_refl 1
        · exact List.mem_singleton.mpr rfl
        · exact Nat.le_refl 1
        · intro _
          exact ⟨rfl, rfl, rfl⟩

theorem inviteHead_logged {l : InviteLoop} {log : RequestLog} (hl : LoopLogged l log)
    {inputs : HeadInputs} {next : InviteState} {shown : List SipShown}
    (hout : HeadOutcome l inputs (next, shown)) :
    identityWatch.Accepts log shown ∧ next.Logged (identityWatch.after log shown) := by
  cases hout with
  | exceeded why _ => exact ⟨trivial, trivial⟩
  | timedOut _ => exact ⟨trivial, trivial⟩
  | unsent _ _ => exact ⟨trivial, trivial⟩
  | quiet _ => exact ⟨trivial, hl.congr rfl rfl rfl⟩
  | retransmitted _ _ =>
      have hidentity := hl.call.same l.invite hl.invite
      constructor
      · refine ⟨⟨?_, hl.invite⟩, trivial⟩
        intro r hr
        rw [hl.call.same r hr, ← hidentity]
        rfl
      · refine ⟨⟨hl.call.same, hl.call.current, ?_⟩, hl.invite, hl.number, hl.first⟩
        exact Nat.max_le.mpr ⟨hl.call.highest, hl.number⟩

/-- The answer to the first challenge: the ACK in the old transaction, and the
INVITE that creates the new one. -/
theorem retried_logged (client : SipClient) {l : InviteLoop} {log : RequestLog}
    (hl : LoopLogged l log) {resp : Str} {status : ℕ} (inputs : AnswerInputs)
    (digest : DigestChallenge) (hadmitted : Admitted l resp status)
    (hauth : status = 401 ∨ status = 407) (hfirst : l.authRetryDone = false) :
    identityWatch.Accepts (log.heard l.call resp)
        [.sent .challengeAck (.ack (l.call.tagged resp)),
          .sent .authInvite
            (.invite (retryInvite client (l.tagged resp) status digest inputs))] ∧
      LoopLogged ((l.tagged resp).afterRetry inputs)
        (identityWatch.after (log.heard l.call resp)
          [.sent .challengeAck (.ack (l.call.tagged resp)),
            .sent .authInvite
              (.invite (retryInvite client (l.tagged resp) status digest inputs))]) := by
  obtain ⟨hlength, hcseq, hchallenges⟩ := hl.first hfirst
  have hidentity : (retryInvite client (l.tagged resp) status digest inputs).identity =
      l.call.identity := rfl
  have hnumber : (retryInvite client (l.tagged resp) status digest inputs).cseq = 2 :=
    congrArg (· + 1) hcseq
  have hchallenge : IsChallenge l.call resp := (isChallenge_iff hadmitted).mpr hauth
  constructor
  · refine ⟨ack_allowed hl hadmitted _,
      ⟨?_, Or.inr ⟨hlength, hnumber, ?_, resp, rfl, ?_⟩⟩, trivial⟩
    · intro r hr
      rw [hl.call.same r hr, ← hidentity]
      rfl
    · simp [identityWatch, RequestLog.next, RequestLog.add, RequestLog.heard, hchallenge,
        hchallenges]
    · exact hchallenge.1
  · refine ⟨⟨?_, ⟨_, rfl, rfl, rfl⟩, ?_⟩, ?_, ?_, ?_⟩
    · intro r hr
      rcases List.mem_cons.mp hr with rfl | hr
      · rfl
      · exact hl.call.same r hr
    · have hhighest := hl.call.highest
      change max (max log.highest l.call.cseq) (l.call.cseq + 1) ≤ l.call.cseq + 1
      omega
    · exact List.mem_cons_of_mem _ hl.invite
    · exact Nat.le_trans hl.number (Nat.le_succ l.call.cseq)
    · intro hdone
      simp [InviteLoop.afterRetry, InviteLoop.restarted] at hdone

theorem dispatch_logged {client : SipClient} {l : InviteLoop} {log : RequestLog}
    (hl : LoopLogged l log) {resp : Str} {status : ℕ} {inputs : AnswerInputs}
    (hadmitted : Admitted l resp status) {next : InviteState} {shown : List SipShown}
    (hout : DispatchOutcome client (l.tagged resp) status resp inputs
      (.ok (next, shown))) :
    identityWatch.Accepts (log.heard l.call resp) shown ∧
      next.Logged (identityWatch.after (log.heard l.call resp) shown) := by
  have hheard : status ≠ 401 ∧ status ≠ 407 →
      LoopLogged (l.tagged resp) (log.heard l.call resp) := by
    intro hother
    refine (hl.heard ?_).congr (tagged_continues l.call resp) rfl rfl
    rw [isChallenge_iff hadmitted]
    omega
  have hcall : CallLogged (l.call.tagged resp) (log.heard l.call resp) :=
    (hl.call.heard l.call resp).continues (tagged_continues l.call resp)
  have hack := ack_allowed hl hadmitted
  cases hout with
  | trying hstatus => exact ⟨trivial, (hheard (by omega)).congr rfl rfl rfl⟩
  | ringing hstatus _ => exact ⟨trivial, (hheard (by omega)).congr rfl rfl rfl⟩
  | earlyMedia _ _ _ => exact ⟨trivial, hcall.continues rfl⟩
  | answered _ => exact ⟨⟨trivial, trivial⟩, hcall.continues rfl⟩
  | rejected _ _ _ => exact ⟨⟨hack _, trivial⟩, trivial⟩
  | rejectedUnsent _ _ _ => exact ⟨trivial, trivial⟩
  | unexpected hstatus => exact ⟨trivial, hheard (by omega)⟩
  | challenged _ hauth hchallenge =>
      cases hchallenge with
      | again _ => exact ⟨trivial, trivial⟩
      | unusable _ _ _ _ => exact ⟨trivial, trivial⟩
      | ackUnsent _ _ _ _ _ => exact ⟨trivial, trivial⟩
      | retryUnsent _ _ _ _ _ _ => exact ⟨⟨hack _, trivial⟩, trivial⟩
      | retried digest hfirst _ _ _ _ =>
          exact retried_logged client hl inputs digest hadmitted hauth hfirst

theorem response_logged {client : SipClient} {l : InviteLoop} {log : RequestLog}
    (hl : LoopLogged l log) {resp : Str} {inputs : AnswerInputs} {next : InviteState}
    {shown : List SipShown}
    (hout : ResponseOutcome client l resp inputs (.ok (next, shown))) :
    identityWatch.Accepts (log.heard l.call resp) shown ∧
      next.Logged (identityWatch.after (log.heard l.call resp) shown) := by
  cases hout with
  | unparsed hstatus =>
      refine ⟨trivial, hl.heard ?_⟩
      simp [IsChallenge, hstatus]
  | stale _ _ hstale =>
      refine ⟨trivial, hl.heard ?_⟩
      simp [IsChallenge, hstale]
  | admitted status _ hadmitted hdispatch => exact dispatch_logged hl hadmitted hdispatch

/-- A step of `invite` keeps to the log. -/
theorem inviteStepped_logged {client : SipClient} {s s' : InviteState} {log : RequestLog}
    {e : InviteEvent} {shown : List SipShown} (hs : s.Logged log)
    (h : InviteStepped client s e s' shown) :
    identityWatch.Accepts log shown ∧ s'.Logged (identityWatch.after log shown) := by
  cases h with
  | start args ids =>
      have hstart : log = .start := hs
      subst hstart
      exact inviteStart_logged (inviteStart_outcome client args ids)
  | head l inputs => exact inviteHead_logged hs (inviteHead_outcome l inputs)
  | silent l inputs => exact ⟨trivial, hs⟩
  | response l data inputs next shown hresponse =>
      obtain ⟨haccepts, hnext⟩ := response_logged hs hresponse
      exact ⟨⟨trivial, haccepts⟩, hnext⟩
  | crash l data inputs why hresponse => exact ⟨⟨trivial, trivial⟩, trivial⟩

/-- A request outside of `invite` for the call that is set up. -/
theorem CallLogged.ack {call : Call} {log : RequestLog} (h : CallLogged call log) (site : Site)
    (hsite : isInviteAck site = false) :
    log.Allows (.sent site (.ack call)) ∧ CallLogged call (log.add site (.ack call)) := by
  constructor
  · refine ⟨h.sameCall rfl, h.current, ?_⟩
    intro hinvite
    simp [hsite] at hinvite
  · exact ⟨h.same, h.current, Nat.max_le.mpr ⟨h.highest, Nat.le_refl call.cseq⟩⟩

theorem CallLogged.bye {call : Call} {log : RequestLog} (h : CallLogged call log)
    (branch : Str) : log.Allows (.sent .bye (.bye call branch)) := by
  obtain ⟨r, hr, hcseq, -⟩ := h.current
  exact ⟨h.sameCall rfl, ⟨r, hr, congrArg (· + 1) hcseq⟩, Nat.lt_succ_of_le h.highest⟩

/-- In a run of `invite` the requests keep to the log, and the call that is returned is in
the transaction of the last INVITE. -/
theorem inviteRun_logged {client : SipClient} {args : InviteArgs} {events : List InviteEvent}
    {t : InviteState} {trace : List SipShown}
    (hrun : (inviteMachine client).run (.called args) events = some (t, trace)) :
    identityWatch.Accepts .start trace ∧ t.Logged (identityWatch.after .start trace) := by
  have hstart : InviteState.Logged (.called args) .start := rfl
  exact identityWatch.accepts_run
    (fun _ _ _ _ _ hs hstep => inviteStepped_logged hs (inviteStepped_of_step hstep)) hstart hrun

end SlmodemSipBridge.Sip
