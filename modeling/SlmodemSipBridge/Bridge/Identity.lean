import SlmodemSipBridge.Bridge.Dialogue
import SlmodemSipBridge.Sip.RequestUri

/-!
# The requests of a call on the wire

The identity of a call's requests, over the runs of the bridge: the ACKs and the BYE
that follow `invite` are those that `run` sends for the call it was returned, and what
the log says of a request is what stands in the text that is sent.
-/

namespace SlmodemSipBridge.Bridge

open Rust Transition Media Rtp Sip Envelope

/-! ## What a request says -/

/-- The first lines of a request, from its method to its CSeq. -/
def leadLines (c : SipClient) (request : Request) (identity : RequestIdentity) (callee : Str) :
    List Str :=
  [requestLine request.method identity.requestUri, (c.viaOf request.branch).line,
    (c.callerOf identity.fromTag).line, (⟨lit "To", callee⟩ : Field).line,
    (⟨lit "Call-ID", identity.callId⟩ : Field).line,
    (cseqField request.cseq request.method).line]

/-- The text of the request begins with its identity, its Via branch and its number. -/
def Says (c : SipClient) (request : Request) (identity : RequestIdentity) : Prop :=
  ∃ callee, joinLines (leadLines c request identity callee) <+: c.wire request

/-- A peer that reads the octets of the request finds the same in them. -/
def ReadsBack (c : SipClient) (request : Request) (identity : RequestIdentity) : Prop :=
  ∃ m callee, readDatagram (utf8Bytes (c.wire request)) = some m ∧
    Heard m request.method identity.requestUri (c.callerOf identity.fromTag).value
      identity.callId callee (c.viaOf request.branch).value request.cseq

/-- The text of a message begins with the first of its lines. -/
theorem joinLines_prefix_text {m : Message} {before : List Str} (h : before <+: m.headLines) :
    joinLines before <+: m.text := by
  obtain ⟨after, hlines⟩ := h
  rw [Message.text, ← hlines, joinLines_append]
  simp only [List.append_assoc, List.prefix_append]

/-- Every request of a call says what it is. -/
theorem says_of_identity (c : SipClient) {request : Request} {identity : RequestIdentity}
    (h : request.identity = some identity) : Says c request identity := by
  unfold Says
  rw [wire_eq_text]
  cases request with
  | register r => simp [Request.identity] at h
  | invite r =>
      obtain rfl := Option.some.inj h
      exact ⟨lit "<" ++ r.uri ++ lit ">", joinLines_prefix_text ⟨_, rfl⟩⟩
  | ack call =>
      obtain rfl := Option.some.inj h
      exact ⟨lit "<" ++ call.inviteUri ++ lit ">" ++ call.toTag,
        joinLines_prefix_text ⟨_, rfl⟩⟩
  | bye call branch =>
      obtain rfl := Option.some.inj h
      exact ⟨lit "<sip:" ++ trimStartMatches (lit "sip:") call.inviteUri ++ lit ">" ++ call.toTag,
        joinLines_prefix_text ⟨_, rfl⟩⟩

/-- A peer reads the request as it was meant. -/
theorem readsBack_of_proper {c : SipClient} (hc : c.Presentable) {request : Request}
    (hproper : request.Proper c) {identity : RequestIdentity}
    (h : request.identity = some identity) : ReadsBack c request identity := by
  have hread := readDatagram_wire hc.toLegible hproper.legible
  cases request with
  | register r => simp [Request.identity] at h
  | invite r =>
      obtain rfl := Option.some.inj h
      exact ⟨_, _, hread, invite_heard c hproper.2.2⟩
  | ack call =>
      obtain rfl := Option.some.inj h
      exact ⟨_, _, hread, ack_heard c hproper⟩
  | bye call branch =>
      obtain rfl := Option.some.inj h
      exact ⟨_, _, hread, bye_heard c hproper.1 branch⟩

/-! ## The watch over the calls -/

/-- Keeps the log of the current call, if there was one, from its dial command on.  A
request of the call keeps to the log and says what it is; without a call there are only
REGISTERs. -/
def callWatch (c : SipClient) : Monitor (Option RequestLog) BridgeShown where
  next log o :=
    match o with
    | .dialled _ => some .start
    | .sip o => log.map (·.next o)
    | _ => log
  allows log o :=
    ∀ site request, o = .sip (.sent site request) →
      match log with
      | none => request.identity = none
      | some log =>
          log.Allows (.sent site request) ∧
            ∃ identity, request.identity = some identity ∧ Says c request identity

theorem RequestLog.Allows.identity {log : RequestLog} {site : Site} {request : Request}
    (h : log.Allows (.sent site request)) : ∃ identity, request.identity = some identity := by
  cases request with
  | register r => exact h.2.elim
  | invite r => exact ⟨_, rfl⟩
  | ack call => exact ⟨_, rfl⟩
  | bye call branch => exact ⟨_, rfl⟩

/-- What the log allows says what it is. -/
theorem callWatch_allows (c : SipClient) {log : RequestLog} {o : SipShown} (h : log.Allows o) :
    (callWatch c).allows (some log) (.sip o) := by
  intro site request heq
  obtain rfl := BridgeShown.sip.inj heq
  obtain ⟨identity, hidentity⟩ := RequestLog.Allows.identity h
  exact ⟨h, identity, hidentity, says_of_identity c hidentity⟩

theorem callWatch_allows_unsent (c : SipClient) (log : Option RequestLog) {o : BridgeShown}
    (h : ∀ site request, o ≠ .sip (.sent site request)) : (callWatch c).allows log o :=
  fun site request heq => absurd heq (h site request)

/-- The watch over the calls follows the watch over one. -/
theorem callWatch_sip (c : SipClient) {log : RequestLog} {shown : List SipShown}
    (h : identityWatch.Accepts log shown) :
    (callWatch c).Accepts (some log) (shown.map .sip) ∧
      (callWatch c).after (some log) (shown.map .sip) =
        some (identityWatch.after log shown) := by
  induction shown generalizing log with
  | nil => exact ⟨trivial, rfl⟩
  | cons o shown ih =>
      obtain ⟨ho, hshown⟩ := h
      obtain ⟨haccepts, hafter⟩ := ih hshown
      exact ⟨⟨callWatch_allows c ho, haccepts⟩, hafter⟩

/-- The observation is of no request and no dial command. -/
def BridgeShown.IsQuiet : BridgeShown → Prop
  | .sip _ => False
  | .dialled _ => False
  | _ => True

theorem callWatch_quiet (c : SipClient) (log : Option RequestLog) {shown : List BridgeShown}
    (h : ∀ o ∈ shown, o.IsQuiet) :
    (callWatch c).Accepts log shown ∧ (callWatch c).after log shown = log := by
  refine (callWatch c).accepts_of_kept fun o ho => ?_
  have hquiet := h o ho
  cases o with
  | sip o => exact hquiet.elim
  | dialled tail => exact hquiet.elim
  | _ => exact ⟨callWatch_allows_unsent c log (by simp), rfl⟩

/-! ## What the bridge knows about its requests -/

/-- The phase agrees with the log of the current call. -/
def Phase.Logged : Phase → Option RequestLog → Prop
  | .registering _, log => log = none
  | .binding _ _, log => log = some .start
  | .setup _ _ invite, log => ∃ l, log = some l ∧ invite.Logged l
  | .relaying _ call _ _, log => ∃ l, log = some l ∧ CallLogged call l
  | .hangingUp call _, log => ∃ l, log = some l ∧ CallLogged call l
  | _, _ => True

section Steps

variable {config : Config} {log : Option RequestLog}

theorem Parked.logged (c : SipClient) {next : BridgeNext} (h : Parked next) :
    (callWatch c).Accepts log next.2 ∧ next.1.Logged ((callWatch c).after log next.2) := by
  have hquiet : ∀ o ∈ next.2, o.IsQuiet := by
    cases h <;> simp [BridgeShown.IsQuiet]
  refine ⟨(callWatch_quiet c log hquiet).1, ?_⟩
  cases h <;> trivial

/-- What is shown before the bridge parks. -/
theorem Parked.logged_append (c : SipClient) {next : BridgeNext} (h : Parked next)
    {shown : List BridgeShown} (hshown : (callWatch c).Accepts log shown) :
    (callWatch c).Accepts log (shown ++ next.2) ∧
      next.1.Logged ((callWatch c).after log (shown ++ next.2)) := by
  have hparked : (callWatch c).Accepts ((callWatch c).after log shown) next.2 ∧
      next.1.Logged ((callWatch c).after ((callWatch c).after log shown) next.2) := h.logged c
  rw [(callWatch c).accepts_append, (callWatch c).after_append]
  exact ⟨⟨hshown, hparked.1⟩, hparked.2⟩

theorem SetupEnd.logged (c : SipClient) {call : Call} {ackSent : Bool} {next : BridgeNext}
    (h : SetupEnd call ackSent next) {l : RequestLog} (hcall : CallLogged call l) :
    (callWatch c).Accepts (some l) next.2 ∧
      next.1.Logged ((callWatch c).after (some l) next.2) := by
  cases h with
  | noRemoteRtp hrtp => exact ⟨trivial, l, rfl, hcall⟩
  | ackUnsent remoteRtp hrtp hstate hack =>
      exact ⟨(callWatch_quiet c _ (by simp [BridgeShown.IsQuiet])).1, trivial⟩
  | acked session remoteRtp hrtp hstate hack hsession =>
      obtain ⟨hallows, hlogged⟩ := hcall.ack .answerAck (by decide)
      exact ⟨⟨callWatch_allows c hallows, trivial⟩, _, rfl, hlogged⟩
  | unanswered session remoteRtp polling hrtp hstate hpolling hsession =>
      exact ⟨trivial, l, rfl, hcall⟩

theorem relayedTo_logged {session : Session} {call : Call} (polling : Bool) (relay : Relay)
    (h : ∃ l, log = some l ∧ CallLogged call l) :
    (relayedTo session call polling relay).Logged log := by
  unfold relayedTo
  split
  · exact h
  · exact h
  · trivial
  · exact h

/-- A poll reads a response and may acknowledge it. -/
theorem polled_logged (c : SipClient) {call : Call} {resp : Str} {ackSent : Bool}
    {polled : Polled} {acks : List SipShown} {l : RequestLog} (hcall : CallLogged call l)
    (h : PollOutcome call resp ackSent (.ok (polled, acks))) :
    (callWatch c).Accepts (some l) (.sip (.read (some call) resp) :: acks.map .sip) ∧
      ∃ l', (callWatch c).after (some l) (.sip (.read (some call) resp) :: acks.map .sip) =
        some l' ∧ CallLogged polled.call l' := by
  have hheard : CallLogged polled.call (l.heard call resp) :=
    (hcall.heard call resp).continues h.continues
  have hread : identityWatch.Accepts l (.read (some call) resp :: acks) ∧
      CallLogged polled.call (identityWatch.after l (.read (some call) resp :: acks)) := by
    rcases h.silent_or_answered with ⟨-, -, rfl⟩ | ⟨-, -, hpolled, -, rfl⟩
    · exact ⟨⟨trivial, trivial⟩, hheard⟩
    · rw [← hpolled]
      cases ackSent with
      | false => exact ⟨⟨trivial, trivial, trivial⟩, hheard⟩
      | true =>
          obtain ⟨hallows, hlogged⟩ := hheard.ack .pollAck (by decide)
          exact ⟨⟨trivial, trivial, hallows, trivial⟩, hlogged⟩
  obtain ⟨haccepts, hafter⟩ := callWatch_sip c hread.1
  exact ⟨haccepts, _, hafter, hread.2⟩

/-- A step of the bridge keeps to the log of the current call. -/
theorem phaseStepped_logged {phase phase' : Phase} {e : BridgeEvent} {shown : List BridgeShown}
    (hphase : phase.Logged log) (h : PhaseStepped config phase e phase' shown) :
    (callWatch config.client).Accepts log shown ∧
      phase'.Logged ((callWatch config.client).after log shown) := by
  have hdropped : ∀ dropped : List (List UInt8), ∀ o ∈ dropped.map BridgeShown.drained,
      o.IsQuiet := by
    simp [BridgeShown.IsQuiet]
  have hmedia : ∀ media : List RelayShown, ∀ o ∈ media.map BridgeShown.media, o.IsQuiet := by
    simp [BridgeShown.IsQuiet]
  cases h with
  | registers r e next shown hshown hnext =>
      obtain rfl : log = none := hphase
      have hregister : (callWatch config.client).Accepts none (shown.map .sip) ∧
          (callWatch config.client).after none (shown.map .sip) = none := by
        refine (callWatch config.client).accepts_of_kept ?_
        rw [List.forall_mem_map]
        intro o ho
        refine ⟨?_, rfl⟩
        rintro site request heq
        obtain rfl := BridgeShown.sip.inj heq
        have hregistering := hshown _ ho
        cases request with
        | register r => rfl
        | invite r => exact hregistering.elim
        | ack call => exact hregistering.elim
        | bye call branch => exact hregistering.elim
      cases hnext with
      | running r =>
          rw [List.append_nil, hregister.2]
          exact ⟨hregister.1, rfl⟩
      | ready =>
          rw [List.append_nil]
          exact ⟨hregister.1, trivial⟩
      | parked _ hnext => exact hnext.logged_append config.client hregister.1
  | readied written next hnext => exact hnext.logged config.client
  | waits lineBuf e lineBuf' => exact ⟨trivial, trivial⟩
  | waitEnds lineBuf e next hnext => exact hnext.logged config.client
  | dials lineBuf e dial session tail hsession =>
      exact ⟨⟨callWatch_allows_unsent _ _ (by simp), trivial⟩, rfl⟩
  | binds dial session port sessionId args => exact ⟨trivial, _, hphase, rfl⟩
  | bindFails dial session port sessionId next hnext => exact hnext.logged config.client
  | invites session drain invite invite' e ackSent acts hstep hreturned hpanicked =>
      obtain ⟨l, rfl, hl⟩ := hphase
      obtain ⟨haccepts, hlogged⟩ := inviteStepped_logged hl hstep
      obtain ⟨hwatched, hafter⟩ := callWatch_sip config.client haccepts
      exact ⟨hwatched, _, hafter, hlogged⟩
  | inviteFails session drain invite invite' e ackSent acts next hstep hfail hnext =>
      obtain ⟨l, rfl, hl⟩ := hphase
      have hwatched := callWatch_sip config.client (inviteStepped_logged hl hstep).1
      exact hnext.logged_append config.client hwatched.1
  | inviteReturns session drain invite e ackSent acts call next hstep hnext =>
      obtain ⟨l, rfl, hl⟩ := hphase
      obtain ⟨haccepts, hlogged⟩ := inviteStepped_logged hl hstep
      obtain ⟨hwatched, hafter⟩ := callWatch_sip config.client haccepts
      obtain ⟨hends, hends'⟩ := hnext.logged config.client hlogged
      rw [(callWatch config.client).accepts_append, (callWatch config.client).after_append, hafter]
      exact ⟨⟨hwatched, hends⟩, hends'⟩
  | drains session drain drain' invite e dropped he hdrain =>
      obtain ⟨haccepts, hafter⟩ := callWatch_quiet config.client log (hdropped dropped)
      rw [hafter]
      exact ⟨haccepts, hphase⟩
  | drainFails session drain invite e dropped next he hnext =>
      exact hnext.logged_append config.client
        (callWatch_quiet config.client log (hdropped dropped)).1
  | relays session call polling relay relay' e media hstep =>
      rw [relayStops_of_step hstep, List.append_nil]
      obtain ⟨haccepts, hafter⟩ := callWatch_quiet config.client log (hmedia media)
      rw [hafter]
      exact ⟨haccepts, relayedTo_logged polling relay' hphase⟩
  | pollSilent session call relay ackSent => exact ⟨trivial, hphase⟩
  | polls session call relay data ackSent polling polled acks hresponse hpolling =>
      obtain ⟨l, rfl, hl⟩ := hphase
      exact polled_logged config.client hl hresponse
  | pollCrashes session call relay data ackSent why hresponse =>
      exact ⟨⟨callWatch_allows_unsent _ _ (by simp), callWatch_allows_unsent _ _ (by simp),
        trivial⟩, trivial⟩
  | byes call after branchHash =>
      obtain ⟨l, rfl, hl⟩ := hphase
      exact ⟨⟨callWatch_allows config.client (hl.bye _), trivial⟩, trivial⟩
  | byeFails call after branchHash next hnext => exact hnext.logged config.client
  | byeSilent call after next hnext => exact hnext.logged config.client
  | byeAnswered call after data next hnext =>
      have hread : (callWatch config.client).Accepts log
          [.sip (.read (some call) (fromUtf8Lossy data.val))] :=
        ⟨callWatch_allows_unsent _ _ (by simp), trivial⟩
      exact hnext.logged_append config.client hread

theorem callWatch_run {events : List BridgeEvent} {b : BridgeState} {trace : List BridgeShown}
    (hrun : (bridgeMachine config).run bridgeStart events = some (b, trace)) :
    (callWatch config.client).Accepts none trace := by
  have hstart : bridgeStart.phase.Ok ∧ bridgeStart.phase.Logged none := ⟨bridgeStart_ok, rfl⟩
  refine ((callWatch config.client).accepts_run
    (R := fun b log => b.phase.Ok ∧ b.phase.Logged log) ?_ hstart hrun).1
  rintro b log e b' shown ⟨hok, hlogged⟩ hstep
  obtain ⟨hstepped, hok'⟩ := bridgeStep_ok hok hstep
  obtain ⟨haccepts, hlogged'⟩ := phaseStepped_logged hlogged hstepped
  exact ⟨haccepts, hok', hlogged'⟩

end Steps

/-! ## Whole runs -/

/-- All requests of a call have one identity; the INVITEs are of at most two transactions,
the second of which answers the first challenge; the ACKs of `invite` are for the
transaction of what they acknowledge; and the BYE has the next number after that of the
call `invite` returned, higher than any before.  This is what the texts of the requests
say, and what a peer reads in them if no line feed breaks their lines. -/
theorem bridge_oneIdentity (config : Config) :
    (∀ args events t trace,
      (inviteMachine config.client).run (.called args) events = some (t, trace) →
        (callWatch config.client).Accepts (some .start) (trace.map .sip) ∧
          ∀ call, t = .returned (.ok call) →
            ∃ log, (callWatch config.client).after (some .start) (trace.map .sip) = some log ∧
              log.InTransaction (.ack call)) ∧
      ∀ events b trace, (bridgeMachine config).run bridgeStart events = some (b, trace) →
        (callWatch config.client).Accepts none trace ∧
          (config.client.Presentable → (∀ e ∈ events, e.Hexed) →
            ∀ site request identity, .sip (.sent site request) ∈ trace →
              request.identity = some identity → ReadsBack config.client request identity) := by
  constructor
  · intro args events t trace hrun
    obtain ⟨haccepts, hlogged⟩ := inviteRun_logged hrun
    obtain ⟨hwatched, hafter⟩ := callWatch_sip config.client haccepts
    refine ⟨hwatched, ?_⟩
    rintro call rfl
    have hcall : CallLogged call (identityWatch.after .start trace) := hlogged
    exact ⟨_, hafter, hcall.current⟩
  · intro events b trace hrun
    refine ⟨callWatch_run hrun, ?_⟩
    intro hc hevents site request identity hmem hidentity
    exact readsBack_of_proper hc (proper_of_run hc hevents hrun _ hmem) hidentity

/-- The answer to the authenticated INVITE. -/
def trunkRetryAnswer : Datagram :=
  datagramOf "SIP/2.0 200 OK\r\nTo: <sip:5@h>;tag=t\r\nCall-ID: 10-2\r\nCSeq: 2 INVITE\r\n\r\n"
    (by decide +kernel)

/-- The authenticated INVITE is answered without an endpoint, and the bridge hangs up. -/
def trunkRetriedHungUp : List BridgeEvent :=
  trunkRetried ++
    [.invite (.head (headAt 0)) true, .invite (.received (some trunkRetryAnswer) answerInputs) true,
      .bye 9 true]

theorem hexed_trunkRetriedHungUp : ∀ e ∈ trunkRetriedHungUp, e.Hexed := by
  have hnil : IsHex [] := List.forall_mem_nil _
  rw [trunkRetriedHungUp, List.forall_mem_append]
  refine ⟨hexed_trunkRetried, ?_⟩
  simp [BridgeEvent.Hexed, InviteEvent.Hexed, answerInputs, hnil]

theorem bridge_oneIdentity_retriedHungUp :
    ∃ t trace,
      (bridgeMachine trunkConfig).run bridgeStart trunkRetriedHungUp = some (t, trace) ∧
        trace.filterMap BridgeShown.site =
          [.register, .invite, .challengeAck, .authInvite, .bye] ∧
        (callWatch trunkConfig.client).Accepts none trace ∧
          ∀ site request identity, .sip (.sent site request) ∈ trace →
            request.identity = some identity →
              ReadsBack trunkConfig.client request identity := by
  have hsites : ((bridgeMachine trunkConfig).run bridgeStart trunkRetriedHungUp).map
      (fun end_ => end_.2.filterMap BridgeShown.site) =
        some [.register, .invite, .challengeAck, .authInvite, .bye] := by
    decide +kernel
  obtain ⟨⟨t, trace⟩, hrun, hlist⟩ := Option.map_eq_some_iff.mp hsites
  obtain ⟨haccepts, hreads⟩ := (bridge_oneIdentity trunkConfig).2 _ _ _ hrun
  exact ⟨t, trace, hrun, hlist, haccepts, hreads presentable_trunk hexed_trunkRetriedHungUp⟩

end SlmodemSipBridge.Bridge
