import SlmodemSipBridge.Bridge.UserAgent
import SlmodemSipBridge.Sip.Transaction

/-!
# Where tags and endpoints come from

The bridge makes up neither a tag of its peer nor an endpoint.  Each one that it uses
stands in a response that it has read since the call was dialled, and an endpoint in
one that sets a call up.
-/

namespace SlmodemSipBridge.Bridge

open Rust Transition Media Rtp Sip

/-! ## The sources -/

/-- The tag, if there is one, stands in one of the responses. -/
def TagFrom (read : List Str) (tag : Option Str) : Prop :=
  ∀ t ∈ tag, ∃ resp ∈ read, toTagOf resp = some t

/-- The endpoint is that of a provisional or successful response. -/
def EndpointFrom (read : List Str) (endpoint : SocketAddr) : Prop :=
  ∃ resp ∈ read, ∃ status ∈ [180, 183, 200], parseStatusCode resp = some status ∧
    acceptedEndpoint resp = some endpoint

/-- Keeps the responses that were read since the last call was dialled.  The tag of a
request and the endpoint of a packet stand in them. -/
def provenance : Monitor (List Str) BridgeShown where
  next read o :=
    match o with
    | .sip (.read _ resp) => resp :: read
    | .dialled _ => []
    | _ => read
  allows read o :=
    match o with
    | .sip (.sent _ request) => TagFrom read request.remoteTag
    | .media (.packet _ endpoint) => EndpointFrom read endpoint
    | _ => True

theorem TagFrom.mono {read read' : List Str} {tag : Option Str} (h : TagFrom read tag)
    (hsub : read ⊆ read') : TagFrom read' tag := by
  intro t ht
  obtain ⟨resp, hresp, htag⟩ := h t ht
  exact ⟨resp, hsub hresp, htag⟩

@[simp] theorem tagFrom_none (read : List Str) : TagFrom read none := by
  intro t ht
  contradiction

/-- A tag that is remembered stands in the response. -/
theorem TagFrom.tagged {read : List Str} {call : Call} (h : TagFrom read call.remoteTag)
    (resp : Str) : TagFrom (resp :: read) (call.tagged resp).remoteTag := by
  intro t ht
  cases hremote : call.remoteTag with
  | none =>
      rw [Option.mem_def, Call.tagged, hremote, Option.none_or] at ht
      exact ⟨resp, List.mem_cons_self, ht⟩
  | some t' =>
      rw [Option.mem_def, Call.tagged, hremote, Option.some_or] at ht
      exact (h.mono (List.subset_cons_self resp read)) t (hremote.trans ht)

/-! ## What the bridge holds -/

/-- What `invite` holds stands in the responses. -/
def InviteSourced (read : List Str) : InviteState → Prop
  | .looping l => TagFrom read l.call.remoteTag ∧ l.call.remoteRtp = none
  | .receiving l => TagFrom read l.call.remoteTag ∧ l.call.remoteRtp = none
  | .returned (.ok call) =>
      TagFrom read call.remoteTag ∧ ∀ endpoint ∈ call.remoteRtp, EndpointFrom read endpoint
  | _ => True

/-- What the bridge holds stands in the responses. -/
def Phase.Sourced (read : List Str) : Phase → Prop
  | .setup _ _ invite => InviteSourced read invite
  | .relaying _ call _ relay => TagFrom read call.remoteTag ∧
      ∀ loops, relay = .running loops → EndpointFrom read loops.remoteRtp
  | .hangingUp call _ => TagFrom read call.remoteTag
  | .byeSent call _ => TagFrom read call.remoteTag
  | _ => True

/-- The observations are accepted, and what the bridge holds then has its sources. -/
def Sources (read : List Str) (phase : Phase) (shown : List BridgeShown) : Prop :=
  provenance.Accepts read shown ∧ phase.Sourced (provenance.after read shown)

theorem Sources.after {read : List Str} {phase : Phase} {shown later : List BridgeShown}
    (hshown : provenance.Accepts read shown)
    (hlater : Sources (provenance.after read shown) phase later) :
    Sources read phase (shown ++ later) := by
  constructor
  · exact (provenance.accepts_append read shown later).mpr ⟨hshown, hlater.1⟩
  · rw [provenance.after_append]
    exact hlater.2

theorem Parked.sources {next : BridgeNext} (h : Parked next) (read : List Str) :
    Sources read next.1 next.2 := by
  cases h <;> exact ⟨⟨trivial, trivial⟩, trivial⟩

/-! ## `invite` -/

theorem challenge_sources {client : SipClient} {l : InviteLoop} {status : ℕ} {resp : Str}
    {inputs : AnswerInputs} {next : InviteState} {acts : List SipShown} {read : List Str}
    (hl : TagFrom read l.call.remoteTag) (hrtp : l.call.remoteRtp = none)
    (h : ChallengeOutcome client l status resp inputs (.ok (next, acts))) :
    provenance.Accepts read (acts.map .sip) ∧
      InviteSourced (provenance.after read (acts.map .sip)) next := by
  cases h with
  | again hdone => exact ⟨trivial, trivial⟩
  | unusable error hfirst hread hnone => exact ⟨trivial, trivial⟩
  | ackUnsent digest hfirst hread husable hack => exact ⟨trivial, trivial⟩
  | retryUnsent digest hfirst hread husable hack hinvite => exact ⟨⟨hl, trivial⟩, trivial⟩
  | retried digest hfirst hread husable hack hinvite =>
      exact ⟨⟨hl, tagFrom_none read, trivial⟩, hl, hrtp⟩

theorem response_sources {client : SipClient} {l : InviteLoop} {resp : Str}
    {inputs : AnswerInputs} {next : InviteState} {acts : List SipShown} {read : List Str}
    (hl : TagFrom read l.call.remoteTag) (hrtp : l.call.remoteRtp = none)
    (h : ResponseOutcome client l resp inputs (.ok (next, acts))) :
    provenance.Accepts (resp :: read) (acts.map .sip) ∧
      InviteSourced (provenance.after (resp :: read) (acts.map .sip)) next := by
  have hkept : TagFrom (resp :: read) l.call.remoteTag :=
    hl.mono (List.subset_cons_self resp read)
  have htagged : TagFrom (resp :: read) (l.call.tagged resp).remoteTag := hl.tagged resp
  have hnew : ∀ {endpoint status}, status ∈ [180, 183, 200] →
      parseStatusCode resp = some status → acceptedEndpoint resp = some endpoint →
        EndpointFrom (resp :: read) endpoint :=
    fun hmem hstatus hsome => ⟨resp, List.mem_cons_self, _, hmem, hstatus, hsome⟩
  cases h with
  | unparsed hstatus => exact ⟨trivial, hkept, hrtp⟩
  | stale status hstatus hstale => exact ⟨trivial, hkept, hrtp⟩
  | admitted status _ hadmitted hdispatch =>
      cases hdispatch with
      | trying hstatus => exact ⟨trivial, htagged, hrtp⟩
      | ringing hstatus hnone => exact ⟨trivial, htagged, hrtp⟩
      | earlyMedia rtpAddr hstatus hsome =>
          refine ⟨trivial, htagged, ?_⟩
          rintro endpoint ⟨⟩
          have hmem : status ∈ [180, 183, 200] := by
            rcases hstatus with rfl | rfl <;> simp
          exact hnew hmem hadmitted.status_eq hsome
      | answered hstatus =>
          refine ⟨⟨trivial, trivial⟩, htagged, ?_⟩
          intro endpoint hendpoint
          have hsome : acceptedEndpoint resp = some endpoint := by
            simpa [Call.answeredBy, InviteLoop.tagged, Call.tagged, hrtp] using hendpoint
          have hmem : status ∈ [180, 183, 200] := by simp [hstatus]
          exact hnew hmem hadmitted.status_eq hsome
      | challenged _ hstatus hchallenge =>
          exact challenge_sources (l := l.tagged resp) htagged hrtp hchallenge
      | rejected hstatus hother hack => exact ⟨⟨htagged, trivial⟩, trivial⟩
      | rejectedUnsent hstatus hother hack => exact ⟨trivial, trivial⟩
      | unexpected hstatus => exact ⟨trivial, htagged, hrtp⟩

theorem invite_sources {client : SipClient} {s s' : InviteState} {e : InviteEvent}
    {acts : List SipShown} {read : List Str} (hs : InviteSourced read s)
    (h : InviteStepped client s e s' acts) :
    provenance.Accepts read (acts.map .sip) ∧
      InviteSourced (provenance.after read (acts.map .sip)) s' := by
  cases h with
  | start args ids =>
      have hout := inviteStart_outcome client args ids
      generalize inviteStart client args ids = out at hout ⊢
      cases hout with
      | undialable why hdial => exact ⟨trivial, trivial⟩
      | unsent hsent => exact ⟨trivial, trivial⟩
      | overflowed _ _ => exact ⟨⟨tagFrom_none read, trivial⟩, trivial⟩
      | sent hsent _ => exact ⟨⟨tagFrom_none read, trivial⟩, tagFrom_none read, rfl⟩
  | head l inputs =>
      have hout := inviteHead_outcome l inputs
      generalize inviteHead l inputs = out at hout ⊢
      cases hout with
      | exceeded why hlimit => exact ⟨trivial, trivial⟩
      | timedOut hlate => exact ⟨trivial, trivial⟩
      | retransmitted hdue hsent => exact ⟨⟨tagFrom_none read, trivial⟩, hs⟩
      | unsent hdue hsent => exact ⟨trivial, trivial⟩
      | quiet hidle => exact ⟨trivial, hs⟩
  | silent l inputs => exact ⟨trivial, hs⟩
  | response l data inputs next shown hresponse =>
      obtain ⟨haccepts, hnext⟩ := response_sources hs.1 hs.2 hresponse
      exact ⟨⟨trivial, haccepts⟩, hnext⟩
  | crash l data inputs why hresponse => exact ⟨⟨trivial, trivial⟩, trivial⟩

/-! ## The call -/

theorem SetupEnd.sources {call : Call} {ackSent : Bool} {next : BridgeNext} {read : List Str}
    (hcall : InviteSourced read (.returned (.ok call))) (h : SetupEnd call ackSent next) :
    Sources read next.1 next.2 := by
  obtain ⟨htag, hendpoint⟩ := hcall
  have hrelay : ∀ {remoteRtp}, call.remoteRtp = some remoteRtp →
      ∀ loops, relayStart (createRtpSender rtpSsrc) remoteRtp = .running loops →
        EndpointFrom read loops.remoteRtp := by
    intro remoteRtp hrtp loops hloops
    obtain rfl := Relay.running.inj hloops
    exact hendpoint remoteRtp hrtp
  cases h with
  | noRemoteRtp hrtp => exact ⟨trivial, htag⟩
  | ackUnsent remoteRtp hrtp hstate hack => exact ⟨⟨trivial, trivial⟩, trivial⟩
  | acked session remoteRtp hrtp hstate hack hsession =>
      exact ⟨⟨htag, trivial⟩, htag, hrelay hrtp⟩
  | unanswered session remoteRtp polling hrtp hstate hpolling hsession =>
      exact ⟨trivial, htag, hrelay hrtp⟩

/-- A relay sends to its endpoint, and keeps it. -/
theorem relay_sources {session : Session} {call : Call} {polling : Bool} {loops : Loops}
    {relay' : Relay} {e : RelayEvent} {media : List RelayShown} {read : List Str}
    (htag : TagFrom read call.remoteTag) (hendpoint : EndpointFrom read loops.remoteRtp)
    (hstep : relayStep (.running loops) e = some (relay', media)) :
    Sources read (relayedTo session call polling relay') (media.map .media) := by
  have hsent : ∀ o ∈ media.map BridgeShown.media,
      provenance.allows read o ∧ provenance.next read o = read := by
    rw [List.forall_mem_map]
    intro o ho
    cases o with
    | packet packet endpoint =>
        obtain rfl := packet_mem_relayStep hstep ho
        exact ⟨hendpoint, rfl⟩
    | taken bytes => exact ⟨trivial, rfl⟩
    | written slin => exact ⟨trivial, rfl⟩
  obtain ⟨haccepts, hafter⟩ := provenance.accepts_of_kept hsent
  refine ⟨haccepts, ?_⟩
  rw [hafter]
  cases relay' with
  | running loops' =>
      refine ⟨htag, ?_⟩
      rintro _ ⟨⟩
      rwa [relayStep_remoteRtp hstep]
  | returned result => cases result <;> exact htag
  | panicked why => exact absurd rfl (relayStep_ne_panicked hstep why)

theorem polls_sources {session : Session} {call : Call} {relay : Relay} {resp : Str}
    {ackSent polling : Bool} {polled : Polled} {acks : List SipShown} {read : List Str}
    (hsourced : (Phase.relaying session call true relay).Sourced read)
    (hresponse : PollOutcome call resp ackSent (.ok (polled, acks))) :
    Sources read (.relaying session polled.call polling relay)
      (.sip (.read (some call) resp) :: acks.map .sip) := by
  obtain ⟨htag, hendpoint⟩ := hsourced
  have hsub : read ⊆ resp :: read := List.subset_cons_self resp read
  have hrelay : ∀ loops, relay = .running loops → EndpointFrom (resp :: read) loops.remoteRtp := by
    intro loops hloops
    obtain ⟨resp', hmem, hfound⟩ := hendpoint loops hloops
    exact ⟨resp', hsub hmem, hfound⟩
  rcases hresponse.silent_or_answered with ⟨-, hsame, rfl⟩ | ⟨-, -, hanswered, -, rfl⟩
  · rw [hsame]
    exact ⟨⟨trivial, trivial⟩, htag.mono hsub, hrelay⟩
  · have hpolled : TagFrom (resp :: read) (call.polledBy resp).remoteTag := htag.tagged resp
    rw [hanswered]
    cases ackSent with
    | true => exact ⟨⟨trivial, trivial, hpolled, trivial⟩, hpolled, hrelay⟩
    | false => exact ⟨⟨trivial, trivial, trivial⟩, hpolled, hrelay⟩

/-! ## Every step -/

/-- What neither asks for a source nor reads one is accepted. -/
theorem plain_accepted {shown : List BridgeShown}
    (h : ∀ o ∈ shown, ∀ read, provenance.allows read o) (read : List Str) :
    provenance.Accepts read shown :=
  provenance.accepts_of_allows fun before o after heq =>
    h o (by simp [heq]) (provenance.after read before)

theorem registers_accepted {shown : List SipShown} (h : ∀ o ∈ shown, IsRegistering o)
    (read : List Str) : provenance.Accepts read (shown.map .sip) := by
  refine plain_accepted ?_ read
  rw [List.forall_mem_map]
  intro o ho read'
  have hregistering := h o ho
  cases o with
  | read call resp => trivial
  | answered call resp => trivial
  | sent site request =>
      cases request with
      | register r => exact tagFrom_none read'
      | invite r => exact hregistering.elim
      | ack call => exact hregistering.elim
      | bye call branch => exact hregistering.elim

theorem phase_sources {config : Config} {phase phase' : Phase} {e : BridgeEvent}
    {shown : List BridgeShown} {read : List Str} (hok : phase.Ok) (hphase : phase.Sourced read)
    (h : PhaseStepped config phase e phase' shown) : Sources read phase' shown := by
  cases h with
  | registers r e next shown hshown hnext =>
      refine Sources.after (registers_accepted hshown read) ?_
      cases hnext with
      | running r => exact ⟨trivial, trivial⟩
      | ready => exact ⟨trivial, trivial⟩
      | parked _ hnext => exact hnext.sources _
  | readied written next hnext => exact hnext.sources read
  | waits lineBuf e lineBuf' => exact ⟨trivial, trivial⟩
  | waitEnds lineBuf e next hnext => exact hnext.sources read
  | dials lineBuf e dial session tail hsession => exact ⟨⟨trivial, trivial⟩, trivial⟩
  | binds dial session port sessionId args => exact ⟨trivial, trivial⟩
  | bindFails dial session port sessionId next hnext => exact hnext.sources read
  | invites session drain invite invite' e ackSent shown hstep hreturned hpanicked =>
      exact invite_sources hphase hstep
  | inviteFails session drain invite invite' e ackSent shown next hstep hfail hnext =>
      exact Sources.after (invite_sources hphase hstep).1 (hnext.sources _)
  | inviteReturns session drain invite e ackSent shown call next hstep hnext =>
      obtain ⟨haccepts, hcall⟩ := invite_sources hphase hstep
      exact Sources.after haccepts (hnext.sources hcall)
  | drains session drain drain' invite e dropped he hdrain =>
      have hkept : ∀ o ∈ dropped.map BridgeShown.drained,
          provenance.allows read o ∧ provenance.next read o = read :=
        List.forall_mem_map.mpr fun _ _ => ⟨trivial, rfl⟩
      obtain ⟨haccepts, hafter⟩ := provenance.accepts_of_kept hkept
      refine ⟨haccepts, ?_⟩
      rw [hafter]
      exact hphase
  | drainFails session drain invite e dropped next he hnext =>
      have hdropped : ∀ o ∈ dropped.map BridgeShown.drained, ∀ read, provenance.allows read o :=
        List.forall_mem_map.mpr fun _ _ _ => trivial
      exact Sources.after (plain_accepted hdropped read) (hnext.sources _)
  | relays session call polling relay relay' e media hstep =>
      obtain ⟨loops, rfl⟩ := hok.2.1
      rw [relayStops_of_step hstep, List.append_nil]
      exact relay_sources hphase.1 (hphase.2 loops rfl) hstep
  | pollSilent session call relay ackSent => exact ⟨trivial, hphase⟩
  | polls session call relay data ackSent polling polled acks hresponse hpolling =>
      exact polls_sources hphase hresponse
  | pollCrashes session call relay data ackSent why hresponse =>
      exact ⟨⟨trivial, trivial, trivial⟩, trivial⟩
  | byes call after branchHash => exact ⟨⟨hphase, trivial⟩, hphase⟩
  | byeFails call after branchHash next hnext => exact hnext.sources read
  | byeSilent call after next hnext => exact hnext.sources read
  | byeAnswered call after data next hnext =>
      obtain ⟨haccepts, hnext'⟩ := hnext.sources (fromUtf8Lossy data.val :: read)
      exact ⟨⟨trivial, haccepts⟩, hnext'⟩

/-- A run shows what has its sources, and holds no other. -/
theorem sources_run {config : Config} {events : List BridgeEvent} {b : BridgeState}
    {trace : List BridgeShown}
    (hrun : (bridgeMachine config).run bridgeStart events = some (b, trace)) :
    Sources [] b.phase trace := by
  refine And.imp_right And.right (provenance.accepts_run
    (R := fun b read => b.phase.Ok ∧ b.phase.Sourced read) ?_ ⟨bridgeStart_ok, trivial⟩ hrun)
  rintro b read e b' shown ⟨hok, hsourced⟩ hstep
  obtain ⟨hstepped, hok'⟩ := bridgeStep_ok hok hstep
  obtain ⟨haccepts, hsourced'⟩ := phase_sources hok hsourced hstepped
  exact ⟨haccepts, hok', hsourced'⟩

/-- In every run, the tag of an ACK or a BYE and the endpoint of a media packet stand in
responses that were read since the call was dialled; the endpoint in a 180, a 183 or a
200. -/
theorem bridge_sourced {config : Config} {events : List BridgeEvent} {b : BridgeState}
    {trace : List BridgeShown}
    (hrun : (bridgeMachine config).run bridgeStart events = some (b, trace)) :
    provenance.Accepts [] trace :=
  (sources_run hrun).1

theorem bridge_sourced_hungUp :
    ∃ t trace,
      (bridgeMachine trunkConfig).run bridgeStart trunkWholeCall = some (t, trace) ∧
        trace.filterMap BridgeShown.site = [.register, .invite, .answerAck, .bye] ∧
        provenance.Accepts [] trace := by
  obtain ⟨t, trace, hrun, hsites⟩ := run_trunkWholeCall
  exact ⟨t, trace, hrun, hsites, bridge_sourced hrun⟩

end SlmodemSipBridge.Bridge
