import SlmodemSipBridge.Bridge.Authorization
import SlmodemSipBridge.Bridge.Panics
import SlmodemSipBridge.Bridge.Provenance

/-!
# The bridge among servers

The closed system.  Servers hear the octets of the requests, and every datagram that
the bridge receives is a sound reply of one of them to a request that it has heard,
however late, out of order or often.  Then every response is understood as it was
meant, and what the bridge does with a call rests on what the servers said.
-/

namespace SlmodemSipBridge.Bridge

open Rust Transition Media Rtp Sip Envelope

/-! ## Servers -/

/-- The datagram that an event brings. -/
def BridgeEvent.datagram : BridgeEvent → Option Datagram
  | .register (.first datagram _) => datagram
  | .register (.received datagram) => datagram
  | .invite (.received datagram _) _ => datagram
  | .poll datagram _ => datagram
  | .byeResponse datagram => datagram
  | _ => none

/-- The datagram is a sound reply to one of the messages. -/
def Replies (heard : List Message) (data : Datagram) : Prop :=
  ∃ m ∈ heard, ∃ r : Reply, r.Sound ∧ data.val = utf8Bytes (r.message m).text

/-- A datagram comes from a server that has heard what it replies to. -/
def Served (s : BridgeState × List Message) (e : BridgeEvent) : Prop :=
  ∀ data ∈ e.datagram, Replies s.2 data

/-! ## What the servers mean -/

/-- The response is understood as the reply to a request that was sent before. -/
structure Meant (c : SipClient) (past : List BridgeShown) (resp : Str) (request : Request)
    (r : Reply) : Prop where
  sent : ∃ site, .sip (.sent site request) ∈ past
  sound : r.Sound
  understood : Understood r request.callId (c.calleeOf request) request.method request.cseq resp

/-- The bridge has read the reply. -/
def Told (c : SipClient) (past : List BridgeShown) (request : Request) (r : Reply) : Prop :=
  ∃ call resp, .sip (.read call resp) ∈ past ∧ Meant c past resp request r

/-- What is read was meant by a server.  The tag of a request, the credentials in it and
the endpoint of a packet rest on a reply that was read: the tag is in its To header, the
challenge that the credentials satisfy was posed in it, and the endpoint is announced in
its answer. -/
def BridgeShown.Justified (c : SipClient) (past : List BridgeShown) : BridgeShown → Prop
  | .sip (.read _ resp) => ∃ request r, Meant c past resp request r
  | .sip (.sent site request) =>
      (∀ tag ∈ request.remoteTag, ∃ request₀ r, Told c past request₀ r ∧
        tagParam (r.calleeOf (c.calleeOf request₀)) = some tag) ∧
      (Site.Authorizes site → ∃ request₀ r posed, Told c past request₀ r ∧
        r.challenge = some posed ∧ Satisfies c r.status posed.digest (c.message request))
  | .media (.packet _ endpoint) =>
      ∃ request r answer, Told c past request r ∧ r.status ∈ [180, 183, 200] ∧
        r.answer = some answer ∧ endpoint = answer.endpoint
  | _ => True

/-- Keeps all that was shown, and lets what it justifies pass. -/
def justified (c : SipClient) : Monitor (List BridgeShown) BridgeShown where
  next past o := past ++ [o]
  allows past o := o.Justified c past

theorem justified_after (c : SipClient) (past trace : List BridgeShown) :
    (justified c).after past trace = past ++ trace := by
  induction trace generalizing past with
  | nil => simp
  | cons o trace ih =>
      rw [(justified c).after_cons, ih]
      simp [justified]

theorem Meant.mono {c : SipClient} {past past' : List BridgeShown} {resp : Str}
    {request : Request} {r : Reply} (h : Meant c past resp request r) (hsub : past ⊆ past') :
    Meant c past' resp request r where
  sent := h.sent.imp fun _ hmem => hsub hmem
  sound := h.sound
  understood := h.understood

/-! ## Where a response comes from -/

/-- After a response `invite` shows no other. -/
theorem unread_of_response {client : SipClient} {l : InviteLoop} {resp : Str}
    {inputs : AnswerInputs} {next : InviteState} {acts : List SipShown}
    (h : ResponseOutcome client l resp inputs (.ok (next, acts))) :
    ∀ call resp', .read call resp' ∉ acts := by
  intro call resp'
  cases h with
  | unparsed hstatus => simp
  | stale status hstatus hstale => simp
  | admitted status _ hadmitted hdispatch =>
      cases hdispatch with
      | challenged _ hstatus hchallenge => cases hchallenge <;> simp
      | _ => simp

/-- Nor does `poll_answer`. -/
theorem unread_of_poll {call : Call} {resp : Str} {ackSent : Bool} {polled : Polled}
    {acks : List SipShown} (h : PollOutcome call resp ackSent (.ok (polled, acks))) :
    ∀ call' resp', .read call' resp' ∉ acks := by
  intro call' resp'
  rcases h.silent_or_answered with ⟨-, -, rfl⟩ | ⟨-, -, -, -, rfl⟩
  · simp
  · cases ackSent <;> simp

theorem invite_datagram {client : SipClient} {s s' : InviteState} {e : InviteEvent}
    {acts : List SipShown} {call : Option Call} {resp : Str} (h : InviteStepped client s e s' acts)
    (hmem : .read call resp ∈ acts) :
    ∃ data inputs, e = .received (some data) inputs ∧ resp = fromUtf8Lossy data.val := by
  cases h with
  | start args ids =>
      have hout := inviteStart_outcome client args ids
      generalize inviteStart client args ids = out at hout hmem
      cases hout <;> simp at hmem
  | head l inputs =>
      have hout := inviteHead_outcome l inputs
      generalize inviteHead l inputs = out at hout hmem
      cases hout <;> simp at hmem
  | silent l inputs => simp at hmem
  | response l data inputs next shown hresponse =>
      rcases List.mem_cons.mp hmem with heq | hmem
      · exact ⟨data, inputs, rfl, (SipShown.read.inj heq).2⟩
      · exact absurd hmem (unread_of_response hresponse call resp)
  | crash l data inputs why hresponse =>
      obtain heq := List.mem_singleton.mp hmem
      exact ⟨data, inputs, rfl, (SipShown.read.inj heq).2⟩

theorem register_datagram {client : SipClient} {r r' : RegisterState} {e : RegisterEvent}
    {acts : List SipShown} {call : Option Call} {resp : Str}
    (h : (registerMachine client).step r e = some (r', acts)) (hmem : .read call resp ∈ acts) :
    ∃ data, (BridgeEvent.register e).datagram = some data ∧ resp = fromUtf8Lossy data.val := by
  cases registerStepped_of_step h with
  | first callId tag data retry acts hfirst =>
      rcases List.mem_cons.mp hmem with heq | hmem
      · exact ⟨data, rfl, (SipShown.read.inj heq).2⟩
      · cases (registerFirst_eq_ok client (some data) retry hfirst).2 <;> simp at hmem
  | firstPanics callId tag data retry why hfirst =>
      exact ⟨data, rfl, (SipShown.read.inj (List.mem_singleton.mp hmem)).2⟩
  | second deadline data hsecond =>
      exact ⟨data, rfl, (SipShown.read.inj (List.mem_singleton.mp hmem)).2⟩
  | secondPanics deadline data why hsecond =>
      exact ⟨data, rfl, (SipShown.read.inj (List.mem_singleton.mp hmem)).2⟩
  | _ => simp at hmem

theorem unread_of_parked {next : BridgeNext} (h : Parked next) (o : SipShown) :
    .sip o ∉ next.2 := by
  cases h <;> simp

/-- A response that a step reads is in the datagram of its event. -/
theorem phase_datagram {config : Config} {phase phase' : Phase} {e : BridgeEvent}
    {shown : List BridgeShown} {call : Option Call} {resp : Str}
    (hnot : ∀ r, phase ≠ .registering r) (h : PhaseStepped config phase e phase' shown)
    (hmem : .sip (.read call resp) ∈ shown) :
    ∃ data, e.datagram = some data ∧ resp = fromUtf8Lossy data.val := by
  have hinvite : ∀ {invite invite' e acts ackSent},
      InviteStepped config.client invite e invite' acts →
      .sip (.read call resp) ∈ acts.map BridgeShown.sip →
        ∃ data, (BridgeEvent.invite e ackSent).datagram = some data ∧
          resp = fromUtf8Lossy data.val := by
    intro invite invite' e acts ackSent hstep hread
    obtain ⟨o, ho, heq⟩ := List.mem_map.mp hread
    obtain rfl := BridgeShown.sip.inj heq
    obtain ⟨data, inputs, rfl, hresp⟩ := invite_datagram hstep ho
    exact ⟨data, rfl, hresp⟩
  cases h with
  | registers r e next shown hshown hnext => exact absurd rfl (hnot r)
  | readied written next hnext => exact absurd hmem (unread_of_parked hnext _)
  | waits lineBuf e lineBuf' => simp at hmem
  | waitEnds lineBuf e next hnext => exact absurd hmem (unread_of_parked hnext _)
  | dials lineBuf e dial session tail hsession => simp at hmem
  | binds dial session port sessionId args => simp at hmem
  | bindFails dial session port sessionId next hnext => exact absurd hmem (unread_of_parked hnext _)
  | invites session drain invite invite' e ackSent shown hstep hreturned hpanicked =>
      exact hinvite hstep hmem
  | inviteFails session drain invite invite' e ackSent shown next hstep hfail hnext =>
      rcases List.mem_append.mp hmem with hmem | hmem
      · exact hinvite hstep hmem
      · exact absurd hmem (unread_of_parked hnext _)
  | inviteReturns session drain invite e ackSent shown call next hstep hnext =>
      rcases List.mem_append.mp hmem with hmem | hmem
      · exact hinvite hstep hmem
      · cases hnext <;> simp at hmem
  | drains session drain drain' invite e dropped he hdrain => simp at hmem
  | drainFails session drain invite e dropped next he hnext =>
      rcases List.mem_append.mp hmem with hmem | hmem
      · simp at hmem
      · exact absurd hmem (unread_of_parked hnext _)
  | relays session call polling relay relay' e media hstep =>
      rw [relayStops_of_step hstep] at hmem
      simp at hmem
  | pollSilent session call relay ackSent => simp at hmem
  | polls session call relay data ackSent polling polled acks hresponse hpolling =>
      refine ⟨data, rfl, ?_⟩
      rcases List.mem_cons.mp hmem with heq | hmem
      · exact (SipShown.read.inj (BridgeShown.sip.inj heq)).2
      · obtain ⟨o, ho, heq⟩ := List.mem_map.mp hmem
        obtain rfl := BridgeShown.sip.inj heq
        exact absurd ho (unread_of_poll hresponse _ _)
  | pollCrashes session call relay data ackSent why hresponse =>
      refine ⟨data, rfl, ?_⟩
      rcases List.mem_cons.mp hmem with heq | hmem
      · exact (SipShown.read.inj (BridgeShown.sip.inj heq)).2
      · simp at hmem
  | byes call after branchHash => simp at hmem
  | byeFails call after branchHash next hnext => exact absurd hmem (unread_of_parked hnext _)
  | byeSilent call after next hnext => exact absurd hmem (unread_of_parked hnext _)
  | byeAnswered call after data next hnext =>
      refine ⟨data, rfl, ?_⟩
      rcases List.mem_cons.mp hmem with heq | hmem
      · exact (SipShown.read.inj (BridgeShown.sip.inj heq)).2
      · exact absurd hmem (unread_of_parked hnext _)

theorem datagram_of_read {config : Config} {b b' : BridgeState} {e : BridgeEvent}
    {shown : List BridgeShown} {call : Option Call} {resp : Str} (hok : b.phase.Ok)
    (h : (bridgeMachine config).step b e = some (b', shown))
    (hmem : .sip (.read call resp) ∈ shown) :
    ∃ data, e.datagram = some data ∧ resp = fromUtf8Lossy data.val := by
  by_cases hphase : ∃ r, b.phase = .registering r
  · obtain ⟨r, hr⟩ := hphase
    obtain ⟨e', r', acts, rfl, hstep, -, rfl⟩ := registering_of_step hr h
    rcases List.mem_append.mp hmem with hmem | hmem
    · obtain ⟨o, ho, heq⟩ := List.mem_map.mp hmem
      obtain rfl := BridgeShown.sip.inj heq
      exact register_datagram hstep ho
    · have hquiet : .sip (.read call resp) ∉ (registeredTo r').2 := by
        cases r' with
        | returned result => cases result <;> simp [registeredTo, stopWith]
        | panicked why => simp [registeredTo, panicWith]
        | _ => simp [registeredTo]
      exact absurd hmem hquiet
  · exact phase_datagram (fun r hr => hphase ⟨r, hr⟩) (bridgeStep_ok hok h).1 hmem

/-! ## Every response is understood -/

/-- A peer has heard what it can read of what was shown. -/
theorem mem_heard {c : SipClient} {heard : List Message} {trace : List BridgeShown} {m : Message} :
    m ∈ (listener c).after heard trace ↔ m ∈ heard ∨ ∃ o ∈ trace, heardIn c o = some m := by
  induction trace generalizing heard with
  | nil => simp
  | cons o trace ih =>
      rw [(listener c).after_cons, ih]
      simp [listener, or_assoc]

/-- The last response is one that was read. -/
theorem read_of_servers {c : SipClient} {last : Option Str} {trace : List BridgeShown} {resp : Str}
    (h : (servers c).after last trace = some resp) :
    last = some resp ∨ ∃ call, .sip (.read call resp) ∈ trace := by
  induction trace generalizing last with
  | nil => exact Or.inl h
  | cons o trace ih =>
      rcases ih h with hlast | ⟨call, hread⟩
      · cases o with
        | sip o =>
            cases o with
            | read call resp' =>
                obtain rfl := Option.some.inj hlast
                exact Or.inr ⟨call, List.mem_cons_self⟩
            | sent site request => exact Or.inl hlast
            | answered call resp' => exact Or.inl hlast
        | media o => exact Or.inl hlast
        | dialled tail => exact Or.inl hlast
        | drained bytes => exact Or.inl hlast
        | waiting => exact Or.inl hlast
        | stopped => exact Or.inl hlast
      · exact Or.inr ⟨call, List.mem_cons_of_mem o hread⟩

/-- Every response of the trace is understood. -/
def ReadsMeant (c : SipClient) (trace : List BridgeShown) : Prop :=
  ∀ before call resp after, trace = before ++ .sip (.read call resp) :: after →
    ∃ request r, Meant c before resp request r

/-- A response that was read since the last call was dialled was read. -/
theorem read_of_provenance {read : List Str} {trace : List BridgeShown} {resp : Str}
    (h : resp ∈ provenance.after read trace) :
    resp ∈ read ∨ ∃ call, .sip (.read call resp) ∈ trace := by
  induction trace generalizing read with
  | nil => exact Or.inl h
  | cons o trace ih =>
      rcases ih h with hmem | ⟨call, hread⟩
      · cases o with
        | sip o =>
            cases o with
            | read call resp' =>
                rcases List.mem_cons.mp hmem with rfl | hmem
                · exact Or.inr ⟨call, List.mem_cons_self⟩
                · exact Or.inl hmem
            | sent site request => exact Or.inl hmem
            | answered call resp' => exact Or.inl hmem
        | dialled tail => exact absurd hmem List.not_mem_nil
        | media o => exact Or.inl hmem
        | drained bytes => exact Or.inl hmem
        | waiting => exact Or.inl hmem
        | stopped => exact Or.inl hmem
      · exact Or.inr ⟨call, List.mem_cons_of_mem o hread⟩

section Past

variable {c : SipClient} {past : List BridgeShown} (hmeant : ReadsMeant c past)
include hmeant

/-- What was read is understood. -/
theorem ReadsMeant.of_mem {call : Option Call} {resp : Str} (h : .sip (.read call resp) ∈ past) :
    ∃ request r, Meant c past resp request r := by
  obtain ⟨before, after, heq⟩ := List.append_of_mem h
  obtain ⟨request, r, hresp⟩ := hmeant before call resp after heq
  refine ⟨request, r, hresp.mono ?_⟩
  rw [heq]
  exact List.subset_append_left before _

/-- A source of the bridge is a reply that it was told. -/
theorem told_of_provenance {resp : Str} (h : resp ∈ provenance.after [] past) :
    ∃ request r, Told c past request r ∧ Meant c past resp request r := by
  rcases read_of_provenance h with hnil | ⟨call, hread⟩
  · exact absurd hnil List.not_mem_nil
  · obtain ⟨request, r, hresp⟩ := hmeant.of_mem hread
    exact ⟨request, r, ⟨call, resp, hread, hresp⟩, hresp⟩

/-- What was understood before is understood. -/
theorem ReadsMeant.of_append {before after : List BridgeShown} (h : past = before ++ after) :
    ReadsMeant c before := by
  intro before' call resp after' heq
  exact hmeant before' call resp (after' ++ after) (by simp [h, heq])

/-- The tag of a request is ASCII, like the header that it is from. -/
theorem isAscii_sentTag (haccepts : provenance.Accepts [] past) {site : Site} {request : Request}
    (hsent : .sip (.sent site request) ∈ past) : ∀ tag ∈ request.remoteTag, IsAscii tag := by
  intro tag htag
  obtain ⟨before, after, rfl⟩ := List.append_of_mem hsent
  obtain ⟨resp, hresp, hfound⟩ := provenance.allows_of_accepts haccepts tag htag
  obtain ⟨request₀, r, -, hunderstood⟩ := told_of_provenance (hmeant.of_append rfl) hresp
  exact hunderstood.understood.tag_ascii tag hfound

/-- The tag that the bridge goes by is in the To header of a reply. -/
theorem tag_justified {tag : Option Str} (h : TagFrom (provenance.after [] past) tag) :
    ∀ t ∈ tag, ∃ request₀ r, Told c past request₀ r ∧
      tagParam (r.calleeOf (c.calleeOf request₀)) = some t := by
  intro t ht
  obtain ⟨resp, hresp, hfound⟩ := h t ht
  obtain ⟨request₀, r, htold, hunderstood⟩ := told_of_provenance hmeant hresp
  have hcallee := extractHeader_eq_ok (by decide) hunderstood.understood.callee_eq
  rw [toTagOf, hcallee, Option.bind_some] at hfound
  exact ⟨request₀, r, htold, hfound⟩

/-- The endpoint that it goes by is announced in an answer. -/
theorem endpoint_justified {endpoint : SocketAddr}
    (h : EndpointFrom (provenance.after [] past) endpoint) :
    ∃ request r answer, Told c past request r ∧ r.status ∈ [180, 183, 200] ∧
      r.answer = some answer ∧ endpoint = answer.endpoint := by
  obtain ⟨resp, hresp, status, hstatus, hparsed, hendpoint⟩ := h
  obtain ⟨request, r, htold, hunderstood⟩ := told_of_provenance hmeant hresp
  obtain rfl : r.status = status := by
    simpa using hunderstood.understood.status_eq.symm.trans hparsed
  rw [hunderstood.understood.endpoint, Option.map_eq_some_iff] at hendpoint
  obtain ⟨answer, hanswer, rfl⟩ := hendpoint
  exact ⟨request, r, answer, htold, hstatus, hanswer, rfl⟩

/-- The challenge that it satisfies was posed in a reply. -/
theorem credentials_justified {site : Site} {request : Request} {m : Message}
    (hread : readDatagram (utf8Bytes (c.wire request)) = some m)
    (hallows : (servers c).allows ((servers c).after none past) (.sip (.sent site request)))
    (hsite : Site.Authorizes site) :
    ∃ request₀ r posed, Told c past request₀ r ∧ r.challenge = some posed ∧
      Satisfies c r.status posed.digest m := by
  obtain ⟨m', hread', hvouched, -⟩ := hallows site request rfl
  obtain rfl : m = m' := Option.some.inj (hread.symm.trans hread')
  obtain ⟨resp, status, -, hlast, hstatus, digest, husable, hsatisfies⟩ := hvouched hsite
  rcases read_of_servers hlast with hnone | ⟨call, hmem⟩
  · contradiction
  obtain ⟨request₀, r, hresp⟩ := hmeant.of_mem hmem
  obtain rfl : r.status = status := by
    simpa using hresp.understood.status_eq.symm.trans hstatus
  rw [hresp.understood.digest, Option.map_eq_some_iff] at husable
  obtain ⟨posed, hposed, rfl⟩ := husable
  exact ⟨request₀, r, posed, ⟨call, resp, hmem, hresp⟩, hposed, hsatisfies⟩

end Past

section System

variable {config : Config} (hc : config.client.Presentable) (hplain : config.client.Configured)
include hc hplain

/-- A reply to what was heard is understood. -/
theorem meant_of_replies {events : List BridgeEvent} {b : BridgeState} {past : List BridgeShown}
    (hevents : ∀ e ∈ events, e.Hexed)
    (hrun : (bridgeMachine config).run bridgeStart events = some (b, past))
    (hmeant : ReadsMeant config.client past) {data : Datagram}
    (h : Replies ((listener config.client).after [] past) data) :
    ∃ request r, Meant config.client past (fromUtf8Lossy data.val) request r := by
  obtain ⟨m, hm, r, hr, htext⟩ := h
  rcases mem_heard.mp hm with hnil | ⟨o, ho, hheard⟩
  · exact absurd hnil List.not_mem_nil
  by_cases hsent : ∃ site request, o = .sip (.sent site request)
  · obtain ⟨site, request, rfl⟩ := hsent
    have hproper : request.Proper config.client := proper_of_run hc hevents hrun _ ho
    rw [heardIn_sent hc hproper] at hheard
    obtain rfl := Option.some.inj hheard
    have htag := isAscii_sentTag hmeant (sources_run hrun).1 ho
    refine ⟨request, r, ⟨site, ho⟩, hr, ?_⟩
    rw [htext]
    exact reply_understood (answerable_message hplain hc hproper htag) hr
  · rw [heardIn_unsent config.client fun site request heq => hsent ⟨site, request, heq⟩] at hheard
    contradiction

/-- The step keeps every response understood. -/
theorem readsMeant_step {events : List BridgeEvent} {b b' : BridgeState} {e : BridgeEvent}
    {past shown : List BridgeShown} (hevents : ∀ e ∈ events, e.Hexed)
    (hrun : (bridgeMachine config).run bridgeStart events = some (b, past))
    (hmeant : ReadsMeant config.client past)
    (hserved : Served (b, (listener config.client).after [] past) e)
    (hstep : (bridgeMachine config).step b e = some (b', shown)) :
    ReadsMeant config.client (past ++ shown) := by
  intro before call resp after heq
  have hnew : ∀ rest, .sip (.read call resp) ∈ shown →
      ∃ request r, Meant config.client (past ++ rest) resp request r := by
    intro rest hread
    obtain ⟨data, hdata, rfl⟩ := datagram_of_read (userAgent_run hrun).2.1 hstep hread
    obtain ⟨request, r, hresp⟩ :=
      meant_of_replies hc hplain hevents hrun hmeant (hserved data hdata)
    exact ⟨request, r, hresp.mono (List.subset_append_left past rest)⟩
  rcases List.append_eq_append_iff.mp heq with ⟨rest, rfl, hrest⟩ | ⟨rest, rfl, hrest⟩
  · exact hnew rest (by simp [hrest])
  · cases rest with
    | nil =>
        have hread : .sip (.read call resp) ∈ shown := by
          rw [← List.nil_append shown, ← hrest]
          exact List.mem_cons_self
        simpa using hnew [] hread
    | cons o rest =>
        obtain ⟨rfl, rfl⟩ := List.cons_eq_cons.mp hrest
        exact hmeant before call resp rest rfl

/-- Among servers every response of a run is understood. -/
theorem readsMeant_run {events : List BridgeEvent} {b : BridgeState} {trace : List BridgeShown}
    (hevents : ∀ e ∈ events, e.Hexed)
    (hserved : ((listener config.client).watching (bridgeMachine config)).Guarded Served
      (bridgeStart, []) events)
    (hrun : (bridgeMachine config).run bridgeStart events = some (b, trace)) :
    ReadsMeant config.client trace := by
  have hwatched := (listener config.client).watching_run hrun []
  have hboth := ((listener config.client).watching (bridgeMachine config)).guarded_and hserved
    (((listener config.client).watching (bridgeMachine config)).guarded_of_forall_mem hevents
      (bridgeStart, []))
  have hkept := ((listener config.client).watching (bridgeMachine config)).invariant_run
    (I := fun s past => (∃ es, (∀ e ∈ es, e.Hexed) ∧
        (bridgeMachine config).run bridgeStart es = some (s.1, past)) ∧
      s.2 = (listener config.client).after [] past ∧ ReadsMeant config.client past)
    ?_ [] ?_ hboth hwatched
  · exact hkept.2.2
  · rintro ⟨b, heard⟩ past e ⟨b', heard'⟩ shown ⟨⟨es, hes, hpast⟩, rfl, hmeant⟩ hstep ⟨hguard, he⟩
    obtain ⟨hinner, hafter⟩ := (listener config.client).watching_step_eq_some_iff.mp hstep
    refine ⟨⟨es ++ [e], ?_, ?_⟩, ?_, ?_⟩
    · exact List.forall_mem_append.mpr ⟨hes, List.forall_mem_singleton.mpr he⟩
    · exact (bridgeMachine config).run_append_of_run hpast
        ((bridgeMachine config).run_of_step hinner)
    · rw [(listener config.client).after_append]
      exact hafter
    · exact readsMeant_step hc hplain hes hpast hmeant hguard hinner
  · refine ⟨⟨[], by simp, rfl⟩, rfl, ?_⟩
    intro before call resp after heq
    simp at heq

end System

/-! ## A call that is served -/

/-- The registrar welcomes the client. -/
def trunkWelcome : Reply where
  status := 200
  reason := lit "OK"
  tag := some (lit "t")
  challenge := none
  answer := none

/-- The first REGISTER. -/
def trunkRegistration : RegisterRequest where
  branch := generateBranch 4
  tag := generateTag 3
  callId := generateCallId 1 2
  cseq := 1
  auth := none

/-- The welcome. -/
def welcomeData : Datagram :=
  ⟨utf8Bytes (trunkWelcome.message (trunkClient.message (.register trunkRegistration))).text,
    by decide +kernel⟩

/-- The early media for the INVITE. -/
def progressData : Datagram :=
  ⟨utf8Bytes (trunkProgress.message (trunkClient.message (.invite trunkInvite))).text,
    by decide +kernel⟩

/-- The events between the REGISTER and the early media. -/
def trunkDialling : List BridgeEvent :=
  [.readyWritten true, .wait (.slRead (some dialFive)), .rtpBound (some 4000) 7,
    .invite (.start trunkStart) true, .invite (.head (headAt 0)) true]

/-- The client registers. -/
def trunkOpening : List BridgeEvent := [.register (.start ⟨1, 2, 3, 4, true⟩)]

/-- It is welcome, and calls. -/
def trunkCalling : List BridgeEvent :=
  trunkOpening ++ .register (.first (some welcomeData) ⟨[], 5, true, 0⟩) :: trunkDialling

/-- It sends a sample to where the early media is. -/
def trunkServed : List BridgeEvent :=
  trunkCalling ++ [.invite (.received (some progressData) answerInputs) true,
    .media (.slRead (some oneSample) true)]

/-- A reply to a request that was sent comes from a server. -/
theorem replies_of_sent {config : Config} (hc : config.client.Presentable)
    {past : List BridgeShown} {site : Site} {request : Request}
    (hsent : .sip (.sent site request) ∈ past) (hproper : request.Proper config.client) {r : Reply}
    (hr : r.Sound) {data : Datagram}
    (hdata : data.val = utf8Bytes (r.message (config.client.message request)).text) :
    Replies ((listener config.client).after [] past) data :=
  ⟨config.client.message request,
    mem_heard.mpr (Or.inr ⟨_, hsent, heardIn_sent hc hproper site⟩), r, hr, hdata⟩

theorem guarded_served {config : Config} {s : BridgeState × List Message} {e : BridgeEvent}
    {es : List BridgeEvent} (he : Served s e) (hquiet : ∀ e ∈ es, e.datagram = none) :
    ((listener config.client).watching (bridgeMachine config)).Guarded Served s (e :: es) := by
  intro s' shown hs
  refine ⟨he, Machine.guarded_of_forall _ ?_ s'⟩
  intro e' he' s'' data hdata
  rw [hquiet e' he'] at hdata
  contradiction

theorem sound_trunkWelcome : trunkWelcome.Sound where
  status := by decide
  reason := by decide
  tag := by
    intro tag htag
    obtain rfl := Option.some.inj htag
    decide
  challenge := nofun
  answer := nofun

theorem proper_trunkRegistration : (Request.register trunkRegistration).Proper trunkClient := by
  refine ⟨⟨word_callId 1 2, word_tag 3, word_branch 4, ?_⟩, Nat.le_succ 1⟩
  intro value hvalue
  contradiction

/-- A run shows a request, as its evaluation says. -/
theorem sent_of_run {config : Config} {events : List BridgeEvent} {o : BridgeShown}
    (h : ((bridgeMachine config).run bridgeStart events).map (fun end_ => decide (o ∈ end_.2)) =
      some true) :
    ∃ b past, (bridgeMachine config).run bridgeStart events = some (b, past) ∧ o ∈ past := by
  obtain ⟨⟨b, past⟩, hrun, hmem⟩ := Option.map_eq_some_iff.mp h
  exact ⟨b, past, hrun, of_decide_eq_true hmem⟩

theorem guarded_trunkServed :
    ((listener trunkConfig.client).watching (bridgeMachine trunkConfig)).Guarded Served
      (bridgeStart, []) trunkServed := by
  have hopens : ((bridgeMachine trunkConfig).run bridgeStart trunkOpening).map (fun end_ =>
      decide (.sip (.sent .register (.register trunkRegistration)) ∈ end_.2)) = some true := by
    decide +kernel
  have hcalls : ((bridgeMachine trunkConfig).run bridgeStart trunkCalling).map (fun end_ =>
      decide (.sip (.sent .invite (.invite trunkInvite)) ∈ end_.2)) = some true := by
    decide +kernel
  obtain ⟨b, past, hrun, hregister⟩ := sent_of_run hopens
  obtain ⟨b', past', hrun', hinvite⟩ := sent_of_run hcalls
  have hquiet : ∀ e ∈ trunkDialling, e.datagram = none := by
    simp [trunkDialling, BridgeEvent.datagram]
  have hwelcome : Served (b, (listener trunkConfig.client).after [] past)
      (.register (.first (some welcomeData) ⟨[], 5, true, 0⟩)) := by
    intro data hdata
    have hval : data.val = utf8Bytes
        (trunkWelcome.message (trunkClient.message (.register trunkRegistration))).text :=
      (congrArg Subtype.val (Option.some.inj hdata)).symm
    exact @replies_of_sent trunkConfig presentable_trunk _ _ _ hregister
      proper_trunkRegistration _ sound_trunkWelcome _ hval
  have hprogress : Served (b', (listener trunkConfig.client).after [] past')
      (.invite (.received (some progressData) answerInputs) true) := by
    intro data hdata
    have hval : data.val = utf8Bytes
        (trunkProgress.message (trunkClient.message (.invite trunkInvite))).text :=
      (congrArg Subtype.val (Option.some.inj hdata)).symm
    exact @replies_of_sent trunkConfig presentable_trunk _ _ _ hinvite proper_trunkInvite _
      sound_trunkProgress _ hval
  have hopening : ((listener trunkConfig.client).watching (bridgeMachine trunkConfig)).Guarded
      Served (bridgeStart, []) trunkOpening := by
    refine Machine.guarded_of_forall _ ?_ _
    rw [trunkOpening, List.forall_mem_singleton]
    exact fun _ => nofun
  have hwatched := (listener trunkConfig.client).watching_run hrun []
  have hwatched' := (listener trunkConfig.client).watching_run hrun' []
  have hcalling : ((listener trunkConfig.client).watching (bridgeMachine trunkConfig)).Guarded
      Served (bridgeStart, []) trunkCalling := by
    rw [trunkCalling, Machine.guarded_append _ hwatched]
    exact ⟨hopening, @guarded_served trunkConfig _ _ _ hwelcome hquiet⟩
  rw [trunkServed, Machine.guarded_append _ hwatched']
  exact ⟨hcalling, @guarded_served trunkConfig _ _ _ hprogress (by simp [BridgeEvent.datagram])⟩

/-- The endpoint of a media packet. -/
def BridgeShown.endpoint : BridgeShown → Option SocketAddr
  | .media (.packet _ endpoint) => some endpoint
  | _ => none

end SlmodemSipBridge.Bridge
