import SlmodemSipBridge.Bridge.Dialogue

/-!
# The credentials that the servers of the trunk receive

A registrar or a proxy that has challenged a request reads the octets of the one with
credentials, finds them, and recomputes the response from its own challenge and the
password.  No request carries credentials that were not asked for.
-/

namespace SlmodemSipBridge.Bridge

open Rust Transition Media Rtp Sip Envelope
open Parameters (Verbatim)

/-! ## The server -/

/-- The server that posed the challenge finds the field for credentials in the message.
Where the user, the URI and the challenge have no backslash, it reads credentials there
that answer its challenge, for the URI of the message; and if it asked for no other
quality of protection than `auth`, the response in them is the one that it recomputes. -/
def Satisfies (c : SipClient) (status : ℕ) (d : DigestChallenge) (m : Message) : Prop :=
  ∃ value uri, m.value (credentialHeader status) = some value ∧
    targetOf m = lit " " ++ uri ++ lit " SIP/2.0" ∧
    ('\\' ∉ c.username → '\\' ∉ uri → d.Unescaped →
      ∃ params, readCredentials value = some params ∧ Answers c.username uri d params ∧
        (d.qop = none ∨ d.qop = some (lit "auth") →
          Verifies c.md5Hex c.password (methodOf m) params))

/-- The message satisfies the challenge of the response with that status. -/
def Vouched (c : SipClient) (status : ℕ) (resp : Str) (m : Message) : Prop :=
  ∃ d, usableChallenge status resp = some d ∧ Satisfies c status d m

/-- The places that send credentials. -/
def Site.Authorizes (site : Site) : Prop := site = .registerAuth ∨ site = .authInvite

/-- The statuses that a place answers with credentials: a registrar challenges with 401, a
callee with 401 and a proxy with 407. -/
def Site.demands : Site → List ℕ
  | .registerAuth => [401]
  | .authInvite => [401, 407]
  | _ => []

/-- What a server reads in a message that was sent from that place after that response:
credentials that answer the challenge of the response, or none. -/
def Authorized (c : SipClient) (last : Option Str) (site : Site) (m : Message) : Prop :=
  (Site.Authorizes site → ∃ resp, ∃ status ∈ Site.demands site, last = some resp ∧
    parseStatusCode resp = some status ∧ Vouched c status resp m) ∧
  (¬ Site.Authorizes site → credentialsIn m = none)

/-- The servers keep the last response that the bridge has read, and can read what it
sends then. -/
def servers (c : SipClient) : Monitor (Option Str) BridgeShown where
  next last o :=
    match o with
    | .sip (.read _ resp) => some resp
    | _ => last
  allows last o :=
    ∀ site request, o = .sip (.sent site request) →
      ∃ m, readDatagram (utf8Bytes (c.wire request)) = some m ∧ Authorized c last site m

/-! ## The answers to the challenges -/

section Answered

variable {c : SipClient} (hc : c.Presentable)
include hc

theorem vouched_register {callId tag resp : Str} {digest : DigestChallenge}
    {retry : RegisterRetry} (hhex : IsHex retry.cnonce)
    (husable : usableChallenge 401 resp = some digest) :
    Vouched c 401 resp (c.message (.register (authRegister c callId tag digest retry))) := by
  have hheard := register_heard c
    (r := authRegister c callId tag digest retry) (le_refl 2)
  refine ⟨digest, husable, _, _, rfl, hheard.targetOf, ?_⟩
  intro huser huri hunescaped
  have hd : ∀ name value, digest.value name = some value → Verbatim value := fun name value h =>
    ⟨(oneLined_of_usable husable name value h).1, hunescaped name value h⟩
  have hverbatimUser : Verbatim c.username := ⟨hc.userQuote, huser⟩
  have hverbatimUri := And.intro (quotable_registerUri hc).1 huri
  refine ⟨_, readCredentials_answer c.password (lit "REGISTER") hc.md5 hhex hd hverbatimUser
    hverbatimUri, authParams_answers _ _ _ _ _ _ _, ?_⟩
  intro hqop
  rw [hheard.methodOf]
  exact authParams_verifies c.password (lit "REGISTER") hc.md5 hhex hd hverbatimUser
    hverbatimUri hqop

theorem vouched_invite {l : InviteLoop} {status : ℕ} {resp : Str} {digest : DigestChallenge}
    {inputs : AnswerInputs} (hl : l.Drawn c) (hfirst : l.authRetryDone = false)
    (husable : usableChallenge status resp = some digest) (hhex : IsHex inputs.cnonce) :
    Vouched c status resp (c.message (.invite (retryInvite c l status digest inputs))) := by
  obtain ⟨dial, hdial⟩ := hl.call.dial
  have hquotable := (quotable_inviteUri hc dial).1
  rw [← hdial] at hquotable
  have hheard := invite_heard c (retryInvite_proper hc hl hfirst husable hhex).1.2.2
  have hvalue : (c.message (.invite (retryInvite c l status digest inputs))).value
      (credentialHeader status) = some (digest.authHeaderValue c.md5Hex inputs.cnonce c.username
        c.password (lit "INVITE") l.call.inviteUri) := by
    simp only [SipClient.message, retryInvite, authInvite, credentials, credentialHeader]
    split <;> rfl
  refine ⟨digest, husable, _, _, hvalue, hheard.targetOf, ?_⟩
  intro huser huri hunescaped
  have hd : ∀ name value, digest.value name = some value → Verbatim value := fun name value h =>
    ⟨(oneLined_of_usable husable name value h).1, hunescaped name value h⟩
  have hverbatimUser : Verbatim c.username := ⟨hc.userQuote, huser⟩
  have hverbatimUri : Verbatim l.call.inviteUri := ⟨hquotable, huri⟩
  refine ⟨_, readCredentials_answer c.password (lit "INVITE") hc.md5 hhex hd hverbatimUser
    hverbatimUri, authParams_answers _ _ _ _ _ _ _, ?_⟩
  intro hqop
  rw [hheard.methodOf]
  exact authParams_verifies c.password (lit "INVITE") hc.md5 hhex hd hverbatimUser hverbatimUri hqop

end Answered

/-! ## What a step sends -/

/-- The observation is no request, or one without credentials. -/
def BridgeShown.Bare (c : SipClient) (o : BridgeShown) : Prop :=
  ∀ site request, o = .sip (.sent site request) →
    ¬ Site.Authorizes site ∧ request.Proper c ∧ credentialsIn (c.message request) = none

/-- A step sends credentials only to answer the response that it has read. -/
inductive Asked (c : SipClient) : List BridgeShown → Prop where
  | bare {shown : List BridgeShown} (h : ∀ o ∈ shown, o.Bare c) : Asked c shown
  | authorized (call : Option Call) (resp : Str) (status : ℕ) (acks : List Call) (site : Site)
      (request : Request) (tail : List BridgeShown) (hstatus : parseStatusCode resp = some status)
      (hsite : Site.Authorizes site) (hdemanded : status ∈ Site.demands site)
      (hproper : request.Proper c)
      (hvouched : Vouched c status resp (c.message request)) (hacks : ∀ ack ∈ acks, ack.Placed c)
      (htail : ∀ o ∈ tail, o.Bare c) :
      Asked c (.sip (.read call resp) ::
        ((acks.map fun ack => .sip (.sent .challengeAck (.ack ack))) ++
          .sip (.sent site request) :: tail))

theorem bare_sip_unsent {c : SipClient} {o : SipShown}
    (h : ∀ site request, o ≠ .sent site request) : (BridgeShown.sip o).Bare c := by
  rintro site request heq
  exact absurd (BridgeShown.sip.inj heq) (h site request)

theorem bare_ack {c : SipClient} {call : Call} (hcall : call.Placed c) {site : Site}
    (hsite : ¬ Site.Authorizes site) : (BridgeShown.sip (.sent site (.ack call))).Bare c := by
  rintro site' request heq
  obtain ⟨rfl, rfl⟩ := SipShown.sent.inj (BridgeShown.sip.inj heq)
  refine ⟨hsite, hcall, ?_⟩
  simp only [SipClient.message, SipClient.callMessage]
  rfl

theorem Asked.append {c : SipClient} {shown later : List BridgeShown} (h : Asked c shown)
    (hlater : ∀ o ∈ later, o.Bare c) : Asked c (shown ++ later) := by
  cases h with
  | bare h => exact .bare (List.forall_mem_append.mpr ⟨h, hlater⟩)
  | authorized call resp status acks site request tail hstatus hsite hdemanded hproper hvouched
      hacks htail =>
      rw [List.cons_append, List.append_assoc, List.cons_append]
      exact .authorized call resp status acks site request _ hstatus hsite hdemanded hproper
        hvouched hacks (List.forall_mem_append.mpr ⟨htail, hlater⟩)

section Servers

variable {c : SipClient} (hc : c.Presentable)
include hc

theorem bare_accepted {shown : List BridgeShown} (h : ∀ o ∈ shown, o.Bare c)
    (last : Option Str) : (servers c).Accepts last shown := by
  induction shown generalizing last with
  | nil => exact trivial
  | cons o shown ih =>
      rw [List.forall_mem_cons] at h
      refine ⟨?_, ih h.2 _⟩
      intro site request heq
      obtain ⟨hsite, hproper, hbare⟩ := h.1 site request heq
      exact ⟨_, readDatagram_wire hc.toLegible hproper.legible, fun hnot => absurd hnot hsite,
        fun _ => hbare⟩

/-- The servers accept what such a step sends. -/
theorem Asked.accepted {shown : List BridgeShown} (h : Asked c shown) (last : Option Str) :
    (servers c).Accepts last shown := by
  cases h with
  | bare h => exact bare_accepted hc h last
  | authorized call resp status acks site request tail hstatus hsite hdemanded hproper hvouched
      hacks htail =>
      have hquiet : ∀ o ∈ acks.map fun ack => BridgeShown.sip (.sent .challengeAck (.ack ack)),
          o.Bare c := by
        rw [List.forall_mem_map]
        intro ack hack
        exact bare_ack (hacks ack hack) (by simp [Site.Authorizes])
      have hkept : (servers c).after (some resp)
          (acks.map fun ack => BridgeShown.sip (.sent .challengeAck (.ack ack))) = some resp := by
        clear hacks hquiet
        induction acks with
        | nil => rfl
        | cons ack acks ih => exact ih
      rw [(servers c).accepts_cons, (servers c).accepts_append]
      refine ⟨by rintro site request heq; simp at heq, bare_accepted hc hquiet _, ?_,
        bare_accepted hc htail _⟩
      rintro site' request' heq
      obtain ⟨rfl, rfl⟩ := SipShown.sent.inj (BridgeShown.sip.inj heq)
      refine ⟨_, readDatagram_wire hc.toLegible hproper.legible, ?_, fun hnot => absurd hsite hnot⟩
      intro _
      exact ⟨resp, status, hdemanded, hkept, hstatus, hvouched⟩

end Servers

/-! ## Every step -/

theorem parked_bare {next : BridgeNext} (h : Parked next) (c : SipClient) :
    ∀ o ∈ next.2, o.Bare c := by
  cases h <;> simp [BridgeShown.Bare]

theorem setupEnd_bare {c : SipClient} {call : Call} {ackSent : Bool} {next : BridgeNext}
    (hcall : call.Placed c) (h : SetupEnd call ackSent next) : ∀ o ∈ next.2, o.Bare c := by
  cases h with
  | noRemoteRtp hrtp => simp
  | ackUnsent remoteRtp hrtp hstate hack => simp [BridgeShown.Bare]
  | acked session remoteRtp hrtp hstate hack hsession =>
      exact List.forall_mem_singleton.mpr (bare_ack hcall (by simp [Site.Authorizes]))
  | unanswered session remoteRtp polling hrtp hstate hpolling hsession => simp

/-- What shows no request is without credentials. -/
theorem asked_of_unsent {c : SipClient} {acts : List SipShown}
    (h : ∀ o ∈ acts, ∀ site request, o ≠ .sent site request) : Asked c (acts.map .sip) := by
  apply Asked.bare
  rw [List.forall_mem_map]
  exact fun o ho => bare_sip_unsent (h o ho)

section Steps

variable {c : SipClient} (hc : c.Presentable)
include hc

theorem register_asked {r r' : RegisterState} {e : RegisterEvent} {acts : List SipShown}
    (he : e.Hexed) (hr : r.Drawn) (h : (registerMachine c).step r e = some (r', acts)) :
    Asked c (acts.map .sip) := by
  have hproper := (register_proper hc he hr h).1
  cases registerStepped_of_step h with
  | started ids request =>
      simp only [registerMachine, registerStep] at h
      split at h
      · obtain ⟨-, hshown⟩ := Prod.mk.inj (Option.some.inj h)
        obtain ⟨-, rfl⟩ := SipShown.sent.inj (List.cons_eq_cons.mp hshown).1
        apply Asked.bare
        rw [List.map_singleton, List.forall_mem_singleton]
        rintro site request heq
        obtain ⟨rfl, rfl⟩ := SipShown.sent.inj (BridgeShown.sip.inj heq)
        refine ⟨by simp [Site.Authorizes], hproper .register _ (by simp), ?_⟩
        rw [credentialsIn_register]
      · simp at h
  | first callId tag data retry acts hfirst =>
      have hquiet : Asked c ([SipShown.read none (fromUtf8Lossy data.val)].map .sip) :=
        asked_of_unsent (by simp)
      cases (registerFirst_eq_ok c (some data) retry hfirst).2 with
      | accepted hstatus => exact hquiet
      | retried hstatus hchallenge hsent =>
          exact .authorized none _ 401 [] .registerAuth _ [] hstatus (Or.inl rfl) (by decide)
            (hproper .registerAuth _ (by simp)) (vouched_register hc he hchallenge) (by simp)
            (by simp)
      | unsent hstatus hchallenge hsent => exact hquiet
      | refused hstatus hother => exact hquiet
  | _ => exact asked_of_unsent (by simp)

theorem dispatch_asked {l : InviteLoop} {status : ℕ} {resp : Str} {inputs : AnswerInputs}
    {next : InviteState} {acts : List SipShown} (call : Option Call) (hl : l.Drawn c)
    (hhex : IsHex inputs.cnonce) (hstatus : parseStatusCode resp = some status)
    (h : DispatchOutcome c l status resp inputs (.ok (next, acts))) :
    Asked c (.sip (.read call resp) :: acts.map .sip) := by
  have hquiet : ∀ o ∈ [BridgeShown.sip (.read call resp)], o.Bare c :=
    List.forall_mem_singleton.mpr (bare_sip_unsent (by simp))
  have hack : ∀ {site : Site}, ¬ Site.Authorizes site →
      (BridgeShown.sip (.sent site (.ack l.call))).Bare c := fun hsite => bare_ack hl.call hsite
  have hacked : ∀ {site : Site}, ¬ Site.Authorizes site →
      Asked c [.sip (.read call resp), .sip (.sent site (.ack l.call))] := by
    intro site hsite
    exact .bare (List.forall_mem_cons.mpr
      ⟨bare_sip_unsent (by simp), List.forall_mem_singleton.mpr (hack hsite)⟩)
  cases h with
  | trying _ => exact .bare hquiet
  | ringing _ hnone => exact .bare hquiet
  | earlyMedia rtpAddr _ hsome => exact .bare hquiet
  | answered _ =>
      exact @asked_of_unsent c [.read call resp, .answered _ resp] (by simp)
  | rejected _ hother hsent => exact hacked (by simp [Site.Authorizes])
  | rejectedUnsent _ hother hsent => exact .bare hquiet
  | unexpected _ => exact .bare hquiet
  | challenged _ hchallenged hchallenge =>
      cases hchallenge with
      | again hdone => exact .bare hquiet
      | unusable error hfirst hread hnone => exact .bare hquiet
      | ackUnsent digest hfirst hread husable hsent => exact .bare hquiet
      | retryUnsent digest hfirst hread husable hsent hinvite =>
          exact hacked (by simp [Site.Authorizes])
      | retried digest hfirst hread husable hsent hinvite =>
          exact .authorized call resp status [l.call] .authInvite _ [] hstatus (Or.inr rfl)
            (by simpa [Site.demands] using hchallenged)
            (retryInvite_proper hc hl hfirst husable hhex).1
            (vouched_invite hc hl hfirst husable hhex) (by simpa using hl.call) (by simp)

theorem invite_asked {s s' : InviteState} {e : InviteEvent} {acts : List SipShown}
    {q : AgentState} (he : e.Hexed) (hs : s.Drawn c) (hq : Invites s q)
    (h : InviteStepped c s e s' acts) : Asked c (acts.map .sip) := by
  have hproper := (invite_proper hc he hs h).1
  have hbare : ∀ {site : Site} {r : InviteRequest}, ¬ Site.Authorizes site → r.auth = none →
      (Request.invite r).Proper c → Asked c [.sip (.sent site (.invite r))] := by
    intro site r hsite hauth hr
    apply Asked.bare
    rw [List.forall_mem_singleton]
    rintro site' request heq
    obtain ⟨rfl, rfl⟩ := SipShown.sent.inj (BridgeShown.sip.inj heq)
    refine ⟨hsite, hr, ?_⟩
    rw [credentialsIn_invite c (by simp [hauth]), hauth]
    rfl
  cases h with
  | start args ids =>
      have hout := inviteStart_outcome c args ids
      generalize inviteStart c args ids = out at hout hproper ⊢
      cases hout with
      | undialable why hdial => exact asked_of_unsent (by simp)
      | unsent hsent => exact asked_of_unsent (by simp)
      | overflowed _ _ | sent _ _ =>
          exact hbare (by simp [Site.Authorizes]) rfl (hproper .invite _ (by simp))
  | head l inputs =>
      have hout := inviteHead_outcome l inputs
      generalize inviteHead l inputs = out at hout hproper ⊢
      cases hout with
      | retransmitted hdue hsent =>
          obtain ⟨latest, -, -, hauth, -⟩ := hq
          exact hbare (by simp [Site.Authorizes]) hauth (hproper .retransmit _ (by simp))
      | exceeded why hlimit => exact asked_of_unsent (by simp)
      | timedOut hlate => exact asked_of_unsent (by simp)
      | unsent hdue hsent => exact asked_of_unsent (by simp)
      | quiet hidle => exact asked_of_unsent (by simp)
  | silent l inputs => exact asked_of_unsent (by simp)
  | response l data inputs next shown hresponse =>
      cases hresponse with
      | unparsed hstatus => exact asked_of_unsent (by simp)
      | stale status hstatus hstale => exact asked_of_unsent (by simp)
      | admitted status _ hadmitted hdispatch =>
          have htagged : (l.tagged (fromUtf8Lossy data.val)).Drawn c :=
            ⟨hs.call.tagged _, hs.invite, hs.sameUri, hs.first⟩
          exact dispatch_asked hc (some l.call) htagged he hadmitted.status_eq hdispatch
  | crash l data inputs why hresponse => exact asked_of_unsent (by simp)

end Steps

theorem phase_asked {config : Config} (hc : config.client.Presentable) {phase phase' : Phase}
    {e : BridgeEvent} {shown : List BridgeShown} {q : AgentState} (he : e.Hexed)
    (hnot : ∀ r, phase ≠ .registering r) (hphase : phase.Drawn config.client)
    (hq : Follows phase q) (h : PhaseStepped config phase e phase' shown) :
    Asked config.client shown := by
  have hunsent : ∀ {shown : List BridgeShown},
      (∀ o ∈ shown, ∀ site request, o ≠ .sip (.sent site request)) →
        Asked config.client shown :=
    fun h => .bare fun o ho site request heq => absurd heq (h o ho site request)
  cases h with
  | registers r e next shown hshown hnext => exact absurd rfl (hnot r)
  | readied written next hnext => exact .bare (parked_bare hnext _)
  | waits lineBuf e lineBuf' => exact hunsent (by simp)
  | waitEnds lineBuf e next hnext => exact .bare (parked_bare hnext _)
  | dials lineBuf e dial session tail hsession => exact hunsent (by simp)
  | binds dial session port sessionId args => exact hunsent (by simp)
  | bindFails dial session port sessionId next hnext => exact .bare (parked_bare hnext _)
  | invites session drain invite invite' e ackSent acts hstep hreturned hpanicked =>
      exact invite_asked hc he hphase hq hstep
  | inviteFails session drain invite invite' e ackSent acts next hstep hfail hnext =>
      exact (invite_asked hc he hphase hq hstep).append (parked_bare hnext _)
  | inviteReturns session drain invite e ackSent acts call next hstep hnext =>
      exact (invite_asked hc he hphase hq hstep).append
        (setupEnd_bare (invite_proper hc he hphase hstep).2 hnext)
  | drains session drain drain' invite e dropped he' hdrain => exact hunsent (by simp)
  | drainFails session drain invite e dropped next he' hnext =>
      exact (hunsent (by simp)).append (parked_bare hnext _)
  | relays session call polling relay relay' e media hstep =>
      rw [relayStops_of_step hstep, List.append_nil]
      exact hunsent (by simp)
  | pollSilent session call relay ackSent => exact hunsent (by simp)
  | polls session call relay data ackSent polling polled acks hresponse hpolling =>
      have hcall : call.Placed config.client := hphase
      have hpolled : (call.polledBy (fromUtf8Lossy data.val)).Placed config.client :=
        (hcall.tagged _).at _ _
      rcases hresponse.silent_or_answered with ⟨-, -, rfl⟩ | ⟨-, -, -, -, rfl⟩
      · exact hunsent (by simp)
      · cases ackSent with
        | false => exact hunsent (by simp)
        | true =>
            have hread : Asked config.client [.sip (.read (some call) (fromUtf8Lossy data.val)),
                .sip (.answered (call.polledBy (fromUtf8Lossy data.val))
                  (fromUtf8Lossy data.val))] := hunsent (by simp)
            exact hread.append (List.forall_mem_singleton.mpr
              (bare_ack hpolled (by simp [Site.Authorizes])))
  | pollCrashes session call relay data ackSent why hresponse => exact hunsent (by simp)
  | byes call after branchHash =>
      have hcall : call.Placed config.client := hphase
      apply Asked.bare
      rw [List.forall_mem_singleton]
      rintro site request heq
      obtain ⟨rfl, rfl⟩ := SipShown.sent.inj (BridgeShown.sip.inj heq)
      refine ⟨by simp [Site.Authorizes], ⟨hcall, word_branch branchHash⟩, ?_⟩
      simp only [SipClient.message, SipClient.callMessage]
      rfl
  | byeFails call after branchHash next hnext => exact .bare (parked_bare hnext _)
  | byeSilent call after next hnext => exact .bare (parked_bare hnext _)
  | byeAnswered call after data next hnext =>
      have hread : Asked config.client
          [.sip (.read (some call) (fromUtf8Lossy data.val))] := hunsent (by simp)
      exact hread.append (parked_bare hnext _)

theorem registeredTo_bare (c : SipClient) (r : RegisterState) :
    ∀ o ∈ (registeredTo r).2, o.Bare c := by
  cases r with
  | returned result => cases result <;> simp [registeredTo, stopWith, BridgeShown.Bare]
  | _ => simp [registeredTo, panicWith, BridgeShown.Bare]

theorem bridge_asked {config : Config} (hc : config.client.Presentable) {b b' : BridgeState}
    {e : BridgeEvent} {shown : List BridgeShown} {q : AgentState} (he : e.Hexed)
    (hok : b.phase.Ok) (hphase : b.phase.Drawn config.client) (hq : Follows b.phase q)
    (h : (bridgeMachine config).step b e = some (b', shown)) : Asked config.client shown := by
  by_cases hregistering : ∃ r, b.phase = .registering r
  · obtain ⟨r, hr⟩ := hregistering
    obtain ⟨e', r', acts, rfl, hstep, -, rfl⟩ := registering_of_step hr h
    rw [hr] at hphase
    exact (register_asked hc he hphase hstep).append (registeredTo_bare _ r')
  · exact phase_asked hc he (fun r hr => hregistering ⟨r, hr⟩) hphase hq (bridgeStep_ok hok h).1

theorem authorized_run {config : Config} (hc : config.client.Presentable)
    {events : List BridgeEvent} {b : BridgeState} {trace : List BridgeShown}
    (hevents : ∀ e ∈ events, e.Hexed)
    (hrun : (bridgeMachine config).run bridgeStart events = some (b, trace)) :
    (servers config.client).Accepts none trace := by
  have hevery := (bridgeMachine config).guarded_of_forall_mem hevents bridgeStart
  have hstart : Follows bridgeStart.phase .opening := rfl
  refine ((servers config.client).accepts_of_run
    (R := fun b _ => b.phase.Ok ∧ b.phase.Drawn config.client ∧ ∃ q, Follows b.phase q) ?_
    ⟨bridgeStart_ok, trivial, .opening, hstart⟩ hevery hrun).1
  rintro b last e b' shown ⟨hok, hdrawn, q, hq⟩ hstep he
  have hasked := bridge_asked hc he hok hdrawn hq hstep
  exact ⟨hasked.accepted hc last, (bridgeStep_ok hok hstep).2,
    (bridge_fits hc he hok hdrawn hstep).2, _, (bridge_keeps hok hq hstep).2⟩

/-- The response that was read last. -/
def lastRead (trace : List BridgeShown) : Option Str :=
  (trace.filterMap fun
    | .sip (.read _ resp) => some resp
    | _ => none).getLast?

theorem servers_after (c : SipClient) (last : Option Str) (trace : List BridgeShown) :
    (servers c).after last trace = (lastRead trace).or last := by
  induction trace generalizing last with
  | nil => rfl
  | cons o trace ih =>
      rw [(servers c).after_cons, ih]
      cases o with
      | sip o =>
          cases o with
          | read call resp => simp [lastRead, servers, List.getLast?_cons]
          | sent site request => rfl
          | answered call resp => rfl
      | media o => rfl
      | dialled tail => rfl
      | drained bytes => rfl
      | waiting => rfl
      | stopped => rfl

/-! ## The challenges that are answered -/

/-- The event brings a first challenge that can be found and used, and what answers it can
be sent. -/
inductive OwesAnswer : Phase → BridgeEvent → Prop where
  | registrar (callId tag : Str) (data : Datagram) (retry : RegisterRetry)
      (hstatus : parseStatusCode (fromUtf8Lossy data.val) = some 401)
      (hread : HeaderComparable (fromUtf8Lossy data.val) (lit "WWW-Authenticate"))
      (husable : (usableChallenge 401 (fromUtf8Lossy data.val)).isSome = true)
      (hsent : retry.sent = true) :
      OwesAnswer (.registering (.awaiting callId tag)) (.register (.first (some data) retry))
  | callee (session : Session) (drain : Drain (Except InviteError Call)) (l : InviteLoop)
      (data : Datagram) (inputs : AnswerInputs) (ackSent : Bool) (status : ℕ)
      (hstatus : status = 401 ∨ status = 407)
      (hadmitted : Admitted l (fromUtf8Lossy data.val) status)
      (hchallenge : FirstUsableChallenge l status (fromUtf8Lossy data.val))
      (hack : inputs.ackSent = true) (hinvite : inputs.inviteSent = true) :
      OwesAnswer (.setup session drain (.receiving l))
        (.invite (.received (some data) inputs) ackSent)

theorem registerAuth_mem {c : SipClient} {callId tag : Str} {data : Datagram}
    {retry : RegisterRetry} {r' : RegisterState} {acts : List SipShown}
    (hstatus : parseStatusCode (fromUtf8Lossy data.val) = some 401)
    (hread : HeaderComparable (fromUtf8Lossy data.val) (lit "WWW-Authenticate"))
    (husable : (usableChallenge 401 (fromUtf8Lossy data.val)).isSome = true)
    (hsent : retry.sent = true)
    (h : RegisterStepped c (.awaiting callId tag) (.first (some data) retry) r' acts) :
    ∃ request, .sent .registerAuth request ∈ acts := by
  cases h with
  | first _ _ _ _ acts hfirst =>
      cases (registerFirst_eq_ok c (some data) retry hfirst).2 with
      | accepted hok => simp [hstatus] at hok
      | retried _ hdigest _ => exact ⟨_, List.mem_cons_of_mem _ List.mem_cons_self⟩
      | unsent _ _ hunsent => simp [hsent] at hunsent
      | refused _ hother =>
          obtain ⟨digest, hdigest⟩ := Option.isSome_iff_exists.mp husable
          rw [hother callId tag rfl hstatus] at hdigest
          contradiction
  | firstPanics _ _ _ _ why hfirst =>
      exact absurd (fun _ => hread) (registerFirst_eq_error c retry hfirst)

theorem authInvite_mem {c : SipClient} {l : InviteLoop} {data : Datagram}
    {inputs : AnswerInputs} {s' : InviteState} {acts : List SipShown} {status : ℕ}
    (hstatus : status = 401 ∨ status = 407)
    (hadmitted : Admitted l (fromUtf8Lossy data.val) status)
    (hchallenge : FirstUsableChallenge l status (fromUtf8Lossy data.val))
    (hack : inputs.ackSent = true) (hinvite : inputs.inviteSent = true)
    (h : InviteStepped c (.receiving l) (.received (some data) inputs) s' acts) :
    ∃ request, .sent .authInvite request ∈ acts := by
  obtain ⟨hfirst, ⟨found, hfound⟩, husable⟩ := hchallenge
  have hfirst' : (l.tagged (fromUtf8Lossy data.val)).authRetryDone = false := hfirst
  cases h with
  | response _ _ _ next shown hresponse =>
      cases hresponse with
      | unparsed hnone => simp [hadmitted.status_eq] at hnone
      | stale _ _ hstale => simp [hadmitted.fresh] at hstale
      | admitted status' _ hadmitted' hdispatch =>
          obtain rfl := hadmitted.status_unique hadmitted'
          cases hdispatch with
          | challenged _ _ hchallenge =>
              cases hchallenge with
              | again hdone => simp [hfirst'] at hdone
              | unusable _ _ _ hnone => simp [hnone] at husable
              | ackUnsent _ _ _ _ hunsent => simp [hack] at hunsent
              | retryUnsent _ _ _ _ _ hunsent => simp [hinvite] at hunsent
              | retried digest _ _ _ _ _ =>
                  exact ⟨_, List.mem_cons_of_mem _ (List.mem_cons_of_mem _ List.mem_cons_self)⟩
          | _ => omega
  | crash _ _ _ why hresponse =>
      cases hresponse with
      | badCseq _ _ _ hpanic => simp [hadmitted.fresh] at hpanic
      | badTo _ _ _ _ hpanic => simp [hadmitted.remembered] at hpanic
      | admitted status' _ hadmitted' hdispatch =>
          obtain rfl := hadmitted.status_unique hadmitted'
          cases hdispatch with
          | challenged _ _ hchallenge =>
              cases hchallenge with
              | panicked _ _ hlookup => simp [hfound] at hlookup

/-- The step that reads such a challenge sends credentials. -/
theorem authorizes_of_owed {config : Config} {b b' : BridgeState} {e : BridgeEvent}
    {shown : List BridgeShown} (hok : b.phase.Ok) (howed : OwesAnswer b.phase e)
    (h : (bridgeMachine config).step b e = some (b', shown)) :
    ∃ site request, Site.Authorizes site ∧ .sip (.sent site request) ∈ shown := by
  obtain ⟨calls, phase⟩ := b
  obtain ⟨calls', phase'⟩ := b'
  have hstepped : PhaseStepped config phase e phase' shown := (bridgeStep_ok hok h).1
  cases howed with
  | registrar callId tag data retry hstatus hread husable hsent =>
      obtain ⟨e', r', acts, he, hstep, -, rfl⟩ := registering_of_step rfl h
      obtain rfl := BridgeEvent.register.inj he
      obtain ⟨request, hmem⟩ :=
        registerAuth_mem hstatus hread husable hsent (registerStepped_of_step hstep)
      exact ⟨_, request, Or.inl rfl, List.mem_append_left _ (List.mem_map_of_mem hmem)⟩
  | callee session drain l data inputs ackSent status hstatus hadmitted hchallenge hack hinvite =>
      have hsends : ∀ {s' : InviteState} {acts : List SipShown},
          InviteStepped config.client (.receiving l) (.received (some data) inputs) s' acts →
            ∃ request, BridgeShown.sip (.sent .authInvite request) ∈ acts.map .sip := by
        intro s' acts hstep
        obtain ⟨request, hmem⟩ := authInvite_mem hstatus hadmitted hchallenge hack hinvite hstep
        exact ⟨request, List.mem_map_of_mem hmem⟩
      cases hstepped with
      | invites _ _ _ _ _ _ acts hstep hreturned hpanicked =>
          obtain ⟨request, hmem⟩ := hsends hstep
          exact ⟨_, request, Or.inr rfl, hmem⟩
      | inviteFails _ _ _ _ _ _ acts next hstep hfail hnext =>
          obtain ⟨request, hmem⟩ := hsends hstep
          exact ⟨_, request, Or.inr rfl, List.mem_append_left _ hmem⟩
      | inviteReturns _ _ _ _ _ acts call next hstep hnext =>
          obtain ⟨request, hmem⟩ := hsends hstep
          exact ⟨_, request, Or.inr rfl, List.mem_append_left _ hmem⟩
      | drains _ _ _ _ _ dropped he hdrain => exact he.elim
      | drainFails _ _ _ _ dropped next he hnext => exact he.elim

end SlmodemSipBridge.Bridge
