import SlmodemSipBridge.Bridge.Reading
import SlmodemSipBridge.Media.Outgoing

/-!
# The media path and the endpoint of the call

`poll_answer` may change the endpoint of a call while its media is relayed to
the endpoint that the relay was started with.
-/

namespace SlmodemSipBridge.Bridge

open Rust Transition Media Rtp Sip

/-- The endpoint of the phase's call. -/
def Phase.remoteRtp (phase : Phase) : Option SocketAddr :=
  phase.call.bind Call.remoteRtp

/-- The endpoint that a packet is sent to. -/
def packetTo : BridgeShown → Option SocketAddr
  | .media (.packet _ remote) => some remote
  | _ => none

/-- The relay sends to the endpoint of the call. -/
def Phase.Coupled (phase : Phase) : Prop :=
  match phase with
  | .relaying _ call _ (.running loops) => call.remoteRtp = some loops.remoteRtp
  | _ => True

instance : DecidablePred Phase.Coupled
  | .relaying _ call _ (.running loops) =>
      inferInstanceAs (Decidable (call.remoteRtp = some loops.remoteRtp))
  | .relaying _ _ _ (.returned _) => isTrue trivial
  | .relaying _ _ _ (.panicked _) => isTrue trivial
  | .registering _ => isTrue trivial
  | .ready => isTrue trivial
  | .waiting _ => isTrue trivial
  | .binding _ _ => isTrue trivial
  | .setup _ _ _ => isTrue trivial
  | .hangingUp _ _ => isTrue trivial
  | .byeSent _ _ => isTrue trivial
  | .returned _ => isTrue trivial
  | .panicked _ => isTrue trivial

/-- Every packet of a step is sent to the endpoint of the call, and the relay
stays coupled to it. -/
def FollowsCall (b : BridgeState) (_ : BridgeEvent) (b' : BridgeState)
    (shown : List BridgeShown) : Prop :=
  (∀ o ∈ shown, ∀ remote ∈ packetTo o, b.phase.remoteRtp = some remote) ∧
    b'.phase.Coupled

instance (b : BridgeState) (e : BridgeEvent) (b' : BridgeState)
    (shown : List BridgeShown) : Decidable (FollowsCall b e b' shown) := by
  unfold FollowsCall
  infer_instance

/-- A 200 that `poll_answer` reads brings no other endpoint, or never gets to
it since the search for the To header panics. -/
def EndpointKept : Consumed → Prop
  | .byPoll call resp _ =>
      parseStatusCode resp = some 200 → (call.rememberTag resp).toOption.isSome →
        ∀ endpoint ∈ acceptedEndpoint resp, call.remoteRtp = some endpoint
  | _ => True

instance : DecidablePred EndpointKept
  | .byInvite _ _ _ _ => isTrue trivial
  | .byPoll call resp _ =>
      inferInstanceAs (Decidable (parseStatusCode resp = some 200 →
        (call.rememberTag resp).toOption.isSome →
        ∀ endpoint ∈ acceptedEndpoint resp, call.remoteRtp = some endpoint))
  | .byBye _ _ => isTrue trivial

/-! ## The endpoint of the last answer -/

/-- Remembers the endpoint of a call once it is answered, and lets packets to
this endpoint pass. -/
def endpointMonitor : Monitor (Option SocketAddr) BridgeShown where
  next q
    | .sip (.answered call _) => call.remoteRtp
    | .waiting => none
    | _ => q
  allows q
    | .media (.packet _ remote) => ∀ endpoint ∈ q, remote = endpoint
    | _ => True

instance : ∀ q o, Decidable (endpointMonitor.allows q o)
  | q, .media (.packet _ remote) =>
      inferInstanceAs (Decidable (∀ endpoint ∈ q, remote = endpoint))
  | _, .media (.taken _) => isTrue trivial
  | _, .media (.written _) => isTrue trivial
  | _, .sip _ => isTrue trivial
  | _, .dialled _ => isTrue trivial
  | _, .drained _ => isTrue trivial
  | _, .waiting => isTrue trivial
  | _, .stopped => isTrue trivial

/-- What the monitor has seen agrees with the call of the phase. -/
def EndpointSeen : Phase → Option SocketAddr → Prop
  | .relaying _ call _ _, q => ∀ endpoint ∈ q, call.remoteRtp = some endpoint
  | .hangingUp _ _, _ => True
  | .byeSent _ _, _ => True
  | .returned _, _ => True
  | .panicked _, _ => True
  | _, q => q = none

/-! ## One step -/

theorem Parked.coupled {next : BridgeNext} (h : Parked next) : next.1.Coupled := by
  cases h <;> trivial

theorem Parked.packetTo_eq_none {next : BridgeNext} (h : Parked next) :
    ∀ o ∈ next.2, packetTo o = none := by
  cases h <;> simp [packetTo]

theorem SetupEnd.coupled {call : Call} {ackSent : Bool} {next : BridgeNext}
    (h : SetupEnd call ackSent next) : next.1.Coupled := by
  cases h with
  | noRemoteRtp _ => trivial
  | ackUnsent _ _ _ _ => trivial
  | acked session remoteRtp hrtp _ _ _ => exact hrtp
  | unanswered session remoteRtp polling hrtp _ _ _ => exact hrtp

theorem SetupEnd.packetTo_eq_none {call : Call} {ackSent : Bool} {next : BridgeNext}
    (h : SetupEnd call ackSent next) : ∀ o ∈ next.2, packetTo o = none := by
  cases h <;> simp [packetTo]

theorem IsPlain.packetTo_eq_none {o : BridgeShown} (h : IsPlain o) : packetTo o = none := by
  cases h <;> rfl

theorem Phase.BeforeCall.coupled {phase : Phase} (h : phase.BeforeCall) :
    phase.Coupled := by
  cases h <;> trivial

theorem packetTo_of_read (call : Option Call) (resp : Str) (acks : List SipShown)
    {rest : List BridgeShown} (hrest : ∀ o ∈ rest, packetTo o = none) :
    ∀ o ∈ .sip (.read call resp) :: (acks.map .sip ++ rest), packetTo o = none := by
  intro o ho
  rcases List.mem_cons.mp ho with rfl | ho
  · rfl
  rcases List.mem_append.mp ho with ho | ho
  · obtain ⟨ack, -, rfl⟩ := List.mem_map.mp ho
    rfl
  · exact hrest o ho

/-- No packet is sent where a response is read. -/
theorem ReadStepped.packetTo_eq_none {config : Config} {phase phase' : Phase}
    {c : Consumed} {shown : List BridgeShown}
    (h : ReadStepped config phase c phase' shown) : ∀ o ∈ shown, packetTo o = none := by
  have hnone : ∀ o ∈ ([] : List BridgeShown), packetTo o = none := by simp
  cases h with
  | invites session drain l l' resp inputs ackSent acks hresponse =>
      simpa using packetTo_of_read (some l.call) resp acks hnone
  | inviteFails session drain l resp inputs ackSent error acks next hresponse hnext =>
      exact packetTo_of_read (some l.call) resp acks hnext.packetTo_eq_none
  | inviteCrashes session drain l resp inputs ackSent why next hresponse hnext =>
      exact packetTo_of_read (some l.call) resp [] hnext.packetTo_eq_none
  | inviteReturns session drain l resp inputs ackSent call acks next hresponse hnext =>
      exact packetTo_of_read (some l.call) resp acks hnext.packetTo_eq_none
  | polls session call relay resp ackSent polling polled acks hresponse hpolling =>
      simpa using packetTo_of_read (some call) resp acks hnone
  | pollCrashes session call relay resp ackSent why hresponse => simp [packetTo]
  | byeAnswered call after resp next hnext =>
      exact packetTo_of_read (some call) resp [] hnext.packetTo_eq_none

/-- A 200 that is polled keeps the relay coupled exactly when it brings no other
endpoint. -/
theorem polledBy_remoteRtp_iff {call : Call} {remote : SocketAddr} (resp : Str)
    (hcall : call.remoteRtp = some remote) :
    (call.polledBy resp).remoteRtp = some remote ↔
      ∀ endpoint ∈ acceptedEndpoint resp, call.remoteRtp = some endpoint := by
  change (acceptedEndpoint resp).or call.remoteRtp = some remote ↔ _
  cases hsdp : acceptedEndpoint resp with
  | none => simp [hcall]
  | some endpoint => simp [hcall, eq_comm]

theorem ReadStepped.coupled_iff {config : Config} {phase phase' : Phase} {c : Consumed}
    {shown : List BridgeShown} (hok : phase.Ok) (hcoupled : phase.Coupled)
    (h : ReadStepped config phase c phase' shown) :
    phase'.Coupled ↔ EndpointKept c := by
  cases h with
  | invites _ _ _ _ _ _ _ _ _ => exact Iff.rfl
  | inviteFails _ _ _ _ _ _ _ _ next _ hnext => exact iff_of_true hnext.coupled trivial
  | inviteCrashes _ _ _ _ _ _ _ next _ hnext => exact iff_of_true hnext.coupled trivial
  | inviteReturns _ _ _ _ _ _ _ _ next _ hnext => exact iff_of_true hnext.coupled trivial
  | polls session call relay resp ackSent polling polled acks hresponse hpolling =>
      obtain ⟨loops, rfl⟩ := hok.2.1
      rcases hresponse.silent_or_answered with
        ⟨hne, hcall, -⟩ | ⟨h200, hremembered, hcall, -, -⟩
      · apply iff_of_true
        · change polled.call.remoteRtp = some loops.remoteRtp
          rw [hcall]
          exact hcoupled
        · intro h200
          exact absurd h200 hne
      · change polled.call.remoteRtp = some loops.remoteRtp ↔ _
        rw [hcall, polledBy_remoteRtp_iff resp hcoupled]
        simp [EndpointKept, h200, hremembered, Except.toOption]
  | pollCrashes session call relay resp ackSent why hresponse =>
      refine iff_of_true trivial ?_
      cases hresponse with
      | badTo _ hstatus hpanic =>
          intro _ hread
          simp [hpanic, Except.toOption] at hread
  | byeAnswered call after resp next hnext => exact iff_of_true hnext.coupled trivial

/-- Steps that read no response keep the relay coupled. -/
theorem Unread.followsCall {phase phase' : Phase} {shown : List BridgeShown}
    (hok : phase.Ok) (hcoupled : phase.Coupled) (h : Unread phase phase' shown) :
    (∀ o ∈ shown, ∀ remote ∈ packetTo o, phase.remoteRtp = some remote) ∧
      phase'.Coupled := by
  have hnone : ∀ {os : List BridgeShown}, (∀ o ∈ os, packetTo o = none) →
      ∀ o ∈ os, ∀ remote ∈ packetTo o, phase.remoteRtp = some remote := by
    intro os hos o ho remote hremote
    simp [hos o ho] at hremote
  cases h with
  | prepares _ _ _ hbefore hafter hplain =>
      exact ⟨hnone fun o ho => (hplain o ho).packetTo_eq_none, hafter.coupled⟩
  | parks _ plain next hplain hnext =>
      refine ⟨hnone ?_, hnext.coupled⟩
      intro o ho
      rcases List.mem_append.mp ho with ho | ho
      · exact (hplain o ho).packetTo_eq_none
      · exact hnext.packetTo_eq_none o ho
  | relays session call polling relay relay' e relayShown hstep =>
      obtain ⟨loops, rfl⟩ := hok.2.1
      constructor
      · intro o ho remote hremote
        rw [relayStops_of_step hstep, List.append_nil] at ho
        obtain ⟨o', ho', rfl⟩ := List.mem_map.mp ho
        cases o' with
        | packet packet remote' =>
            simp only [packetTo, Option.mem_some_iff] at hremote
            rw [← hremote, packet_mem_relayStep hstep ho']
            exact hcoupled
        | taken bytes => simp [packetTo] at hremote
        | written slin => simp [packetTo] at hremote
      · cases relay' with
        | running loops' =>
            change call.remoteRtp = some loops'.remoteRtp
            rw [relayStep_remoteRtp hstep]
            exact hcoupled
        | returned result => cases result <;> trivial
        | panicked why => trivial
  | pollSilent session call relay => exact ⟨hnone (by simp), hcoupled⟩
  | byes call after branchHash => exact ⟨hnone (by simp [packetTo]), trivial⟩

/-- A step follows the call exactly when the endpoint is kept. -/
theorem followsCall_iff {config : Config} {b b' : BridgeState} {e : BridgeEvent}
    {shown : List BridgeShown} (hok : b.phase.Ok) (hcoupled : b.phase.Coupled)
    (h : PhaseStepped config b.phase e b'.phase shown) :
    FollowsCall b e b' shown ↔ Reads EndpointKept b e := by
  cases hc : consumed b.phase e with
  | none =>
      exact iff_of_true ((unread_of_stepped h hc).followsCall hok hcoupled)
        (reads_of_none hc)
  | some c =>
      have hread := readStepped_of_stepped h hc
      rw [reads_iff hc, ← hread.coupled_iff hok hcoupled]
      refine ⟨fun hfollows => hfollows.2, fun hcoupled' => ⟨?_, hcoupled'⟩⟩
      intro o ho remote hremote
      simp [hread.packetTo_eq_none o ho] at hremote

/-! ## The packets after the answer -/

theorem Phase.BeforeCall.endpointSeen_iff {phase : Phase} (h : phase.BeforeCall)
    (q : Option SocketAddr) : EndpointSeen phase q ↔ q = none := by
  cases h <;> exact Iff.rfl

theorem IsPlain.endpointMonitor_ignores {o : BridgeShown} (h : IsPlain o) :
    endpointMonitor.Ignores o := by
  cases h <;> exact fun q => ⟨trivial, rfl⟩

theorem Parked.endpointSeen {next : BridgeNext} (h : Parked next)
    (q : Option SocketAddr) :
    endpointMonitor.Accepts q next.2 ∧
      EndpointSeen next.1 (endpointMonitor.after q next.2) := by
  cases h with
  | waiting => exact ⟨⟨trivial, trivial⟩, rfl⟩
  | returned result => exact ⟨⟨trivial, trivial⟩, trivial⟩
  | panicked why => exact ⟨⟨trivial, trivial⟩, trivial⟩

/-- After a stretch that the monitor ignores, what it has seen is the same. -/
theorem endpointSeen_append {phase : Phase} {os rest : List BridgeShown}
    {q : Option SocketAddr} (hos : ∀ o ∈ os, endpointMonitor.Ignores o)
    (h : endpointMonitor.Accepts q rest ∧
      EndpointSeen phase (endpointMonitor.after q rest)) :
    endpointMonitor.Accepts q (os ++ rest) ∧
      EndpointSeen phase (endpointMonitor.after q (os ++ rest)) := by
  obtain ⟨haccepts, hafter⟩ := endpointMonitor.ignored_append hos q rest
  rw [haccepts, hafter]
  exact h

theorem endpointSeen_of_ignored {phase : Phase} {os : List BridgeShown}
    {q : Option SocketAddr} (hos : ∀ o ∈ os, endpointMonitor.Ignores o)
    (h : EndpointSeen phase q) :
    endpointMonitor.Accepts q os ∧ EndpointSeen phase (endpointMonitor.after q os) := by
  obtain ⟨haccepts, hafter⟩ := endpointMonitor.accepts_of_ignored hos q
  refine ⟨haccepts, ?_⟩
  rw [hafter]
  exact h

theorem endpointMonitor_ignores_sent {acks : List SipShown}
    (h : ∀ o ∈ acks, ∃ site request, o = .sent site request) (call : Option Call)
    (resp : Str) :
    ∀ o ∈ .sip (.read call resp) :: acks.map BridgeShown.sip,
      endpointMonitor.Ignores o := by
  intro o ho
  rcases List.mem_cons.mp ho with rfl | ho
  · exact fun q => ⟨trivial, rfl⟩
  · obtain ⟨ack, hack, rfl⟩ := List.mem_map.mp ho
    obtain ⟨site, request, rfl⟩ := h ack hack
    exact fun q => ⟨trivial, rfl⟩

theorem SetupEnd.endpointSeen {call : Call} {ackSent : Bool} {next : BridgeNext}
    (h : SetupEnd call ackSent next) {q : Option SocketAddr}
    (hq : ∀ endpoint ∈ q, call.remoteRtp = some endpoint) :
    endpointMonitor.Accepts q next.2 ∧
      EndpointSeen next.1 (endpointMonitor.after q next.2) := by
  cases h with
  | noRemoteRtp _ => exact ⟨trivial, trivial⟩
  | ackUnsent _ _ _ _ => exact ⟨⟨trivial, trivial⟩, trivial⟩
  | acked _ _ _ _ _ _ => exact ⟨⟨trivial, trivial⟩, hq⟩
  | unanswered _ _ _ _ _ _ _ => exact ⟨trivial, hq⟩

theorem ReadStepped.endpointSeen {config : Config} {phase phase' : Phase} {c : Consumed}
    {shown : List BridgeShown} {q : Option SocketAddr} (hseen : EndpointSeen phase q)
    (h : ReadStepped config phase c phase' shown) :
    endpointMonitor.Accepts q shown ∧
      EndpointSeen phase' (endpointMonitor.after q shown) := by
  have hnone : ∀ o ∈ ([] : List SipShown), ∃ site request, o = .sent site request := by
    simp
  cases h with
  | invites session drain l l' resp inputs ackSent acks hresponse =>
      have hsent := sent_of_response hresponse (by simp)
      exact endpointSeen_of_ignored
        (endpointMonitor_ignores_sent hsent (some l.call) resp) hseen
  | inviteFails session drain l resp inputs ackSent error acks next hresponse hnext =>
      have hsent := sent_of_response hresponse (by simp)
      exact endpointSeen_append (endpointMonitor_ignores_sent hsent (some l.call) resp)
        (hnext.endpointSeen q)
  | inviteCrashes session drain l resp inputs ackSent why next hresponse hnext =>
      exact endpointSeen_append
        (endpointMonitor_ignores_sent hnone (some l.call) resp)
        (hnext.endpointSeen q)
  | inviteReturns session drain l resp inputs ackSent call acks next hresponse hnext =>
      have hnone : q = none := hseen
      cases acceptedBy_of_outcome hresponse with
      | earlyMedia status rtpAddr hadmitted hstatus hsome =>
          obtain ⟨haccepts, hafter⟩ := hnext.endpointSeen (q := q) (by simp [hnone])
          exact ⟨⟨trivial, haccepts⟩, hafter⟩
      | answered hadmitted =>
          obtain ⟨haccepts, hafter⟩ := hnext.endpointSeen
            (q := ((l.call.tagged resp).answeredBy resp).remoteRtp) (by simp)
          exact ⟨⟨trivial, trivial, haccepts⟩, hafter⟩
  | polls session call relay resp ackSent polling polled acks hresponse hpolling =>
      rcases hresponse.silent_or_answered with
        ⟨-, hcall, rfl⟩ | ⟨-, -, hcall, -, rfl⟩
      · refine ⟨⟨trivial, trivial⟩, ?_⟩
        change EndpointSeen (.relaying session polled.call polling relay) q
        rw [hcall]
        exact hseen
      · have hanswered : ∀ endpoint ∈ (call.polledBy resp).remoteRtp,
            polled.call.remoteRtp = some endpoint := by
          intro endpoint hendpoint
          rw [hcall]
          exact hendpoint
        cases ackSent with
        | true => exact ⟨⟨trivial, trivial, trivial, trivial⟩, hanswered⟩
        | false => exact ⟨⟨trivial, trivial, trivial⟩, hanswered⟩
  | pollCrashes session call relay resp ackSent why hresponse =>
      exact ⟨⟨trivial, trivial, trivial⟩, trivial⟩
  | byeAnswered call after resp next hnext =>
      exact endpointSeen_append
        (endpointMonitor_ignores_sent hnone (some call) resp)
        (hnext.endpointSeen q)

theorem accepts_media {loops : Loops} {relayShown : List RelayShown}
    {q : Option SocketAddr}
    (hpackets : ∀ data remote, .packet data remote ∈ relayShown → remote = loops.remoteRtp)
    (hq : ∀ endpoint ∈ q, loops.remoteRtp = endpoint) :
    endpointMonitor.Accepts q (relayShown.map .media) ∧
      endpointMonitor.after q (relayShown.map .media) = q := by
  induction relayShown with
  | nil => exact ⟨trivial, rfl⟩
  | cons o rest ih =>
      obtain ⟨haccepts, hafter⟩ :=
        ih fun data remote h => hpackets data remote (List.mem_cons_of_mem o h)
      refine ⟨⟨?_, haccepts⟩, hafter⟩
      cases o with
      | packet data remote =>
          intro endpoint hendpoint
          rw [hpackets data remote List.mem_cons_self]
          exact hq endpoint hendpoint
      | taken bytes => trivial
      | written slin => trivial

theorem Unread.endpointSeen {phase phase' : Phase} {shown : List BridgeShown}
    {q : Option SocketAddr} (hok : phase.Ok) (hcoupled : phase.Coupled)
    (hseen : EndpointSeen phase q) (h : Unread phase phase' shown) :
    endpointMonitor.Accepts q shown ∧
      EndpointSeen phase' (endpointMonitor.after q shown) := by
  cases h with
  | prepares _ _ _ hbefore hafter hplain =>
      have hnone : q = none := (hbefore.endpointSeen_iff q).mp hseen
      exact endpointSeen_of_ignored (fun o ho => (hplain o ho).endpointMonitor_ignores)
        ((hafter.endpointSeen_iff q).mpr hnone)
  | parks _ plain next hplain hnext =>
      exact endpointSeen_append (fun o ho => (hplain o ho).endpointMonitor_ignores)
        (hnext.endpointSeen q)
  | relays session call polling relay relay' e relayShown hstep =>
      obtain ⟨loops, rfl⟩ := hok.2.1
      have hcall : call.remoteRtp = some loops.remoteRtp := hcoupled
      have hq : ∀ endpoint ∈ q, loops.remoteRtp = endpoint := by
        intro endpoint hendpoint
        have := hseen endpoint hendpoint
        simpa [hcall] using this
      have hpackets : ∀ packet remote, .packet packet remote ∈ relayShown →
          remote = loops.remoteRtp := by
        intro packet remote hmem
        exact packet_mem_relayStep hstep hmem
      obtain ⟨haccepts, hafter⟩ := accepts_media hpackets hq
      rw [Monitor.accepts_append, Monitor.after_append, hafter]
      cases relay' with
      | running loops' => exact ⟨⟨haccepts, trivial⟩, hseen⟩
      | returned result => cases result <;> exact ⟨⟨haccepts, trivial⟩, trivial⟩
      | panicked why => exact ⟨⟨haccepts, trivial, trivial⟩, trivial⟩
  | pollSilent session call relay => exact ⟨trivial, hseen⟩
  | byes call after branchHash => exact ⟨⟨trivial, trivial⟩, trivial⟩

/-! ## Whole runs -/

/-- In a run, the relay always sends to the endpoint of its call exactly when no
200 that is polled brings another one; and then every packet after the answer
goes to the endpoint of the answer. -/
theorem bridge_mediaFollowsAnswer_iff
    (config : Config) (events : List BridgeEvent) (t : BridgeState)
    (trace : List BridgeShown)
    (hrun : (bridgeMachine config).run bridgeStart events = some (t, trace)) :
    ((bridgeMachine config).Every FollowsCall bridgeStart events ↔
        (bridgeMachine config).Guarded (Reads EndpointKept) bridgeStart events) ∧
      ((bridgeMachine config).Guarded (Reads EndpointKept) bridgeStart events →
        endpointMonitor.Accepts none trace) := by
  constructor
  · refine (bridgeMachine config).every_congr
      (I := fun b => b.phase.Ok ∧ b.phase.Coupled) ?_ ⟨bridgeStart_ok, trivial⟩ events
    rintro b e b' shown ⟨hok, hcoupled⟩ hstep
    obtain ⟨hstepped, hok'⟩ := bridgeStep_ok hok hstep
    have hiff := followsCall_iff hok hcoupled hstepped
    exact ⟨hiff, fun hkept => ⟨hok', (hiff.mpr hkept).2⟩⟩
  · intro hguarded
    have hstart : (bridgeStart.phase.Ok ∧ bridgeStart.phase.Coupled) ∧
        EndpointSeen bridgeStart.phase none :=
      ⟨⟨bridgeStart_ok, trivial⟩, rfl⟩
    refine (endpointMonitor.accepts_of_run
      (R := fun b q => (b.phase.Ok ∧ b.phase.Coupled) ∧ EndpointSeen b.phase q) ?_
      hstart hguarded hrun).1
    rintro b q e b' shown ⟨⟨hok, hcoupled⟩, hseen⟩ hstep hkept
    obtain ⟨hstepped, hok'⟩ := bridgeStep_ok hok hstep
    have hcoupled' := ((followsCall_iff hok hcoupled hstepped).mpr hkept).2
    cases hc : consumed b.phase e with
    | none =>
        obtain ⟨haccepts, hseen'⟩ :=
          (unread_of_stepped hstepped hc).endpointSeen hok hcoupled hseen
        exact ⟨haccepts, ⟨hok', hcoupled'⟩, hseen'⟩
    | some c =>
        obtain ⟨haccepts, hseen'⟩ :=
          (readStepped_of_stepped hstepped hc).endpointSeen hseen
        exact ⟨haccepts, ⟨hok', hcoupled'⟩, hseen'⟩

/-- Early media, an answer and then a sample from slmodemd. -/
def answeredAfterMedia (answer : Datagram) : List BridgeEvent :=
  trunkSetup ++
    [.invite (.received (some trunkEarlyMedia) answerInputs) true,
      .poll (some answer) true, .media (.slRead (some oneSample) true)]

theorem bridge_mediaFollowsAnswer_bareAnswer :
    ∃ t trace,
      (bridgeMachine trunkConfig).run bridgeStart (answeredAfterMedia trunkBareAnswer) =
          some (t, trace) ∧
        (trace.filterMap packetTo).length = 1 ∧
        (bridgeMachine trunkConfig).Every FollowsCall bridgeStart
          (answeredAfterMedia trunkBareAnswer) ∧
        endpointMonitor.Accepts none trace := by
  -- One evaluation of the run shows both.
  obtain ⟨hsent, hkept⟩ :
      ((bridgeMachine trunkConfig).run bridgeStart
        (answeredAfterMedia trunkBareAnswer)).map
          (fun end_ => (end_.2.filterMap packetTo).length) = some 1 ∧
      (bridgeMachine trunkConfig).Guarded (Reads EndpointKept) bridgeStart
        (answeredAfterMedia trunkBareAnswer) := by
    decide +kernel
  obtain ⟨⟨t, trace⟩, hrun, hlength⟩ := Option.map_eq_some_iff.mp hsent
  obtain ⟨hiff, haccepts⟩ :=
    bridge_mediaFollowsAnswer_iff trunkConfig (answeredAfterMedia trunkBareAnswer) t
      trace hrun
  exact ⟨t, trace, hrun, hlength, hiff.mpr hkept, haccepts hkept⟩

/-- The answer names another endpoint, and the sample still goes to the old one. -/
theorem bridge_mediaFollowsAnswer_movedEndpoint :
    (∃ t trace,
      (bridgeMachine trunkConfig).run bridgeStart (answeredAfterMedia trunkAnswer) =
          some (t, trace) ∧
        ¬ endpointMonitor.Accepts none trace) ∧
      ¬ (bridgeMachine trunkConfig).Every FollowsCall bridgeStart
        (answeredAfterMedia trunkAnswer) := by
  obtain ⟨hrefused, hstray⟩ :
      ((bridgeMachine trunkConfig).run bridgeStart (answeredAfterMedia trunkAnswer)).map
        (fun end_ => decide (endpointMonitor.Accepts none end_.2)) = some false ∧
      ¬ (bridgeMachine trunkConfig).Every FollowsCall bridgeStart
        (answeredAfterMedia trunkAnswer) := by
    decide +kernel
  obtain ⟨⟨t, trace⟩, hrun, haccepts⟩ := Option.map_eq_some_iff.mp hrefused
  exact ⟨⟨t, trace, hrun, of_decide_eq_false haccepts⟩, hstray⟩

end SlmodemSipBridge.Bridge
