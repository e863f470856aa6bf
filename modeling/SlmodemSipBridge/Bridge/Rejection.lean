import SlmodemSipBridge.Bridge.Endpoint
import SlmodemSipBridge.Bridge.Failures
import SlmodemSipBridge.Media.Hangup

/-!
# A rejection during early media

`poll_answer` fails when the call is rejected, and its failure ends the poll.
The relay runs on: `run` waits for it as after an answer.
-/

namespace SlmodemSipBridge.Bridge

open Rust Transition Media Rtp Sip

/-! ## The rest of a relay -/

/-- The relay of a call goes on. -/
def Phase.IsRelaying : Phase → Prop
  | .relaying _ _ _ _ => True
  | _ => False

/-- The relay goes on and its outgoing loop runs. -/
def Phase.IsSending : Phase → Prop
  | .relaying _ _ _ (.running loops) => ∃ l, loops.slToRtp = .running l
  | _ => False

/-- A relay that runs has a loop that runs. -/
def RelayLive : Relay → Prop
  | .running loops => loops.Live
  | _ => True

/-- So does the relay of the phase. -/
def Phase.Live : Phase → Prop
  | .relaying _ _ _ relay => RelayLive relay
  | _ => True

/-- No packet is sent, whatever media comes. -/
def NoFurtherPacket (config : Config) (b : BridgeState) : Prop :=
  ∀ later t trace,
    (bridgeMachine config).run b (List.map .media later) = some (t, trace) →
      ∀ o ∈ trace, packetTo o = none

/-- The relay ends, whatever media comes, within some number of events. -/
def ProceedsToEnd (config : Config) (b : BridgeState) : Prop :=
  ∃ n, ∀ later t trace, later.length = n →
    (bridgeMachine config).run b (List.map .media later) = some (t, trace) →
      ¬ t.phase.IsRelaying

/-! ## The relay within the bridge -/

/-- A run of the relay is one of the bridge that relays with it. -/
theorem run_media (config : Config) (calls : ℕ) (session : Session) (call : Call)
    (polling : Bool) {relay relay' : Relay} {events : List RelayEvent}
    {trace : List RelayShown} (hrun : relayMachine.run relay events = some (relay', trace)) :
    (bridgeMachine config).run ⟨calls, relayedTo session call polling relay⟩
        (List.map .media events) =
      some (⟨calls, relayedTo session call polling relay'⟩, List.map .media trace) := by
  apply relayMachine.run_map (bridgeMachine config)
    (f := fun relay => ⟨calls, relayedTo session call polling relay⟩) ?_ hrun
  intro s e s' shown hstep
  cases s with
  | returned result => simp [relayMachine, relayStep] at hstep
  | panicked why => simp [relayMachine, relayStep] at hstep
  | running loops =>
      have hrelay : relayStep (.running loops) e = some (s', shown) := hstep
      simp [bridgeMachine, bridgeStep, phaseStep, relayedTo, hrelay,
        relayStops_of_step hrelay]

/-! ## A relay never runs dry -/

theorem Parked.live {next : BridgeNext} (h : Parked next) : next.1.Live := by
  cases h <;> trivial

theorem SetupEnd.live {call : Call} {ackSent : Bool} {next : BridgeNext}
    (h : SetupEnd call ackSent next) : next.1.Live := by
  cases h with
  | noRemoteRtp _ => trivial
  | ackUnsent _ _ _ _ => trivial
  | acked _ _ _ _ _ _ => exact Or.inl ⟨_, rfl⟩
  | unanswered _ _ _ _ _ _ _ => exact Or.inl ⟨_, rfl⟩

theorem Phase.BeforeCall.live {phase : Phase} (h : phase.BeforeCall) : phase.Live := by
  cases h <;> trivial

theorem Unread.live {phase phase' : Phase} {shown : List BridgeShown} (hok : phase.Ok)
    (hlive : phase.Live) (h : Unread phase phase' shown) : phase'.Live := by
  cases h with
  | prepares _ _ _ _ hafter _ => exact hafter.live
  | parks _ _ next _ hnext => exact hnext.live
  | relays session call polling relay relay' e shown hstep =>
      obtain ⟨-, ⟨loops, rfl⟩, -⟩ := hok
      cases relay' with
      | running loops' => exact live_of_step hstep
      | returned result => cases result <;> trivial
      | panicked why => trivial
  | pollSilent session call relay => exact hlive
  | byes call after branchHash => trivial

theorem ReadStepped.live {config : Config} {phase phase' : Phase} {c : Consumed}
    {shown : List BridgeShown} (hlive : phase.Live)
    (h : ReadStepped config phase c phase' shown) : phase'.Live := by
  cases h with
  | invites _ _ _ _ _ _ _ _ _ => trivial
  | inviteFails _ _ _ _ _ _ _ _ next _ hnext => exact hnext.live
  | inviteCrashes _ _ _ _ _ _ _ next _ hnext => exact hnext.live
  | inviteReturns _ _ _ _ _ _ _ _ next _ hnext => exact hnext.live
  | polls session call relay _ _ _ _ _ _ _ => exact hlive
  | pollCrashes _ _ _ _ _ _ _ => trivial
  | byeAnswered _ _ _ next hnext => exact hnext.live

theorem bridgeStep_live {config : Config} {b b' : BridgeState} {e : BridgeEvent}
    {shown : List BridgeShown} (hok : b.phase.Ok) (hlive : b.phase.Live)
    (h : (bridgeMachine config).step b e = some (b', shown)) : b'.phase.Live := by
  have hstepped := phaseStepped_of_step hok h
  cases hc : consumed b.phase e with
  | none => exact (unread_of_stepped hstepped hc).live hok hlive
  | some c => exact (readStepped_of_stepped hstepped hc).live hlive

/-! ## After the rejection -/

/-- A live relay does not end of itself, and sends while its outgoing loop runs. -/
theorem relaying_runs_on (config : Config) (calls : ℕ) (session : Session) (call : Call)
    (polling : Bool) {loops : Loops} (hlive : loops.Live) :
    ¬ ProceedsToEnd config ⟨calls, .relaying session call polling (.running loops)⟩ ∧
      (∀ l, loops.slToRtp = .running l →
        ¬ NoFurtherPacket config
          ⟨calls, .relaying session call polling (.running loops)⟩) := by
  constructor
  · rintro ⟨n, hends⟩
    obtain ⟨later, loops', trace, hlength, hrun⟩ := exists_run_of_live hlive n
    have hbridge := run_media config calls session call polling hrun
    exact hends later _ _ hlength hbridge trivial
  · intro l hout hquiet
    obtain ⟨e, loops', packet, taken, hstep⟩ := exists_packet_of_running hout
    have hrun := relayMachine.run_of_step hstep
    have hbridge := run_media config calls session call polling hrun
    have hnone := hquiet [e] _ _ hbridge (.media (.packet packet loops.remoteRtp))
      (by simp)
    simp [packetTo] at hnone

/-- In every run in which `poll_answer` reads a rejection of the call, the relay
goes on through any number of further events, and sends what slmodemd gives it. -/
theorem bridge_rejectionUnheeded
    (config : Config) (events : List BridgeEvent) (b b' : BridgeState)
    (trace shown : List BridgeShown) (e : BridgeEvent) (call : Call) (resp : Str)
    (ackSent : Bool)
    (hrun : (bridgeMachine config).run bridgeStart events = some (b, trace))
    (hread : consumed b.phase e = some (.byPoll call resp ackSent))
    (hfailure : IsFailure (.byPoll call resp ackSent))
    (hstep : (bridgeMachine config).step b e = some (b', shown)) :
    ¬ ProceedsToEnd config b' ∧
      (b'.phase.IsSending → ¬ NoFurtherPacket config b') := by
  have hinvariant : b.phase.Ok ∧ b.phase.Live := by
    apply (bridgeMachine config).invariant_of_step
      (I := fun b => b.phase.Ok ∧ b.phase.Live) ?_ ⟨bridgeStart_ok, trivial⟩ hrun
    rintro b e b' shown ⟨hok, hlive⟩ hstep
    exact ⟨(bridgeStep_ok hok hstep).2, bridgeStep_live hok hlive hstep⟩
  obtain ⟨hok, hlive⟩ := hinvariant
  obtain ⟨hstepped, hok'⟩ := bridgeStep_ok hok hstep
  have hlive' := bridgeStep_live hok hlive hstep
  have hrelaying : ∃ session call' polling relay,
      b'.phase = .relaying session call' polling relay := by
    obtain ⟨-, status, hstatus, hrange⟩ := hfailure
    obtain ⟨calls', phase'⟩ := b'
    have hpolled := readStepped_of_stepped hstepped hread
    generalize b.phase = phase at hpolled
    cases hpolled with
    | polls session _ relay _ _ polling polled acks _ _ => exact ⟨_, _, _, _, rfl⟩
    | pollCrashes session _ relay _ _ why hresponse =>
        cases hresponse with
        | badTo _ h200 _ =>
            rw [h200, Option.mem_some_iff] at hstatus
            omega
  obtain ⟨session, call', polling, relay, hphase⟩ := hrelaying
  obtain ⟨calls', phase'⟩ := b'
  obtain rfl : phase' = .relaying session call' polling relay := hphase
  obtain ⟨-, ⟨loops, rfl⟩, -⟩ := hok'
  obtain ⟨hends, hsends⟩ := relaying_runs_on config calls' session call' polling hlive'
  refine ⟨hends, ?_⟩
  rintro ⟨l, hout⟩
  exact hsends l hout

/-- The events up to a rejection after early media. -/
def trunkRejected : List BridgeEvent := trunkRinging ++ [.poll (some trunkBusy) true]

/-- Whether the event polls a failure. -/
def pollsFailure (b : BridgeState) (e : BridgeEvent) : Bool :=
  match consumed b.phase e with
  | some (.byPoll call resp ackSent) => decide (IsFailure (.byPoll call resp ackSent))
  | _ => false

theorem exists_of_pollsFailure {b : BridgeState} {e : BridgeEvent}
    (h : pollsFailure b e = true) :
    ∃ call resp ackSent, consumed b.phase e = some (.byPoll call resp ackSent) ∧
      IsFailure (.byPoll call resp ackSent) := by
  unfold pollsFailure at h
  split at h
  · next call resp ackSent hconsumed =>
    exact ⟨call, resp, ackSent, hconsumed, of_decide_eq_true h⟩
  · simp at h

/-- The relay of a rejected call goes on. -/
theorem bridge_rejectionUnheeded_busy :
    ∃ b b' trace shown,
      (bridgeMachine trunkConfig).run bridgeStart trunkRinging = some (b, trace) ∧
        (bridgeMachine trunkConfig).step b (.poll (some trunkBusy) true) =
          some (b', shown) ∧
        ¬ ProceedsToEnd trunkConfig b' := by
  have hbusy :
      ((bridgeMachine trunkConfig).run bridgeStart trunkRinging).bind (fun last =>
        ((bridgeMachine trunkConfig).step last.1 (.poll (some trunkBusy) true)).map
          fun _ => pollsFailure last.1 (.poll (some trunkBusy) true)) = some true := by
    decide +kernel
  obtain ⟨⟨b, trace⟩, hrun, hpolled⟩ := Option.bind_eq_some_iff.mp hbusy
  obtain ⟨⟨b', shown⟩, hstep, hfailure⟩ := Option.map_eq_some_iff.mp hpolled
  obtain ⟨call, resp, ackSent, hread, hfailure⟩ := exists_of_pollsFailure hfailure
  exact ⟨b, b', trace, shown, hrun, hstep,
    (bridge_rejectionUnheeded trunkConfig trunkRinging b b' trace shown _ call resp
      ackSent hrun hread hfailure hstep).1⟩

/-- After the rejection a sample of slmodemd still goes out. -/
theorem bridge_rejectionUnheeded_sampleAfterBusy :
    ∃ b trace,
      (bridgeMachine trunkConfig).run bridgeStart trunkRejected = some (b, trace) ∧
        ¬ NoFurtherPacket trunkConfig b := by
  have hsent :
      ((bridgeMachine trunkConfig).run bridgeStart trunkRejected).bind (fun last =>
        ((bridgeMachine trunkConfig).run last.1
          (List.map .media [.slRead (some oneSample) true])).map
            fun later => decide (∀ o ∈ later.2, packetTo o = none)) = some false := by
    decide +kernel
  obtain ⟨⟨b, trace⟩, hrun, hlater⟩ := Option.bind_eq_some_iff.mp hsent
  obtain ⟨⟨t, later⟩, hmedia, hpacket⟩ := Option.map_eq_some_iff.mp hlater
  refine ⟨b, trace, hrun, ?_⟩
  intro hquiet
  exact of_decide_eq_false hpacket (hquiet _ t later hmedia)

end SlmodemSipBridge.Bridge
