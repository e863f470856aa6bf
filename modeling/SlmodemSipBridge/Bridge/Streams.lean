import SlmodemSipBridge.Bridge.Steps
import SlmodemSipBridge.Media.Outgoing

/-!
# The audio of every call

A bridge relays one call after another.  Its media observations, cut at the
accepted dial commands, are the traces of one fresh relay for each call, so what
holds of a relay alone holds of every call of a bridge.
-/

namespace SlmodemSipBridge.Bridge

open Rust Transition Media Rtp Codec Sip

/-! ## The media of each call -/

/-- The media shown before the last accepted dial command, call by call, and since
then. -/
structure MediaRecord where
  earlier : List (List RelayShown)
  current : List RelayShown

/-- The record after an observation. -/
def MediaRecord.next (q : MediaRecord) : BridgeShown → MediaRecord
  | .media o => { q with current := q.current ++ [o] }
  | .dialled _ => { earlier := q.earlier ++ [q.current], current := [] }
  | _ => q

/-- The recorder of the media of each call. -/
def mediaRecorder : Monitor MediaRecord BridgeShown where
  next := MediaRecord.next
  allows _ _ := True

/-- The media of a trace, cut at the accepted dial commands. -/
def callMedia (trace : List BridgeShown) : List (List RelayShown) :=
  let q := mediaRecorder.after ⟨[], []⟩ trace
  q.earlier ++ [q.current]

/-- The reads that a record holds. -/
def MediaRecord.reads (q : MediaRecord) : List (List UInt8) :=
  (q.earlier ++ [q.current]).flatMap takenReads

/-- The bytes of audio that an event gives the bridge during a call. -/
def BridgeEvent.reads : BridgeEvent → List (List UInt8)
  | .media e => e.reads
  | _ => []

/-- What a relay shows that is started for a call. -/
def RelayTrace (media : List RelayShown) : Prop :=
  ∃ remote events t, relayMachine.run (relayStart (createRtpSender rtpSsrc) remote) events =
    some (t, media)

theorem relayTrace_nil : RelayTrace [] :=
  ⟨⟨.v4 ⟨0, 0, 0, 0⟩, 0⟩, [], _, rfl⟩

/-! ## The record of a run -/

/-- The media of the current call is that of the relay of the phase. -/
def Hosted (media : List RelayShown) : Phase → Prop
  | .binding _ _ => media = []
  | .setup _ _ _ => media = []
  | .relaying _ _ _ relay =>
      ∃ remote events,
        relayMachine.run (relayStart (createRtpSender rtpSsrc) remote) events =
          some (relay, media)
  | _ => RelayTrace media

/-- The record belongs to the phase. -/
structure Recorded (phase : Phase) (q : MediaRecord) : Prop where
  earlier : ∀ media ∈ q.earlier, RelayTrace media
  current : Hosted q.current phase

/-- Whatever the phase, what is recorded is the trace of a relay. -/
theorem Hosted.relayTrace {media : List RelayShown} {phase : Phase} (h : Hosted media phase) :
    RelayTrace media := by
  cases phase with
  | binding dial session =>
      obtain rfl : media = [] := h
      exact relayTrace_nil
  | setup session drain invite =>
      obtain rfl : media = [] := h
      exact relayTrace_nil
  | relaying session call polling relay =>
      obtain ⟨remote, events, hrun⟩ := h
      exact ⟨remote, events, relay, hrun⟩
  | _ => exact h

theorem Parked.hosted {next : BridgeNext} (h : Parked next) {media : List RelayShown}
    (hmedia : RelayTrace media) : Hosted media next.1 := by
  cases h <;> exact hmedia

theorem SetupEnd.hosted {call : Call} {ackSent : Bool} {next : BridgeNext}
    (h : SetupEnd call ackSent next) : Hosted [] next.1 := by
  cases h with
  | noRemoteRtp _ => exact relayTrace_nil
  | ackUnsent _ _ _ _ => exact relayTrace_nil
  | acked session remoteRtp _ _ _ _ => exact ⟨remoteRtp, [], rfl⟩
  | unanswered session remoteRtp _ _ _ _ _ => exact ⟨remoteRtp, [], rfl⟩

/-- A step of the relay continues its run. -/
theorem hosted_relayedTo {session : Session} {call : Call} {polling : Bool}
    {relay relay' : Relay} {e : RelayEvent} {media shown : List RelayShown}
    (h : Hosted media (.relaying session call polling relay))
    (hstep : relayStep relay e = some (relay', shown)) :
    Hosted (media ++ shown) (relayedTo session call polling relay') := by
  obtain ⟨remote, events, hrun⟩ := h
  have hmore : relayMachine.run (relayStart (createRtpSender rtpSsrc) remote)
      (events ++ [e]) = some (relay', media ++ shown) :=
    relayMachine.run_append_of_run hrun (relayMachine.run_of_step hstep)
  cases relay' with
  | running loops => exact ⟨remote, events ++ [e], hmore⟩
  | returned result => cases result <;> exact ⟨remote, events ++ [e], _, hmore⟩
  | panicked why => exact ⟨remote, events ++ [e], _, hmore⟩

/-- An observation that is neither media nor a dial command is not recorded. -/
def Unrecorded : BridgeShown → Prop
  | .media _ => False
  | .dialled _ => False
  | _ => True

theorem mediaRecorder_ignores {o : BridgeShown} (h : Unrecorded o) :
    mediaRecorder.Ignores o := by
  cases o with
  | media _ => exact h.elim
  | dialled _ => exact h.elim
  | _ => exact fun q => ⟨trivial, rfl⟩

theorem after_unrecorded {shown : List BridgeShown} (h : ∀ o ∈ shown, Unrecorded o)
    (q : MediaRecord) : mediaRecorder.after q shown = q :=
  (mediaRecorder.accepts_of_ignored (fun o ho => mediaRecorder_ignores (h o ho)) q).2

theorem unrecorded_map_sip (acts : List SipShown) :
    ∀ o ∈ acts.map BridgeShown.sip, Unrecorded o := by
  intro o ho
  obtain ⟨act, -, rfl⟩ := List.mem_map.mp ho
  trivial

theorem unrecorded_map_drained (dropped : List (List UInt8)) :
    ∀ o ∈ dropped.map BridgeShown.drained, Unrecorded o := by
  intro o ho
  obtain ⟨bytes, -, rfl⟩ := List.mem_map.mp ho
  trivial

theorem Parked.unrecorded {next : BridgeNext} (h : Parked next) :
    ∀ o ∈ next.2, Unrecorded o := by
  cases h <;> simp [Unrecorded]

theorem SetupEnd.unrecorded {call : Call} {ackSent : Bool} {next : BridgeNext}
    (h : SetupEnd call ackSent next) : ∀ o ∈ next.2, Unrecorded o := by
  cases h <;> simp [Unrecorded]

theorem after_map_media (q : MediaRecord) (shown : List RelayShown) :
    mediaRecorder.after q (shown.map .media) =
      { q with current := q.current ++ shown } := by
  induction shown generalizing q with
  | nil => simp
  | cons o shown ih =>
      rw [List.map_cons, Monitor.after_cons, ih]
      simp [mediaRecorder, MediaRecord.next]

/-- The record after a step belongs to the next phase and holds what the step read. -/
structure Records (phase' : Phase) (e : BridgeEvent) (q q' : MediaRecord) : Prop where
  recorded : Recorded phase' q'
  reads : q'.reads = q.reads ++ e.reads

/-- The steps that record nothing leave a record that belongs to the next phase. -/
theorem records_of_unrecorded {phase phase' : Phase} {e : BridgeEvent} {q : MediaRecord}
    {shown : List BridgeShown} (h : Recorded phase q) (hshown : ∀ o ∈ shown, Unrecorded o)
    (hphase' : Hosted q.current phase') (he : e.reads = []) :
    Records phase' e q (mediaRecorder.after q shown) := by
  rw [after_unrecorded hshown]
  exact ⟨⟨h.earlier, hphase'⟩, by rw [he, List.append_nil]⟩

theorem BridgeEvent.IsDrain.reads {e : BridgeEvent} (h : e.IsDrain) : e.reads = [] := by
  cases e with
  | setupRead read => rfl
  | setupTick written => rfl
  | _ => exact h.elim

theorem records_step {config : Config} {phase phase' : Phase} {e : BridgeEvent}
    {q : MediaRecord} {shown : List BridgeShown} (h : Recorded phase q)
    (hstepped : PhaseStepped config phase e phase' shown) :
    Records phase' e q (mediaRecorder.after q shown) := by
  have htrace : RelayTrace q.current := h.current.relayTrace
  cases hstepped with
  | registers r e next acts hshown hnext =>
      have hphase' : Hosted q.current next.1 ∧ ∀ o ∈ next.2, Unrecorded o := by
        cases hnext with
        | running r => exact ⟨htrace, by simp⟩
        | ready => exact ⟨htrace, by simp⟩
        | parked _ hnext => exact ⟨hnext.hosted htrace, hnext.unrecorded⟩
      refine records_of_unrecorded h ?_ hphase'.1 rfl
      exact List.forall_mem_append.mpr ⟨unrecorded_map_sip acts, hphase'.2⟩
  | readied written next hnext =>
      exact records_of_unrecorded h hnext.unrecorded (hnext.hosted htrace) rfl
  | waits lineBuf e lineBuf' => exact records_of_unrecorded h (by simp) htrace rfl
  | waitEnds lineBuf e next hnext =>
      exact records_of_unrecorded h hnext.unrecorded (hnext.hosted htrace) rfl
  | dials lineBuf e dial session tail hsession =>
      -- The current media is filed, and the new call has none.
      refine ⟨⟨?_, rfl⟩, ?_⟩
      · change ∀ media ∈ q.earlier ++ [q.current], RelayTrace media
        rw [List.forall_mem_append]
        exact ⟨h.earlier, by simpa using htrace⟩
      · change ((q.earlier ++ [q.current]) ++ [[]]).flatMap takenReads = q.reads ++ []
        rw [List.flatMap_append]
        rfl
  | binds dial session port sessionId args =>
      exact records_of_unrecorded h (by simp) h.current rfl
  | bindFails dial session port sessionId next hnext =>
      exact records_of_unrecorded h hnext.unrecorded (hnext.hosted htrace) rfl
  | invites session drain invite invite' e ackSent acts hstep hreturned hpanicked =>
      exact records_of_unrecorded h (unrecorded_map_sip acts) h.current rfl
  | inviteFails session drain invite invite' e ackSent acts next hstep hfail hnext =>
      exact records_of_unrecorded h
        (List.forall_mem_append.mpr ⟨unrecorded_map_sip acts, hnext.unrecorded⟩)
        (hnext.hosted htrace) rfl
  | inviteReturns session drain invite e ackSent acts call next hstep hnext =>
      have hnil : q.current = [] := h.current
      refine records_of_unrecorded h
        (List.forall_mem_append.mpr ⟨unrecorded_map_sip acts, hnext.unrecorded⟩) ?_ rfl
      rw [hnil]
      exact hnext.hosted
  | drains session drain drain' invite e dropped he hdrain =>
      exact records_of_unrecorded h (unrecorded_map_drained dropped) h.current he.reads
  | drainFails session drain invite e dropped next he hnext =>
      exact records_of_unrecorded h
        (List.forall_mem_append.mpr ⟨unrecorded_map_drained dropped, hnext.unrecorded⟩)
        (hnext.hosted htrace) he.reads
  | relays session call polling relay relay' e media hstep =>
      rw [relayStops_of_step hstep, List.append_nil, after_map_media]
      refine ⟨⟨h.earlier, hosted_relayedTo h.current hstep⟩, ?_⟩
      change (q.earlier ++ [q.current ++ media]).flatMap takenReads = q.reads ++ e.reads
      rw [MediaRecord.reads, List.flatMap_append, List.flatMap_append, List.flatMap_singleton,
        List.flatMap_singleton, takenReads_append, takenReads_of_step hstep, List.append_assoc]
  | pollSilent session call relay ackSent =>
      exact records_of_unrecorded h (by simp) h.current rfl
  | polls session call relay data ackSent polling polled acks hresponse hpolling =>
      refine records_of_unrecorded h ?_ h.current rfl
      exact List.forall_mem_cons.mpr ⟨trivial, unrecorded_map_sip acks⟩
  | pollCrashes session call relay data ackSent why hresponse =>
      exact records_of_unrecorded h (by simp [Unrecorded]) htrace rfl
  | byes call after branchHash =>
      exact records_of_unrecorded h (by simp [Unrecorded]) htrace rfl
  | byeFails call after branchHash next hnext =>
      exact records_of_unrecorded h hnext.unrecorded (hnext.hosted htrace) rfl
  | byeSilent call after next hnext =>
      exact records_of_unrecorded h hnext.unrecorded (hnext.hosted htrace) rfl
  | byeAnswered call after data next hnext =>
      refine records_of_unrecorded h ?_ (hnext.hosted htrace) rfl
      exact List.forall_mem_cons.mpr ⟨trivial, hnext.unrecorded⟩

/-- A run keeps a record that belongs to the phase, and records what it reads. -/
theorem records_of_run {config : Config} {b b' : BridgeState} {events : List BridgeEvent}
    {trace : List BridgeShown} {q : MediaRecord} (hok : b.phase.Ok)
    (h : Recorded b.phase q)
    (hrun : (bridgeMachine config).run b events = some (b', trace)) :
    Recorded b'.phase (mediaRecorder.after q trace) ∧
      (mediaRecorder.after q trace).reads = q.reads ++ events.flatMap BridgeEvent.reads := by
  induction events generalizing b q trace with
  | nil =>
      obtain ⟨rfl, rfl⟩ := (bridgeMachine config).run_nil_eq_some_iff.mp hrun
      exact ⟨h, (List.append_nil _).symm⟩
  | cons e events ih =>
      obtain ⟨b₁, shown, later, hstep, hrest, rfl⟩ :=
        (bridgeMachine config).run_cons_eq_some_iff.mp hrun
      obtain ⟨hstepped, hok'⟩ := bridgeStep_ok hok hstep
      obtain ⟨hrecorded, hreads⟩ := records_step h hstepped
      obtain ⟨hlast, hall⟩ := ih hok' hrecorded hrest
      rw [Monitor.after_append]
      refine ⟨hlast, ?_⟩
      rw [hall, hreads, List.flatMap_cons, List.append_assoc]

theorem recorded_start : Recorded bridgeStart.phase ⟨[], []⟩ :=
  ⟨by simp, relayTrace_nil⟩

/-- The media of each call of a bridge is the trace of a relay of its own. -/
theorem relayTrace_of_run {config : Config} {events : List BridgeEvent} {b : BridgeState}
    {trace : List BridgeShown}
    (hrun : (bridgeMachine config).run bridgeStart events = some (b, trace)) :
    ∀ media ∈ callMedia trace, RelayTrace media := by
  obtain ⟨hrecorded, -⟩ := records_of_run bridgeStart_ok recorded_start hrun
  intro media hmem
  rcases List.mem_append.mp hmem with hmem | hmem
  · exact hrecorded.earlier media hmem
  · rw [List.mem_singleton.mp hmem]
    exact hrecorded.current.relayTrace

/-! ## The audio of a call -/

/-- The RTP stream of a call: its packets are numbered and stamped from zero on with
the bridge's SSRC, go to one endpoint, and carry the codes of the whole samples that
were taken from slmodemd for this call. -/
structure StreamOf (media : List RelayShown) : Prop where
  stamped : ∀ n packet, (sentPackets media)[n]? = some packet →
    seqOf packet = UInt16.ofNat n ∧
      timestampOf packet = timestampIncrement * UInt32.ofNat n ∧ ssrcOf packet = rtpSsrc
  directed : ∃ endpoint, ∀ packet remote, .packet packet remote ∈ media → remote = endpoint
  spoken : ∃ list : List (List UInt8),
    (sentPackets media).map parsePacket = list.map (fun p => .ok (some p)) ∧
      encodeUlaw ((takenReads media).flatten.take (2 * ((takenReads media).flatten.length / 2))) =
        .ok list.flatten

/-- A relay sends to the endpoint that it was started with. -/
theorem directed_of_relayTrace {media : List RelayShown} (h : RelayTrace media) :
    ∃ endpoint, ∀ packet remote, .packet packet remote ∈ media → remote = endpoint := by
  obtain ⟨endpoint, events, t, hrun⟩ := h
  refine ⟨endpoint, ?_⟩
  have hdirected : ∀ o ∈ media, ∀ packet remote, o = .packet packet remote →
      remote = endpoint := by
    refine (relayMachine.forall_mem_shown
      (I := fun s => ∀ loops, s = .running loops → loops.remoteRtp = endpoint) ?_ ?_ hrun).1
    · intro s e s' shown hs hstep
      cases s with
      | returned result => simp [relayMachine, relayStep] at hstep
      | panicked why => simp [relayMachine, relayStep] at hstep
      | running loops =>
          have hsame : loops.remoteRtp = endpoint := hs loops rfl
          constructor
          · rintro o ho packet remote rfl
            rw [packet_mem_relayStep hstep ho, hsame]
          · rintro loops' rfl
            rw [relayStep_remoteRtp hstep, hsame]
    · intro loops hloops
      rw [← Relay.running.inj hloops]
  intro packet remote hmem
  exact hdirected _ hmem packet remote rfl

/-- What a relay that is started for a call shows is the audio of a call. -/
theorem callAudio_of_relayTrace {media : List RelayShown} (h : RelayTrace media) :
    StreamOf media := by
  have hdirected := directed_of_relayTrace h
  obtain ⟨endpoint, events, t, hrun⟩ := h
  obtain ⟨⟨hsent, -⟩, -⟩ := outgoing_of_run hrun
  set stream := (takenReads media).flatten with hstream
  have hsize : ∀ p ∈ payloads [] (takenReads media), p ≠ [] := by
    intro p hp
    have hpos := (length_of_mem_payloads (by simp)
      (fun read hread => length_of_mem_takenReads hrun hread) hp).1
    exact List.length_pos_iff.mp hpos
  have hpackets : sentPackets media =
      packetize (createRtpSender rtpSsrc) (payloads [] (takenReads media)) := hsent
  refine
    { stamped := ?_
      directed := hdirected
      spoken := ⟨payloads [] (takenReads media), ?_, ?_⟩ }
  · intro n packet hpacket
    rw [hpackets, getElem?_packetize, Option.map_eq_some_iff] at hpacket
    obtain ⟨payload, -, rfl⟩ := hpacket
    simp [advanced, createRtpSender]
  · rw [hpackets, map_parsePacket_packetize _ hsize]
  · have hflatten : (payloads [] (takenReads media)).flatten =
        ulawOf (stream.take (2 * (stream.length / 2))) := by
      have hnil : ([] : List UInt8).length < 2 := by simp
      simpa only [List.nil_append, Framing.wholeLength] using
        payloads_flatten hnil (takenReads media)
    rw [hflatten]
    refine encodeUlaw_eq_ok ?_
    rw [List.length_take, Nat.min_eq_left (Nat.mul_div_le _ _)]
    exact Nat.dvd_mul_right 2 _

/-- Every call of every run of the bridge has an RTP stream of its own, however its
media is interleaved with polls, and whatever calls came before; the streams together
carry the audio that slmodemd's reads gave the relays, in their order. -/
theorem bridge_callAudio {config : Config} {events : List BridgeEvent} {b : BridgeState}
    {trace : List BridgeShown}
    (hrun : (bridgeMachine config).run bridgeStart events = some (b, trace)) :
    (∀ media ∈ callMedia trace, StreamOf media) ∧
      (callMedia trace).flatMap takenReads = events.flatMap BridgeEvent.reads :=
  ⟨fun media hmem => callAudio_of_relayTrace (relayTrace_of_run hrun media hmem),
    (records_of_run bridgeStart_ok recorded_start hrun).2⟩

/-- One sample is sent after the early media of the first call. -/
theorem bridge_callAudio_oneSample :
    ∃ t trace,
      (bridgeMachine trunkConfig).run bridgeStart
          (trunkRinging ++ [.media (.slRead (some oneSample) true)]) = some (t, trace) ∧
        (callMedia trace).map (fun media => (sentPackets media).length) = [0, 1] ∧
        (∀ media ∈ callMedia trace, StreamOf media) ∧
        (callMedia trace).flatMap takenReads = [oneSample.val] := by
  have hsent : ((bridgeMachine trunkConfig).run bridgeStart
      (trunkRinging ++ [.media (.slRead (some oneSample) true)])).map
        (fun end_ => (callMedia end_.2).map fun media => (sentPackets media).length) =
          some [0, 1] := by
    decide +kernel
  obtain ⟨⟨t, trace⟩, hrun, hcounts⟩ := Option.map_eq_some_iff.mp hsent
  obtain ⟨hstreams, hreads⟩ := bridge_callAudio hrun
  have hevents : List.flatMap BridgeEvent.reads
      (trunkRinging ++ [.media (.slRead (some oneSample) true)]) = [oneSample.val] := rfl
  exact ⟨t, trace, hrun, hcounts, hstreams, hreads.trans hevents⟩

end SlmodemSipBridge.Bridge
