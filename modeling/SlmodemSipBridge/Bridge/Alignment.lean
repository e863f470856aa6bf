import SlmodemSipBridge.Bridge.Steps
import SlmodemSipBridge.Media.Outgoing

/-!
# Sample alignment across the phases of a call

The bytes that follow an accepted `DIAL:` line are samples.  Some are dropped
while the bridge waits and while it drains, the others are relayed; where in the
stream the samples start that the relay encodes.
-/

namespace SlmodemSipBridge.Bridge

open Rust Transition Media Rtp Sip

/-- The bytes of one call: those dropped before the relay starts, and what the
relay shows. -/
structure CallAudio where
  dropped : List UInt8
  relayed : List RelayShown

/-- The bytes that the relay takes from slmodemd. -/
def CallAudio.taken (a : CallAudio) : List UInt8 := (takenReads a.relayed).flatten

/-- The bytes that follow the line. -/
def CallAudio.stream (a : CallAudio) : List UInt8 := a.dropped ++ a.taken

/-- The payload that a packet is parsed into. -/
def payloadIn : Checked (Option (List UInt8)) → List UInt8
  | .ok (some payload) => payload
  | _ => []

/-- The µ-law bytes that are sent. -/
def CallAudio.codes (a : CallAudio) : List UInt8 :=
  (sentPackets a.relayed).flatMap fun packet => payloadIn (parsePacket packet)

/-- The code of the sample that starts at an offset of the stream. -/
def CallAudio.codeAt (a : CallAudio) (start : ℕ) : List UInt8 :=
  ulawOf ((a.stream.drop start).take 2)

/-- The offsets of the samples that are encoded. -/
def CallAudio.starts (a : CallAudio) : List ℕ :=
  (List.range a.codes.length).map fun i => a.dropped.length + 2 * i

/-- What is sent is the codes of samples of the stream, each of which starts at
an even offset. -/
def CallAudio.Aligned (a : CallAudio) : Prop :=
  a.codes = a.starts.flatMap a.codeAt ∧ ∀ start ∈ a.starts, 2 ∣ start

instance (a : CallAudio) : Decidable a.Aligned := by
  unfold CallAudio.Aligned
  infer_instance

/-- An observation in the calls so far, the last of them first. -/
def audioNext : List CallAudio → BridgeShown → List CallAudio
  | calls, .dialled tail => ⟨tail, []⟩ :: calls
  | a :: calls, .drained bytes => { a with dropped := a.dropped ++ bytes } :: calls
  | a :: calls, .media o => { a with relayed := a.relayed ++ [o] } :: calls
  | calls, _ => calls

/-- The calls of a trace, the last of them first. -/
def callAudios (trace : List BridgeShown) : List CallAudio := trace.foldl audioNext []

/-! ## The audio of a call is a run of the relay -/

/-- The relay has come to a state, from the start of the call on. -/
def Relayed (a : CallAudio) (relay : Relay) : Prop :=
  ∃ remote events,
    relayMachine.run (relayStart (createRtpSender rtpSsrc) remote) events =
      some (relay, a.relayed)

/-- Calls whose relays have run for a while. -/
def Past (calls : List CallAudio) : Prop := ∀ a ∈ calls, ∃ relay, Relayed a relay

/-- The last call has no relay yet. -/
def Opened (calls : List CallAudio) : Prop :=
  ∃ a rest, calls = a :: rest ∧ a.relayed = [] ∧ Past rest

/-- The calls that are seen agree with the phase. -/
def AudioSeen : Phase → List CallAudio → Prop
  | .binding _ _, calls => Opened calls
  | .setup _ _ _, calls => Opened calls
  | .relaying _ _ _ relay, calls =>
      ∃ a rest, calls = a :: rest ∧ Relayed a relay ∧ Past rest
  | _, calls => Past calls

theorem relayed_start {a : CallAudio} (h : a.relayed = []) (remote : SocketAddr) :
    Relayed a (relayStart (createRtpSender rtpSsrc) remote) :=
  ⟨remote, [], by rw [h, Machine.run_nil]⟩

theorem past_cons {a : CallAudio} {relay : Relay} {rest : List CallAudio}
    (h : Relayed a relay) (hrest : Past rest) : Past (a :: rest) := by
  intro a' ha'
  rcases List.mem_cons.mp ha' with rfl | ha'
  · exact ⟨relay, h⟩
  · exact hrest a' ha'

theorem Opened.past {calls : List CallAudio} (h : Opened calls) : Past calls := by
  obtain ⟨a, rest, rfl, hempty, hrest⟩ := h
  exact past_cons (relayed_start hempty ⟨.v4 ⟨0, 0, 0, 0⟩, 0⟩) hrest

theorem AudioSeen.past {phase : Phase} {calls : List CallAudio}
    (h : AudioSeen phase calls) : Past calls := by
  cases phase with
  | binding dial session => exact Opened.past h
  | setup session drain invite => exact Opened.past h
  | relaying session call polling relay =>
      obtain ⟨a, rest, rfl, hrun, hrest⟩ := h
      exact past_cons hrun hrest
  | _ => exact h

theorem foldl_sip (shown : List SipShown) (calls : List CallAudio) :
    (shown.map BridgeShown.sip).foldl audioNext calls = calls := by
  induction shown with
  | nil => rfl
  | cons o shown ih => cases calls <;> exact ih

theorem foldl_drained (dropped : List (List UInt8)) (a : CallAudio)
    (rest : List CallAudio) :
    (dropped.map BridgeShown.drained).foldl audioNext (a :: rest) =
      { a with dropped := a.dropped ++ dropped.flatten } :: rest := by
  induction dropped generalizing a with
  | nil => simp
  | cons bytes dropped ih => simp [audioNext, ih]

theorem foldl_media (shown : List RelayShown) (a : CallAudio) (rest : List CallAudio) :
    (shown.map BridgeShown.media).foldl audioNext (a :: rest) =
      { a with relayed := a.relayed ++ shown } :: rest := by
  induction shown generalizing a with
  | nil => simp
  | cons o shown ih => simp [audioNext, ih]

theorem Parked.audioSeen {next : BridgeNext} (h : Parked next) {calls : List CallAudio}
    (hpast : Past calls) : AudioSeen next.1 (next.2.foldl audioNext calls) := by
  cases h <;> cases calls <;> exact hpast

theorem SetupEnd.audioSeen {call : Call} {ackSent : Bool} {next : BridgeNext}
    (h : SetupEnd call ackSent next) {calls : List CallAudio} (hopened : Opened calls) :
    AudioSeen next.1 (next.2.foldl audioNext calls) := by
  have hpast := hopened.past
  obtain ⟨a, rest, rfl, hempty, hrest⟩ := hopened
  cases h with
  | noRemoteRtp _ => exact hpast
  | ackUnsent _ _ _ _ => exact hpast
  | acked _ remoteRtp _ _ _ _ => exact ⟨a, rest, rfl, relayed_start hempty remoteRtp, hrest⟩
  | unanswered _ remoteRtp _ _ _ _ _ =>
      exact ⟨a, rest, rfl, relayed_start hempty remoteRtp, hrest⟩

/-- A step of the relay goes on with its run. -/
theorem Relayed.step {a : CallAudio} {relay relay' : Relay} {e : RelayEvent}
    {shown : List RelayShown} (h : Relayed a relay)
    (hstep : relayStep relay e = some (relay', shown)) :
    Relayed { a with relayed := a.relayed ++ shown } relay' := by
  obtain ⟨remote, events, hrun⟩ := h
  refine ⟨remote, events ++ [e], ?_⟩
  exact relayMachine.run_append_of_run hrun (relayMachine.run_of_step hstep)

theorem audioSeen_relayed {session : Session} {call : Call} {polling : Bool}
    {relay : Relay} {a : CallAudio} {rest : List CallAudio} (h : Relayed a relay)
    (hrest : Past rest) :
    AudioSeen (relayedTo session call polling relay)
      ((relayStops relay).foldl audioNext (a :: rest)) := by
  have hpast := past_cons h hrest
  cases relay with
  | running loops => exact ⟨a, rest, rfl, h, hrest⟩
  | returned result => cases result <;> exact hpast
  | panicked why => exact hpast

theorem audioSeen_step {config : Config} {phase phase' : Phase} {e : BridgeEvent}
    {shown : List BridgeShown} {calls : List CallAudio} (hseen : AudioSeen phase calls)
    (h : PhaseStepped config phase e phase' shown) :
    AudioSeen phase' (shown.foldl audioNext calls) := by
  cases h with
  | registers r e next sipShown hshown hnext =>
      rw [List.foldl_append, foldl_sip]
      cases hnext with
      | running r => exact hseen
      | ready => exact hseen
      | parked next hnext => exact hnext.audioSeen hseen
  | readied written next hnext => exact hnext.audioSeen hseen
  | waits lineBuf e lineBuf' => exact hseen
  | waitEnds lineBuf e next hnext => exact hnext.audioSeen hseen
  | dials lineBuf e dial session tail hsession =>
      exact ⟨⟨tail, []⟩, calls, by cases calls <;> rfl, rfl, hseen⟩
  | binds dial session port sessionId args => exact hseen
  | bindFails dial session port sessionId next hnext => exact hnext.audioSeen hseen.past
  | invites session drain invite invite' e ackSent sipShown hstep hreturned hpanicked =>
      rw [foldl_sip]
      exact hseen
  | inviteFails session drain invite invite' e ackSent sipShown next hstep hfail hnext =>
      rw [List.foldl_append, foldl_sip]
      exact hnext.audioSeen hseen.past
  | inviteReturns session drain invite e ackSent sipShown call next hstep hnext =>
      rw [List.foldl_append, foldl_sip]
      exact hnext.audioSeen hseen
  | drains session drain drain' invite e dropped he hdrain =>
      obtain ⟨a, rest, rfl, hempty, hrest⟩ := hseen
      rw [foldl_drained]
      exact ⟨_, rest, rfl, hempty, hrest⟩
  | drainFails session drain invite e dropped next he hnext =>
      obtain ⟨a, rest, rfl, hempty, hrest⟩ := hseen
      rw [List.foldl_append, foldl_drained]
      exact hnext.audioSeen (Opened.past ⟨_, rest, rfl, hempty, hrest⟩)
  | relays session call polling relay relay' e relayShown hstep =>
      obtain ⟨a, rest, rfl, hrun, hrest⟩ := hseen
      rw [List.foldl_append, foldl_media]
      exact audioSeen_relayed (hrun.step hstep) hrest
  | pollSilent session call relay ackSent => exact hseen
  | polls session call relay data ackSent polling polled acks hresponse hpolling =>
      obtain ⟨a, rest, rfl, hrun, hrest⟩ := hseen
      change AudioSeen _ ((acks.map BridgeShown.sip).foldl audioNext (a :: rest))
      rw [foldl_sip]
      exact ⟨a, rest, rfl, hrun, hrest⟩
  | pollCrashes session call relay data ackSent why hresponse =>
      obtain ⟨a, rest, rfl, hrun, hrest⟩ := hseen
      exact past_cons hrun hrest
  | byes call after branchHash => cases calls <;> exact hseen
  | byeFails call after branchHash next hnext => exact hnext.audioSeen hseen
  | byeSilent call after next hnext => exact hnext.audioSeen hseen
  | byeAnswered call after data next hnext =>
      change AudioSeen _ (next.2.foldl audioNext (audioNext calls (.sip _)))
      have hsame : audioNext calls (.sip (.read (some call) (fromUtf8Lossy data.val))) =
          calls := by
        cases calls <;> rfl
      rw [hsame]
      exact hnext.audioSeen hseen

/-- Every call of a run has an audio that is a run of the relay. -/
theorem past_of_run {config : Config} {events : List BridgeEvent} {t : BridgeState}
    {trace : List BridgeShown}
    (hrun : (bridgeMachine config).run bridgeStart events = some (t, trace)) :
    Past (callAudios trace) := by
  have hinvariant := (bridgeMachine config).trace_invariant
    (I := fun (b : BridgeState) before =>
      b.phase.Ok ∧ AudioSeen b.phase (callAudios before)) ?_
    ⟨bridgeStart_ok, fun a ha => by simp [callAudios] at ha⟩ hrun
  · obtain ⟨-, hseen⟩ := hinvariant
    exact hseen.past
  · rintro b before e b' shown ⟨hok, hseen⟩ hstep
    obtain ⟨hstepped, hok'⟩ := bridgeStep_ok hok hstep
    refine ⟨hok', ?_⟩
    rw [callAudios, List.foldl_append]
    exact audioSeen_step hseen hstepped

/-! ## What is encoded -/

theorem payloadIn_packetize (s : RtpSender) {list : List (List UInt8)}
    (hne : ∀ p ∈ list, p ≠ []) :
    ((packetize s list).flatMap fun packet => payloadIn (parsePacket packet)) =
      list.flatten := by
  have hparse := map_parsePacket_packetize s hne
  rw [← List.flatMap_map, hparse, List.flatMap_map]
  exact List.flatMap_id

/-- The relay sends the codes of the whole samples that it takes. -/
theorem Relayed.codes_eq {a : CallAudio} {relay : Relay} (h : Relayed a relay) :
    a.codes = ulawOf (a.taken.take (Framing.wholeLength 2 a.taken.length)) := by
  obtain ⟨remote, events, hrun⟩ := h
  obtain ⟨⟨hpackets, -⟩, -⟩ := outgoing_of_run hrun
  have hnil : ([] : List UInt8).length < 2 := by simp
  have hne : ∀ p ∈ payloads [] (takenReads a.relayed), p ≠ [] := by
    intro p hp
    have hsize := length_of_mem_payloads hnil
      (fun read hread => length_of_mem_takenReads hrun hread) hp
    exact List.length_pos_iff.mp hsize.1
  have hcodes := payloadIn_packetize (createRtpSender rtpSsrc) hne
  rw [payloads_flatten hnil] at hcodes
  rw [CallAudio.codes, hpackets]
  exact hcodes

theorem Relayed.length_codes {a : CallAudio} {relay : Relay} (h : Relayed a relay) :
    a.codes.length = a.taken.length / 2 := by
  have hle := Framing.wholeLength_le 2 a.taken.length
  rw [h.codes_eq, ulawOf_length, List.length_take, Nat.min_eq_left hle,
    Framing.wholeLength_div (by decide)]

/-- They are the codes of the samples at the offsets that follow the dropped
bytes. -/
theorem Relayed.codes_eq_flatMap {a : CallAudio} {relay : Relay} (h : Relayed a relay) :
    a.codes = a.starts.flatMap a.codeAt := by
  have hdrop : ∀ i, a.stream.drop (a.dropped.length + 2 * i) = a.taken.drop (2 * i) := by
    intro i
    rw [← List.drop_drop, CallAudio.stream, List.drop_left]
  rw [CallAudio.starts, h.length_codes, List.flatMap_map, h.codes_eq,
    ulawOf_take_eq_flatMap]
  simp only [CallAudio.codeAt, hdrop]

theorem Relayed.aligned_iff {a : CallAudio} {relay : Relay} (h : Relayed a relay) :
    a.Aligned ↔ 2 ∣ a.dropped.length ∨ a.taken.length < 2 := by
  have hstarts : ∀ start, start ∈ a.starts ↔
      ∃ i < a.taken.length / 2, a.dropped.length + 2 * i = start := by
    intro start
    simp [CallAudio.starts, h.length_codes]
  constructor
  · rintro ⟨-, heven⟩
    by_cases hfew : a.taken.length < 2
    · exact Or.inr hfew
    · left
      exact heven a.dropped.length ((hstarts _).mpr ⟨0, by omega, rfl⟩)
  · intro hcase
    refine ⟨h.codes_eq_flatMap, ?_⟩
    intro start hstart
    obtain ⟨i, hi, rfl⟩ := (hstarts start).mp hstart
    omega

/-! ## Whole runs -/

/-- In a run, the samples that are encoded in the calls are aligned exactly when
in each call an even number of bytes is dropped before the relay starts, or the
relay does not take a sample. -/
theorem bridge_samplesAligned_iff
    (config : Config) (events : List BridgeEvent) (t : BridgeState)
    (trace : List BridgeShown)
    (hrun : (bridgeMachine config).run bridgeStart events = some (t, trace)) :
    (∀ a ∈ callAudios trace, a.Aligned) ↔
      ∀ a ∈ callAudios trace, 2 ∣ a.dropped.length ∨ a.taken.length < 2 := by
  apply forall₂_congr
  intro a ha
  obtain ⟨relay, hrelayed⟩ := past_of_run hrun a ha
  exact hrelayed.aligned_iff

/-- The trunk answers after a read of the drain, and then a sample comes. -/
def drainedThenRelayed (dropped : Chunk drainBufferSize) : List BridgeEvent :=
  trunkSetup ++
    [.setupRead (some dropped), .invite (.received (some trunkAnswer) answerInputs) true,
      .media (.slRead (some oneSample) true)]

theorem bridge_samplesAligned_evenDrain :
    ∃ t trace,
      (bridgeMachine trunkConfig).run bridgeStart
          (drainedThenRelayed ⟨[5, 6], by decide⟩) = some (t, trace) ∧
        (callAudios trace).map CallAudio.starts = [[2]] ∧
        ∀ a ∈ callAudios trace, a.Aligned := by
  have hstarts :
      ((bridgeMachine trunkConfig).run bridgeStart
        (drainedThenRelayed ⟨[5, 6], by decide⟩)).map
          (fun (end_ : BridgeState × List BridgeShown) =>
            ((callAudios end_.2).map CallAudio.starts,
              decide (∀ a ∈ callAudios end_.2,
                2 ∣ a.dropped.length ∨ a.taken.length < 2))) =
        some ([[2]], true) := by
    decide +kernel
  obtain ⟨⟨t, trace⟩, hrun, hpair⟩ := Option.map_eq_some_iff.mp hstarts
  obtain ⟨hoffsets, heven⟩ := Prod.mk.inj hpair
  exact ⟨t, trace, hrun, hoffsets,
    (bridge_samplesAligned_iff trunkConfig _ t trace hrun).mpr (of_decide_eq_true heven)⟩

/-- One byte is drained, and the sample starts at an odd offset. -/
theorem bridge_samplesAligned_oddDrain :
    ∃ t trace,
      (bridgeMachine trunkConfig).run bridgeStart
          (drainedThenRelayed ⟨[5], by decide⟩) = some (t, trace) ∧
        (callAudios trace).map CallAudio.starts = [[1]] ∧
        ¬ ∀ a ∈ callAudios trace, a.Aligned := by
  have hstarts :
      ((bridgeMachine trunkConfig).run bridgeStart
        (drainedThenRelayed ⟨[5], by decide⟩)).map
          (fun (end_ : BridgeState × List BridgeShown) =>
            ((callAudios end_.2).map CallAudio.starts,
              decide (∀ a ∈ callAudios end_.2, a.Aligned))) =
        some ([[1]], false) := by
    decide +kernel
  obtain ⟨⟨t, trace⟩, hrun, hpair⟩ := Option.map_eq_some_iff.mp hstarts
  obtain ⟨hoffsets, hodd⟩ := Prod.mk.inj hpair
  exact ⟨t, trace, hrun, hoffsets, of_decide_eq_false hodd⟩

end SlmodemSipBridge.Bridge
