import SlmodemSipBridge.Media.Outgoing

/-!
# When slmodemd hangs up

The end of slmodemd's stream ends one of the relay's two loops, and the join
waits for the other, which ends at an error only.  The file follows the relay
through undisturbed media, past the end of the stream and through whatever the
RTP socket still receives.
-/

namespace SlmodemSipBridge.Media

open Rust Codec Rtp

/-! ## Undisturbed media -/

/-- A read of some bytes or a datagram, without an I/O error. -/
def RelayEvent.Flows : RelayEvent → Prop
  | .slRead read sent => (∃ data, read = some data ∧ data.val ≠ []) ∧ sent = true
  | .rtpReceived datagram written => datagram ≠ none ∧ written = true

/-- A datagram received, and what it holds written if it holds anything. -/
def RelayEvent.Received : RelayEvent → Prop
  | .slRead _ _ => False
  | .rtpReceived datagram written => datagram ≠ none ∧ written = true

theorem length_noBytes : ([] : List UInt8).length ≤ relayBufferSize := by decide

/-- The read of no bytes that ends slmodemd's stream. -/
def endOfStream (sent : Bool) : RelayEvent := .slRead (some ⟨[], length_noBytes⟩) sent

/-- Both loops run, with these byte counts. -/
def Loops.Flowing (loops : Loops) (toRtp toSl : ℕ) : Prop :=
  (∃ l, loops.slToRtp = .running l ∧ l.total = toRtp) ∧ loops.rtpToSl = .running toSl

/-- The outgoing loop is over, with its byte count, and the incoming one runs. -/
def Loops.Deaf (loops : Loops) (toRtp : ℕ) : Prop :=
  loops.slToRtp = .finished toRtp ∧ ∃ toSl, loops.rtpToSl = .running toSl

/-- A datagram leaves the outgoing loop as it is and the incoming one running. -/
theorem step_received
    {loops : Loops} {toSl : ℕ} (hin : loops.rtpToSl = .running toSl)
    (data : Chunk maxRtpPacketSize) :
    ∃ toSl' shown,
      relayMachine.step (.running loops) (.rtpReceived (some data) true) =
        some (.running { loops with rtpToSl := .running toSl' }, shown) := by
  cases hparse : parsePacket data.val with
  | error why => exact (parsePacket_ne_error data.val why hparse).elim
  | ok payload =>
      cases payload with
      | none =>
          refine ⟨toSl, [], ?_⟩
          simp [step_rtpReceived hin, rtpToSlIteration, hparse, Flow.joined]
      | some payload =>
          refine ⟨toSl + payload.length, [.written (decodeUlaw payload)], ?_⟩
          simp [step_rtpReceived hin, rtpToSlIteration, hparse, Flow.joined]

/-- A read leaves the incoming loop as it is and the outgoing one running. -/
theorem step_read
    {loops : Loops} {l : SlToRtp} (hout : loops.slToRtp = .running l)
    {data : Chunk relayBufferSize} (hdata : data.val ≠ []) :
    ∃ l' shown,
      relayMachine.step (.running loops) (.slRead (some data) true) =
        some (.running { loops with slToRtp := .running l' }, shown) := by
  by_cases hgroup : group l data = []
  · obtain ⟨residual, -, hflow⟩ :=
      slToRtpIteration_of_group_eq_nil l loops.remoteRtp data true hdata hgroup
    refine ⟨{ l with residual := residual }, [.taken data.val], ?_⟩
    simp [step_slRead hout, hflow, Flow.joined]
  · obtain ⟨residual, -, hflow⟩ :=
      slToRtpIteration_of_group_ne_nil l loops.remoteRtp data true hdata hgroup
    have hstep := step_slRead hout (some data) true
    rw [hflow] at hstep
    exact ⟨_, _, hstep⟩

/-- Undisturbed media keeps both loops running. -/
theorem flowing_step
    {loops : Loops} {toRtp toSl : ℕ} (hflowing : loops.Flowing toRtp toSl)
    {e : RelayEvent} (hflows : e.Flows) :
    ∃ loops' shown toRtp' toSl',
      relayMachine.step (.running loops) e = some (.running loops', shown) ∧
        loops'.Flowing toRtp' toSl' := by
  obtain ⟨⟨l, hout, htotal⟩, hin⟩ := hflowing
  cases e with
  | slRead read sent =>
      obtain ⟨⟨data, rfl, hdata⟩, rfl⟩ := hflows
      obtain ⟨l', shown, hstep⟩ := step_read hout hdata
      exact ⟨_, shown, l'.total, toSl, hstep, ⟨l', rfl, rfl⟩, hin⟩
  | rtpReceived datagram written =>
      obtain ⟨hdatagram, rfl⟩ := hflows
      obtain ⟨data, rfl⟩ := Option.ne_none_iff_exists'.mp hdatagram
      obtain ⟨toSl', shown, hstep⟩ := step_received hin data
      exact ⟨_, shown, toRtp, toSl', hstep, ⟨l, hout, htotal⟩, rfl⟩

theorem flowing_run
    {loops : Loops} {toRtp toSl : ℕ} (hflowing : loops.Flowing toRtp toSl)
    {events : List RelayEvent} (hflows : ∀ e ∈ events, e.Flows) :
    ∃ loops' trace toRtp' toSl',
      relayMachine.run (.running loops) events = some (.running loops', trace) ∧
        loops'.Flowing toRtp' toSl' := by
  induction events generalizing loops toRtp toSl with
  | nil => exact ⟨loops, [], toRtp, toSl, rfl, hflowing⟩
  | cons e events ih =>
      rw [List.forall_mem_cons] at hflows
      obtain ⟨loops₁, shown, toRtp₁, toSl₁, hstep, hflowing₁⟩ :=
        flowing_step hflowing hflows.1
      obtain ⟨loops₂, trace, toRtp₂, toSl₂, hrun, hflowing₂⟩ := ih hflowing₁ hflows.2
      exact ⟨loops₂, shown ++ trace, toRtp₂, toSl₂,
        relayMachine.run_cons_of_step hstep hrun, hflowing₂⟩

/-! ## The end of the stream -/

/-- The end of the stream ends the outgoing loop only. -/
theorem endOfStream_step
    {loops : Loops} {toRtp toSl : ℕ} (hflowing : loops.Flowing toRtp toSl) (sent : Bool) :
    ∃ loops', relayMachine.step (.running loops) (endOfStream sent) =
        some (.running loops', []) ∧ loops'.Deaf toRtp := by
  obtain ⟨⟨l, hout, htotal⟩, hin⟩ := hflowing
  refine ⟨{ loops with slToRtp := .finished l.total }, ?_, ?_⟩
  · simp [endOfStream, step_slRead hout, slToRtpIteration, Flow.joined, Loops.join, hin]
  · exact ⟨congrArg Branch.finished htotal, toSl, hin⟩

/-- Datagrams keep the relay where the end of the stream left it. -/
theorem deaf_run
    {loops : Loops} {toRtp : ℕ} (hdeaf : loops.Deaf toRtp)
    {later : List RelayEvent} (hlater : ∀ e ∈ later, e.Received) :
    ∃ loops' trace,
      relayMachine.run (.running loops) later = some (.running loops', trace) ∧
        loops'.Deaf toRtp := by
  induction later generalizing loops with
  | nil => exact ⟨loops, [], rfl, hdeaf⟩
  | cons e later ih =>
      rw [List.forall_mem_cons] at hlater
      obtain ⟨hreceived, hlater⟩ := hlater
      obtain ⟨hout, toSl, hin⟩ := hdeaf
      cases e with
      | slRead read sent => exact hreceived.elim
      | rtpReceived datagram written =>
          obtain ⟨hdatagram, rfl⟩ := hreceived
          obtain ⟨data, rfl⟩ := Option.ne_none_iff_exists'.mp hdatagram
          obtain ⟨toSl', shown, hstep⟩ := step_received hin data
          have hdeaf₁ : Loops.Deaf { loops with rtpToSl := .running toSl' } toRtp :=
            ⟨hout, toSl', rfl⟩
          obtain ⟨loops', trace, hrun, hdeaf'⟩ := ih hdeaf₁ hlater
          exact ⟨loops', shown ++ trace,
            relayMachine.run_cons_of_step hstep hrun, hdeaf'⟩

/-- The first audio that slmodemd no longer takes ends the relay in an error. -/
theorem deaf_write_failed
    {loops : Loops} {toRtp : ℕ} (hdeaf : loops.Deaf toRtp)
    {data : Chunk maxRtpPacketSize} {payload : List UInt8}
    (hparse : parsePacket data.val = .ok (some payload)) :
    relayMachine.step (.running loops) (.rtpReceived (some data) false) =
      some (.returned (.error .writeFailed), [.written (decodeUlaw payload)]) := by
  obtain ⟨-, toSl, hin⟩ := hdeaf
  simp [step_rtpReceived hin, rtpToSlIteration, hparse, Flow.joined]

/-! ## The relay goes on -/

/-- One of the loops runs, at least. -/
def Loops.Live (loops : Loops) : Prop :=
  (∃ l, loops.slToRtp = .running l) ∨ ∃ total, loops.rtpToSl = .running total

theorem live_of_join {loops loops' : Loops} (h : loops.join = .running loops') :
    loops'.Live := by
  rcases hout : loops.slToRtp with l | toRtp
  · simp only [Loops.join, hout, Relay.running.injEq] at h
    exact Or.inl ⟨l, h ▸ hout⟩
  rcases hin : loops.rtpToSl with total | toSl
  · simp only [Loops.join, hout, hin, Relay.running.injEq] at h
    exact Or.inr ⟨total, h ▸ hin⟩
  · simp [Loops.join, hout, hin] at h

theorem live_of_joined {σ : Type} {flow : Flow σ} {put : Branch σ → Loops} {loops' : Loops}
    (hput : ∀ locals, (put (.running locals)).Live)
    (h : flow.joined put = .running loops') : loops'.Live := by
  cases flow with
  | next locals =>
      simp only [Flow.joined, Relay.running.injEq] at h
      exact h ▸ hput locals
  | stop total => exact live_of_join h
  | fail error => simp [Flow.joined] at h
  | panic why => simp [Flow.joined] at h

/-- A step that leaves the relay running leaves one of its loops running. -/
theorem live_of_step {loops loops' : Loops} {e : RelayEvent} {shown : List RelayShown}
    (h : relayStep (.running loops) e = some (.running loops', shown)) : loops'.Live := by
  cases iterated_of_step h with
  | slRead l read sent hout hnext hshown =>
      exact live_of_joined (fun locals => Or.inl ⟨locals, rfl⟩) hnext
  | rtpReceived total datagram written hin hnext hshown =>
      exact live_of_joined (fun locals => Or.inr ⟨locals, rfl⟩) hnext

/-- A live relay can always take one more event and stay live. -/
theorem exists_step_of_live {loops : Loops} (hlive : loops.Live) :
    ∃ e loops' shown, relayMachine.step (.running loops) e =
      some (.running loops', shown) ∧ loops'.Live := by
  rcases hlive with ⟨l, hout⟩ | ⟨total, hin⟩
  · have hread : ([0] : List UInt8).length ≤ relayBufferSize := by decide
    have hdata : (⟨[0], hread⟩ : Chunk relayBufferSize).val ≠ [] := by simp
    obtain ⟨l', shown, hstep⟩ := step_read hout hdata
    exact ⟨_, _, shown, hstep, Or.inl ⟨l', rfl⟩⟩
  · have hdatagram : ([] : List UInt8).length ≤ maxRtpPacketSize := by decide
    obtain ⟨total', shown, hstep⟩ := step_received hin ⟨[], hdatagram⟩
    exact ⟨_, _, shown, hstep, Or.inr ⟨total', rfl⟩⟩

/-- So it can take any number of events. -/
theorem exists_run_of_live {loops : Loops} (hlive : loops.Live) (n : ℕ) :
    ∃ later loops' trace, later.length = n ∧
      relayMachine.run (.running loops) later = some (.running loops', trace) := by
  induction n generalizing loops with
  | zero => exact ⟨[], loops, [], rfl, rfl⟩
  | succ n ih =>
      obtain ⟨e, loops₁, shown, hstep, hlive₁⟩ := exists_step_of_live hlive
      obtain ⟨later, loops₂, trace, hlength, hrun⟩ := ih hlive₁
      exact ⟨e :: later, loops₂, shown ++ trace, congrArg (· + 1) hlength,
        relayMachine.run_cons_of_step hstep hrun⟩

/-- While the outgoing loop runs, a read of two bytes sends a packet. -/
theorem exists_packet_of_running {loops : Loops} {l : SlToRtp}
    (hout : loops.slToRtp = .running l) :
    ∃ e loops' packet taken, relayMachine.step (.running loops) e =
      some (.running loops', [taken, .packet packet loops.remoteRtp]) := by
  have hread : ([0, 0] : List UInt8).length ≤ relayBufferSize := by decide
  let data : Chunk relayBufferSize := ⟨[0, 0], hread⟩
  have hgroup : group l data ≠ [] := by
    cases hresidual : l.residual <;>
      simp [group, hresidual, data, Framing.wholeLength]
  obtain ⟨residual, -, hflow⟩ :=
    slToRtpIteration_of_group_ne_nil l loops.remoteRtp data true (by simp [data]) hgroup
  have hstep := step_slRead hout (some data) true
  rw [hflow] at hstep
  exact ⟨_, _, _, _, hstep⟩

/-! ## The relay and the hang-up -/

/-- The relay is over at the end of the stream, with its byte counts. -/
def EndsAtHangup (sender : RtpSender) (remote : SocketAddr) (events : List RelayEvent)
    (sent : Bool) : Prop :=
  ∃ toRtp toSl trace,
    relayMachine.run (relayStart sender remote) (events ++ [endOfStream sent]) =
      some (.returned (.ok (toRtp, toSl)), trace)

/-- What becomes of the relay of a call whose slmodemd hung up. -/
structure OutlivesHangup (sender : RtpSender) (remote : SocketAddr)
    (events : List RelayEvent) (sent : Bool) : Prop where
  /-- It goes on, whatever datagrams come. -/
  goesOn : ∀ later : List RelayEvent, (∀ e ∈ later, e.Received) →
    ∃ loops trace,
      relayMachine.run (relayStart sender remote) (events ++ endOfStream sent :: later) =
        some (.running loops, trace)
  /-- Audio that can no longer be written turns its result into an error. -/
  fails : ∀ later : List RelayEvent, (∀ e ∈ later, e.Received) →
    ∀ (data : Chunk maxRtpPacketSize) (payload : List UInt8),
      parsePacket data.val = .ok (some payload) →
      ∃ trace,
        relayMachine.run (relayStart sender remote)
            (events ++ endOfStream sent :: (later ++ [.rtpReceived (some data) false])) =
          some (.returned (.error .writeFailed), trace)

/-- The relay of undisturbed media never ends at the hang-up. -/
theorem relay_outlivesHangup
    (sender : RtpSender) (remote : SocketAddr) (events : List RelayEvent) (sent : Bool)
    (hflows : ∀ e ∈ events, e.Flows) :
    ¬ EndsAtHangup sender remote events sent ∧
      OutlivesHangup sender remote events sent := by
  have hstart : ∃ loops, relayStart sender remote = .running loops ∧ loops.Flowing 0 0 :=
    ⟨_, rfl, ⟨_, rfl, rfl⟩, rfl⟩
  obtain ⟨loops₀, hstart, hflowing₀⟩ := hstart
  obtain ⟨loops, trace, toRtp, toSl, hrun, hflowing⟩ := flowing_run hflowing₀ hflows
  obtain ⟨loops', hstep, hdeaf⟩ := endOfStream_step hflowing sent
  -- From the end of the stream on, a run is one of the deaf relay.
  have hpast : ∀ {later t shown}, relayMachine.run (.running loops') later = some (t, shown) →
      relayMachine.run (relayStart sender remote) (events ++ endOfStream sent :: later) =
        some (t, trace ++ shown) := by
    intro later t shown hlater
    rw [hstart]
    apply relayMachine.run_append_of_run hrun
    exact relayMachine.run_cons_of_step hstep hlater
  refine ⟨?_, ?_, ?_⟩
  · rintro ⟨n, m, shown, hends⟩
    have hruns := hpast (relayMachine.run_nil _)
    rw [hends] at hruns
    simp at hruns
  · intro later hlater
    obtain ⟨last, shown, hlast, -⟩ := deaf_run hdeaf hlater
    exact ⟨last, _, hpast hlast⟩
  · intro later hlater data payload hparse
    obtain ⟨last, shown, hlast, hdeaf'⟩ := deaf_run hdeaf hlater
    have hfail := relayMachine.run_of_step (deaf_write_failed hdeaf' hparse)
    exact ⟨_, hpast (relayMachine.run_append_of_run hlast hfail)⟩

theorem length_silentSample : ([0, 0] : List UInt8).length ≤ relayBufferSize := by decide

theorem length_silentPacket :
    (List.replicate 12 (0x80 : UInt8) ++ [0xFF]).length ≤ maxRtpPacketSize := by
  decide

/-- A read of one sample, and a datagram of one. -/
def oneSampleEachWay : List RelayEvent :=
  [.slRead (some ⟨[0, 0], length_silentSample⟩) true,
    .rtpReceived (some ⟨List.replicate 12 0x80 ++ [0xFF], length_silentPacket⟩) true]

theorem flows_oneSampleEachWay : ∀ e ∈ oneSampleEachWay, e.Flows := by
  intro e he
  rcases List.mem_pair.mp he with rfl | rfl
  · exact ⟨⟨_, rfl, by decide⟩, rfl⟩
  · exact ⟨by simp, rfl⟩

theorem relay_outlivesHangup_oneSampleEachWay :
    ¬ EndsAtHangup (createRtpSender 7) ⟨.v4 ⟨10, 0, 0, 1⟩, 4000⟩ oneSampleEachWay true ∧
      OutlivesHangup (createRtpSender 7) ⟨.v4 ⟨10, 0, 0, 1⟩, 4000⟩ oneSampleEachWay
        true :=
  relay_outlivesHangup _ _ _ _ flows_oneSampleEachWay

/-- Whether the relay runs. -/
def Relay.isRunning : Relay → Bool
  | .running _ => true
  | _ => false

/-- One sample each way, then the hang-up: the relay still waits. -/
theorem relay_endsAtHangup_failing :
    (∀ e ∈ oneSampleEachWay, e.Flows) ∧
      ¬ EndsAtHangup (createRtpSender 7) ⟨.v4 ⟨10, 0, 0, 1⟩, 4000⟩ oneSampleEachWay
        true := by
  refine ⟨flows_oneSampleEachWay, ?_⟩
  rintro ⟨toRtp, toSl, trace, hrun⟩
  have hwaits :
      (relayMachine.run (relayStart (createRtpSender 7) ⟨.v4 ⟨10, 0, 0, 1⟩, 4000⟩)
        (oneSampleEachWay ++ [endOfStream true])).map
          (fun last => last.1.isRunning) = some true := by decide +kernel
  rw [hrun] at hwaits
  simp [Relay.isRunning] at hwaits

end SlmodemSipBridge.Media
