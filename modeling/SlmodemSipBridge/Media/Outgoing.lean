import SlmodemSipBridge.Media.Relay

/-!
# What the relay sends

The relay's outgoing loop refines the framing of a byte stream into 16-bit
samples: whatever the reads were, the payloads it sends are the µ-law codes of
the whole samples of the stream, in packets numbered consecutively.
-/

namespace SlmodemSipBridge.Media

open Rust Codec Rtp

/-- The µ-law bytes of a buffer of whole samples. -/
def ulawOf (slin : List UInt8) : List UInt8 :=
  (samples slin).map slinSampleToUlaw

@[simp] theorem ulawOf_length (slin : List UInt8) :
    (ulawOf slin).length = slin.length / 2 := by
  simp [ulawOf, samples_length]

/-- The payloads that reads give rise to, after some carried bytes: the codes
of each read's whole samples, if it completes any. -/
def payloads (carried : List UInt8) (reads : List (List UInt8)) :
    List (List UInt8) :=
  ((Framing.whole 2 carried reads).filter (!·.isEmpty)).map ulawOf

/-- The packets a sender builds of successive payloads. -/
def packetize : RtpSender → List (List UInt8) → List (List UInt8)
  | _, [] => []
  | s, payload :: rest =>
      (s.buildPacket payload).1 :: packetize (s.buildPacket payload).2 rest

/-! ## One read -/

section OneRead

variable (l : SlToRtp) (remote : SocketAddr)
  (data : Chunk relayBufferSize) (sent : Bool)

/-- The whole samples among the residual byte and the bytes read. -/
def group : List UInt8 :=
  (l.residual.toList ++ data.val).take
    (Framing.wholeLength 2 (l.residual.toList ++ data.val).length)

/-- The byte left over by them. -/
def leftover : List UInt8 :=
  (l.residual.toList ++ data.val).drop
    (Framing.wholeLength 2 (l.residual.toList ++ data.val).length)

theorem residual_length_lt (residual : Option UInt8) :
    residual.toList.length < 2 := by
  cases residual <;> simp

theorem two_dvd_group_length : 2 ∣ (group l data).length := by
  rw [group, List.length_take, Nat.min_eq_left (Framing.wholeLength_le _ _)]
  exact Nat.dvd_mul_right 2 _

theorem group_length_le : (group l data).length ≤ relayBufferSize + 1 := by
  have hresidual := residual_length_lt l.residual
  have hdata := data.property
  have htake : (group l data).length ≤ (l.residual.toList ++ data.val).length :=
    (List.take_sublist _ _).length_le
  rw [List.length_append] at htake
  omega

/-- A read that completes no sample only leaves its byte behind. -/
theorem slToRtpIteration_of_group_eq_nil
    (hdata : data.val ≠ []) (hgroup : group l data = []) :
    ∃ residual : Option UInt8, residual.toList = leftover l data ∧
      slToRtpIteration l remote (some data) sent =
        (.next { l with residual := residual }, [.taken data.val]) := by
  obtain ⟨hslin, hleft⟩ := alignSlinBuffer_eq l.residual data.val
  refine ⟨(alignSlinBuffer l.residual data.val).2, hleft, ?_⟩
  have hnil : (alignSlinBuffer l.residual data.val).1 = [] := hslin.trans hgroup
  simp [slToRtpIteration, hdata, hnil]

/-- A read that completes samples sends their codes in one packet. -/
theorem slToRtpIteration_of_group_ne_nil
    (hdata : data.val ≠ []) (hgroup : group l data ≠ []) :
    ∃ residual : Option UInt8, residual.toList = leftover l data ∧
      slToRtpIteration l remote (some data) sent =
        (if sent then
          .next
            { total := l.total + (ulawOf (group l data)).length
              residual := residual
              sender := (l.sender.buildPacket (ulawOf (group l data))).2 }
          else .fail .sendFailed,
          [.taken data.val,
            .packet (l.sender.buildPacket (ulawOf (group l data))).1 remote]) := by
  obtain ⟨hslin, hleft⟩ := alignSlinBuffer_eq l.residual data.val
  refine ⟨(alignSlinBuffer l.residual data.val).2, hleft, ?_⟩
  have heven := two_dvd_group_length l data
  have hlong := group_length_le l data
  have hpos : 0 < (group l data).length := List.length_pos_iff.mpr hgroup
  have hne : ulawOf (group l data) ≠ [] := by
    rw [← List.length_pos_iff, ulawOf_length]
    omega
  have hsize : (ulawOf (group l data)).length ≤
      maxRtpPacketSize - rtpHeaderSize := by
    simp only [relayBufferSize] at hlong
    rw [ulawOf_length, maxRtpPacketSize, rtpHeaderSize]
    omega
  have hslin' : (alignSlinBuffer l.residual data.val).1 = group l data := hslin
  have hencode : encodeUlaw (group l data) = .ok (ulawOf (group l data)) :=
    encodeUlaw_eq_ok heven
  simp only [slToRtpIteration, hdata, hslin', hgroup, hencode,
    sendPacket_eq_ok l.sender hne hsize, if_false]
  cases sent <;> rfl

end OneRead

/-! ## One step of the relay -/

/-- The bytes the outgoing loop has passed on when it finished. -/
def Relay.sentBytes : Relay → Option ℕ
  | .running loops =>
      match loops.slToRtp with
      | .finished total => some total
      | .running _ => none
  | .returned (.ok (toRtp, _)) => some toRtp
  | _ => none

/-- The trace from a state of the outgoing loop on is what the framing of the
bytes taken prescribes. -/
def Outgoing (branch : Branch SlToRtp) (t : Relay) (trace : List RelayShown) :
    Prop :=
  match branch with
  | .finished total =>
      takenReads trace = [] ∧ sentPackets trace = [] ∧
        ∀ n, t.sentBytes = some n → n = total
  | .running l =>
      sentPackets trace =
          packetize l.sender (payloads l.residual.toList (takenReads trace)) ∧
        ∀ n, t.sentBytes = some n → n =
          l.total + (payloads l.residual.toList (takenReads trace)).flatten.length

/-- The relay is over and shows nothing more. -/
def Relay.Halted : Relay → Prop
  | .running _ => False
  | _ => True

theorem relayStep_of_halted {s : Relay} (hhalt : s.Halted) (e : RelayEvent) :
    relayMachine.step s e = none := by
  cases s with
  | running loops => exact hhalt.elim
  | returned result => rfl
  | panicked why => rfl

@[simp] theorem payloads_nil (carried : List UInt8) : payloads carried [] = [] :=
  rfl

theorem payloads_cons (l : SlToRtp) (data : Chunk relayBufferSize)
    (reads : List (List UInt8)) :
    payloads l.residual.toList (data.val :: reads) =
      if group l data = [] then payloads (leftover l data) reads
      else ulawOf (group l data) :: payloads (leftover l data) reads := by
  have hwhole :
      Framing.whole 2 l.residual.toList (data.val :: reads) =
        group l data :: Framing.whole 2 (leftover l data) reads := rfl
  by_cases hgroup : group l data = []
  · simp [payloads, hwhole, hgroup]
  · simp [payloads, hwhole, hgroup]

/-- What one event does to the outgoing loop and to the rest of the relay. -/
inductive OutgoingStep : Loops → Relay → List RelayShown → Prop where
  /-- The outgoing loop is as it was, and nothing of it shows. -/
  | other {loops loops' : Loops} {shown : List RelayShown} :
      loops'.slToRtp = loops.slToRtp → takenReads shown = [] →
      sentPackets shown = [] → OutgoingStep loops (.running loops') shown
  /-- The relay is over. -/
  | ended {loops : Loops} {t : Relay} {shown : List RelayShown} :
      t.Halted → (∀ why, t ≠ .panicked why) → Outgoing loops.slToRtp t shown →
      OutgoingStep loops t shown
  /-- The end of slmodemd's stream. -/
  | eof {loops loops' : Loops} {l : SlToRtp} :
      loops.slToRtp = .running l → loops'.slToRtp = .finished l.total →
      OutgoingStep loops (.running loops') []
  /-- A read that completes no sample. -/
  | carry {loops loops' : Loops} {l : SlToRtp} {data : Chunk relayBufferSize}
      {residual : Option UInt8} :
      loops.slToRtp = .running l → group l data = [] →
      residual.toList = leftover l data →
      loops'.slToRtp = .running { l with residual := residual } →
      OutgoingStep loops (.running loops') [.taken data.val]
  /-- A read whose samples are sent. -/
  | send {loops loops' : Loops} {l : SlToRtp} {data : Chunk relayBufferSize}
      {residual : Option UInt8} :
      loops.slToRtp = .running l → group l data ≠ [] →
      residual.toList = leftover l data →
      loops'.slToRtp = .running
        { total := l.total + (ulawOf (group l data)).length
          residual := residual
          sender := (l.sender.buildPacket (ulawOf (group l data))).2 } →
      OutgoingStep loops (.running loops')
        [.taken data.val,
          .packet (l.sender.buildPacket (ulawOf (group l data))).1
            loops.remoteRtp]

theorem Loops.join_cases (loops : Loops) :
    (loops.join = .running loops) ∨
      ∃ toRtp toSl, loops.slToRtp = .finished toRtp ∧
        loops.rtpToSl = .finished toSl ∧
        loops.join = .returned (.ok (toRtp, toSl)) := by
  rcases hout : loops.slToRtp with l | toRtp
  · exact Or.inl (by simp [Loops.join, hout])
  rcases hin : loops.rtpToSl with total | toSl
  · exact Or.inl (by simp [Loops.join, hout, hin])
  · exact Or.inr ⟨toRtp, toSl, rfl, rfl, by simp [Loops.join, hout, hin]⟩

theorem outgoingStep_slRead
    {loops : Loops} {l : SlToRtp} (hl : loops.slToRtp = .running l)
    (read : Option (Chunk relayBufferSize)) (sent : Bool) :
    OutgoingStep loops
      ((slToRtpIteration l loops.remoteRtp read sent).1.joined
        fun branch => { loops with slToRtp := branch })
      (slToRtpIteration l loops.remoteRtp read sent).2 := by
  cases read with
  | none =>
      refine .ended trivial (fun why => by simp [slToRtpIteration, Flow.joined]) ?_
      simp [Outgoing, hl, slToRtpIteration, Flow.joined, takenReads, sentPackets,
        packetize, Relay.sentBytes]
  | some data =>
      by_cases hdata : data.val = []
      · simp only [slToRtpIteration, hdata, if_true, Flow.joined]
        rcases Loops.join_cases { loops with slToRtp := .finished l.total } with
          hjoin | ⟨toRtp, toSl, htoRtp, -, hjoin⟩
        · rw [hjoin]
          exact .eof hl rfl
        · rw [hjoin]
          refine .ended trivial (fun why => by simp) ?_
          have htotal : l.total = toRtp := by simpa using htoRtp
          simp [Outgoing, hl, takenReads, sentPackets, packetize, Relay.sentBytes,
            htotal]
      · by_cases hgroup : group l data = []
        · obtain ⟨residual, hresidual, hflow⟩ :=
            slToRtpIteration_of_group_eq_nil l loops.remoteRtp data sent hdata hgroup
          rw [hflow]
          exact .carry hl hgroup hresidual rfl
        · obtain ⟨residual, hresidual, hflow⟩ :=
            slToRtpIteration_of_group_ne_nil l loops.remoteRtp data sent hdata hgroup
          rw [hflow]
          cases sent with
          | true => exact .send hl hgroup hresidual rfl
          | false =>
              refine .ended trivial (fun why => by simp [Flow.joined]) ?_
              simp [Outgoing, hl, takenReads, sentPackets, payloads_cons, hgroup,
                packetize, Relay.sentBytes, Flow.joined]

theorem outgoingStep_rtpReceived
    (loops : Loops) (total : ℕ)
    (datagram : Option (Chunk maxRtpPacketSize)) (written : Bool) :
    OutgoingStep loops
      ((rtpToSlIteration total datagram written).1.joined
        fun branch => { loops with rtpToSl := branch })
      (rtpToSlIteration total datagram written).2 := by
  cases datagram with
  | none =>
      simp only [rtpToSlIteration, Flow.joined]
      rcases Loops.join_cases { loops with rtpToSl := .finished total } with
        hjoin | ⟨toRtp, toSl, htoRtp, -, hjoin⟩
      · rw [hjoin]
        exact .other rfl rfl rfl
      · rw [hjoin]
        refine .ended trivial (fun why => by simp) ?_
        have hout : loops.slToRtp = .finished toRtp := htoRtp
        simp [Outgoing, hout, takenReads, sentPackets, Relay.sentBytes]
  | some data =>
      cases hparse : parsePacket data.val with
      | error why => exact (parsePacket_ne_error data.val why hparse).elim
      | ok payload =>
          cases payload with
          | none =>
              simp only [rtpToSlIteration, hparse, Flow.joined]
              exact .other rfl rfl rfl
          | some payload =>
              cases written with
              | true =>
                  simp only [rtpToSlIteration, hparse, if_true, Flow.joined]
                  exact .other rfl rfl rfl
              | false =>
                  simp only [rtpToSlIteration, hparse, Bool.false_eq_true, if_false,
                    Flow.joined]
                  refine .ended trivial (fun why => by simp) ?_
                  cases hout : loops.slToRtp with
                  | running l =>
                      simp [Outgoing, takenReads, sentPackets, packetize,
                        Relay.sentBytes]
                  | finished total =>
                      simp [Outgoing, takenReads, sentPackets, Relay.sentBytes]

/-- Every step of a running relay is one of the above. -/
theorem outgoingStep_of_step
    {loops : Loops} {e : RelayEvent} {t : Relay} {shown : List RelayShown}
    (hstep : relayMachine.step (.running loops) e = some (t, shown)) :
    OutgoingStep loops t shown := by
  cases iterated_of_step hstep with
  | slRead l read sent hout hnext hshown =>
      rw [← hnext, ← hshown]
      exact outgoingStep_slRead hout read sent
  | rtpReceived total datagram written hin hnext hshown =>
      rw [← hnext, ← hshown]
      exact outgoingStep_rtpReceived loops total datagram written

/-- The relay's assertions hold. -/
theorem relayStep_ne_panicked {relay relay' : Relay} {e : RelayEvent}
    {shown : List RelayShown} (h : relayStep relay e = some (relay', shown))
    (why : Panic) : relay' ≠ .panicked why := by
  cases relay with
  | running loops =>
      cases outgoingStep_of_step h with
      | other _ _ _ => simp
      | ended _ hpanic _ => exact hpanic why
      | eof _ _ => simp
      | carry _ _ _ _ => simp
      | send _ _ _ _ => simp
  | returned result => simp [relayStep] at h
  | panicked why' => simp [relayStep] at h

/-! ## The relay keeps its endpoint -/

theorem Loops.remoteRtp_of_join {loops loops' : Loops}
    (h : loops.join = .running loops') : loops'.remoteRtp = loops.remoteRtp := by
  rcases loops.join_cases with hjoin | ⟨toRtp, toSl, -, -, hjoin⟩
  · rw [hjoin, Relay.running.injEq] at h
    rw [h]
  · simp [hjoin] at h

theorem remoteRtp_of_joined {σ : Type} {flow : Flow σ} {put : Branch σ → Loops}
    {remote : SocketAddr} {loops' : Loops} (hput : ∀ branch, (put branch).remoteRtp = remote)
    (h : flow.joined put = .running loops') : loops'.remoteRtp = remote := by
  cases flow with
  | next locals =>
      simp only [Flow.joined, Relay.running.injEq] at h
      exact h ▸ hput _
  | stop total => exact (Loops.remoteRtp_of_join h).trans (hput _)
  | fail error => simp [Flow.joined] at h
  | panic why => simp [Flow.joined] at h

/-- An iteration of the outgoing loop shows the read it takes and the packet it
sends to the relay's endpoint, or less. -/
theorem shown_mem_slToRtpIteration {l : SlToRtp} {remote : SocketAddr}
    {read : Option (Chunk relayBufferSize)} {sent : Bool} {o : RelayShown}
    (h : o ∈ (slToRtpIteration l remote read sent).2) :
    (∃ data : Chunk relayBufferSize, o = .taken data.val) ∨
      ∃ packet, o = .packet packet remote := by
  cases read with
  | none => simp [slToRtpIteration] at h
  | some data =>
      by_cases hdata : data.val = []
      · simp [slToRtpIteration, hdata] at h
      · by_cases hgroup : group l data = []
        · obtain ⟨residual, -, hflow⟩ :=
            slToRtpIteration_of_group_eq_nil l remote data sent hdata hgroup
          rw [hflow, List.mem_singleton] at h
          exact Or.inl ⟨data, h⟩
        · obtain ⟨residual, -, hflow⟩ :=
            slToRtpIteration_of_group_ne_nil l remote data sent hdata hgroup
          rw [hflow, List.mem_pair] at h
          rcases h with htaken | hpacket
          · exact Or.inl ⟨data, htaken⟩
          · exact Or.inr ⟨_, hpacket⟩

/-- An iteration of the incoming loop shows the audio it writes, or nothing. -/
theorem shown_mem_rtpToSlIteration {total : ℕ}
    {datagram : Option (Chunk maxRtpPacketSize)} {written : Bool} {o : RelayShown}
    (h : o ∈ (rtpToSlIteration total datagram written).2) :
    ∃ slin, o = .written slin := by
  cases datagram with
  | none => simp [rtpToSlIteration] at h
  | some data =>
      cases hparse : parsePacket data.val with
      | error why => exact absurd hparse (parsePacket_ne_error data.val why)
      | ok payload =>
          cases payload with
          | none => simp [rtpToSlIteration, hparse] at h
          | some payload =>
              refine ⟨decodeUlaw payload, ?_⟩
              cases written <;> simpa [rtpToSlIteration, hparse] using h

/-- What a step of the relay shows. -/
theorem shown_mem_relayStep {loops : Loops} {e : RelayEvent} {relay' : Relay}
    {shown : List RelayShown} (h : relayStep (.running loops) e = some (relay', shown))
    {o : RelayShown} (ho : o ∈ shown) :
    (∃ data : Chunk relayBufferSize, o = .taken data.val) ∨
      (∃ packet, o = .packet packet loops.remoteRtp) ∨ ∃ slin, o = .written slin := by
  cases iterated_of_step h with
  | slRead l read sent hout hnext hshown =>
      rw [← hshown] at ho
      rcases shown_mem_slToRtpIteration ho with htaken | hpacket
      · exact Or.inl htaken
      · exact Or.inr (Or.inl hpacket)
  | rtpReceived total datagram written hin hnext hshown =>
      rw [← hshown] at ho
      exact Or.inr (Or.inr (shown_mem_rtpToSlIteration ho))

/-- A step of the relay sends to its endpoint. -/
theorem packet_mem_relayStep {loops : Loops} {e : RelayEvent} {relay' : Relay}
    {shown : List RelayShown} (h : relayStep (.running loops) e = some (relay', shown))
    {packet : List UInt8} {remote : SocketAddr} (hmem : .packet packet remote ∈ shown) :
    remote = loops.remoteRtp := by
  rcases shown_mem_relayStep h hmem with
    ⟨data, htaken⟩ | ⟨packet', hpacket⟩ | ⟨slin, hwritten⟩
  · simp at htaken
  · rw [RelayShown.packet.injEq] at hpacket
    exact hpacket.2
  · simp at hwritten

/-- A step of the relay keeps its endpoint. -/
theorem relayStep_remoteRtp {loops loops' : Loops} {e : RelayEvent}
    {shown : List RelayShown}
    (h : relayStep (.running loops) e = some (.running loops', shown)) :
    loops'.remoteRtp = loops.remoteRtp := by
  cases iterated_of_step h with
  | slRead l read sent hout hnext hshown => exact remoteRtp_of_joined (by simp) hnext
  | rtpReceived total datagram written hin hnext hshown =>
      exact remoteRtp_of_joined (by simp) hnext

/-! ## Whole runs -/

theorem takenReads_append (xs ys : List RelayShown) :
    takenReads (xs ++ ys) = takenReads xs ++ takenReads ys := by
  induction xs with
  | nil => rfl
  | cons x xs ih => cases x <;> simp [takenReads, ih]

theorem sentPackets_append (xs ys : List RelayShown) :
    sentPackets (xs ++ ys) = sentPackets xs ++ sentPackets ys := by
  induction xs with
  | nil => rfl
  | cons x xs ih => cases x <;> simp [sentPackets, ih]

/-- The outgoing loop does what the framing prescribes, over any run. -/
theorem outgoing_of_run
    {loops : Loops} {events : List RelayEvent} {t : Relay}
    {trace : List RelayShown}
    (hrun : relayMachine.run (.running loops) events = some (t, trace)) :
    Outgoing loops.slToRtp t trace ∧ ∀ why, t ≠ .panicked why := by
  induction events generalizing loops trace with
  | nil =>
      obtain ⟨rfl, rfl⟩ := relayMachine.run_nil_eq_some_iff.mp hrun
      refine ⟨?_, fun why => by simp⟩
      cases hl : loops.slToRtp <;>
        simp [Outgoing, takenReads, sentPackets, packetize, Relay.sentBytes, hl]
  | cons e events ih =>
      obtain ⟨t', shown, later, hstep, hrest, rfl⟩ :=
        relayMachine.run_cons_eq_some_iff.mp hrun
      cases outgoingStep_of_step hstep with
      | @other loops' _ hsame htaken hsent =>
          obtain ⟨hout, hpanic⟩ := ih hrest
          refine ⟨?_, hpanic⟩
          rw [hsame] at hout
          cases hl : loops.slToRtp <;>
            simpa [Outgoing, hl, takenReads_append, sentPackets_append, htaken,
              hsent] using hout
      | ended hhalt hpanic hout =>
          obtain ⟨rfl, rfl⟩ :=
            relayMachine.run_of_halted (relayStep_of_halted hhalt) hrest
          rw [List.append_nil]
          exact ⟨hout, hpanic⟩
      | @eof loops' l hl hdone =>
          obtain ⟨hout, hpanic⟩ := ih hrest
          refine ⟨?_, hpanic⟩
          rw [hdone] at hout
          obtain ⟨htaken, hsent, htotal⟩ := hout
          simpa [Outgoing, hl, htaken, hsent, packetize] using htotal
      | @carry loops' l data residual hl hgroup hresidual hnext =>
          obtain ⟨hout, hpanic⟩ := ih hrest
          refine ⟨?_, hpanic⟩
          rw [hnext] at hout
          simpa [Outgoing, hl, takenReads, sentPackets, payloads_cons, hgroup,
            hresidual] using hout
      | @send loops' l data residual hl hgroup hresidual hnext =>
          obtain ⟨hout, hpanic⟩ := ih hrest
          refine ⟨?_, hpanic⟩
          rw [hnext] at hout
          simpa [Outgoing, hl, takenReads, sentPackets, payloads_cons, hgroup,
            hresidual, packetize, Nat.add_assoc] using hout

theorem mem_takenReads {bytes : List UInt8} {trace : List RelayShown} :
    bytes ∈ takenReads trace ↔ .taken bytes ∈ trace := by
  induction trace with
  | nil => simp [takenReads]
  | cons o trace ih => cases o <;> simp [takenReads, ih]

/-- What an iteration of the outgoing loop takes is what it reads. -/
theorem takenReads_slToRtpIteration (l : SlToRtp) (remote : SocketAddr)
    (read : Option (Chunk relayBufferSize)) (sent : Bool) :
    takenReads (slToRtpIteration l remote read sent).2 =
      (RelayEvent.slRead read sent).reads := by
  cases read with
  | none => rfl
  | some data =>
      by_cases hdata : data.val = []
      · simp [slToRtpIteration, RelayEvent.reads, hdata, takenReads]
      · simp only [RelayEvent.reads, if_neg hdata]
        by_cases hgroup : group l data = []
        · obtain ⟨residual, -, hflow⟩ :=
            slToRtpIteration_of_group_eq_nil l remote data sent hdata hgroup
          rw [hflow]
          rfl
        · obtain ⟨residual, -, hflow⟩ :=
            slToRtpIteration_of_group_ne_nil l remote data sent hdata hgroup
          rw [hflow]
          rfl

theorem takenReads_of_step {s s' : Relay} {e : RelayEvent} {shown : List RelayShown}
    (hstep : relayMachine.step s e = some (s', shown)) : takenReads shown = e.reads := by
  cases s with
  | returned result => simp [relayMachine, relayStep] at hstep
  | panicked why => simp [relayMachine, relayStep] at hstep
  | running loops =>
      cases iterated_of_step hstep with
      | slRead l read sent hout hnext hshown =>
          rw [← hshown]
          exact takenReads_slToRtpIteration l loops.remoteRtp read sent
      | rtpReceived total datagram written hin hnext hshown =>
          have hnone : ∀ bytes, bytes ∉ takenReads shown := by
            intro bytes hmem
            rw [mem_takenReads, ← hshown] at hmem
            obtain ⟨slin, hslin⟩ := shown_mem_rtpToSlIteration hmem
            simp at hslin
          exact List.eq_nil_iff_forall_not_mem.mpr hnone

/-- The reads that a trace shows are the reads of bytes among the events. -/
theorem takenReads_of_run {s t : Relay} {events : List RelayEvent} {trace : List RelayShown}
    (hrun : relayMachine.run s events = some (t, trace)) :
    takenReads trace = audioReads events :=
  relayMachine.view_of_run (I := fun _ => True) rfl takenReads_append
    (fun _ _ _ _ _ hstep => ⟨takenReads_of_step hstep, trivial⟩) trivial hrun

/-- The reads of a run fit the relay's buffer. -/
theorem length_of_mem_audioReads {events : List RelayEvent} {bytes : List UInt8}
    (hmem : bytes ∈ audioReads events) : bytes.length ≤ relayBufferSize := by
  obtain ⟨e, -, hbytes⟩ := List.mem_flatMap.mp hmem
  cases e with
  | rtpReceived datagram written => simp [RelayEvent.reads] at hbytes
  | slRead read sent =>
      cases read with
      | none => simp [RelayEvent.reads] at hbytes
      | some data =>
          simp only [RelayEvent.reads] at hbytes
          split at hbytes
          · simp at hbytes
          · rw [List.mem_singleton.mp hbytes]
            exact data.property

theorem length_of_mem_takenReads
    {s t : Relay} {events : List RelayEvent} {trace : List RelayShown}
    (hrun : relayMachine.run s events = some (t, trace))
    {bytes : List UInt8} (hmem : bytes ∈ takenReads trace) :
    bytes.length ≤ relayBufferSize :=
  length_of_mem_audioReads (takenReads_of_run hrun ▸ hmem)

/-- A relay whose outgoing loop is done keeps its byte count, unless a write to slmodemd
fails. -/
theorem sentBytes_of_finished {loops : Loops} {total : ℕ} (hdone : loops.slToRtp = .finished total)
    {events : List RelayEvent} {t : Relay} {trace : List RelayShown}
    (hrun : relayMachine.run (.running loops) events = some (t, trace)) :
    t.sentBytes = some total ∨ t = .returned (.error .writeFailed) := by
  induction events generalizing loops trace with
  | nil =>
      obtain ⟨rfl, -⟩ := relayMachine.run_nil_eq_some_iff.mp hrun
      exact Or.inl (by simp [Relay.sentBytes, hdone])
  | cons e events ih =>
      obtain ⟨t', shown, later, hstep, hrest, -⟩ := relayMachine.run_cons_eq_some_iff.mp hrun
      cases iterated_of_step hstep with
      | slRead l read sent hout hnext hshown => simp [hdone] at hout
      | rtpReceived count datagram written hin hnext hshown =>
          have hhalted : t'.Halted → t'.sentBytes = some total ∨
              t' = .returned (.error .writeFailed) →
              t.sentBytes = some total ∨ t = .returned (.error .writeFailed) := by
            intro hhalt hends
            obtain ⟨rfl, -⟩ := relayMachine.run_of_halted (relayStep_of_halted hhalt) hrest
            exact hends
          have hgoesOn : ∀ n, relayMachine.run (.running { loops with rtpToSl := .running n })
              events = some (t, later) →
              t.sentBytes = some total ∨ t = .returned (.error .writeFailed) := by
            intro n hrest'
            have hdone' : ({ loops with rtpToSl := .running n } : Loops).slToRtp =
                .finished total := hdone
            exact ih hdone' hrest'
          unfold rtpToSlIteration at hnext
          split at hnext
          · subst hnext
            simp only [Flow.joined, Loops.join, hdone] at hhalted
            exact hhalted trivial (Or.inl rfl)
          · split at hnext
            · next why hparse => exact absurd hparse (parsePacket_ne_error _ why)
            · subst hnext
              exact hgoesOn _ hrest
            · split at hnext
              · subst hnext
                exact hgoesOn _ hrest
              · subst hnext
                exact hhalted trivial (Or.inr rfl)

/-- The end of the stream leaves the relay with its byte count. -/
theorem sentBytes_of_eof {loops : Loops} {e : RelayEvent} (heof : e.IsEof) {s : Relay}
    {shown : List RelayShown} (hstep : relayMachine.step (.running loops) e = some (s, shown)) :
    ∃ total, s.sentBytes = some total ∧
      (s.Halted ∨ ∃ loops', s = .running loops' ∧ loops'.slToRtp = .finished total) := by
  cases iterated_of_step hstep with
  | rtpReceived total datagram written hin hnext hshown => exact heof.elim
  | slRead l read sent hout hnext hshown =>
      cases read with
      | none => exact heof.elim
      | some data =>
          have hdata : data.val = [] := heof
          simp only [slToRtpIteration, hdata, if_true, Flow.joined] at hnext
          refine ⟨l.total, ?_⟩
          rcases Loops.join_cases { loops with slToRtp := .finished l.total } with
            hjoin | ⟨toRtp, toSl, htoRtp, -, hjoin⟩
          · rw [← hnext, hjoin]
            exact ⟨rfl, Or.inr ⟨_, rfl, rfl⟩⟩
          · obtain rfl : l.total = toRtp := by simpa using htoRtp
            rw [← hnext, hjoin]
            exact ⟨rfl, Or.inl trivial⟩

/-- Once the stream has ended the byte count is known, unless a write to slmodemd fails. -/
theorem sentBytes_of_eof_mem {s t : Relay} {events : List RelayEvent} {trace : List RelayShown}
    (hrun : relayMachine.run s events = some (t, trace)) {eof : RelayEvent} (hmem : eof ∈ events)
    (heof : eof.IsEof) :
    (∃ total, t.sentBytes = some total) ∨ t = .returned (.error .writeFailed) := by
  obtain ⟨before, after, rfl⟩ := List.append_of_mem hmem
  obtain ⟨s₁, _, _, -, hrest, -⟩ := relayMachine.run_append_eq_some_iff.mp hrun
  obtain ⟨s₂, _, _, hstep, hafter, -⟩ := relayMachine.run_cons_eq_some_iff.mp hrest
  cases s₁ with
  | returned result => simp [relayMachine, relayStep] at hstep
  | panicked why => simp [relayMachine, relayStep] at hstep
  | running loops =>
      obtain ⟨total, hcount, hhalt | ⟨loops', rfl, hdone⟩⟩ := sentBytes_of_eof heof hstep
      · obtain ⟨rfl, -⟩ := relayMachine.run_of_halted (relayStep_of_halted hhalt) hafter
        exact Or.inl ⟨total, hcount⟩
      · exact (sentBytes_of_finished hdone hafter).imp_left fun h => ⟨total, h⟩

/-- When the stream ends the byte count is known. -/
theorem sentBytes_of_eof_last {s t : Relay} {before : List RelayEvent} {trace : List RelayShown}
    {eof : RelayEvent} (hrun : relayMachine.run s (before ++ [eof]) = some (t, trace))
    (heof : eof.IsEof) : ∃ total, t.sentBytes = some total := by
  obtain ⟨s₁, _, _, -, hlast, -⟩ := relayMachine.run_append_eq_some_iff.mp hrun
  obtain ⟨s₂, _, _, hstep, hend, -⟩ := relayMachine.run_cons_eq_some_iff.mp hlast
  obtain ⟨rfl, -⟩ := relayMachine.run_nil_eq_some_iff.mp hend
  cases s₁ with
  | returned result => simp [relayMachine, relayStep] at hstep
  | panicked why => simp [relayMachine, relayStep] at hstep
  | running loops =>
      obtain ⟨total, hcount, -⟩ := sentBytes_of_eof heof hstep
      exact ⟨total, hcount⟩

/-! ## What the payloads are -/

/-- The payloads, joined, are the codes of the whole samples of the stream. -/
theorem payloads_flatten
    {carried : List UInt8} (hcarried : carried.length < 2)
    (reads : List (List UInt8)) :
    (payloads carried reads).flatten =
      ulawOf ((carried ++ reads.flatten).take
        (Framing.wholeLength 2 (carried ++ reads.flatten).length)) := by
  have heven : ∀ g ∈ Framing.whole 2 carried reads, 2 ∣ g.length :=
    fun g hg => Framing.dvd_length_of_mem_whole hg
  rw [← Framing.whole_flatten hcarried reads]
  simp only [payloads, ulawOf, samples_flatten heven]
  generalize Framing.whole 2 carried reads = groups
  induction groups with
  | nil => rfl
  | cons g groups ih =>
      cases g with
      | nil => simpa [samples] using ih
      | cons b g =>
          simp [ih]
          rfl

/-- The codes of whole samples are the codes of each of them. -/
theorem ulawOf_take_eq_flatMap (stream : List UInt8) :
    ulawOf (stream.take (Framing.wholeLength 2 stream.length)) =
      (List.range (stream.length / 2)).flatMap fun i =>
        ulawOf ((stream.drop (2 * i)).take 2) := by
  rw [Framing.wholeLength, Framing.take_mul_eq_flatMap, List.flatMap_def, ulawOf,
    samples_flatten]
  · simp only [List.map_flatten, List.map_map, List.flatMap_def]
    rfl
  · intro sample hsample
    obtain ⟨i, hi, rfl⟩ := List.mem_map.mp hsample
    rw [List.mem_range] at hi
    rw [List.length_take, List.length_drop, Nat.min_eq_left (by omega)]

/-- A payload holds one code or more, and no more than a packet has room for. -/
theorem length_of_mem_payloads
    {carried payload : List UInt8} {reads : List (List UInt8)}
    (hcarried : carried.length < 2)
    (hreads : ∀ read ∈ reads, read.length ≤ relayBufferSize)
    (hmem : payload ∈ payloads carried reads) :
    0 < payload.length ∧ payload.length ≤ maxRtpPacketSize - rtpHeaderSize := by
  simp only [payloads, List.mem_map, List.mem_filter] at hmem
  obtain ⟨g, ⟨hg, hne⟩, rfl⟩ := hmem
  have heven := Framing.dvd_length_of_mem_whole hg
  have hbound := Framing.length_le_of_mem_whole hcarried hreads hg
  have hpos : 0 < g.length := List.length_pos_iff.mpr (by simpa using hne)
  simp only [relayBufferSize] at hbound
  rw [ulawOf_length, maxRtpPacketSize, rtpHeaderSize]
  omega

/-! ## What the packets are -/

/-- The sender after it built some packets. -/
def advanced (s : RtpSender) (built : ℕ) : RtpSender :=
  { s with
    seq := s.seq + UInt16.ofNat built
    timestamp := s.timestamp + timestampIncrement * UInt32.ofNat built }

theorem advanced_buildPacket (s : RtpSender) (payload : List UInt8) (built : ℕ) :
    advanced (s.buildPacket payload).2 built = advanced s (built + 1) := by
  simp only [advanced, RtpSender.buildPacket, RtpSender.mk.injEq, true_and]
  refine ⟨?_, ?_⟩
  · rw [UInt16.ofNat_add, UInt16.add_assoc, UInt16.add_comm 1]
    rfl
  · rw [UInt32.ofNat_add, UInt32.mul_add, UInt32.add_assoc,
      UInt32.add_comm timestampIncrement]
    congr 2

/-- The `n`-th packet is built by the sender advanced by `n`. -/
theorem getElem?_packetize (s : RtpSender) (list : List (List UInt8)) (n : ℕ) :
    (packetize s list)[n]? =
      list[n]?.map fun payload => ((advanced s n).buildPacket payload).1 := by
  induction list generalizing s n with
  | nil => simp [packetize]
  | cons payload list ih =>
      cases n with
      | zero => simp [packetize, advanced, RtpSender.buildPacket]
      | succ n => simp [packetize, ih, advanced_buildPacket]

/-- The parser gives the payloads back, in order. -/
theorem map_parsePacket_packetize
    (s : RtpSender) {list : List (List UInt8)} (hne : ∀ p ∈ list, p ≠ []) :
    (packetize s list).map parsePacket = list.map fun p => .ok (some p) := by
  induction list generalizing s with
  | nil => rfl
  | cons payload list ih =>
      simp only [packetize, List.map_cons]
      rw [parsePacket_buildPacket s (hne payload List.mem_cons_self),
        ih _ fun p hp => hne p (List.mem_cons_of_mem _ hp)]

theorem length_packetize (s : RtpSender) (list : List (List UInt8)) :
    (packetize s list).map List.length =
      list.map fun p => rtpHeaderSize + p.length := by
  induction list generalizing s with
  | nil => rfl
  | cons payload list ih => simp [packetize, ih]

end SlmodemSipBridge.Media
