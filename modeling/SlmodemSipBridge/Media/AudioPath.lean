import SlmodemSipBridge.Media.Outgoing

/-!
# The audio path from one bridge to the next

The outgoing loop of one relay and the incoming loop of another, end to end:
the second slmodemd hears the µ-law rendering of the first one's stream,
wherever the reads were split.
-/

namespace SlmodemSipBridge.Media

open Rust Codec Rtp

/-! ## Receiving -/

/-- The events of receiving datagrams, each written to slmodemd. -/
def received (datagrams : List (Chunk maxRtpPacketSize)) : List RelayEvent :=
  datagrams.map fun datagram => .rtpReceived (some datagram) true

/-- Datagrams that parse are decoded and written in the order received. -/
theorem run_received
    (loops : Loops) {total : ℕ} (htotal : loops.rtpToSl = .running total)
    {datagrams : List (Chunk maxRtpPacketSize)} {list : List (List UInt8)}
    (hparse : datagrams.map (fun d => parsePacket d.val) =
      list.map fun p => .ok (some p)) :
    ∃ t trace,
      relayMachine.run (.running loops) (received datagrams) = some (t, trace) ∧
        writtenAudio trace = decodeUlaw list.flatten := by
  induction datagrams generalizing loops total list with
  | nil =>
      have hlist : list = [] := by simpa using hparse.symm
      exact ⟨.running loops, [], rfl, by simp [hlist, writtenAudio, decodeUlaw]⟩
  | cons datagram datagrams ih =>
      cases list with
      | nil => simp at hparse
      | cons payload list =>
          simp only [List.map_cons, List.cons.injEq] at hparse
          obtain ⟨hhead, htail⟩ := hparse
          let next : Loops :=
            { loops with rtpToSl := .running (total + payload.length) }
          have hstep :
              relayMachine.step (.running loops) (.rtpReceived (some datagram) true) =
                some (.running next, [.written (decodeUlaw payload)]) := by
            simp [step_rtpReceived htotal, rtpToSlIteration, hhead, Flow.joined, next]
          obtain ⟨t, trace, hrun, hwritten⟩ := ih next rfl htail
          refine ⟨t, .written (decodeUlaw payload) :: trace, ?_, ?_⟩
          · exact relayMachine.run_cons_of_step hstep hrun
          · simp [writtenAudio, hwritten, decodeUlaw_append]

/-! ## The audio path -/

/-- What a relay owes its peer once it has read `stream` from slmodemd. -/
structure AudioDelivered (ssrc : UInt32) (stream : List UInt8) (events : List RelayEvent)
    (t : Relay) (packets : List (List UInt8)) : Prop where
  /-- No assertion fired. -/
  alive : ∀ why, t ≠ .panicked why
  /-- The payloads are not empty, fit a packet, parse back and join up to the
  encoding of the whole samples. -/
  carried : ∃ list : List (List UInt8),
    packets.map parsePacket = list.map (fun p => .ok (some p)) ∧
      encodeUlaw (stream.take (2 * (stream.length / 2))) = .ok list.flatten ∧
      ∀ p ∈ list, 0 < p.length ∧ p.length ≤ maxRtpPacketSize - rtpHeaderSize
  numbered : ∀ n packet, packets[n]? = some packet →
    seqOf packet = UInt16.ofNat n ∧ ssrcOf packet = ssrc
  /-- At the end of the stream the byte count is the number of samples. -/
  atEof : ∀ before eof, events = before ++ [eof] → eof.IsEof →
    t.sentBytes = some (stream.length / 2)
  /-- It stays so, unless the relay fails to write to slmodemd. -/
  afterEof : ∀ eof ∈ events, eof.IsEof →
    t.sentBytes = some (stream.length / 2) ∨ t = .returned (.error .writeFailed)
  /-- A second relay that receives the packets writes the decoded samples. -/
  heard : ∀ sender remote, ∃ datagrams : List (Chunk maxRtpPacketSize),
    datagrams.map Subtype.val = packets ∧
      ∃ t' trace' ulaw,
        relayMachine.run (relayStart sender remote) (received datagrams) =
            some (t', trace') ∧
          encodeUlaw (stream.take (2 * (stream.length / 2))) = .ok ulaw ∧
          writtenAudio trace' = decodeUlaw ulaw

/-- Packets that fit the receive buffer. -/
theorem exists_datagrams {packets : List (List UInt8)}
    (hfit : ∀ packet ∈ packets, packet.length ≤ maxRtpPacketSize) :
    ∃ datagrams : List (Chunk maxRtpPacketSize),
      datagrams.map Subtype.val = packets := by
  induction packets with
  | nil => exact ⟨[], rfl⟩
  | cons packet packets ih =>
      obtain ⟨datagrams, hmap⟩ := ih fun p hp => hfit p (List.mem_cons_of_mem _ hp)
      exact ⟨⟨packet, hfit packet List.mem_cons_self⟩ :: datagrams, by simp [hmap]⟩

/-- The audio path, for every byte stream and every way of reading it. -/
theorem relay_audioDelivered
    (ssrc : UInt32) (remote : SocketAddr) (events : List RelayEvent)
    (t : Relay) (trace : List RelayShown)
    (hrun : relayMachine.run (relayStart (createRtpSender ssrc) remote) events =
      some (t, trace)) :
    AudioDelivered ssrc (audioReads events).flatten events t (sentPackets trace) := by
  obtain ⟨⟨hsent, htotal⟩, halive⟩ := outgoing_of_run hrun
  rw [takenReads_of_run hrun] at hsent htotal
  set list := payloads [] (audioReads events) with hlist
  set stream := (audioReads events).flatten with hstream
  have hsent' : sentPackets trace = packetize (createRtpSender ssrc) list := hsent
  have hsize : ∀ p ∈ list,
      0 < p.length ∧ p.length ≤ maxRtpPacketSize - rtpHeaderSize :=
    fun p hp => length_of_mem_payloads (by simp)
      (fun read hread => length_of_mem_audioReads hread) hp
  have hne : ∀ p ∈ list, p ≠ [] :=
    fun p hp => List.length_pos_iff.mp (hsize p hp).1
  have hflatten : list.flatten =
      ulawOf (stream.take (2 * (stream.length / 2))) := by
    have hnil : ([] : List UInt8).length < 2 := by simp
    simpa only [List.nil_append, Framing.wholeLength] using
      payloads_flatten hnil (audioReads events)
  have hencode : encodeUlaw (stream.take (2 * (stream.length / 2))) =
      .ok list.flatten := by
    rw [hflatten]
    refine encodeUlaw_eq_ok ?_
    rw [List.length_take, Nat.min_eq_left (Nat.mul_div_le _ _)]
    exact Nat.dvd_mul_right 2 _
  have hparse : (sentPackets trace).map parsePacket =
      list.map fun p => .ok (some p) := by
    rw [hsent', map_parsePacket_packetize _ hne]
  have hcount : ∀ n, t.sentBytes = some n → n = stream.length / 2 := by
    intro n hn
    rw [htotal n hn]
    change 0 + list.flatten.length = stream.length / 2
    rw [hflatten, ulawOf_length, List.length_take]
    omega
  refine
    { alive := halive
      carried := ⟨list, hparse, hencode, hsize⟩
      numbered := ?_
      atEof := ?_
      afterEof := ?_
      heard := ?_ }
  · intro n packet hpacket
    rw [hsent', getElem?_packetize, Option.map_eq_some_iff] at hpacket
    obtain ⟨payload, -, rfl⟩ := hpacket
    simp [advanced, createRtpSender]
  · rintro before eof hevents heof
    obtain ⟨n, hn⟩ := sentBytes_of_eof_last (hevents ▸ hrun) heof
    rw [hn, hcount n hn]
  · intro eof hmem heof
    refine (sentBytes_of_eof_mem hrun hmem heof).imp_left ?_
    rintro ⟨n, hn⟩
    rw [hn, hcount n hn]
  · intro sender remote'
    have hfit : ∀ packet ∈ sentPackets trace, packet.length ≤ maxRtpPacketSize := by
      intro packet hpacket
      have hlength := List.mem_map_of_mem (f := List.length) hpacket
      rw [hsent', length_packetize, List.mem_map] at hlength
      obtain ⟨p, hp, hplength⟩ := hlength
      have hbound := (hsize p hp).2
      simp only [maxRtpPacketSize, rtpHeaderSize] at hbound hplength ⊢
      omega
    obtain ⟨datagrams, hmap⟩ := exists_datagrams hfit
    have hparse' : datagrams.map (fun d => parsePacket d.val) =
        list.map fun p => .ok (some p) := by
      rw [← hparse, ← hmap, List.map_map]
      rfl
    obtain ⟨t', trace', hrun', hwritten⟩ :=
      run_received ⟨remote', .running ⟨0, none, sender⟩, .running 0⟩
        rfl hparse'
    exact ⟨datagrams, hmap, t', trace', list.flatten, hrun', hencode, hwritten⟩

/-- Five bytes of audio in reads of one, three and one bytes, and the end. -/
def fiveByteReads : List RelayEvent :=
  [.slRead (some ⟨[1], by decide⟩) true, .slRead (some ⟨[2, 3, 4], by decide⟩) true,
    .slRead (some ⟨[5], by decide⟩) true, .slRead (some ⟨[], by decide⟩) true]

theorem relay_audioDelivered_fiveByteReads :
    ∃ t trace,
      relayMachine.run (relayStart (createRtpSender 7) ⟨.v4 ⟨10, 0, 0, 1⟩, 4000⟩)
          fiveByteReads = some (t, trace) ∧
        t.sentBytes = some 2 ∧
        AudioDelivered 7 [1, 2, 3, 4, 5] fiveByteReads t (sentPackets trace) := by
  have hcounted :
      (relayMachine.run (relayStart (createRtpSender 7) ⟨.v4 ⟨10, 0, 0, 1⟩, 4000⟩)
        fiveByteReads).map (fun end_ => end_.1.sentBytes) = some (some 2) := rfl
  obtain ⟨⟨t, trace⟩, hrun, hcount⟩ := Option.map_eq_some_iff.mp hcounted
  exact ⟨t, trace, hrun, hcount, relay_audioDelivered 7 _ fiveByteReads t trace hrun⟩

end SlmodemSipBridge.Media
