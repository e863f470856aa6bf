import Mathlib.Data.Nat.ModEq
import Mathlib.Tactic.Ring
import SlmodemSipBridge.Media.Outgoing

/-!
# The RTP sample clock

The timestamp of a packet advances by a constant, whatever the payload.  It
counts the samples sent exactly when every packet but the last one carries that
many.
-/

namespace SlmodemSipBridge.Media

open Rust Codec Rtp

/-- The samples in the payloads of some packets. -/
def samplesIn (packets : List (List UInt8)) : ℕ :=
  (packets.map fun packet => packet.length - rtpHeaderSize).sum

/-- The timestamp of each packet is the number of samples sent before it. -/
def TimestampsCountSamples (packets : List (List UInt8)) : Prop :=
  ∀ n packet, packets[n]? = some packet →
    timestampOf packet = UInt32.ofNat (samplesIn (packets.take n))

/-- Every read that completes a sample, other than the last such read, completes
exactly the samples of one 20 ms frame. -/
def ReadsAreFrames (sizes : List ℕ) : Prop :=
  ∀ count ∈ ((Framing.completed 2 0 sizes).filter (· ≠ 0)).dropLast,
    count = timestampIncrement.toNat

instance (sizes : List ℕ) : Decidable (ReadsAreFrames sizes) := by
  unfold ReadsAreFrames
  infer_instance

/-! ## Clocks that advance by a constant -/

/-- A clock that advances by `d` at each item agrees, modulo `m`, with the sum
of the items' sizes exactly when all items but the last have size `d`. -/
theorem constant_clock_iff
    {m d base base' : ℕ} (hbase : base ≡ base' [MOD m]) (sizes : List ℕ) :
    (∀ n < sizes.length, base + d * n ≡ base' + (sizes.take n).sum [MOD m]) ↔
      ∀ size ∈ sizes.dropLast, d ≡ size [MOD m] := by
  induction sizes generalizing base base' with
  | nil => simp
  | cons size rest ih =>
      cases rest with
      | nil =>
          constructor
          · simp
          · intro _ n hn
            have hzero : n = 0 := by simpa using hn
            simpa [hzero] using hbase
      | cons next rest =>
          have hshift : ∀ n : ℕ,
              base + d * (n + 1) = base + d + d * n := fun n => by ring
          rw [List.dropLast_cons_cons, List.forall_mem_cons]
          constructor
          · intro h
            have hsize : d ≡ size [MOD m] :=
              Nat.ModEq.add_left_cancel hbase (by simpa using h 1 (by simp))
            refine ⟨hsize, (ih (hbase.add hsize)).mp ?_⟩
            intro n hn
            have hnext := h (n + 1) (by simpa using hn)
            rw [hshift] at hnext
            simpa [Nat.add_assoc] using hnext
          · rintro ⟨hsize, hrest⟩ n hn
            cases n with
            | zero => simpa using hbase
            | succ n =>
                have hnext := (ih (hbase.add hsize)).mpr hrest n (by simpa using hn)
                rw [hshift]
                simpa [Nat.add_assoc] using hnext

/-! ## The sizes of the payloads -/

/-- The payloads have the sizes of the sample counts that the reads complete. -/
theorem map_length_payloads (reads : List (List UInt8)) :
    (payloads [] reads).map List.length =
      (Framing.completed 2 0 (reads.map List.length)).filter (· ≠ 0) := by
  have hcompleted : (Framing.whole 2 [] reads).map (fun g => g.length / 2) =
      Framing.completed 2 0 (reads.map List.length) :=
    Framing.map_length_whole (by decide) rfl reads
  have heven : ∀ g ∈ Framing.whole 2 [] reads, 2 ∣ g.length :=
    fun g hg => Framing.dvd_length_of_mem_whole hg
  rw [← hcompleted, payloads, List.filter_map, List.map_map]
  have hfilter :
      (Framing.whole 2 [] reads).filter (!·.isEmpty) =
        (Framing.whole 2 [] reads).filter
          ((fun n => decide (n ≠ 0)) ∘ fun g => g.length / 2) := by
    apply List.filter_congr
    intro g hg
    have hg2 := heven g hg
    cases g with
    | nil => rfl
    | cons b g =>
        have hpos : (b :: g).length / 2 ≠ 0 := by
          simp only [List.length_cons] at hg2 ⊢
          omega
        simp only [Function.comp_apply, decide_eq_true hpos]
        rfl
  rw [hfilter]
  apply List.map_congr_left
  intro g hg
  simp

theorem samplesIn_packetize (s : RtpSender) (list : List (List UInt8)) :
    samplesIn (packetize s list) = (list.map List.length).sum := by
  have hlength := length_packetize s list
  have hmap :
      (packetize s list).map (fun packet => packet.length - rtpHeaderSize) =
        ((packetize s list).map List.length).map (· - rtpHeaderSize) := by
    rw [List.map_map]
    rfl
  rw [samplesIn, hmap, hlength, List.map_map]
  congr 1
  apply List.map_congr_left
  intro p _
  simp

theorem take_packetize (s : RtpSender) (list : List (List UInt8)) (n : ℕ) :
    (packetize s list).take n = packetize s (list.take n) := by
  induction list generalizing s n with
  | nil => simp [packetize]
  | cons p list ih =>
      cases n with
      | zero => rfl
      | succ n => simp [packetize, ih]

/-- What the timestamps of a fresh sender's packets count. -/
theorem timestampsCountSamples_packetize_iff
    (ssrc : UInt32) (list : List (List UInt8)) :
    TimestampsCountSamples (packetize (createRtpSender ssrc) list) ↔
      ∀ n < list.length,
        0 + 160 * n ≡ 0 + ((list.map List.length).take n).sum [MOD 2 ^ 32] := by
  have hclock : ∀ n,
      timestampOf ((advanced (createRtpSender ssrc) n).buildPacket []).1 =
        UInt32.ofNat (160 * n) := by
    intro n
    simp [advanced, createRtpSender, timestampIncrement, UInt32.ofNat_mul]
  have hmod : ∀ a b : ℕ,
      UInt32.ofNat a = UInt32.ofNat b ↔ a ≡ b [MOD 2 ^ 32] := by
    intro a b
    rw [← UInt32.toNat_inj, UInt32.toNat_ofNat', UInt32.toNat_ofNat']
    rfl
  constructor
  · intro h n hn
    have hpacket := getElem?_packetize (createRtpSender ssrc) list n
    rw [List.getElem?_eq_getElem hn, Option.map_some] at hpacket
    have hstamp := h n _ hpacket
    rw [take_packetize, samplesIn_packetize, List.map_take] at hstamp
    rw [Nat.zero_add, Nat.zero_add, ← hmod, ← hstamp, ← hclock]
    simp
  · intro h n packet hpacket
    rw [getElem?_packetize, Option.map_eq_some_iff] at hpacket
    obtain ⟨payload, hpayload, rfl⟩ := hpacket
    obtain ⟨hn, -⟩ := List.getElem?_eq_some_iff.mp hpayload
    have hstamp := h n hn
    rw [Nat.zero_add, Nat.zero_add, ← hmod, ← hclock] at hstamp
    rw [take_packetize, samplesIn_packetize, List.map_take, ← hstamp]
    simp

/-! ## Whole runs -/

/-- The timestamps count the samples sent exactly when the reads are frames. -/
theorem relay_timestamps_iff
    (ssrc : UInt32) (remote : SocketAddr) (events : List RelayEvent)
    (t : Relay) (trace : List RelayShown)
    (hrun : relayMachine.run (relayStart (createRtpSender ssrc) remote) events =
      some (t, trace)) :
    TimestampsCountSamples (sentPackets trace) ↔
      ReadsAreFrames ((takenReads trace).map List.length) := by
  obtain ⟨⟨hsent, -⟩, -⟩ := outgoing_of_run hrun
  have hsent' : sentPackets trace =
      packetize (createRtpSender ssrc) (payloads [] (takenReads trace)) := hsent
  rw [hsent', timestampsCountSamples_packetize_iff]
  have hsizes := map_length_payloads (takenReads trace)
  have hclock := constant_clock_iff (m := 2 ^ 32) (d := 160)
    (Nat.ModEq.refl 0) ((payloads [] (takenReads trace)).map List.length)
  rw [List.length_map] at hclock
  rw [hclock, ReadsAreFrames, ← hsizes]
  apply forall₂_congr
  intro size hsize
  -- A payload is far shorter than the modulus, so congruence is equality.
  obtain ⟨payload, hpayload, rfl⟩ :=
    List.mem_map.mp (List.dropLast_subset _ hsize)
  have hbound := (length_of_mem_payloads (by simp)
    (fun read hread => length_of_mem_takenReads hrun hread) hpayload).2
  simp only [maxRtpPacketSize, rtpHeaderSize] at hbound
  rw [Nat.ModEq, Nat.mod_eq_of_lt (by decide), Nat.mod_eq_of_lt (by omega)]
  exact eq_comm

theorem length_silentFrame :
    (List.replicate 320 (0 : UInt8)).length ≤ relayBufferSize := by
  rw [List.length_replicate, relayBufferSize]
  omega

/-- 20 ms of silence. -/
def silentFrame : Chunk relayBufferSize := ⟨List.replicate 320 0, length_silentFrame⟩

/-- A 20 ms frame, then a read of one sample. -/
def frameThenSample : List RelayEvent :=
  [.slRead (some silentFrame) true,
    .slRead (some ⟨[0, 0], by decide⟩) true]

theorem relay_timestamps_frameThenSample :
    ∃ t trace,
      relayMachine.run (relayStart (createRtpSender 7) ⟨.v4 ⟨10, 0, 0, 1⟩, 4000⟩)
          frameThenSample = some (t, trace) ∧
        TimestampsCountSamples (sentPackets trace) := by
  have hsizes :
      (relayMachine.run (relayStart (createRtpSender 7) ⟨.v4 ⟨10, 0, 0, 1⟩, 4000⟩)
        frameThenSample).map (fun end_ => (takenReads end_.2).map List.length) =
          some [320, 2] := by decide +kernel
  obtain ⟨⟨t, trace⟩, hrun, hreads⟩ := Option.map_eq_some_iff.mp hsizes
  have hreads' : (takenReads trace).map List.length = [320, 2] := hreads
  refine ⟨t, trace, hrun, (relay_timestamps_iff 7 _ _ t trace hrun).mpr ?_⟩
  rw [hreads']
  decide

/-- Two reads of two samples each. -/
def shortReads : List RelayEvent :=
  [.slRead (some ⟨[0, 0, 0, 0], by decide⟩) true,
    .slRead (some ⟨[0, 0, 0, 0], by decide⟩) true]

/-- After a payload of two samples the clock has advanced by 160. -/
theorem relay_timestamps_shortReads :
    ∃ t trace,
      relayMachine.run (relayStart (createRtpSender 7) ⟨.v4 ⟨10, 0, 0, 1⟩, 4000⟩)
          shortReads = some (t, trace) ∧
        ¬ TimestampsCountSamples (sentPackets trace) := by
  have hsecond :
      (relayMachine.run (relayStart (createRtpSender 7) ⟨.v4 ⟨10, 0, 0, 1⟩, 4000⟩)
        shortReads).map (fun end_ =>
          ((sentPackets end_.2)[1]?.map timestampOf,
            samplesIn ((sentPackets end_.2).take 1))) = some (some 160, 2) := rfl
  obtain ⟨⟨t, trace⟩, hrun, hvalues⟩ := Option.map_eq_some_iff.mp hsecond
  simp only [Prod.mk.injEq] at hvalues
  obtain ⟨packet, hpacket, hstamp⟩ := Option.map_eq_some_iff.mp hvalues.1
  refine ⟨t, trace, hrun, ?_⟩
  intro hcounts
  have hcount := hcounts 1 packet hpacket
  rw [hstamp, hvalues.2] at hcount
  exact absurd hcount (by decide)

end SlmodemSipBridge.Media
