import SlmodemSipBridge.Media.Layout
import SlmodemSipBridge.Media.Relay

/-!
# The media of a datagram and what slmodemd hears of it

RFC 3550 lets a packet carry padding behind its payload, announced by the P bit
and counted by the last byte, and a payload type that names the codec.  The
parser of `rtp.rs` looks at neither, so `rtp_to_sl` decodes whatever follows the
header.
-/

namespace SlmodemSipBridge.Rtp

/-- The P bit of the first byte. -/
def paddingBit (first : UInt8) : Bool := first.toNat / 32 % 2 == 1

/-- The payload type, the low seven bits of the second byte. -/
def payloadTypeOf (data : List UInt8) : ℕ := (data.getD 1 0).toNat % 128

/-- The padding that the P bit announces: its last byte counts all of it. -/
inductive PaddingPart : Bool → List UInt8 → Prop where
  | absent : PaddingPart false []
  | present (fill : List UInt8) (count : UInt8) :
      count.toNat = fill.length + 1 → PaddingPart true (fill ++ [count])

/-- A well-formed datagram, with its media payload and its padding. -/
structure WellFormed (data payload padding : List UInt8) : Prop where
  headed : Headed data (payload ++ padding)
  padded : PaddingPart (paddingBit (data.getD 0 0)) padding

/-- Padding is announced exactly when there is some. -/
theorem PaddingPart.eq_nil_iff {bit : Bool} {padding : List UInt8}
    (h : PaddingPart bit padding) : padding = [] ↔ bit = false := by
  cases h with
  | absent => simp
  | present fill count hcount => simp

end SlmodemSipBridge.Rtp

namespace SlmodemSipBridge.Media

open Rust Codec Rtp

/-- The audio of a datagram for a receiver that knows PCMU only. -/
def pcmuAudio (data payload : List UInt8) : List UInt8 :=
  if payloadTypeOf data = ptPcmu.toNat then decodeUlaw payload else []

theorem decodeUlaw_eq_nil_iff {ulaw : List UInt8} : decodeUlaw ulaw = [] ↔ ulaw = [] := by
  rw [← List.length_eq_zero_iff, decodeUlaw_length, ← List.length_eq_zero_iff]
  omega

/-- `rtp_to_sl` decodes all that follows the header of a datagram. -/
theorem writtenAudio_headed {data rest : List UInt8} (h : Headed data rest)
    (hsize : data.length ≤ maxRtpPacketSize) (total : ℕ) (written : Bool) :
    writtenAudio (rtpToSlIteration total (some ⟨data, hsize⟩) written).2 =
      decodeUlaw rest := by
  have hparse := parsePacket_of_headed h
  cases rest with
  | nil =>
      simp only [List.isEmpty_nil, if_true] at hparse
      simp [rtpToSlIteration, hparse, writtenAudio, decodeUlaw]
  | cons byte rest =>
      simp only [List.isEmpty_cons, Bool.false_eq_true, if_false] at hparse
      cases written <;> simp [rtpToSlIteration, hparse, writtenAudio]

/-- A datagram is heard as its PCMU media exactly when it has no padding and is
either of payload type 0 or empty. -/
theorem decodeUlaw_eq_pcmuAudio_iff {data payload padding : List UInt8}
    (h : WellFormed data payload padding) :
    decodeUlaw (payload ++ padding) = pcmuAudio data payload ↔
      paddingBit (data.getD 0 0) = false ∧ (payloadTypeOf data = 0 ∨ payload = []) := by
  rw [← h.padded.eq_nil_iff, pcmuAudio]
  by_cases htype : payloadTypeOf data = 0
  · have hcodec : payloadTypeOf data = ptPcmu.toNat := htype
    rw [if_pos hcodec, decodeUlaw_append]
    simp [htype, decodeUlaw_eq_nil_iff]
  · have hcodec : ¬ payloadTypeOf data = ptPcmu.toNat := htype
    rw [if_neg hcodec, decodeUlaw_eq_nil_iff, List.append_eq_nil_iff]
    simp only [htype, false_or]
    exact and_comm

/-- For every well-formed datagram that the running loop receives, the audio
written to slmodemd is that of its PCMU media exactly when the P bit is clear
and the payload type is 0 or nothing follows the header. -/
theorem relay_writesPcmu_iff {loops : Loops} {total : ℕ}
    (hrunning : loops.rtpToSl = .running total) {data payload padding : List UInt8}
    (hformed : WellFormed data payload padding)
    (hsize : data.length ≤ maxRtpPacketSize) (written : Bool) :
    ∃ t shown,
      relayMachine.step (.running loops) (.rtpReceived (some ⟨data, hsize⟩) written) =
          some (t, shown) ∧
        (writtenAudio shown = pcmuAudio data payload ↔
          paddingBit (data.getD 0 0) = false ∧
            (payloadTypeOf data = 0 ∨ payload = [])) := by
  refine ⟨_, _, step_rtpReceived hrunning _ written, ?_⟩
  rw [writtenAudio_headed hformed.headed]
  exact decodeUlaw_eq_pcmuAudio_iff hformed

/-! ## A comfort noise datagram -/

/-- One byte of comfort noise, payload type 13. -/
def comfortNoise : List UInt8 := [0x80, 13, 0, 1, 0, 0, 0, 0, 0, 0, 0, 1, 0x40]

theorem wellFormed_comfortNoise : WellFormed comfortNoise [0x40] [] where
  headed := ⟨0x80, [13, 0, 1, 0, 0, 0, 0, 0, 0, 0, 1], [], [], rfl, by decide, rfl, rfl,
    .absent⟩
  padded := .absent

theorem length_comfortNoise : comfortNoise.length ≤ maxRtpPacketSize := by decide

/-- The loops of a relay that has moved nothing yet. -/
def idleLoops : Loops where
  remoteRtp := ⟨.v4 ⟨10, 0, 0, 8⟩, 4000⟩
  slToRtp := .running { total := 0, residual := none, sender := createRtpSender 1 }
  rtpToSl := .running 0

theorem relay_writesPcmu_comfortNoise :
    ∃ t shown,
      relayMachine.step (.running idleLoops)
          (.rtpReceived (some ⟨comfortNoise, length_comfortNoise⟩) true) =
          some (t, shown) ∧
        (writtenAudio shown = pcmuAudio comfortNoise [0x40] ↔
          paddingBit (comfortNoise.getD 0 0) = false ∧
            (payloadTypeOf comfortNoise = 0 ∨ ([0x40] : List UInt8) = [])) :=
  relay_writesPcmu_iff rfl wellFormed_comfortNoise length_comfortNoise true

/-- Comfort noise is written to slmodemd as if it were speech. -/
theorem relay_writesComfortNoise :
    ¬ ∀ (loops : Loops) (total : ℕ), loops.rtpToSl = .running total →
      ∀ (data payload padding : List UInt8), WellFormed data payload padding →
        ∀ (hsize : data.length ≤ maxRtpPacketSize) (written : Bool) (t : Relay)
          (shown : List RelayShown),
          relayMachine.step (.running loops)
              (.rtpReceived (some ⟨data, hsize⟩) written) = some (t, shown) →
            writtenAudio shown = pcmuAudio data payload := by
  intro h
  have hwritten := h idleLoops 0 rfl comfortNoise [0x40] [] wellFormed_comfortNoise
    length_comfortNoise true _ _ (step_rtpReceived rfl _ true)
  revert hwritten
  decide

end SlmodemSipBridge.Media
