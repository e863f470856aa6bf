import Mathlib.Tactic.NormNum
import SlmodemSipBridge.Support.Rust

/-!
# RTP send/receive for PCMU audio

`rtp.rs`: the sender's sequence and timestamp state, the packet it builds and
the parser of received packets.  The UDP socket itself is left out; sending a
datagram is an observation of the relay, receiving one an event.
-/

namespace SlmodemSipBridge.Rtp

open Rust

/-- RTP header size in bytes. -/
def rtpHeaderSize : ℕ := 12

/-- RTP payload type for PCMU. -/
def ptPcmu : UInt8 := 0

/-- Timestamp increment per 20 ms frame at 8 kHz sample rate. -/
def timestampIncrement : UInt32 := 160

/-- Maximum RTP packet size accepted. -/
def maxRtpPacketSize : ℕ := 1500

/-- Minimum valid RTP packet: the header and one byte of payload. -/
def minRtpPacketSize : ℕ := rtpHeaderSize + 1

/-- RTP sender: mutable sequence and timestamp state, one per stream. -/
structure RtpSender where
  ssrc : UInt32
  seq : UInt16
  timestamp : UInt32
  deriving DecidableEq, Repr

/-- The sender half of `create_rtp_pair`. -/
def createRtpSender (ssrc : UInt32) : RtpSender where
  ssrc := ssrc
  seq := 0
  timestamp := 0

/-- Build an RTP packet, advancing sequence number and timestamp.  The
additions of `UInt16` and `UInt32` wrap, as `wrapping_add` does. -/
def RtpSender.buildPacket (s : RtpSender) (payload : List UInt8) :
    List UInt8 × RtpSender :=
  ([0x80, ptPcmu] ++ beBytes16 s.seq ++ beBytes32 s.timestamp ++
      beBytes32 s.ssrc ++ payload,
    { s with
      seq := s.seq + 1
      timestamp := s.timestamp + timestampIncrement })

/-- `send_packet` up to the call of `send_to`: the two assertions and the
packet handed to the socket. -/
def RtpSender.sendPacket (s : RtpSender) (payload : List UInt8) :
    Checked (List UInt8 × RtpSender) := do
  assert (!payload.isEmpty) "RTP payload must not be empty"
  assert (payload.length ≤ maxRtpPacketSize - rtpHeaderSize)
    s!"RTP payload {payload.length} bytes exceeds maximum {maxRtpPacketSize - rtpHeaderSize}"
  return s.buildPacket payload

/-- Parse an RTP packet, returning the payload slice if valid. -/
def parsePacket (data : List UInt8) : Checked (Option (List UInt8)) :=
  if data.length < minRtpPacketSize then .ok none
  else do
    let first ← index data 0
    let version := (first >>> 6) &&& 0x03
    if version ≠ 2 then .ok none
    else
      let cc := (first &&& 0x0F).toNat
      let headerLen := rtpHeaderSize + cc * 4
      let hasExtension := (first &&& 0x10) ≠ 0
      if data.length < headerLen then .ok none
      else if hasExtension then
        if data.length < headerLen + 4 then .ok none
        else do
          let extLen := (u16FromBeBytes (← index data (headerLen + 2))
            (← index data (headerLen + 3))).toNat
          let offset := headerLen + (4 + extLen * 4)
          if data.length ≤ offset then .ok none
          else some <$> sliceFrom data offset
      else if data.length ≤ headerLen then .ok none
      else some <$> sliceFrom data headerLen

/-! ## Header fields of a packet -/

/-- The sequence number a packet carries. -/
def seqOf (packet : List UInt8) : UInt16 :=
  u16FromBeBytes (packet.getD 2 0) (packet.getD 3 0)

/-- The timestamp a packet carries. -/
def timestampOf (packet : List UInt8) : UInt32 :=
  u32FromBeBytes (packet.getD 4 0) (packet.getD 5 0) (packet.getD 6 0)
    (packet.getD 7 0)

/-- The SSRC a packet carries. -/
def ssrcOf (packet : List UInt8) : UInt32 :=
  u32FromBeBytes (packet.getD 8 0) (packet.getD 9 0) (packet.getD 10 0)
    (packet.getD 11 0)

section BuildPacket

variable (s : RtpSender) (payload : List UInt8)

@[simp] theorem buildPacket_seqOf :
    seqOf (s.buildPacket payload).1 = s.seq :=
  u16FromBeBytes_beBytes16 s.seq

@[simp] theorem buildPacket_timestampOf :
    timestampOf (s.buildPacket payload).1 = s.timestamp :=
  u32FromBeBytes_beBytes32 s.timestamp

@[simp] theorem buildPacket_ssrcOf :
    ssrcOf (s.buildPacket payload).1 = s.ssrc :=
  u32FromBeBytes_beBytes32 s.ssrc

@[simp] theorem buildPacket_length :
    (s.buildPacket payload).1.length = rtpHeaderSize + payload.length := by
  simp [RtpSender.buildPacket, rtpHeaderSize]
  omega

/-- The payload follows the fixed header. -/
theorem buildPacket_drop :
    (s.buildPacket payload).1.drop rtpHeaderSize = payload := rfl

theorem sendPacket_eq_ok {payload : List UInt8} (hne : payload ≠ [])
    (hsize : payload.length ≤ maxRtpPacketSize - rtpHeaderSize) :
    s.sendPacket payload = .ok (s.buildPacket payload) := by
  have hempty : payload.isEmpty = false := by simpa using hne
  simp only [RtpSender.sendPacket, hempty, Bool.not_false, assert_true,
    decide_eq_true hsize]
  rfl

end BuildPacket

/-! ## Parsing -/

/-- No index of the parser leaves the datagram. -/
theorem parsePacket_ne_error (data : List UInt8) (why : Panic) :
    parsePacket data ≠ .error why := by
  unfold parsePacket
  split
  · simp
  · next hmin =>
    have hpos : 0 < data.length := by
      simp only [minRtpPacketSize, rtpHeaderSize] at hmin
      omega
    simp only [index_eq_ok hpos, bind, Except.bind]
    split
    · simp
    split
    · simp
    next hheader =>
    split
    · split
      · simp
      · next hext =>
        rw [index_eq_ok (by omega), index_eq_ok (by omega)]
        simp only
        split
        · simp
        · next hoffset =>
          rw [sliceFrom_eq_ok (by omega)]
          simp [Functor.map, Except.map]
    · split
      · simp
      · next hoffset =>
        rw [sliceFrom_eq_ok (by omega)]
        simp [Functor.map, Except.map]

/-- The parser gives back the payload of every packet the sender builds. -/
theorem parsePacket_buildPacket (s : RtpSender) {payload : List UInt8}
    (hne : payload ≠ []) :
    parsePacket (s.buildPacket payload).1 = .ok (some payload) := by
  have hpos : 0 < payload.length := List.length_pos_iff.mpr hne
  have hlength := buildPacket_length s payload
  have hfirst :
      index (s.buildPacket payload).1 0 = .ok 0x80 := rfl
  have hslice :
      sliceFrom (s.buildPacket payload).1 rtpHeaderSize = .ok payload := by
    rw [sliceFrom_eq_ok (by omega), buildPacket_drop]
  have hversion : ((0x80 : UInt8) >>> 6) &&& 0x03 = 2 := by decide
  have hcc : ((0x80 : UInt8) &&& 0x0F).toNat = 0 := by decide
  have hextension : (0x80 : UInt8) &&& 0x10 = 0 := by decide
  simp only [minRtpPacketSize, parsePacket, hfirst, bind, Except.bind, hversion, hcc,
    hextension, hlength, ne_eq, not_true_eq_false, if_false, Nat.zero_mul,
    Nat.add_zero]
  rw [if_neg (by omega), if_neg (by omega), if_neg (by omega), hslice]
  rfl

end SlmodemSipBridge.Rtp
