import SlmodemSipBridge.Media.Codec
import SlmodemSipBridge.Media.Rtp
import SlmodemSipBridge.Support.Machine
import SlmodemSipBridge.Support.Net

/-!
# The media relay

`relay_media` of `bridge.rs`: two loops under `try_join!`.  One reads linear
audio from slmodemd and sends it as RTP, the other receives RTP and writes
linear audio to slmodemd.  An event completes the receive that one of the loops
waits for; the send or the write that follows completes in the same step, with
the outcome the event names.  The throughput statistics are only logged and are
left out.  The byte counts, of type `u64` in the source, are numbers without a
limit here: no call lasts for `2 ^ 64` bytes.
-/

namespace SlmodemSipBridge.Media

open Rust Codec Rtp

/-- The size of the buffer `relay_media` reads slmodemd's audio into. -/
def relayBufferSize : ℕ := 2048

/-- An event of the relay.  A result of `none` is an I/O error, and a read of no
bytes is the end of slmodemd's stream. -/
inductive RelayEvent where
  | slRead (read : Option (Chunk relayBufferSize)) (sent : Bool)
  | rtpReceived (datagram : Option (Chunk maxRtpPacketSize)) (written : Bool)

/-- What the relay shows: the bytes it takes from slmodemd, the packets it
hands to the RTP socket and the audio it writes to slmodemd. -/
inductive RelayShown where
  | taken (bytes : List UInt8)
  | packet (data : List UInt8) (remote : SocketAddr)
  | written (slin : List UInt8)
  deriving DecidableEq

/-- The contexts of the relay's errors. -/
inductive RelayError where
  | readFailed
  | sendFailed
  | writeFailed
  deriving DecidableEq, Repr

/-- The locals of `sl_to_rtp`. -/
structure SlToRtp where
  total : ℕ
  residual : Option UInt8
  sender : RtpSender
  deriving DecidableEq

/-- One of the two joined loops: still running on its locals, or finished with
its byte count. -/
inductive Branch (σ : Type) where
  | running (locals : σ)
  | finished (total : ℕ)
  deriving DecidableEq

/-- How an iteration of a loop ends. -/
inductive Flow (σ : Type) where
  | next (locals : σ)
  | stop (total : ℕ)
  | fail (error : RelayError)
  | panic (why : Panic)

/-- An iteration of `sl_to_rtp`. -/
def slToRtpIteration (l : SlToRtp) (remote : SocketAddr)
    (read : Option (Chunk relayBufferSize)) (sent : Bool) :
    Flow SlToRtp × List RelayShown :=
  match read with
  | none => (.fail .readFailed, [])
  | some data =>
      if data.val = [] then (.stop l.total, [])
      else
        let (slin, residual) := alignSlinBuffer l.residual data.val
        if slin = [] then
          (.next { l with residual := residual }, [.taken data.val])
        else
          match encodeUlaw slin with
          | .error why => (.panic why, [.taken data.val])
          | .ok ulaw =>
              match l.sender.sendPacket ulaw with
              | .error why => (.panic why, [.taken data.val])
              | .ok (packet, sender) =>
                  let shown := [.taken data.val, .packet packet remote]
                  if sent then
                    (.next
                      { total := l.total + ulaw.length
                        residual := residual
                        sender := sender }, shown)
                  else (.fail .sendFailed, shown)

/-- An iteration of `rtp_to_sl`, whose only live local is the byte count. -/
def rtpToSlIteration (total : ℕ) (datagram : Option (Chunk maxRtpPacketSize))
    (written : Bool) : Flow ℕ × List RelayShown :=
  match datagram with
  | none => (.stop total, [])
  | some data =>
      match parsePacket data.val with
      | .error why => (.panic why, [])
      | .ok none => (.next total, [])
      | .ok (some payload) =>
          let shown := [.written (decodeUlaw payload)]
          if written then (.next (total + payload.length), shown)
          else (.fail .writeFailed, shown)

/-- The two loops and the endpoint captured when the relay started. -/
structure Loops where
  remoteRtp : SocketAddr
  slToRtp : Branch SlToRtp
  rtpToSl : Branch ℕ
  deriving DecidableEq

/-- The relay: running, returned with the two byte counts or the error of the
loop that failed first, or dead of a panic. -/
inductive Relay where
  | running (loops : Loops)
  | returned (result : Except RelayError (ℕ × ℕ))
  | panicked (why : Panic)

/-- `try_join!` is done once both loops are. -/
def Loops.join (loops : Loops) : Relay :=
  match loops.slToRtp, loops.rtpToSl with
  | .finished toRtp, .finished toSl => .returned (.ok (toRtp, toSl))
  | _, _ => .running loops

/-- Put the outcome of an iteration back into the join. -/
def Flow.joined {σ : Type} (flow : Flow σ) (put : Branch σ → Loops) : Relay :=
  match flow with
  | .next locals => .running (put (.running locals))
  | .stop total => (put (.finished total)).join
  | .fail error => .returned (.error error)
  | .panic why => .panicked why

/-- A step of the relay.  A loop that is done waits for nothing. -/
def relayStep : Relay → RelayEvent → Option (Relay × List RelayShown)
  | .running loops, .slRead read sent =>
      match loops.slToRtp with
      | .finished _ => none
      | .running l =>
          let (flow, shown) := slToRtpIteration l loops.remoteRtp read sent
          some (flow.joined fun branch => { loops with slToRtp := branch }, shown)
  | .running loops, .rtpReceived datagram written =>
      match loops.rtpToSl with
      | .finished _ => none
      | .running total =>
          let (flow, shown) := rtpToSlIteration total datagram written
          some (flow.joined fun branch => { loops with rtpToSl := branch }, shown)
  | _, _ => none

/-- The relay as a machine. -/
def relayMachine : Transition.Machine Relay RelayEvent RelayShown where
  step := relayStep

/-- The relay of a call as `relay_media` starts it. -/
def relayStart (sender : RtpSender) (remote : SocketAddr) : Relay :=
  .running
    { remoteRtp := remote
      slToRtp := .running { total := 0, residual := none, sender := sender }
      rtpToSl := .running 0 }

/-! ## Steps -/

theorem step_slRead {loops : Loops} {l : SlToRtp} (hout : loops.slToRtp = .running l)
    (read : Option (Chunk relayBufferSize)) (sent : Bool) :
    relayMachine.step (.running loops) (.slRead read sent) =
      some ((slToRtpIteration l loops.remoteRtp read sent).1.joined
          fun branch => { loops with slToRtp := branch },
        (slToRtpIteration l loops.remoteRtp read sent).2) := by
  simp [relayMachine, relayStep, hout]

theorem step_rtpReceived {loops : Loops} {total : ℕ} (hin : loops.rtpToSl = .running total)
    (datagram : Option (Chunk maxRtpPacketSize)) (written : Bool) :
    relayMachine.step (.running loops) (.rtpReceived datagram written) =
      some ((rtpToSlIteration total datagram written).1.joined
          fun branch => { loops with rtpToSl := branch },
        (rtpToSlIteration total datagram written).2) := by
  simp [relayMachine, relayStep, hin]

/-- The event drove an iteration of one of the loops to `t`, showing `shown`. -/
inductive Iterated (loops : Loops) (t : Relay) (shown : List RelayShown) :
    RelayEvent → Prop where
  | slRead (l : SlToRtp) (read : Option (Chunk relayBufferSize)) (sent : Bool) :
      loops.slToRtp = .running l →
      (slToRtpIteration l loops.remoteRtp read sent).1.joined
        (fun branch => { loops with slToRtp := branch }) = t →
      (slToRtpIteration l loops.remoteRtp read sent).2 = shown →
      Iterated loops t shown (.slRead read sent)
  | rtpReceived (total : ℕ) (datagram : Option (Chunk maxRtpPacketSize))
      (written : Bool) :
      loops.rtpToSl = .running total →
      (rtpToSlIteration total datagram written).1.joined
        (fun branch => { loops with rtpToSl := branch }) = t →
      (rtpToSlIteration total datagram written).2 = shown →
      Iterated loops t shown (.rtpReceived datagram written)

/-- Every step of a running relay is an iteration of a loop that runs. -/
theorem iterated_of_step {loops : Loops} {e : RelayEvent} {t : Relay}
    {shown : List RelayShown}
    (hstep : relayMachine.step (.running loops) e = some (t, shown)) :
    Iterated loops t shown e := by
  cases e with
  | slRead read sent =>
      cases hout : loops.slToRtp with
      | finished total => simp [relayMachine, relayStep, hout] at hstep
      | running l =>
          rw [step_slRead hout, Option.some.injEq, Prod.mk.injEq] at hstep
          exact .slRead l read sent hout hstep.1 hstep.2
  | rtpReceived datagram written =>
      cases hin : loops.rtpToSl with
      | finished total => simp [relayMachine, relayStep, hin] at hstep
      | running total =>
          rw [step_rtpReceived hin, Option.some.injEq, Prod.mk.injEq] at hstep
          exact .rtpReceived total datagram written hin hstep.1 hstep.2

/-! ## What a run reads -/

/-- The event completes a read of no bytes: slmodemd's stream ends. -/
def RelayEvent.IsEof : RelayEvent → Prop
  | .slRead (some data) _ => data.val = []
  | _ => False

/-- The bytes that an event gives the relay from slmodemd. -/
def RelayEvent.reads : RelayEvent → List (List UInt8)
  | .slRead (some data) _ => if data.val = [] then [] else [data.val]
  | _ => []

/-- The reads of bytes from slmodemd among the events of a relay. -/
def audioReads (events : List RelayEvent) : List (List UInt8) :=
  events.flatMap RelayEvent.reads

/-! ## What a trace holds -/

/-- The reads from slmodemd in a trace. -/
def takenReads : List RelayShown → List (List UInt8)
  | [] => []
  | .taken bytes :: rest => bytes :: takenReads rest
  | _ :: rest => takenReads rest

/-- The packets handed to the RTP socket in a trace. -/
def sentPackets : List RelayShown → List (List UInt8)
  | [] => []
  | .packet data _ :: rest => data :: sentPackets rest
  | _ :: rest => sentPackets rest

/-- The audio written to slmodemd in a trace. -/
def writtenAudio : List RelayShown → List UInt8
  | [] => []
  | .written slin :: rest => slin ++ writtenAudio rest
  | _ :: rest => writtenAudio rest

end SlmodemSipBridge.Media
