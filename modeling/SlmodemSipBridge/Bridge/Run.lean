import SlmodemSipBridge.Bridge.DialWait
import SlmodemSipBridge.Bridge.Drain
import SlmodemSipBridge.Bridge.Session
import SlmodemSipBridge.Media.Relay
import SlmodemSipBridge.Sip.Invite
import SlmodemSipBridge.Sip.Poll
import SlmodemSipBridge.Sip.Register

/-!
# The bridge

`run` of `bridge.rs`, from the registration on: one SIP client, one slmodemd
socket, and one call after another.  A state is a place where `run` waits and
an event is what it waits for; concurrent futures are interleaved event by
event.  Reuniting the halves of slmodemd's socket never fails and leaves no
trace here, nor do the log lines.
-/

namespace SlmodemSipBridge.Bridge

open Rust Transition Media Rtp Sip

/-- Upper bound on the calls of one bridge. -/
def callsLimit : ℕ := 1000

/-- SSRC of the RTP stream. -/
def rtpSsrc : UInt32 := 0x534C4D44

/-- What `run` is given, as far as its loop reads it. -/
structure Config where
  client : SipClient
  inviteTimeout : ℕ

/-- Why `run` fails. -/
inductive BridgeError where
  | register (error : RegisterError)
  | readyFailed
  | session (error : SessionError)
  | bindFailed
  | ackFailed
  | relay (error : RelayError)
  deriving DecidableEq, Repr

/-- What follows a BYE. -/
inductive AfterBye where
  | noRemoteRtp
  | relayFailed (error : RelayError)
  | teardown (session : Session)

/-- Where `run` is. -/
inductive Phase where
  | registering (register : RegisterState)
  | ready
  | waiting (lineBuf : List UInt8)
  | binding (dial : DialString) (session : Session)
  | setup (session : Session) (drain : Drain (Except InviteError Call))
      (invite : InviteState)
  | relaying (session : Session) (call : Call) (polling : Bool) (relay : Relay)
  | hangingUp (call : Call) (next : AfterBye)
  | byeSent (call : Call) (next : AfterBye)
  | returned (result : Except BridgeError Unit)
  | panicked (why : Panic)

/-- The bridge: where `run` is and how many calls it has counted. -/
structure BridgeState where
  calls : ℕ
  phase : Phase

/-- An event of the bridge.  `none` is an error or a timeout, as for the part
the event belongs to.  The event of `invite` names the outcome of the ACK that
`run` sends once the call is set up. -/
inductive BridgeEvent where
  | register (e : RegisterEvent)
  | readyWritten (written : Bool)
  | wait (e : WaitEvent)
  | rtpBound (port : Option UInt16) (sessionId : ℕ)
  | invite (e : InviteEvent) (ackSent : Bool)
  | setupRead (read : Option (Chunk drainBufferSize))
  | setupTick (written : Bool)
  | media (e : RelayEvent)
  | poll (datagram : Option Datagram) (ackSent : Bool)
  | bye (branchHash : UInt64) (sent : Bool)
  | byeResponse (datagram : Option Datagram)

/-- What the bridge shows: the SIP and the media traffic, the bytes after an
accepted `DIAL:` line, the bytes dropped during setup, each entry into
`wait_for_dial_string`, and the end of `run`. -/
inductive BridgeShown where
  | sip (o : SipShown)
  | media (o : RelayShown)
  | dialled (tail : List UInt8)
  | drained (bytes : List UInt8)
  | waiting
  | stopped
  deriving DecidableEq

/-- What a step of the bridge leads to. -/
abbrev BridgeNext := Phase × List BridgeShown

/-! ## The parts of a step -/

/-- `run` ends with a result. -/
def stopWith (result : Except BridgeError Unit) : BridgeNext :=
  (.returned result, [.stopped])

/-- `run` ends with a panic. -/
def panicWith (why : Panic) : BridgeNext := (.panicked why, [.stopped])

/-- Show some more before. -/
def BridgeNext.after (next : BridgeNext) (shown : List BridgeShown) : BridgeNext :=
  (next.1, shown ++ next.2)

/-- The head of `run`'s loop. -/
def loopHead (calls : ℕ) : BridgeNext :=
  match assert (calls < callsLimit)
      "exceeded call limit of 1000 — aborting to prevent runaway loop" with
  | .ok () => (.waiting [], [.waiting])
  | .error why => panicWith why

/-- The registration goes on, or is over. -/
def registeredTo : RegisterState → BridgeNext
  | .returned (.ok ()) => (.ready, [])
  | .returned (.error e) => stopWith (.error (.register e))
  | .panicked why => panicWith why
  | register => (.registering register, [])

/-- A dial command has come and is counted. -/
def dialledWith (calls : ℕ) (ds : Str) (tail : List UInt8) : BridgeNext :=
  match DialString.parse ds with
  | .error _ => loopHead calls
  | .ok dial =>
      match (Session.new dial.text).transition .originating with
      | .error e => stopWith (.error (.session e))
      | .ok session => (.binding dial session, [.dialled tail])

/-- The RTP socket is bound, and `invite` is called under the drain. -/
def boundTo (config : Config) (dial : DialString) (session : Session)
    (port : UInt16) (sessionId : ℕ) : BridgeNext :=
  match Sdp.buildOffer config.client.localIp port sessionId with
  | .error why => panicWith why
  | .ok sdpOffer =>
      (.setup session drainStart
        (.called
          { dial := dial.text
            sdpOffer := sdpOffer
            inviteTimeout := config.inviteTimeout }), [])

/-- The media relay of a call starts, and the poll if the call is not answered. -/
def relayTo (session : Session) (call : Call) (remoteRtp : SocketAddr) : BridgeNext :=
  match session.transition .mediaActive with
  | .error e => stopWith (.error (.session e))
  | .ok session =>
      (.relaying session call (call.state = .earlyMedia)
        (relayStart (createRtpSender rtpSsrc) remoteRtp), [])

/-- A call is set up: acknowledge it if it is answered, and relay its media. -/
def proceedWith (session : Session) (call : Call) (ackSent : Bool) : BridgeNext :=
  match call.remoteRtp with
  | none => (.hangingUp call .noRemoteRtp, [])
  | some remoteRtp =>
      if call.state = .answered then
        if ackSent then
          (relayTo session call remoteRtp).after [.sip (.sent .answerAck (.ack call))]
        else stopWith (.error .ackFailed)
      else relayTo session call remoteRtp

/-- The drain goes on, or its result is looked at. -/
def drainedTo (calls : ℕ) (session : Session) (invite : InviteState) (ackSent : Bool) :
    Drain (Except InviteError Call) → BridgeNext
  | .panicked why => panicWith why
  | .returned (.ok (.ok call)) =>
      match session.transition .connectingMedia with
      | .error e => stopWith (.error (.session e))
      | .ok session => proceedWith session call ackSent
  | .returned _ => loopHead calls
  | drain => (.setup session drain invite, [])

/-- `invite` goes on, or the drain takes its result. -/
def invitedTo (calls : ℕ) (session : Session) (drain : Drain (Except InviteError Call))
    (ackSent : Bool) : InviteState → BridgeNext
  | .panicked why => panicWith why
  | .returned result =>
      match drainStep drain (.setupDone result) with
      | some (drain, _) => drainedTo calls session (.returned result) ackSent drain
      | none => (.setup session drain (.returned result), [])
  | invite => (.setup session drain invite, [])

/-- The relay goes on, or the call is torn down. -/
def relayedTo (session : Session) (call : Call) (polling : Bool) : Relay → Phase
  | .returned (.ok _) => .hangingUp call (.teardown session)
  | .returned (.error e) => .hangingUp call (.relayFailed e)
  | .panicked why => .panicked why
  | relay => .relaying session call polling relay

/-- What is shown when the relay panics. -/
def relayStops : Relay → List BridgeShown
  | .panicked _ => [.stopped]
  | _ => []

/-- A poll for the answer. -/
def polledTo (session : Session) (call : Call) (relay : Relay)
    (datagram : Option Datagram) (ackSent : Bool) : BridgeNext :=
  match assert (call.state = .earlyMedia) "poll_answer called in wrong state" with
  | .error why => panicWith why
  | .ok () =>
      match datagram with
      | none => (.relaying session call true relay, [])
      | some data =>
          let resp := fromUtf8Lossy data.val
          let shown := [.sip (.read (some call) resp)]
          match pollResponse call resp ackSent with
          | .error why => (panicWith why).after shown
          | .ok (polled, acks) =>
              -- The poll loop goes on as long as nothing has come.
              let polling := match polled.result with
                | .ok false => true
                | _ => false
              (.relaying session polled.call polling relay,
                shown ++ acks.map .sip)

/-- The BYE is done with, whatever came of it. -/
def byeDone (calls : ℕ) : AfterBye → BridgeNext
  | .noRemoteRtp => loopHead calls
  | .relayFailed e => stopWith (.error (.relay e))
  | .teardown session =>
      match session.transition .terminating with
      | .error e => stopWith (.error (.session e))
      | .ok session =>
          match session.transition .terminated with
          | .error e => stopWith (.error (.session e))
          | .ok _ => loopHead calls

/-! ## The machine -/

/-- A step within a call count, to a phase of the same count. -/
def phaseStep (config : Config) (calls : ℕ) : Phase → BridgeEvent → Option BridgeNext
  | .registering r, .register e =>
      match registerStep config.client r e with
      | none => none
      | some (next, shown) => some ((registeredTo next).after (shown.map .sip))
  | .ready, .readyWritten written =>
      if written then some (loopHead calls) else some (stopWith (.error .readyFailed))
  | .binding dial session, .rtpBound port sessionId =>
      match port with
      | none => some (stopWith (.error .bindFailed))
      | some port => some (boundTo config dial session port sessionId)
  | .setup session drain invite, .invite e ackSent =>
      match inviteStep config.client invite e with
      | none => none
      | some (next, shown) =>
          some ((invitedTo calls session drain ackSent next).after (shown.map .sip))
  | .setup session drain invite, .setupRead read =>
      match drainStep drain (.slRead read) with
      | none => none
      | some (drain, dropped) =>
          some ((drainedTo calls session invite false drain).after
            (dropped.map .drained))
  | .setup session drain invite, .setupTick written =>
      match drainStep drain (.silenceTick written) with
      | none => none
      | some (drain, dropped) =>
          some ((drainedTo calls session invite false drain).after
            (dropped.map .drained))
  | .relaying session call polling relay, .media e =>
      match relayStep relay e with
      | none => none
      | some (next, shown) =>
          some (relayedTo session call polling next,
            shown.map .media ++ relayStops next)
  | .relaying session call true relay, .poll datagram ackSent =>
      some (polledTo session call relay datagram ackSent)
  | .hangingUp call next, .bye branchHash sent =>
      if sent then
        some (.byeSent call next,
          [.sip (.sent .bye (.bye call (generateBranch branchHash)))])
      else some (byeDone calls next)
  | .byeSent call next, .byeResponse datagram =>
      match datagram with
      | none => some (byeDone calls next)
      | some data =>
          some ((byeDone calls next).after
            [.sip (.read (some call) (fromUtf8Lossy data.val))])
  | _, _ => none

/-- A step of the bridge.  A dial string is counted when it comes. -/
def bridgeStep (config : Config) (b : BridgeState) (e : BridgeEvent) :
    Option (BridgeState × List BridgeShown) :=
  match b.phase, e with
  | .waiting lineBuf, .wait e =>
      match waitStep lineBuf e with
      | .waiting lineBuf => some (⟨b.calls, .waiting lineBuf⟩, [])
      | .closed => some (⟨b.calls, .returned (.ok ())⟩, [.stopped])
      | .dialled ds tail =>
          let (phase, shown) := dialledWith (b.calls + 1) ds tail
          some (⟨b.calls + 1, phase⟩, shown)
  | phase, e =>
      match phaseStep config b.calls phase e with
      | none => none
      | some (next, shown) => some (⟨b.calls, next⟩, shown)

/-- The bridge as a machine. -/
def bridgeMachine (config : Config) : Machine BridgeState BridgeEvent BridgeShown where
  step := bridgeStep config

/-- The bridge before it registers. -/
def bridgeStart : BridgeState := ⟨0, .registering .called⟩

/-! ## A call over the trunk -/

/-- The bridge of `trunkClient`. -/
def trunkConfig : Config := ⟨trunkClient, 60 * 10 ^ 9⟩

/-- The answer to the REGISTER with the Call-ID `1-2`. -/
def registerOk : Datagram :=
  datagramOf "SIP/2.0 200 OK\r\nCall-ID: 1-2\r\nCSeq: 1 REGISTER\r\n\r\n"
    (by decide +kernel)

/-- The command to dial `5`. -/
def dialFive : Chunk waitBufferSize := ⟨asciiBytes (lit "DIAL:5\n"), by decide⟩

/-- The events up to the first wait for a response to the INVITE. -/
def trunkSetup : List BridgeEvent :=
  [.register (.start ⟨1, 2, 3, 4, true⟩),
    .register (.first (some registerOk) ⟨[], 5, true, 0⟩), .readyWritten true,
    .wait (.slRead (some dialFive)), .rtpBound (some 4000) 7,
    .invite (.start trunkStart) true, .invite (.head (headAt 0)) true]

/-- Early media for the INVITE, from another endpoint than that of the answer. -/
def trunkEarlyMedia : Datagram :=
  datagramOf "SIP/2.0 183 Session Progress\r\nCall-ID: 10-2\r\nCSeq: 1 INVITE\r\nContent-Type: application/sdp\r\n\r\nc=IN IP4 10.0.0.8\r\nm=audio 4002 RTP/AVP 0\r\n"
    (by decide +kernel)

/-- The events up to the early media. -/
def trunkRinging : List BridgeEvent :=
  trunkSetup ++ [.invite (.received (some trunkEarlyMedia) answerInputs) true]

/-- One sample of audio. -/
def oneSample : Chunk relayBufferSize := ⟨[1, 2], by decide⟩

/-- The answer to the INVITE, with the tag `t` and no SDP. -/
def trunkBareAnswer : Datagram :=
  datagramOf "SIP/2.0 200 OK\r\nTo: <sip:5@h>;tag=t\r\nCall-ID: 10-2\r\nCSeq: 1 INVITE\r\n\r\n"
    (by decide +kernel)

/-- The answer to the INVITE, with the tag `t` and an SDP. -/
def trunkAnswer : Datagram :=
  datagramOf "SIP/2.0 200 OK\r\nTo: <sip:5@h>;tag=t\r\nCall-ID: 10-2\r\nCSeq: 1 INVITE\r\nContent-Type: application/sdp\r\n\r\nc=IN IP4 10.0.0.9\r\nm=audio 4002 RTP/AVP 0\r\n"
    (by decide +kernel)

/-- The events up to the answer. -/
def trunkAnswered : List BridgeEvent :=
  trunkSetup ++ [.invite (.received (some trunkAnswer) answerInputs) true]

end SlmodemSipBridge.Bridge
