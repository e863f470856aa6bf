import SlmodemSipBridge.Sip.Response
import SlmodemSipBridge.Support.Machine
import SlmodemSipBridge.Support.Utf8

/-!
# Inviting

`SipClient::invite`: the first INVITE, the loop that retransmits it and reads
responses, and the answer to a challenge.  An event passes the head of the loop,
with its clock readings, or completes a receive; the sends that follow complete
in the same step, with the outcome the event names.  Times are in nanoseconds.
-/

namespace SlmodemSipBridge.Sip

open Rust

/-- INVITE retransmission timer, initial value. -/
def timerAInitial : ℕ := 500 * 10 ^ 6

/-- Maximum INVITE retransmission interval. -/
def timerACap : ℕ := 4000 * 10 ^ 6

/-- Maximum number of INVITE retransmissions. -/
def inviteRetransmitLimit : ℕ := 7

/-- Maximum iterations of the response loop. -/
def responseLoopLimit : ℕ := 1000

/-- Why `invite` fails. -/
inductive InviteError where
  | sendFailed
  | timedOut
  | authFailed (status : ℕ)
  | missingChallenge (status : ℕ)
  | badChallenge (error : DigestError)
  | rejected (status : ℕ)
  deriving DecidableEq, Repr

/-- The arguments of `invite`. -/
structure InviteArgs where
  dial : Str
  sdpOffer : Str
  inviteTimeout : ℕ

/-- The identifiers and clock readings of the first INVITE, and the outcome of
its send. -/
structure InviteStart where
  micros : ℕ
  pid : ℕ
  tagHash : UInt64
  branchHash : UInt64
  sent : Bool
  deadlineBase : ℕ
  lastSend : ℕ

/-- The clock readings at the head of the loop, in the order they are taken,
and the outcome of a retransmission. -/
structure HeadInputs where
  deadlineTest : ℕ
  elapsedTest : ℕ
  afterSend : ℕ
  sent : Bool

/-- What the answer to a response draws on, and the outcomes of its sends. -/
structure AnswerInputs where
  cnonce : Str
  branchHash : UInt64
  ackSent : Bool
  inviteSent : Bool
  afterSend : ℕ

/-- An event of `invite`.  A datagram of `none` is a timeout or an error. -/
inductive InviteEvent where
  | start (ids : InviteStart)
  | head (inputs : HeadInputs)
  | received (datagram : Option Datagram) (inputs : AnswerInputs)

/-- The locals of the response loop.  `invite` is the message built before the
loop. -/
structure InviteLoop where
  call : Call
  invite : InviteRequest
  deadline : ℕ
  retransmitTimer : ℕ
  lastSend : ℕ
  retransmitCount : ℕ
  iterations : ℕ
  gotProvisional : Bool
  authRetryDone : Bool

/-- Where `invite` is. -/
inductive InviteState where
  | called (args : InviteArgs)
  | looping (l : InviteLoop)
  | receiving (l : InviteLoop)
  | returned (result : Except InviteError Call)
  | panicked (why : Panic)

/-! ## The first INVITE -/

/-- The request URI of a dial string. -/
def SipClient.inviteUri (client : SipClient) (dial : Str) : Str :=
  lit "sip:" ++ dial ++ lit "@" ++ client.sipDomain

/-- The first INVITE of a call. -/
def firstInvite (client : SipClient) (args : InviteArgs) (ids : InviteStart) :
    InviteRequest where
  uri := client.inviteUri args.dial
  callId := generateCallId ids.micros ids.pid
  localTag := generateTag ids.tagHash
  branch := generateBranch ids.branchHash
  cseq := 1
  sdp := args.sdpOffer
  auth := none

/-- The call that an INVITE starts. -/
def callOf (invite : InviteRequest) : Call where
  callId := invite.callId
  cseq := 1
  localTag := invite.localTag
  remoteTag := none
  remoteRtp := none
  state := .trying
  inviteUri := invite.uri
  viaBranch := invite.branch

/-- Send the first INVITE and enter the loop. -/
def inviteStart (client : SipClient) (args : InviteArgs) (ids : InviteStart) :
    InviteState × List SipShown :=
  match assert (!args.dial.isEmpty) "dial string must not be empty" with
  | .error why => (.panicked why, [])
  | .ok () =>
      let invite := firstInvite client args ids
      if ids.sent then
        -- the INVITE is out when the deadline is computed
        match addDuration ids.deadlineBase args.inviteTimeout with
        | .error why => (.panicked why, [.sent .invite (.invite invite)])
        | .ok deadline =>
            (.looping
              { call := callOf invite
                invite := invite
                deadline := deadline
                retransmitTimer := timerAInitial
                lastSend := ids.lastSend
                retransmitCount := 0
                iterations := 0
                gotProvisional := false
                authRetryDone := false }, [.sent .invite (.invite invite)])
      else (.returned (.error .sendFailed), [])

/-! ## The head of the loop -/

/-- The loop in its next iteration. -/
def InviteLoop.counted (l : InviteLoop) : InviteLoop :=
  { l with iterations := l.iterations + 1 }

/-- Whether the head retransmits. -/
def InviteLoop.retransmits (l : InviteLoop) (inputs : HeadInputs) : Prop :=
  l.gotProvisional = false ∧ l.retransmitCount < inviteRetransmitLimit ∧
    l.retransmitTimer ≤ inputs.elapsedTest - l.lastSend

instance (l : InviteLoop) (inputs : HeadInputs) : Decidable (l.retransmits inputs) := by
  unfold InviteLoop.retransmits
  infer_instance

/-- The loop after a retransmission. -/
def InviteLoop.retransmitted (l : InviteLoop) (inputs : HeadInputs) : InviteLoop :=
  { l with
    retransmitCount := l.retransmitCount + 1
    lastSend := inputs.afterSend
    retransmitTimer := min (l.retransmitTimer * 2) timerACap }

/-- The head of the loop, up to the next receive. -/
def inviteHead (l : InviteLoop) (inputs : HeadInputs) : InviteState × List SipShown :=
  match assert (l.iterations < responseLoopLimit)
      "INVITE response loop exceeded 1000 iterations" with
  | .error why => (.panicked why, [])
  | .ok () =>
      let l := l.counted
      if l.deadline ≤ inputs.deadlineTest then (.returned (.error .timedOut), [])
      else if l.retransmits inputs then
        if inputs.sent then
          (.receiving (l.retransmitted inputs), [.sent .retransmit (.invite l.invite)])
        else (.returned (.error .sendFailed), [])
      else (.receiving l, [])

/-! ## A response -/

/-- The header a challenge is in. -/
def challengeHeader (status : ℕ) : Str :=
  if status = 401 then lit "WWW-Authenticate" else lit "Proxy-Authenticate"

/-- The header the credentials are sent in. -/
def credentialHeader (status : ℕ) : Str :=
  if status = 401 then lit "Authorization" else lit "Proxy-Authorization"

/-- The call in its second transaction. -/
def Call.retried (call : Call) (branch : Str) : Call :=
  { call with cseq := call.cseq + 1, viaBranch := branch }

/-- The authenticated INVITE. -/
def authInvite (l : InviteLoop) (call : Call) (auth : Str × Str) : InviteRequest where
  uri := call.inviteUri
  callId := call.callId
  localTag := call.localTag
  branch := call.viaBranch
  cseq := call.cseq
  sdp := l.invite.sdp
  auth := some auth

/-- The loop after the authenticated INVITE. -/
def InviteLoop.restarted (l : InviteLoop) (call : Call) (afterSend : ℕ) : InviteLoop :=
  { l with
    call := call
    retransmitCount := 0
    retransmitTimer := timerAInitial
    lastSend := afterSend
    gotProvisional := false
    authRetryDone := true }

/-- Answer a 401 or a 407. -/
def inviteChallenged (client : SipClient) (l : InviteLoop) (status : ℕ) (resp : Str)
    (inputs : AnswerInputs) : Checked (InviteState × List SipShown) := do
  if l.authRetryDone then return (.returned (.error (.authFailed status)), [])
  else
    match ← extractHeader resp (challengeHeader status) with
    | none => return (.returned (.error (.missingChallenge status)), [])
    | some authHeader =>
        match ← parseDigestChallenge authHeader with
        | .error e => return (.returned (.error (.badChallenge e)), [])
        | .ok digest =>
            let authValue :=
              digest.authHeaderValue client.md5Hex inputs.cnonce client.username
                client.password (lit "INVITE") l.call.inviteUri
            if inputs.ackSent then
              let call := l.call.retried (generateBranch inputs.branchHash)
              let retry := authInvite l call (credentialHeader status, authValue)
              let ack := SipShown.sent .challengeAck (.ack l.call)
              if inputs.inviteSent then
                return (.looping (l.restarted call inputs.afterSend),
                  [ack, .sent .authInvite (.invite retry)])
              else return (.returned (.error .sendFailed), [ack])
            else return (.returned (.error .sendFailed), [])

/-- Answer a response by its status. -/
def inviteDispatch (client : SipClient) (l : InviteLoop) (status : ℕ) (resp : Str)
    (inputs : AnswerInputs) : Checked (InviteState × List SipShown) :=
  if status = 100 then return (.looping { l with gotProvisional := true }, [])
  else if status = 180 ∨ status = 183 then do
    let l := { l with gotProvisional := true }
    match ← sdpEndpoint resp with
    | some rtpAddr =>
        return (.returned (.ok
          { l.call with remoteRtp := some rtpAddr, state := .earlyMedia }), [])
    | none => return (.looping l, [])
  else if status = 200 then do
    let call ← l.call.takeEndpoint resp
    let call := { call with state := .answered }
    return (.returned (.ok call), [.answered call resp])
  else if status = 401 ∨ status = 407 then
    inviteChallenged client l status resp inputs
  else if 400 ≤ status ∧ status < 700 then
    if inputs.ackSent then
      return (.returned (.error (.rejected status)), [.sent .errorAck (.ack l.call)])
    else return (.returned (.error .sendFailed), [])
  else return (.looping l, [])

/-- Answer a response. -/
def inviteResponse (client : SipClient) (l : InviteLoop) (resp : Str)
    (inputs : AnswerInputs) : Checked (InviteState × List SipShown) := do
  match parseStatusCode resp with
  | none => return (.looping l, [])
  | some status =>
      if ← isStale l.call.cseq resp then return (.looping l, [])
      else
        let call ← l.call.rememberTag resp
        inviteDispatch client { l with call := call } status resp inputs

/-- A step of `invite`. -/
def inviteStep (client : SipClient) :
    InviteState → InviteEvent → Option (InviteState × List SipShown)
  | .called args, .start ids => some (inviteStart client args ids)
  | .looping l, .head inputs => some (inviteHead l inputs)
  | .receiving l, .received datagram inputs =>
      match datagram with
      | none => some (.looping l, [])
      | some data =>
          let resp := fromUtf8Lossy data.val
          match inviteResponse client l resp inputs with
          | .ok (next, shown) => some (next, .read (some l.call) resp :: shown)
          | .error why => some (.panicked why, [.read (some l.call) resp])
  | _, _ => none

/-- `invite` as a machine. -/
def inviteMachine (client : SipClient) :
    Transition.Machine InviteState InviteEvent SipShown where
  step := inviteStep client

/-! ## A client on a trunk -/

/-- MD5 at the texts that `trunkClient` digests for the realm `r` and the nonce
`n` when it dials `5`. -/
def trunkMd5 (s : Str) : Str :=
  if s = lit "u:r:p" then lit "44add22b6f3179b751eafd68ee370f7d"
  else if s = lit "INVITE:sip:5@h" then lit "f16b6e21669ea24e887b5a6e77ae81c3"
  else if s = lit "44add22b6f3179b751eafd68ee370f7d:n:f16b6e21669ea24e887b5a6e77ae81c3"
    then lit "b8a118165de30a7094ba28827e109104"
  else []

/-- A registered user `u` of the trunk `h`. -/
def trunkClient : SipClient where
  localPort := 5060
  localIp := .v4 ⟨10, 0, 0, 1⟩
  sipDomain := lit "h"
  username := lit "u"
  password := lit "p"
  callerId := lit "1"
  callerName := lit "n"
  md5Hex := trunkMd5
  username_ne := by decide
  password_ne := by decide
  sipDomain_ne := by decide

/-- A call to `5` over `trunkClient`. -/
def trunkArgs : InviteArgs where
  dial := lit "5"
  sdpOffer := lit "v=0\r\n"
  inviteTimeout := 60 * 10 ^ 9

/-- A datagram that holds an ASCII text. -/
def datagramOf (s : String) (h : (lit s).length ≤ maxSipMsgSize) : Datagram :=
  ⟨asciiBytes (lit s), by simpa using h⟩

/-- The first INVITE of the call to `5`, with the Call-ID `10-2`, at time 0. -/
def trunkStart : InviteStart where
  micros := 10
  pid := 2
  tagHash := 3
  branchHash := 4
  sent := true
  deadlineBase := 0
  lastSend := 0

/-- A head of the loop with all its readings at one time. -/
def headAt (time : ℕ) : HeadInputs := ⟨time, time, time, true⟩

/-- Every send of an answer succeeds. -/
def answerInputs : AnswerInputs where
  cnonce := []
  branchHash := 5
  ackSent := true
  inviteSent := true
  afterSend := 0

/-- A challenge to the first INVITE. -/
def trunkChallenge : Datagram :=
  datagramOf "SIP/2.0 407 Proxy Authentication Required\r\nCall-ID: 10-2\r\nCSeq: 1 INVITE\r\nProxy-Authenticate: Digest realm=\"r\", nonce=\"n\"\r\n\r\n"
    (by decide +kernel)

end SlmodemSipBridge.Sip
