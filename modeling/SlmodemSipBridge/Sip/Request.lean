import SlmodemSipBridge.Sip.Digest

/-!
# The client and its requests

The fields of `SipClient` and `Call` that the messages are made of, the
identifiers a call generates, and the builders of REGISTER, INVITE, ACK and BYE.
The hashers that tags and branches are drawn from, the clock and the process id
come from the environment.
-/

namespace SlmodemSipBridge.Sip

open Rust

/-- SIP call states. -/
inductive CallState where
  | trying
  | earlyMedia
  | answered
  deriving DecidableEq, Repr

/-- Active SIP call state. -/
structure Call where
  callId : Str
  cseq : ℕ
  localTag : Str
  remoteTag : Option Str
  remoteRtp : Option SocketAddr
  state : CallState
  inviteUri : Str
  viaBranch : Str
  deriving DecidableEq

/-- SIP client for outbound calls.  `md5Hex` stands for the md5 crate. -/
structure SipClient where
  localPort : UInt16
  localIp : IpAddr
  sipDomain : Str
  username : Str
  password : Str
  callerId : Str
  callerName : Str
  md5Hex : Str → Str
  username_ne : username ≠ []
  password_ne : password ≠ []
  sipDomain_ne : sipDomain ≠ []

/-! ## Identifiers -/

/-- A call id, from the time in microseconds and the process id. -/
def generateCallId (micros pid : ℕ) : Str := decimal micros ++ lit "-" ++ decimal pid

/-- A tag, from a finished hash. -/
def generateTag (hash : UInt64) : Str := hex hash.toNat

/-- The magic cookie that starts every branch. -/
def magicCookie : Str := lit "z9hG4bK"

/-- A Via branch, from a finished hash. -/
def generateBranch (hash : UInt64) : Str := magicCookie ++ hex hash.toNat

/-! ## REGISTER -/

/-- What the two REGISTER messages are made of. -/
structure RegisterRequest where
  branch : Str
  tag : Str
  callId : Str
  cseq : ℕ
  auth : Option Str
  deriving DecidableEq, Repr

/-- Build a REGISTER message. -/
def SipClient.buildRegister (c : SipClient) (r : RegisterRequest) : Str :=
  let authLine :=
    match r.auth with
    | some authValue => lit "Authorization: " ++ authValue ++ lit "\r\n"
    | none => []
  lit "REGISTER sip:" ++ c.sipDomain ++ lit " SIP/2.0\r\n" ++
    lit "Via: SIP/2.0/UDP " ++ c.localIp.display ++ lit ":" ++
      decimal c.localPort.toNat ++ lit ";branch=" ++ r.branch ++ lit ";rport\r\n" ++
    lit "From: <sip:" ++ c.username ++ lit "@" ++ c.sipDomain ++ lit ">;tag=" ++
      r.tag ++ lit "\r\n" ++
    lit "To: <sip:" ++ c.username ++ lit "@" ++ c.sipDomain ++ lit ">\r\n" ++
    lit "Call-ID: " ++ r.callId ++ lit "\r\n" ++
    lit "CSeq: " ++ decimal r.cseq ++ lit " REGISTER\r\n" ++
    lit "Contact: <sip:" ++ c.username ++ lit "@" ++ c.localIp.display ++ lit ":" ++
      decimal c.localPort.toNat ++ lit ">\r\n" ++
    lit "Expires: 180\r\n" ++
    lit "Max-Forwards: 70\r\n" ++
    lit "User-Agent: slmodem-sip-bridge\r\n" ++
    authLine ++
    lit "Content-Length: 0\r\n" ++
    lit "\r\n"

/-! ## INVITE -/

/-- The arguments of `build_invite`. -/
structure InviteRequest where
  uri : Str
  callId : Str
  localTag : Str
  branch : Str
  cseq : ℕ
  sdp : Str
  auth : Option (Str × Str)
  deriving DecidableEq, Repr

/-- The credential line of an INVITE. -/
def InviteRequest.authLine (r : InviteRequest) : Str :=
  match r.auth with
  | some (name, value) => name ++ lit ": " ++ value ++ lit "\r\n"
  | none => []

/-- Build an INVITE message. -/
def SipClient.buildInvite (c : SipClient) (r : InviteRequest) : Str :=
  lit "INVITE " ++ r.uri ++ lit " SIP/2.0\r\n" ++
    lit "Via: SIP/2.0/UDP " ++ c.localIp.display ++ lit ":" ++
      decimal c.localPort.toNat ++ lit ";branch=" ++ r.branch ++ lit ";rport\r\n" ++
    lit "From: \"" ++ c.callerName ++ lit "\" <sip:" ++ c.callerId ++ lit "@" ++
      c.sipDomain ++ lit ">;tag=" ++ r.localTag ++ lit "\r\n" ++
    lit "To: <" ++ r.uri ++ lit ">\r\n" ++
    lit "Call-ID: " ++ r.callId ++ lit "\r\n" ++
    lit "CSeq: " ++ decimal r.cseq ++ lit " INVITE\r\n" ++
    lit "Contact: <sip:" ++ c.username ++ lit "@" ++ c.localIp.display ++ lit ":" ++
      decimal c.localPort.toNat ++ lit ">\r\n" ++
    lit "Max-Forwards: 70\r\n" ++
    lit "User-Agent: slmodem-sip-bridge\r\n" ++
    lit "Allow: INVITE, ACK, BYE, CANCEL\r\n" ++
    r.authLine ++
    lit "Content-Type: application/sdp\r\n" ++
    lit "Content-Length: " ++ decimal (byteLen r.sdp) ++ lit "\r\n" ++
    lit "\r\n" ++
    r.sdp

/-! ## ACK and BYE -/

/-- The tag parameter of a To header. -/
def Call.toTag (call : Call) : Str :=
  match call.remoteTag with
  | some t => lit ";tag=" ++ t
  | none => []

theorem Call.toTag_eq_iff (call : Call) (t : Str) :
    call.toTag = lit ";tag=" ++ t ↔ call.remoteTag = some t := by
  unfold Call.toTag
  cases call.remoteTag with
  | none => simp [lit]
  | some r => simp

/-- Build the ACK of a call. -/
def SipClient.buildAck (c : SipClient) (call : Call) : Str :=
  lit "ACK " ++ call.inviteUri ++ lit " SIP/2.0\r\n" ++
    lit "Via: SIP/2.0/UDP " ++ c.localIp.display ++ lit ":" ++
      decimal c.localPort.toNat ++ lit ";branch=" ++ call.viaBranch ++
      lit ";rport\r\n" ++
    lit "From: \"" ++ c.callerName ++ lit "\" <sip:" ++ c.callerId ++ lit "@" ++
      c.sipDomain ++ lit ">;tag=" ++ call.localTag ++ lit "\r\n" ++
    lit "To: <" ++ call.inviteUri ++ lit ">" ++ call.toTag ++ lit "\r\n" ++
    lit "Call-ID: " ++ call.callId ++ lit "\r\n" ++
    lit "CSeq: " ++ decimal call.cseq ++ lit " ACK\r\n" ++
    lit "Max-Forwards: 70\r\n" ++
    lit "User-Agent: slmodem-sip-bridge\r\n" ++
    lit "Content-Length: 0\r\n" ++
    lit "\r\n"

/-- Build the BYE of a call. -/
def SipClient.buildBye (c : SipClient) (call : Call) (branch : Str) : Str :=
  let cseq := call.cseq + 1
  lit "BYE " ++ call.inviteUri ++ lit " SIP/2.0\r\n" ++
    lit "Via: SIP/2.0/UDP " ++ c.localIp.display ++ lit ":" ++
      decimal c.localPort.toNat ++ lit ";branch=" ++ branch ++ lit ";rport\r\n" ++
    lit "From: \"" ++ c.callerName ++ lit "\" <sip:" ++ c.callerId ++ lit "@" ++
      c.sipDomain ++ lit ">;tag=" ++ call.localTag ++ lit "\r\n" ++
    lit "To: <sip:" ++ trimStartMatches (lit "sip:") call.inviteUri ++ lit ">" ++
      call.toTag ++ lit "\r\n" ++
    lit "Call-ID: " ++ call.callId ++ lit "\r\n" ++
    lit "CSeq: " ++ decimal cseq ++ lit " BYE\r\n" ++
    lit "Max-Forwards: 70\r\n" ++
    lit "User-Agent: slmodem-sip-bridge\r\n" ++
    lit "Content-Length: 0\r\n" ++
    lit "\r\n"

/-! ## Requests -/

/-- A request that the client sends. -/
inductive Request where
  | register (r : RegisterRequest)
  | invite (r : InviteRequest)
  | ack (call : Call)
  | bye (call : Call) (branch : Str)
  deriving DecidableEq

/-- The text of a request. -/
def SipClient.wire (c : SipClient) : Request → Str
  | .register r => c.buildRegister r
  | .invite r => c.buildInvite r
  | .ack call => c.buildAck call
  | .bye call branch => c.buildBye call branch

/-- The places in `sip.rs` and `bridge.rs` that send a request. -/
inductive Site where
  | register
  | registerAuth
  | invite
  | retransmit
  | challengeAck
  | authInvite
  | errorAck
  | answerAck
  | pollAck
  | bye
  deriving DecidableEq, Repr

/-- The size of the buffer a response is received into. -/
def maxSipMsgSize : ℕ := 8192

/-- A datagram received on the SIP socket. -/
abbrev Datagram := Chunk maxSipMsgSize

/-- What the SIP side of the bridge shows: each response it reads, with the
current call as it was before, each request it has sent, and each call that a
response has answered. -/
inductive SipShown where
  | read (call : Option Call) (resp : Str)
  | sent (site : Site) (request : Request)
  | answered (call : Call) (resp : Str)
  deriving DecidableEq

end SlmodemSipBridge.Sip
