import SlmodemSipBridge.Sip.Response
import SlmodemSipBridge.Support.Machine
import SlmodemSipBridge.Support.Utf8

/-!
# Registering

`SipClient::register`: a REGISTER, and a second one with credentials when the
first is challenged.  An event completes a receive or passes the head of the
loop; the sends that follow complete in the same step, with the outcome the
event names.  Times are in nanoseconds; the constant timeout is added to the clock as to
a number, for no clock comes so late that an `Instant` would overflow.
-/

namespace SlmodemSipBridge.Sip

open Rust

/-- Maximum time to wait for a final response to REGISTER. -/
def registerTimeout : ℕ := 10 * 10 ^ 9

/-- Why `register` fails. -/
inductive RegisterError where
  | sendFailed
  | noResponse
  | refused (status : ℕ)
  | missingChallenge
  | badChallenge (error : DigestError)
  | timedOut
  | authRefused (status : ℕ)
  deriving DecidableEq, Repr

/-- The identifiers drawn for the first REGISTER, and the outcome of its send. -/
structure RegisterStart where
  micros : ℕ
  pid : ℕ
  tagHash : UInt64
  branchHash : UInt64
  sent : Bool

/-- What the authenticated REGISTER draws on, and the outcome of its send. -/
structure RegisterRetry where
  cnonce : Str
  branchHash : UInt64
  sent : Bool
  deadlineBase : ℕ

/-- An event of `register`.  A datagram of `none` is a timeout or an error. -/
inductive RegisterEvent where
  | start (ids : RegisterStart)
  | first (datagram : Option Datagram) (retry : RegisterRetry)
  | head (now : ℕ)
  | received (datagram : Option Datagram)

/-- Where `register` is. -/
inductive RegisterState where
  | called
  | awaiting (callId tag : Str)
  | looping (deadline : ℕ)
  | receiving (deadline : ℕ)
  | returned (result : Except RegisterError Unit)
  | panicked (why : Panic)

/-- Answer the first response. -/
def registerFirst (client : SipClient) (callId tag resp : Str)
    (retry : RegisterRetry) : Checked (RegisterState × List SipShown) := do
  let status := parseStatusCode resp
  if status = some 200 then return (.returned (.ok ()), [])
  else if status ≠ some 401 then
    return (.returned (.error (.refused (status.getD 0))), [])
  else
    match ← extractHeader resp (lit "WWW-Authenticate") with
    | none => return (.returned (.error .missingChallenge), [])
    | some authHeader =>
        match ← parseDigestChallenge authHeader with
        | .error e => return (.returned (.error (.badChallenge e)), [])
        | .ok digest =>
            let registerUri := lit "sip:" ++ client.sipDomain
            let authValue :=
              digest.authHeaderValue client.md5Hex retry.cnonce client.username
                client.password (lit "REGISTER") registerUri
            let authRegister : RegisterRequest :=
              { branch := generateBranch retry.branchHash
                tag := tag
                callId := callId
                cseq := 2
                auth := some authValue }
            if retry.sent then
              return (.looping (retry.deadlineBase + registerTimeout),
                [.sent .registerAuth (.register authRegister)])
            else return (.returned (.error .sendFailed), [])

/-- Answer a response to the authenticated REGISTER. -/
def registerSecond (deadline : ℕ) (resp : Str) : Checked RegisterState := do
  if ← isStale 2 resp then return .looping deadline
  else
    let status := parseStatusCode resp
    if status = some 200 then return .returned (.ok ())
    else return .returned (.error (.authRefused (status.getD 0)))

/-- A step of `register`. -/
def registerStep (client : SipClient) :
    RegisterState → RegisterEvent → Option (RegisterState × List SipShown)
  | .called, .start ids =>
      let callId := generateCallId ids.micros ids.pid
      let tag := generateTag ids.tagHash
      let register : RegisterRequest :=
        { branch := generateBranch ids.branchHash
          tag := tag
          callId := callId
          cseq := 1
          auth := none }
      if ids.sent then
        some (.awaiting callId tag, [.sent .register (.register register)])
      else some (.returned (.error .sendFailed), [])
  | .awaiting callId tag, .first datagram retry =>
      match datagram with
      | none => some (.returned (.error .noResponse), [])
      | some data =>
          let resp := fromUtf8Lossy data.val
          match registerFirst client callId tag resp retry with
          | .ok (next, shown) => some (next, .read none resp :: shown)
          | .error why => some (.panicked why, [.read none resp])
  | .looping deadline, .head now =>
      if deadline ≤ now then some (.returned (.error .timedOut), [])
      else some (.receiving deadline, [])
  | .receiving deadline, .received datagram =>
      match datagram with
      | none => some (.looping deadline, [])
      | some data =>
          let resp := fromUtf8Lossy data.val
          match registerSecond deadline resp with
          | .ok next => some (next, [.read none resp])
          | .error why => some (.panicked why, [.read none resp])
  | _, _ => none

/-- `register` as a machine. -/
def registerMachine (client : SipClient) :
    Transition.Machine RegisterState RegisterEvent SipShown where
  step := registerStep client

end SlmodemSipBridge.Sip
