import SlmodemSipBridge.Support.Net

/-!
# SDP offer and answer

`sdp.rs`: the offer of a µ-law audio session and the parser of the answer's
remote endpoint.
-/

namespace SlmodemSipBridge.Sdp

open Rust

/-- SDP protocol version. -/
def sdpVersion : ℕ := 0

/-- ptime in milliseconds. -/
def ptimeMs : ℕ := 20

/-- The `IN` address type of an address. -/
def ipVer : IpAddr → Str
  | .v4 _ => lit "IP4"
  | .v6 _ => lit "IP6"

/-- Build an SDP offer for a ulaw-only audio session. -/
def buildOffer (localIp : IpAddr) (rtpPort : UInt16) (sessionId : ℕ) :
    Checked Str := do
  assert (0 < rtpPort) "RTP port must be positive, got 0"
  let ip := localIp.display
  let ver := ipVer localIp
  let sessId := decimal sessionId
  return lit "v=" ++ decimal sdpVersion ++ lit "\r\n" ++
    lit "o=slmodem-sip-bridge " ++ sessId ++ lit " " ++ sessId ++ lit " IN " ++
      ver ++ lit " " ++ ip ++ lit "\r\n" ++
    lit "s=slmodem-sip-bridge\r\n" ++
    lit "c=IN " ++ ver ++ lit " " ++ ip ++ lit "\r\n" ++
    lit "t=0 0\r\n" ++
    lit "m=audio " ++ decimal rtpPort.toNat ++ lit " RTP/AVP 0\r\n" ++
    lit "a=rtpmap:0 PCMU/8000\r\n" ++
    lit "a=ptime:" ++ decimal ptimeMs ++ lit "\r\n" ++
    lit "a=sendrecv\r\n"

/-- Parsed remote endpoint from an SDP answer. -/
structure SdpAnswer where
  addr : IpAddr
  port : UInt16
  deriving DecidableEq, Repr

/-- Why an answer is rejected. -/
inductive SdpError where
  | noPort
  | invalidPort
  | noPayloadTypes
  | noPcmu (offered : List Str)
  | noAudioLine
  | noConnectionLine
  | noMediaPort
  deriving DecidableEq, Repr

/-- The variables of the parser's loop. -/
structure ParseState where
  connectionAddr : Option IpAddr
  mediaPort : Option UInt16
  hasAudioLine : Bool
  deriving DecidableEq, Repr

/-- The address a `c=` line sets, if it sets one. -/
def connectionLine (line : Str) : Checked (Option IpAddr) :=
  if startsWith (lit "c=") line then do
    let parts := splitWhitespace (← strFrom line 2)
    match parts with
    | _ :: _ :: addr :: _ => return parseIpAddr addr
    | _ => return none
  else return none

/-- The port of an `m=audio` line that offers PCMU. -/
def audioLine (line : Str) : Checked (Except SdpError UInt16) := do
  let parts := splitWhitespace (← strFrom line 8)
  match parts with
  | [] => return .error .noPort
  | port :: rest =>
      match parseU16 port with
      | none => return .error .invalidPort
      | some port =>
          -- Payload types start after the port and the protocol.
          match rest with
          | [] | [_] => return .error .noPayloadTypes
          | _ :: payloadTypes =>
              if payloadTypes.any (· == lit "0") then
                return .ok (UInt16.ofNat port)
              else return .error (.noPcmu payloadTypes)

/-- The parser's loop over the lines. -/
def parseLines : ParseState → List Str → Checked (Except SdpError ParseState)
  | st, [] => .ok (.ok st)
  | st, line :: rest => do
      let line := trim line
      let st :=
        match ← connectionLine line with
        | some addr => { st with connectionAddr := some addr }
        | none => st
      if startsWith (lit "m=audio ") line then
        match ← audioLine line with
        | .error e => return .error e
        | .ok port =>
            parseLines { st with hasAudioLine := true, mediaPort := some port } rest
      else parseLines st rest

/-- Parse an SDP answer to extract the remote RTP address and port. -/
def parseAnswer (sdp : Str) : Checked (Except SdpError SdpAnswer) := do
  match ← parseLines ⟨none, none, false⟩ (lines sdp) with
  | .error e => return .error e
  | .ok st =>
      if !st.hasAudioLine then return .error .noAudioLine
      else
        match st.connectionAddr, st.mediaPort with
        | none, _ => return .error .noConnectionLine
        | some _, none => return .error .noMediaPort
        | some addr, some port => return .ok ⟨addr, port⟩

/-! ## The parser never panics -/

theorem strFrom_of_startsWith {pattern s : Str} (h : startsWith pattern s = true) :
    ∃ rest, strFrom s (byteLen pattern) = .ok rest := by
  obtain ⟨rest, rfl⟩ := List.isPrefixOf_iff_prefix.mp h
  exact ⟨rest, strFrom_append pattern rest⟩

theorem connectionLine_total (line : Str) : ∃ r, connectionLine line = .ok r := by
  unfold connectionLine
  split
  · next hc =>
    obtain ⟨rest, hrest⟩ := strFrom_of_startsWith hc
    have hlen : byteLen (lit "c=") = 2 := by decide
    rw [hlen] at hrest
    rw [hrest]
    simp only [bind, Except.bind]
    split
    · exact ⟨_, rfl⟩
    · exact ⟨_, rfl⟩
  · exact ⟨none, rfl⟩

theorem audioLine_total {line : Str} (h : startsWith (lit "m=audio ") line = true) :
    ∃ r, audioLine line = .ok r := by
  obtain ⟨rest, hrest⟩ := strFrom_of_startsWith h
  have hlen : byteLen (lit "m=audio ") = 8 := by decide
  rw [hlen] at hrest
  unfold audioLine
  rw [hrest]
  simp only [bind, Except.bind]
  split
  · exact ⟨_, rfl⟩
  · split
    · exact ⟨_, rfl⟩
    · split
      · exact ⟨_, rfl⟩
      · exact ⟨_, rfl⟩
      · split
        · exact ⟨_, rfl⟩
        · exact ⟨_, rfl⟩

theorem parseLines_total (st : ParseState) (rest : List Str) :
    ∃ r, parseLines st rest = .ok r := by
  induction rest generalizing st with
  | nil => exact ⟨_, rfl⟩
  | cons line rest ih =>
      obtain ⟨found, hfound⟩ := connectionLine_total (trim line)
      simp only [parseLines, hfound, bind, Except.bind]
      by_cases haudio : startsWith (lit "m=audio ") (trim line) = true
      · obtain ⟨port, hport⟩ := audioLine_total haudio
        rw [if_pos haudio, hport]
        cases port with
        | error e => exact ⟨_, rfl⟩
        | ok port => exact ih _
      · rw [if_neg haudio]
        exact ih _

theorem parseAnswer_total (sdp : Str) : ∃ r, parseAnswer sdp = .ok r := by
  obtain ⟨r, hr⟩ := parseLines_total ⟨none, none, false⟩ (lines sdp)
  unfold parseAnswer
  rw [hr]
  simp only [bind, Except.bind]
  cases r with
  | error e => exact ⟨_, rfl⟩
  | ok st =>
      simp only
      split
      · exact ⟨_, rfl⟩
      · split <;> exact ⟨_, rfl⟩

end SlmodemSipBridge.Sdp
