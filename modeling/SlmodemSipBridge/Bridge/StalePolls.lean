import SlmodemSipBridge.Bridge.Failures

/-!
# Stale responses during early media

`invite` drops a response of another transaction by the number of its CSeq
header.  `poll_answer` has no such filter, so a late response to the first
INVITE may end the poll.
-/

namespace SlmodemSipBridge.Bridge

open Rust Transition Media Rtp Sip

/-! ## One poll -/

/-- The response has no status, or a provisional one. -/
def Quiet (resp : Str) : Prop :=
  ∀ status ∈ parseStatusCode resp, 100 ≤ status ∧ status < 200

instance Quiet.decidable : DecidablePred Quiet := fun resp =>
  inferInstanceAs
    (Decidable (∀ status ∈ parseStatusCode resp, 100 ≤ status ∧ status < 200))

/-- A poll that has read nothing for the call. -/
def Polled.unmoved (call : Call) : Polled × List SipShown := (⟨call, .ok false⟩, [])

/-- A poll leaves the call as it is, sends nothing and lets the next one follow
exactly when the response is quiet, whatever its CSeq. -/
theorem pollResponse_unmoved_iff (call : Call) (resp : Str) (ackSent : Bool) :
    pollResponse call resp ackSent = .ok (Polled.unmoved call) ↔ Quiet resp := by
  have hout := pollResponse_outcome call resp ackSent
  generalize pollResponse call resp ackSent = out at hout
  cases hout with
  | unparsed hstatus => exact iff_of_true rfl (by simp [Quiet, hstatus])
  | provisional status hstatus hrange =>
      exact iff_of_true rfl (by simpa [Quiet, hstatus] using hrange)
  | badTo why hstatus hpanic =>
      exact iff_of_false (by simp) (by simp [Quiet, hstatus])
  | answered hstatus hremembered hack =>
      exact iff_of_false (by simp [Polled.unmoved]) (by simp [Quiet, hstatus])
  | ackUnsent hstatus hremembered hack =>
      exact iff_of_false (by simp [Polled.unmoved]) (by simp [Quiet, hstatus])
  | failed status hstatus hother =>
      exact iff_of_false (by simp [Polled.unmoved])
        (by simpa [Quiet, hstatus] using hother.1)

/-! ## One step -/

/-- A poll reads a response that `invite` would drop. -/
def PolledStale : Consumed → Prop
  | .byPoll call resp _ => isStale call.cseq resp = .ok true
  | _ => False

instance PolledStale.decidable : DecidablePred PolledStale
  | .byInvite _ _ _ _ => isFalse id
  | .byPoll call resp _ => inferInstanceAs (Decidable (isStale call.cseq resp = .ok true))
  | .byBye _ _ => isFalse id

/-- A stale response is read and nothing else: the call is as it was, nothing is
sent, and the poll goes on. -/
def StaleInert (b : BridgeState) (e : BridgeEvent) (b' : BridgeState)
    (shown : List BridgeShown) : Prop :=
  ∀ c ∈ consumed b.phase e, PolledStale c →
    b'.phase.polling = true ∧ b'.phase.call = some c.call ∧
      shown = [.sip (.read (some c.call) c.resp)]

instance StaleInert.decidable (b : BridgeState) (e : BridgeEvent) (b' : BridgeState)
    (shown : List BridgeShown) : Decidable (StaleInert b e b' shown) := by
  unfold StaleInert
  infer_instance

/-- A poll that reads a stale response reads a quiet one. -/
def StaleQuiet (c : Consumed) : Prop := PolledStale c → Quiet c.resp

instance StaleQuiet.decidable : DecidablePred StaleQuiet := fun c =>
  inferInstanceAs (Decidable (PolledStale c → Quiet c.resp))

/-- The step of a poll is inert exactly when the response is quiet. -/
theorem ReadStepped.inert_iff {config : Config} {phase phase' : Phase} {c : Consumed}
    {shown : List BridgeShown} (hstale : PolledStale c)
    (h : ReadStepped config phase c phase' shown) :
    (phase'.polling = true ∧ phase'.call = some c.call ∧
      shown = [.sip (.read (some c.call) c.resp)]) ↔ Quiet c.resp := by
  cases h with
  | invites _ _ _ _ _ _ _ _ _ => exact hstale.elim
  | inviteFails _ _ _ _ _ _ _ _ _ _ _ => exact hstale.elim
  | inviteCrashes _ _ _ _ _ _ _ _ _ _ => exact hstale.elim
  | inviteReturns _ _ _ _ _ _ _ _ _ _ _ => exact hstale.elim
  | byeAnswered _ _ _ _ _ => exact hstale.elim
  | polls session call relay resp ackSent polling polled acks hresponse hpolling =>
      change (polling = true ∧ some polled.call = some call ∧
        BridgeShown.sip (.read (some call) resp) :: acks.map .sip =
          [.sip (.read (some call) resp)]) ↔ Quiet resp
      rw [hpolling]
      cases hresponse with
      | unparsed hstatus => exact iff_of_true ⟨rfl, rfl, rfl⟩ (by simp [Quiet, hstatus])
      | provisional status hstatus hrange =>
          exact iff_of_true ⟨rfl, rfl, rfl⟩ (by simpa [Quiet, hstatus] using hrange)
      | answered hstatus hremembered hack =>
          exact iff_of_false (by simp) (by simp [Quiet, hstatus])
      | ackUnsent hstatus hremembered hack =>
          exact iff_of_false (by simp) (by simp [Quiet, hstatus])
      | failed status hstatus hother =>
          exact iff_of_false (by simp) (by simpa [Quiet, hstatus] using hother.1)
  | pollCrashes session call relay resp ackSent why hresponse =>
      cases hresponse with
      | badTo _ hstatus hpanic =>
          exact iff_of_false (by simp [Phase.polling])
            (by simp [Consumed.resp, Quiet, hstatus])

/-! ## Whole runs -/

/-- The filter of `invite`, in `poll_answer`: exactly the quiet responses pass
through a poll without a trace, and the stale responses of a run leave its
polls alone exactly when they are quiet. -/
theorem bridge_stalePollsInert_iff (config : Config) :
    (∀ (call : Call) (resp : Str) (ackSent : Bool), isStale call.cseq resp = .ok true →
        (pollResponse call resp ackSent = .ok (Polled.unmoved call) ↔ Quiet resp)) ∧
      ∀ events : List BridgeEvent,
        (bridgeMachine config).Every StaleInert bridgeStart events ↔
          (bridgeMachine config).Guarded (Reads StaleQuiet) bridgeStart events := by
  constructor
  · intro call resp ackSent _
    exact pollResponse_unmoved_iff call resp ackSent
  · intro events
    apply (bridgeMachine config).every_congr (I := fun b => b.phase.Ok) ?_ bridgeStart_ok
    intro b e b' shown hok hstep
    obtain ⟨hstepped, hok'⟩ := bridgeStep_ok hok hstep
    refine ⟨?_, fun _ => hok'⟩
    apply forall₂_congr
    intro c hc
    apply forall_congr'
    intro hstale
    exact (readStepped_of_stepped hstepped hc).inert_iff hstale

/-- Early media for the authenticated INVITE. -/
def trunkRetriedEarlyMedia : Datagram :=
  datagramOf "SIP/2.0 183 Session Progress\r\nCall-ID: 10-2\r\nCSeq: 2 INVITE\r\nContent-Type: application/sdp\r\n\r\nc=IN IP4 10.0.0.8\r\nm=audio 4002 RTP/AVP 0\r\n"
    (by decide +kernel)

/-- The events up to the early media of a call that was challenged. -/
def trunkChallenged : List BridgeEvent :=
  trunkSetup ++
    [.invite (.received (some trunkChallenge) answerInputs) true,
      .invite (.head (headAt 0)) true,
      .invite (.received (some trunkRetriedEarlyMedia) answerInputs) true]

/-- A late `100 Trying` to the first INVITE leaves the poll alone. -/
theorem bridge_stalePollsInert_lateTrying :
    (bridgeMachine trunkConfig).Every StaleInert bridgeStart
      (trunkChallenged ++
        [.poll (some (datagramOf "SIP/2.0 100 Trying\r\nCSeq: 1 INVITE\r\n\r\n"
          (by decide +kernel))) true]) :=
  ((bridge_stalePollsInert_iff trunkConfig).2 _).mpr (by decide +kernel)

/-- The challenge once more, after the early media: it ends the poll. -/
theorem bridge_stalePollsInert_lateChallenge :
    ¬ (bridgeMachine trunkConfig).Every StaleInert bridgeStart
        (trunkChallenged ++ [.poll (some trunkChallenge) true]) ∧
      ((bridgeMachine trunkConfig).run bridgeStart
        (trunkChallenged ++ [.poll (some trunkChallenge) true])).map
          (fun last => last.1.phase.polling) = some false := by
  decide +kernel

end SlmodemSipBridge.Bridge
