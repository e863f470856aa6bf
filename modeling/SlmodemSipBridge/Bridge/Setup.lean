import SlmodemSipBridge.Bridge.Steps

/-!
# The setup of a call

The steps of the setup with the events that cause them: how `invite` ends, which
reads and ticks end the drain, and that `run` then waits for the next dial
string.  Only the steps of a bridge that does not panic are told apart.
-/

namespace SlmodemSipBridge.Bridge

open Rust Transition Media Rtp Sip

/-! ## What goes on -/

/-- The bridge has not panicked. -/
def Phase.Alive (phase : Phase) : Prop := ∀ why, phase ≠ .panicked why

theorem loopHead_of_alive {calls : ℕ} (h : (loopHead calls).1.Alive) :
    loopHead calls = (.waiting [], [.waiting]) := by
  rcases loopHead_cases calls with hwaits | ⟨why, hpanics⟩
  · exact hwaits
  · rw [hpanics] at h
    exact absurd rfl (h why)

/-- What a step of the setup that does not panic leads to. -/
inductive SetupStepped (config : Config) (session : Session)
    (drain : Drain (Except InviteError Call)) (invite : InviteState) :
    BridgeEvent → Phase → List BridgeShown → Prop where
  | goesOn (e : InviteEvent) (ackSent : Bool) (invite' : InviteState)
      (acts : List SipShown) (hstep : InviteStepped config.client invite e invite' acts)
      (hreturned : ∀ result, invite' ≠ .returned result)
      (hpanicked : ∀ why, invite' ≠ .panicked why) :
      SetupStepped config session drain invite (.invite e ackSent)
        (.setup session drain invite') (acts.map .sip)
  | givesUp (e : InviteEvent) (ackSent : Bool) (error : InviteError)
      (acts : List SipShown)
      (hstep : InviteStepped config.client invite e (.returned (.error error)) acts) :
      SetupStepped config session drain invite (.invite e ackSent) (.waiting [])
        (acts.map .sip ++ [.waiting])
  | returns (e : InviteEvent) (ackSent : Bool) (call : Call) (acts : List SipShown)
      (next : BridgeNext)
      (hstep : InviteStepped config.client invite e (.returned (.ok call)) acts)
      (hnext : SetupEnd call ackSent next) :
      SetupStepped config session drain invite (.invite e ackSent) next.1
        (acts.map .sip ++ next.2)
  | reads (data : Chunk drainBufferSize) (drain' : Drain (Except InviteError Call))
      (hdata : data.val ≠ []) :
      SetupStepped config session drain invite (.setupRead (some data))
        (.setup session drain' invite) [.drained data.val]
  | readEnds (read : Option (Chunk drainBufferSize))
      (hread : ¬ ∃ data ∈ read, data.val ≠ []) :
      SetupStepped config session drain invite (.setupRead read) (.waiting [])
        [.waiting]
  | ticks (drain' : Drain (Except InviteError Call)) :
      SetupStepped config session drain invite (.setupTick true)
        (.setup session drain' invite) []
  | tickFails :
      SetupStepped config session drain invite (.setupTick false) (.waiting [])
        [.waiting]

theorem drainedTo_of_alive {calls : ℕ} {session : Session} {invite : InviteState}
    {ackSent : Bool} {iterations drainedBytes : ℕ}
    (h : (drainedTo calls session invite ackSent
      (drainHead iterations drainedBytes)).1.Alive) :
    ∃ drain', drainedTo calls session invite ackSent (drainHead iterations drainedBytes) =
      (.setup session drain' invite, []) := by
  by_cases hhead : iterations < drainIterationsLimit
  · rw [drainHead_eq_draining drainedBytes hhead]
    exact ⟨_, rfl⟩
  · obtain ⟨why, hwhy⟩ := drainHead_eq_panicked drainedBytes hhead
    rw [hwhy] at h
    exact absurd rfl (h why)

theorem setupRead_stepped {config : Config} {calls : ℕ} {session : Session}
    {iterations drainedBytes : ℕ} {invite : InviteState}
    {read : Option (Chunk drainBufferSize)} {out : BridgeNext}
    (h : phaseStep config calls (.setup session (.draining iterations drainedBytes) invite)
      (.setupRead read) = some out) (halive : out.1.Alive) :
    SetupStepped config session (.draining iterations drainedBytes) invite
      (.setupRead read) out.1 out.2 := by
  cases read with
  | none =>
      obtain rfl : loopHead calls = out := by
        simpa [phaseStep, drainStep, drainedTo, BridgeNext.after] using h
      rw [loopHead_of_alive halive]
      exact .readEnds none (by simp)
  | some data =>
      by_cases hdata : data.val = []
      · obtain rfl : loopHead calls = out := by
          simpa [phaseStep, drainStep, hdata, drainedTo, BridgeNext.after] using h
        rw [loopHead_of_alive halive]
        exact .readEnds (some data) (by simpa using hdata)
      · simp only [phaseStep, drainStep, hdata, if_false, Option.some.injEq] at h
        subst h
        obtain ⟨drain', hdrain⟩ := drainedTo_of_alive halive
        simp only [hdrain, BridgeNext.after]
        exact .reads data drain' hdata

theorem setupTick_stepped {config : Config} {calls : ℕ} {session : Session}
    {iterations drainedBytes : ℕ} {invite : InviteState} {written : Bool}
    {out : BridgeNext}
    (h : phaseStep config calls (.setup session (.draining iterations drainedBytes) invite)
      (.setupTick written) = some out) (halive : out.1.Alive) :
    SetupStepped config session (.draining iterations drainedBytes) invite
      (.setupTick written) out.1 out.2 := by
  cases written with
  | false =>
      obtain rfl : loopHead calls = out := by
        simpa [phaseStep, drainStep, drainedTo, BridgeNext.after] using h
      rw [loopHead_of_alive halive]
      exact .tickFails
  | true =>
      simp only [phaseStep, drainStep, if_true, Option.some.injEq] at h
      subst h
      obtain ⟨drain', hdrain⟩ := drainedTo_of_alive halive
      simp only [hdrain, BridgeNext.after]
      exact .ticks drain'

theorem setupInvite_stepped {config : Config} {calls : ℕ} {session : Session}
    {iterations drainedBytes : ℕ} {invite : InviteState} {e : InviteEvent}
    {ackSent : Bool} {out : BridgeNext} (hsession : session.state = .originating)
    (h : phaseStep config calls (.setup session (.draining iterations drainedBytes) invite)
      (.invite e ackSent) = some out) (halive : out.1.Alive) :
    SetupStepped config session (.draining iterations drainedBytes) invite
      (.invite e ackSent) out.1 out.2 := by
  have hmedia := transition_eq_ok .connectingMedia hsession rfl
  unfold phaseStep at h
  cases hinvite : inviteStep config.client invite e with
  | none => simp [hinvite] at h
  | some next =>
      obtain ⟨invite', acts⟩ := next
      simp only [hinvite, Option.some.injEq] at h
      subst h
      have hstep : InviteStepped config.client invite e invite' acts :=
        inviteStepped_of_step hinvite
      cases invite' with
      | panicked why => exact absurd rfl (halive why)
      | returned result =>
          cases result with
          | error error =>
              have hhead : (loopHead calls).1.Alive := halive
              simp only [invitedTo, drainStep, drainedTo, loopHead_of_alive hhead,
                BridgeNext.after]
              exact .givesUp e ackSent error acts hstep
          | ok call =>
              simp only [invitedTo, drainStep, drainedTo, hmedia, BridgeNext.after]
              exact .returns e ackSent call acts _ hstep (proceedWith_end rfl)
      | called args =>
          simp only [invitedTo, BridgeNext.after, List.append_nil]
          exact .goesOn e ackSent _ acts hstep (by simp) (by simp)
      | looping l =>
          simp only [invitedTo, BridgeNext.after, List.append_nil]
          exact .goesOn e ackSent _ acts hstep (by simp) (by simp)
      | receiving l =>
          simp only [invitedTo, BridgeNext.after, List.append_nil]
          exact .goesOn e ackSent _ acts hstep (by simp) (by simp)

theorem setupStepped_of_step {config : Config} {b b' : BridgeState} {e : BridgeEvent}
    {shown : List BridgeShown} {session : Session}
    {drain : Drain (Except InviteError Call)} {invite : InviteState} (hok : b.phase.Ok)
    (hphase : b.phase = .setup session drain invite)
    (h : (bridgeMachine config).step b e = some (b', shown)) (halive : b'.phase.Alive) :
    SetupStepped config session drain invite e b'.phase shown := by
  obtain ⟨calls, phase⟩ := b
  obtain rfl : phase = .setup session drain invite := hphase
  obtain ⟨hsession, ⟨iterations, drainedBytes, rfl⟩, -⟩ := hok
  have hphaseStep : phaseStep config calls
      (.setup session (.draining iterations drainedBytes) invite) e =
        some (b'.phase, shown) := by
    simp only [bridgeMachine, bridgeStep] at h
    split at h
    · simp at h
    · next out hout =>
      simp only [Option.some.injEq, Prod.mk.injEq] at h
      obtain ⟨rfl, rfl⟩ := h
      exact hout
  cases e with
  | invite e ackSent => exact setupInvite_stepped hsession hphaseStep halive
  | setupRead read => exact setupRead_stepped hphaseStep halive
  | setupTick written => exact setupTick_stepped hphaseStep halive
  | _ => simp [phaseStep] at hphaseStep

end SlmodemSipBridge.Bridge
