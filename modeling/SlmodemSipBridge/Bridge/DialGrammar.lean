import SlmodemSipBridge.Bridge.Steps
import SlmodemSipBridge.Sip.RequestUri
import SlmodemSipBridge.Support.Prefixed

/-!
# The grammar of dial strings

What `DialString::parse` accepts, and where an accepted text ends up: between the
blanks of the request lines of its call, and nothing else that slmodemd sends
gets there.
-/

namespace SlmodemSipBridge.Bridge

open Rust Prefixed Transition Media Rtp Sip

/-! ## The two alphabets -/

/-- The letters that select tone or pulse dialling. -/
def tonePulse : Str := lit "TtPp"

/-- A text is a tone/pulse prefix and a dial string. -/
abbrev Dials (s p d : Str) : Prop := Cuts (· ∈ tonePulse) (· ∈ dialAlphabet) s p d

theorem isTonePulse_iff {c : Char} : isTonePulse c = true ↔ c ∈ tonePulse := by
  simp [isTonePulse, tonePulse, lit, or_assoc]

/-- No letter of a prefix is a dial character: `w` and `W` are, `T` and `P` are not. -/
theorem alphabets_disjoint (c : Char) (h : c ∈ tonePulse) : c ∉ dialAlphabet := by
  have hall : tonePulse.all (· ∉ dialAlphabet) = true := by decide
  exact of_decide_eq_true (List.all_eq_true.mp hall c h)

theorem isTonePulse_eq : isTonePulse = (decide <| · ∈ tonePulse) := by
  funext c
  rw [Bool.eq_iff_iff, isTonePulse_iff, decide_eq_true_iff]

/-! ## What is accepted -/

/-- The scan of the source leaves the dial string. -/
theorem parse_eq_ok_iff {s : Str} {dial : DialString} :
    DialString.parse s = .ok dial ↔ stripTonePulsePrefix s = dial.text := by
  unfold DialString.parse
  by_cases hempty : stripTonePulsePrefix s = []
  · rw [dif_pos hempty, hempty]
    simpa using dial.ne.symm
  · rw [dif_neg hempty]
    by_cases hallowed : (stripTonePulsePrefix s).all isAllowedDialChar = true
    · rw [dif_pos hallowed, Except.ok.injEq]
      constructor
      · rintro rfl
        rfl
      · intro htext
        cases dial
        simpa using htext
    · rw [dif_neg hallowed]
      have hother : stripTonePulsePrefix s ≠ dial.text := by
        intro htext
        exact hallowed (htext ▸ dial.allowed)
      simpa using hother

theorem exists_parse_iff {s d : Str} :
    (∃ dial, DialString.parse s = .ok dial ∧ dial.text = d) ↔ ∃ p, Dials s p d := by
  rw [exists_cuts_iff alphabets_disjoint, ← isTonePulse_eq]
  constructor
  · rintro ⟨dial, hparse, rfl⟩
    exact ⟨parse_eq_ok_iff.mp hparse, dial.ne, dial.mem_alphabet⟩
  · rintro ⟨hscan, hne, hwithin⟩
    have hallowed : d.all isAllowedDialChar = true :=
      List.all_eq_true.mpr fun c hc => isAllowedDialChar_iff.mpr (hwithin c hc)
    exact ⟨⟨d, hne, hallowed⟩, parse_eq_ok_iff.mpr hscan, rfl⟩

/-- A dial string is accepted as it is. -/
theorem parse_text (dial : DialString) : DialString.parse dial.text = .ok dial := by
  rw [parse_eq_ok_iff]
  have hdials : Dials dial.text [] dial.text := ⟨rfl, by simp, dial.ne, dial.mem_alphabet⟩
  rw [stripTonePulsePrefix, isTonePulse_eq]
  exact (hdials.scan alphabets_disjoint).2

/-- A further prefix does not change what is accepted. -/
theorem parse_prefix {p : Str} (hp : ∀ c ∈ p, c ∈ tonePulse) (s : Str) (dial : DialString) :
    DialString.parse (p ++ s) = .ok dial ↔ DialString.parse s = .ok dial := by
  have hstrip : stripTonePulsePrefix (p ++ s) = stripTonePulsePrefix s :=
    List.dropWhile_append_of_pos fun c hc => isTonePulse_iff.mpr (hp c hc)
  rw [parse_eq_ok_iff, parse_eq_ok_iff, hstrip]

/-- Every other text is refused. -/
theorem parse_error_iff {s : Str} :
    (∃ error, DialString.parse s = .error error) ↔ ∀ p d, ¬ Dials s p d := by
  constructor
  · rintro ⟨error, herror⟩ p d hdials
    obtain ⟨dial, hparse, -⟩ := exists_parse_iff.mpr ⟨p, hdials⟩
    rw [herror] at hparse
    contradiction
  · intro hnone
    cases hparse : DialString.parse s with
    | error error => exact ⟨error, rfl⟩
    | ok dial =>
        obtain ⟨p, hdials⟩ := exists_parse_iff.mp ⟨dial, hparse, rfl⟩
        exact absurd hdials (hnone p dial.text)

/-- A dial character is neither a blank nor the end of a line. -/
theorem noBlanks_dialText (dial : DialString) : NoBlanks dial.text := by
  intro c hc
  have hplain := dial.forall_mem (p := fun c => !isWhitespace c) (by decide) c hc
  rwa [Bool.not_eq_true'] at hplain

/-! ## Where it ends up -/

/-- The URI is that of an accepted dial string. -/
def IsDialled (client : SipClient) (uri : Str) : Prop :=
  ∃ dial : DialString, uri = client.inviteUri dial.text

/-- What is sent for a call is for an accepted dial string. -/
def BridgeShown.Dialled (client : SipClient) : BridgeShown → Prop
  | .sip (.sent _ request) =>
      ∀ identity ∈ request.identity, IsDialled client identity.requestUri
  | _ => True

/-- The call of the phase is for an accepted dial string. -/
def Phase.Dialled (client : SipClient) : Phase → Prop
  | .setup _ _ invite =>
      ∃ dial : DialString, invite.IsFor client (client.inviteUri dial.text)
  | .relaying _ call _ _ => IsDialled client call.inviteUri
  | .hangingUp call _ => IsDialled client call.inviteUri
  | .byeSent call _ => IsDialled client call.inviteUri
  | _ => True

variable {client : SipClient}

theorem dialled_of_isFor {dial : DialString} {shown : List SipShown}
    (h : ∀ o ∈ shown, o.IsFor (client.inviteUri dial.text)) :
    ∀ o ∈ shown.map BridgeShown.sip, o.Dialled client := by
  rw [List.forall_mem_map]
  intro o ho
  cases o with
  | read call resp => trivial
  | answered call resp => trivial
  | sent site request =>
      intro identity hidentity
      exact ⟨dial, h _ ho identity hidentity⟩

theorem ack_dialled {call : Call} (h : IsDialled client call.inviteUri) (site : Site) :
    BridgeShown.Dialled client (.sip (.sent site (.ack call))) := by
  rintro identity ⟨rfl⟩
  exact h

theorem Parked.dialled {next : BridgeNext} (h : Parked next) :
    (∀ o ∈ next.2, o.Dialled client) ∧ next.1.Dialled client := by
  cases h <;> exact ⟨List.forall_mem_singleton.mpr trivial, trivial⟩

theorem Parked.dialled_append {next : BridgeNext} (h : Parked next) {shown : List BridgeShown}
    (hshown : ∀ o ∈ shown, o.Dialled client) :
    (∀ o ∈ shown ++ next.2, o.Dialled client) ∧ next.1.Dialled client :=
  ⟨List.forall_mem_append.mpr ⟨hshown, h.dialled.1⟩, h.dialled.2⟩

theorem SetupEnd.dialled {call : Call} {ackSent : Bool} {next : BridgeNext}
    (hcall : IsDialled client call.inviteUri) (h : SetupEnd call ackSent next) :
    (∀ o ∈ next.2, o.Dialled client) ∧ next.1.Dialled client := by
  cases h with
  | noRemoteRtp _ => exact ⟨by simp, hcall⟩
  | ackUnsent _ _ _ _ => exact ⟨List.forall_mem_singleton.mpr trivial, trivial⟩
  | acked _ _ _ _ _ _ =>
      exact ⟨List.forall_mem_singleton.mpr (ack_dialled hcall .answerAck), hcall⟩
  | unanswered _ _ _ _ _ _ _ => exact ⟨by simp, hcall⟩

theorem relayedTo_dialled {session : Session} {call : Call} (polling : Bool) (relay : Relay)
    (hcall : IsDialled client call.inviteUri) :
    (relayedTo session call polling relay).Dialled client := by
  unfold relayedTo
  split
  · exact hcall
  · exact hcall
  · trivial
  · exact hcall

/-- `invite` is called with the text of the dial string that `run` has parsed. -/
theorem boundTo_dialled (config : Config) (dial : DialString) (session : Session)
    (port : UInt16) (sessionId : ℕ) :
    (boundTo config dial session port sessionId).1.Dialled config.client := by
  unfold boundTo
  split
  · trivial
  · exact ⟨dial, rfl⟩

theorem binding_dialled {config : Config} {b b' : BridgeState} {e : BridgeEvent}
    {shown : List BridgeShown} {dial : DialString} {session : Session}
    (hphase : b.phase = .binding dial session)
    (h : (bridgeMachine config).step b e = some (b', shown)) : b'.phase.Dialled config.client := by
  obtain ⟨calls, phase⟩ := b
  obtain rfl : phase = .binding dial session := hphase
  change bridgeStep config ⟨calls, .binding dial session⟩ e = some (b', shown) at h
  cases e with
  | rtpBound port sessionId =>
      cases port with
      | none =>
          simp only [bridgeStep, phaseStep, stopWith, Option.some.injEq, Prod.mk.injEq] at h
          rw [← h.1]
          trivial
      | some port =>
          simp only [bridgeStep, phaseStep, Option.some.injEq, Prod.mk.injEq] at h
          rw [← h.1]
          exact boundTo_dialled config dial session port sessionId
  | _ => simp [bridgeStep, phaseStep] at h

/-- A step of the bridge sends for accepted dial strings only.  The step to `invite`
does not say in its case which dial string it is given. -/
theorem PhaseStepped.dialled {config : Config} {phase phase' : Phase} {e : BridgeEvent}
    {shown : List BridgeShown} (hphase : phase.Dialled config.client)
    (hbinding : ∀ dial session, phase = .binding dial session → phase'.Dialled config.client)
    (h : PhaseStepped config phase e phase' shown) :
    (∀ o ∈ shown, o.Dialled config.client) ∧ phase'.Dialled config.client := by
  cases h with
  | registers r e next shown hshown hnext =>
      have hregister : ∀ o ∈ shown.map BridgeShown.sip, o.Dialled config.client := by
        rw [List.forall_mem_map]
        intro o ho
        have hregistering := hshown o ho
        cases o with
        | read call resp => trivial
        | answered call resp => trivial
        | sent site request =>
            cases request with
            | register r => simp [BridgeShown.Dialled, Request.identity]
            | invite r => exact hregistering.elim
            | ack call => exact hregistering.elim
            | bye call branch => exact hregistering.elim
      cases hnext with
      | running r => exact ⟨by simpa using hregister, trivial⟩
      | ready => exact ⟨by simpa using hregister, trivial⟩
      | parked _ hnext => exact hnext.dialled_append hregister
  | readied written next hnext => exact hnext.dialled
  | waits lineBuf e lineBuf' => exact ⟨by simp, trivial⟩
  | waitEnds lineBuf e next hnext => exact hnext.dialled
  | dials lineBuf e dial session tail hsession =>
      exact ⟨List.forall_mem_singleton.mpr trivial, trivial⟩
  | binds dial session port sessionId args => exact ⟨by simp, hbinding dial session rfl⟩
  | bindFails dial session port sessionId next hnext => exact hnext.dialled
  | invites session drain invite invite' e ackSent shown hstep hreturned hpanicked =>
      obtain ⟨dial, hinvite⟩ := hphase
      obtain ⟨hshown, hinvite'⟩ := hstep.isFor hinvite
      exact ⟨dialled_of_isFor hshown, dial, hinvite'⟩
  | inviteFails session drain invite invite' e ackSent shown next hstep hfail hnext =>
      obtain ⟨dial, hinvite⟩ := hphase
      have hshown := dialled_of_isFor (hstep.isFor hinvite).1
      exact hnext.dialled_append hshown
  | inviteReturns session drain invite e ackSent shown call next hstep hnext =>
      obtain ⟨dial, hinvite⟩ := hphase
      obtain ⟨hshown, hcall⟩ := hstep.isFor hinvite
      have hend := hnext.dialled ⟨dial, hcall⟩
      exact ⟨List.forall_mem_append.mpr ⟨dialled_of_isFor hshown, hend.1⟩, hend.2⟩
  | drains session drain drain' invite e dropped he hdrain =>
      exact ⟨List.forall_mem_map.mpr fun _ _ => trivial, hphase⟩
  | drainFails session drain invite e dropped next he hnext =>
      have hdropped : ∀ o ∈ dropped.map BridgeShown.drained, o.Dialled config.client :=
        List.forall_mem_map.mpr fun _ _ => trivial
      exact hnext.dialled_append hdropped
  | relays session call polling relay relay' e shown hstep =>
      have hmedia : ∀ o ∈ shown.map BridgeShown.media, o.Dialled config.client :=
        List.forall_mem_map.mpr fun _ _ => trivial
      rw [relayStops_of_step hstep, List.append_nil]
      exact ⟨hmedia, relayedTo_dialled polling relay' hphase⟩
  | pollSilent session call relay ackSent => exact ⟨by simp, hphase⟩
  | polls session call relay data ackSent polling polled acks hresponse hpolling =>
      have huri : polled.call.inviteUri = call.inviteUri := by rw [hresponse.continues]
      have hcall : IsDialled config.client polled.call.inviteUri := huri ▸ hphase
      refine ⟨List.forall_mem_cons.mpr ⟨trivial, ?_⟩, hcall⟩
      rcases hresponse.silent_or_answered with ⟨-, -, rfl⟩ | ⟨-, -, heq, -, rfl⟩
      · simp
      · refine List.forall_mem_cons.mpr ⟨trivial, ?_⟩
        rw [heq] at hcall
        cases ackSent with
        | false => simp
        | true => exact List.forall_mem_singleton.mpr (ack_dialled hcall .pollAck)
  | pollCrashes session call relay data ackSent why hresponse =>
      exact ⟨List.forall_mem_cons.mpr ⟨trivial, List.forall_mem_singleton.mpr trivial⟩, trivial⟩
  | byes call after branchHash =>
      refine ⟨List.forall_mem_singleton.mpr ?_, hphase⟩
      rintro identity ⟨rfl⟩
      exact hphase
  | byeFails call after branchHash next hnext => exact hnext.dialled
  | byeSilent call after next hnext => exact hnext.dialled
  | byeAnswered call after data next hnext =>
      exact ⟨List.forall_mem_cons.mpr ⟨trivial, hnext.dialled.1⟩, hnext.dialled.2⟩

/-- In every run, what is sent for a call is for an accepted dial string. -/
theorem bridgeRun_dialled {config : Config} {events : List BridgeEvent} {b : BridgeState}
    {trace : List BridgeShown}
    (hrun : (bridgeMachine config).run bridgeStart events = some (b, trace)) :
    ∀ o ∈ trace, o.Dialled config.client := by
  have hstart : bridgeStart.phase.Ok ∧ bridgeStart.phase.Dialled config.client :=
    ⟨bridgeStart_ok, trivial⟩
  refine ((bridgeMachine config).forall_mem_shown
    (I := fun b => b.phase.Ok ∧ b.phase.Dialled config.client) ?_ hstart hrun).1
  rintro b e b' shown ⟨hok, hdialled⟩ hstep
  obtain ⟨hstepped, hok'⟩ := bridgeStep_ok hok hstep
  obtain ⟨hshown, hdialled'⟩ :=
    hstepped.dialled hdialled fun _ _ hphase => binding_dialled hphase hstep
  exact ⟨hshown, hok', hdialled'⟩

/-- What is dialled is exactly what the grammar says, cut in the one way there is, and
parsing it again or behind a further prefix gives the same; every other text is
refused.  In every run of the bridge, a request of a call begins with a request line
for such a text, which holds no blank and no end of a line. -/
theorem dialString_grammar (config : Config) :
    (∀ s d, (∃ dial, DialString.parse s = .ok dial ∧ dial.text = d) ↔ ∃ p, Dials s p d) ∧
      (∀ s p p' d d', Dials s p d → Dials s p' d' → p = p' ∧ d = d') ∧
      (∀ s dial, DialString.parse s = .ok dial → DialString.parse dial.text = .ok dial) ∧
      (∀ p s dial, (∀ c ∈ p, c ∈ tonePulse) →
        (DialString.parse (p ++ s) = .ok dial ↔ DialString.parse s = .ok dial)) ∧
      (∀ s, (∃ error, DialString.parse s = .error error) ↔ ∀ p d, ¬ Dials s p d) ∧
      ∀ (events : List BridgeEvent) (b : BridgeState) (trace : List BridgeShown),
        (bridgeMachine config).run bridgeStart events = some (b, trace) →
          ∀ site request identity, .sip (.sent site request) ∈ trace →
            request.identity = some identity →
              ∃ dial : DialString, NoBlanks dial.text ∧
                request.line (config.client.inviteUri dial.text) ++ lit "\r\n" <+:
                  config.client.wire request := by
  refine ⟨fun s d => exists_parse_iff, ?_, fun s dial _ => parse_text dial,
    fun p s dial hp => parse_prefix hp s dial, fun s => parse_error_iff, ?_⟩
  · intro s p p' d d' hdials hdials'
    exact hdials.unique alphabets_disjoint hdials'
  · intro events b trace hrun site request identity hsent hidentity
    obtain ⟨dial, huri⟩ := bridgeRun_dialled hrun _ hsent identity hidentity
    refine ⟨dial, noBlanks_dialText dial, ?_⟩
    rw [← huri]
    exact line_prefix_wire config.client hidentity

/-- Whether a request of a call is sent. -/
def sendsForCall : BridgeShown → Bool
  | .sip (.sent _ request) => request.identity.isSome
  | _ => false

theorem dialString_grammar_trunkSetup :
    (∃ p, Dials (lit "tPpW123") p (lit "W123")) ∧
      ∃ b trace site request identity,
        (bridgeMachine trunkConfig).run bridgeStart trunkSetup = some (b, trace) ∧
          .sip (.sent site request) ∈ trace ∧ request.identity = some identity ∧
          ∃ dial : DialString, NoBlanks dial.text ∧
            request.line (trunkClient.inviteUri dial.text) ++ lit "\r\n" <+:
              trunkClient.wire request := by
  obtain ⟨hgrammar, -, -, -, -, hlines⟩ := dialString_grammar trunkConfig
  constructor
  · exact (hgrammar _ _).mp ⟨⟨lit "W123", by decide, by decide⟩, rfl, rfl⟩
  · have hsetup :
        ((bridgeMachine trunkConfig).run bridgeStart trunkSetup).map
          (fun end_ => end_.2.any sendsForCall) = some true := by
      decide +kernel
    obtain ⟨⟨b, trace⟩, hrun, hany⟩ := Option.map_eq_some_iff.mp hsetup
    obtain ⟨o, hmem, hsends⟩ := List.any_eq_true.mp hany
    cases o with
    | sip shown =>
        cases shown with
        | sent site request =>
            obtain ⟨identity, hidentity⟩ := Option.isSome_iff_exists.mp hsends
            exact ⟨b, trace, site, request, identity, hrun, hmem, hidentity,
              hlines _ b trace hrun site request identity hmem hidentity⟩
        | read call resp => simp [sendsForCall] at hsends
        | answered call resp => simp [sendsForCall] at hsends
    | _ => simp [sendsForCall] at hsends

end SlmodemSipBridge.Bridge
