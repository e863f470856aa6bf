import SlmodemSipBridge.Bridge.Reading

/-!
# Dialog tags

Which tag the ACKs and the BYE of a call carry, and the tags of the responses
that they are for.
-/

namespace SlmodemSipBridge.Bridge

open Rust Transition Media Rtp Sip

/-- The call has the tag, where there is one. -/
def HasTag (call : Call) (tag : Option Str) : Prop :=
  ∀ t ∈ tag, call.remoteTag = some t

/-- So has the To header of the call's requests. -/
def CarriesTag (call : Call) (tag : Option Str) : Prop :=
  ∀ t ∈ tag, call.toTag = lit ";tag=" ++ t

instance (call : Call) (tag : Option Str) : Decidable (HasTag call tag) := by
  unfold HasTag
  infer_instance

instance (call : Call) (tag : Option Str) : Decidable (CarriesTag call tag) := by
  unfold CarriesTag
  infer_instance

/-- The tag of the response read last, and the tag of the 200 that has answered
the call. -/
structure SeenTags where
  last : Option Str
  answered : Option Str

/-- The tags once a response is read. -/
def SeenTags.reading (q : SeenTags) (resp : Str) : SeenTags :=
  { q with last := toTagOf resp }

/-- Every ACK carries the tag of the response it is for, and a call that a 200
has answered has and carries the tag of the 200. -/
def tagMonitor : Monitor SeenTags BridgeShown where
  next q
    | .sip (.read (some _) resp) => q.reading resp
    | .sip (.answered _ resp) => { q with answered := toTagOf resp }
    | .waiting => ⟨none, none⟩
    | _ => q
  allows q
    | .sip (.sent _ (.ack call)) => CarriesTag call q.last
    | .sip (.sent _ (.bye call _)) => CarriesTag call q.answered
    | .sip (.answered call resp) => HasTag call (toTagOf resp)
    | _ => True

theorem tagMonitor_accepts_read (q : SeenTags) (call : Call) (resp : Str)
    (shown : List BridgeShown) :
    tagMonitor.Accepts q (.sip (.read (some call) resp) :: shown) ↔
      tagMonitor.Accepts (q.reading resp) shown :=
  and_iff_right trivial

theorem tagMonitor_after_read (q : SeenTags) (call : Call) (resp : Str)
    (shown : List BridgeShown) :
    tagMonitor.after q (.sip (.read (some call) resp) :: shown) =
      tagMonitor.after (q.reading resp) shown :=
  rfl

instance : ∀ q o, Decidable (tagMonitor.allows q o)
  | q, .sip (.sent _ (.ack call)) => inferInstanceAs (Decidable (CarriesTag call q.last))
  | q, .sip (.sent _ (.bye call _)) =>
      inferInstanceAs (Decidable (CarriesTag call q.answered))
  | _, .sip (.sent _ (.register _)) => isTrue trivial
  | _, .sip (.sent _ (.invite _)) => isTrue trivial
  | _, .sip (.answered call resp) => inferInstanceAs (Decidable (HasTag call (toTagOf resp)))
  | _, .sip (.read _ _) => isTrue trivial
  | _, .media _ => isTrue trivial
  | _, .dialled _ => isTrue trivial
  | _, .drained _ => isTrue trivial
  | _, .waiting => isTrue trivial
  | _, .stopped => isTrue trivial

/-! ## When the tags agree -/

/-- The call has no tag yet, or the tag that the response has. -/
def TagFits (call : Call) (resp : Str) : Prop :=
  ∀ t ∈ toTagOf resp, ∀ r ∈ call.remoteTag, r = t

/-- A 200, or a failure that is acknowledged, fits the tag that the call has. -/
def TagFitting : Consumed → Prop
  | .byInvite l resp inputs _ =>
      ∀ status, Admitted l resp status →
        status = 200 ∨ FailureAcked l status resp inputs → TagFits l.call resp
  | .byPoll call resp _ => parseStatusCode resp = some 200 → TagFits call resp
  | .byBye _ _ => True

theorem carriesTag_iff (call : Call) (tag : Option Str) :
    CarriesTag call tag ↔ HasTag call tag :=
  forall₂_congr fun t _ => call.toTag_eq_iff t

/-- The call of a response has its tag exactly when the call before fits it. -/
theorem hasTag_tagged_iff (call : Call) (resp : Str) :
    HasTag (call.tagged resp) (toTagOf resp) ↔ TagFits call resp := by
  unfold HasTag TagFits Call.tagged
  cases htag : call.remoteTag with
  | none => simp
  | some r =>
      refine forall₂_congr fun t _ => ?_
      simp

theorem tagFitting_iff {l : InviteLoop} {resp : Str} {status : ℕ}
    (h : Admitted l resp status) (inputs : AnswerInputs) (ackSent : Bool) :
    TagFitting (.byInvite l resp inputs ackSent) ↔
      (status = 200 ∨ FailureAcked l status resp inputs → TagFits l.call resp) := by
  constructor
  · intro hfitting
    exact hfitting status h
  · intro hfits status' h'
    exact h.status_unique h' ▸ hfits

/-- The tags that have been seen agree with the call of the phase. -/
def TagSeen : Phase → SeenTags → Prop
  | .relaying _ call _ _, q => HasTag call q.answered
  | .hangingUp call _, q => HasTag call q.answered
  | .byeSent call _, q => HasTag call q.answered
  | .returned _, _ => True
  | .panicked _, _ => True
  | _, q => q.answered = none

theorem Phase.BeforeCall.tagSeen_iff {phase : Phase} (h : phase.BeforeCall)
    (q : SeenTags) : TagSeen phase q ↔ q.answered = none := by
  cases h <;> exact Iff.rfl

theorem IsPlain.tagMonitor_ignores {o : BridgeShown} (h : IsPlain o) :
    tagMonitor.Ignores o := by
  cases h <;> exact fun q => ⟨trivial, rfl⟩

theorem Parked.tagSeen {next : BridgeNext} (h : Parked next) (q : SeenTags) :
    tagMonitor.Accepts q next.2 ∧ TagSeen next.1 (tagMonitor.after q next.2) := by
  cases h with
  | waiting => exact ⟨⟨trivial, trivial⟩, rfl⟩
  | returned result => exact ⟨⟨trivial, trivial⟩, trivial⟩
  | panicked why => exact ⟨⟨trivial, trivial⟩, trivial⟩

/-- A step that reads no response is always accepted. -/
theorem Unread.tagSeen {phase phase' : Phase} {shown : List BridgeShown} {q : SeenTags}
    (hseen : TagSeen phase q) (h : Unread phase phase' shown) :
    tagMonitor.Accepts q shown ∧ TagSeen phase' (tagMonitor.after q shown) := by
  cases h with
  | prepares _ _ _ hbefore hafter hplain =>
      obtain ⟨haccepts, hsame⟩ :=
        tagMonitor.accepts_of_ignored (fun o ho => (hplain o ho).tagMonitor_ignores) q
      rw [hsame, hafter.tagSeen_iff, ← hbefore.tagSeen_iff]
      exact ⟨haccepts, hseen⟩
  | parks _ plain next hplain hnext =>
      obtain ⟨hiff, hsame⟩ :=
        tagMonitor.ignored_append (fun o ho => (hplain o ho).tagMonitor_ignores) q next.2
      rw [hiff, hsame]
      exact hnext.tagSeen q
  | relays session call polling relay relay' e relayShown hstep =>
      have hignored : ∀ o ∈ relayShown.map BridgeShown.media, tagMonitor.Ignores o :=
        List.forall_mem_map.mpr fun _ _ _ => ⟨trivial, rfl⟩
      obtain ⟨haccepts, hsame⟩ := tagMonitor.accepts_of_ignored hignored q
      rw [relayStops_of_step hstep, List.append_nil, hsame]
      refine ⟨haccepts, ?_⟩
      cases relay' with
      | running loops => exact hseen
      | returned result => cases result <;> exact hseen
      | panicked why => trivial
  | pollSilent session call relay => exact ⟨trivial, hseen⟩
  | byes call after branchHash =>
      exact ⟨⟨(carriesTag_iff call q.answered).mpr hseen, trivial⟩, hseen⟩

/-! ## The steps that read a response -/

/-- What `invite` sends in answer to a failure is accepted exactly when the failure
fits. -/
theorem accepts_acks_iff {client : SipClient} {l : InviteLoop} {resp : Str}
    {inputs : AnswerInputs} {next : InviteState} {acks : List SipShown} (q : SeenTags)
    (ackSent : Bool)
    (h : ResponseOutcome client l resp inputs (.ok (next, acks)))
    (hnext : ∀ call, next ≠ .returned (.ok call)) :
    (tagMonitor.Accepts (q.reading resp) (acks.map .sip) ↔
        TagFitting (.byInvite l resp inputs ackSent)) ∧
      tagMonitor.after (q.reading resp) (acks.map .sip) = q.reading resp := by
  rcases acks_of_response h hnext with
    ⟨status, site, rest, hadmitted, hacked, rfl, hrest⟩ | ⟨rfl, hsilent⟩
  · have hignored : ∀ o ∈ rest.map BridgeShown.sip, tagMonitor.Ignores o := by
      intro o ho
      obtain ⟨o', ho', rfl⟩ := List.mem_map.mp ho
      obtain ⟨r, rfl⟩ := hrest o' ho'
      exact fun q => ⟨trivial, rfl⟩
    obtain ⟨haccepts, hsame⟩ := tagMonitor.accepts_of_ignored hignored (q.reading resp)
    refine ⟨?_, hsame⟩
    have hfits : CarriesTag (l.call.tagged resp) (q.reading resp).last ↔
        TagFits l.call resp :=
      (carriesTag_iff _ _).trans (hasTag_tagged_iff l.call resp)
    rw [tagFitting_iff hadmitted]
    constructor
    · rintro ⟨hcarries, -⟩ -
      exact hfits.mp hcarries
    · intro hfitting
      exact ⟨hfits.mpr (hfitting (Or.inr hacked)), haccepts⟩
  · refine ⟨iff_of_true trivial ?_, rfl⟩
    intro status hadmitted hdue
    obtain ⟨h200, hunacked⟩ := hsilent status hadmitted
    exact (hdue.elim h200 hunacked).elim

theorem SetupEnd.tagSeen {call : Call} {ackSent : Bool} {next : BridgeNext}
    (h : SetupEnd call ackSent next) {q : SeenTags} (hanswered : HasTag call q.answered)
    (hlast : call.state = .answered → HasTag call q.last) :
    tagMonitor.Accepts q next.2 ∧ TagSeen next.1 (tagMonitor.after q next.2) := by
  cases h with
  | noRemoteRtp _ => exact ⟨trivial, hanswered⟩
  | ackUnsent _ _ _ _ => exact ⟨⟨trivial, trivial⟩, trivial⟩
  | acked session remoteRtp hrtp hstate hack hsession =>
      exact ⟨⟨(carriesTag_iff call q.last).mpr (hlast hstate), trivial⟩, hanswered⟩
  | unanswered _ _ _ _ _ _ _ => exact ⟨trivial, hanswered⟩

/-- A step that reads a response is accepted exactly when the tag fits. -/
theorem ReadStepped.tagSeen {config : Config} {phase phase' : Phase} {c : Consumed}
    {shown : List BridgeShown} {q : SeenTags} (hseen : TagSeen phase q)
    (h : ReadStepped config phase c phase' shown) :
    (tagMonitor.Accepts q shown ↔ TagFitting c) ∧
      (TagFitting c → TagSeen phase' (tagMonitor.after q shown)) := by
  cases h with
  | invites session drain l l' resp inputs ackSent acks hresponse =>
      obtain ⟨haccepts, hsame⟩ := accepts_acks_iff q ackSent hresponse (by simp)
      rw [tagMonitor_accepts_read, tagMonitor_after_read, hsame]
      exact ⟨haccepts, fun _ => hseen⟩
  | inviteFails session drain l resp inputs ackSent error acks next hresponse hnext =>
      obtain ⟨haccepts, hsame⟩ := accepts_acks_iff q ackSent hresponse (by simp)
      obtain ⟨hpassed, hseen'⟩ := hnext.tagSeen (q.reading resp)
      rw [tagMonitor_accepts_read, tagMonitor_after_read, Monitor.accepts_append,
        Monitor.after_append, hsame, haccepts]
      exact ⟨and_iff_left hpassed, fun _ => hseen'⟩
  | inviteCrashes session drain l resp inputs ackSent why next hresponse hnext =>
      obtain ⟨hpassed, hseen'⟩ := hnext.tagSeen (q.reading resp)
      refine ⟨iff_of_true ⟨trivial, hpassed⟩ ?_, fun _ => hseen'⟩
      intro status hadmitted hdue
      obtain ⟨h200, hunacked⟩ := not_acked_of_crash hresponse hadmitted
      exact (hdue.elim h200 hunacked).elim
  | inviteReturns session drain l resp inputs ackSent call acks next hresponse hnext =>
      have hnone : q.answered = none := hseen
      cases acceptedBy_of_outcome hresponse with
      | earlyMedia status rtpAddr hadmitted hstatus hsome =>
          obtain ⟨hpassed, hseen'⟩ := hnext.tagSeen
            (q := q.reading resp) (by simp [HasTag, SeenTags.reading, hnone]) (by simp)
          refine ⟨iff_of_true ⟨trivial, hpassed⟩ ?_, fun _ => hseen'⟩
          rw [tagFitting_iff hadmitted]
          rintro (h200 | hacked)
          · omega
          · have := hacked.1
            omega
      | answered hadmitted =>
          have hfitting : TagFitting (.byInvite l resp inputs ackSent) ↔
              HasTag (l.call.tagged resp) (toTagOf resp) := by
            rw [tagFitting_iff hadmitted, hasTag_tagged_iff]
            simp
          have hpassed : HasTag (l.call.tagged resp) (toTagOf resp) → _ :=
            fun htag => hnext.tagSeen (q := ⟨toTagOf resp, toTagOf resp⟩) htag fun _ => htag
          rw [hfitting]
          refine ⟨⟨?_, ?_⟩, ?_⟩
          · intro haccepts
            exact haccepts.2.1
          · intro htag
            exact ⟨trivial, htag, (hpassed htag).1⟩
          · intro htag
            exact (hpassed htag).2
  | polls session call relay resp ackSent polling polled acks hresponse hpolling =>
      rcases hresponse.silent_or_answered with
        ⟨hne, hcall, rfl⟩ | ⟨h200, hremembered, hcall, -, rfl⟩
      · constructor
        · apply iff_of_true ⟨trivial, trivial⟩
          intro h200
          exact absurd h200 hne
        · intro _
          change HasTag polled.call q.answered
          rw [hcall]
          exact hseen
      · have hfitting : TagFitting (.byPoll call resp ackSent) ↔
            HasTag (call.tagged resp) (toTagOf resp) := by
          rw [hasTag_tagged_iff]
          simp [TagFitting, h200]
        have hseen' : HasTag (call.tagged resp) (toTagOf resp) →
            HasTag polled.call (toTagOf resp) := by
          intro htag
          rw [hcall]
          exact htag
        rw [hfitting]
        cases ackSent with
        | true =>
            refine ⟨⟨?_, ?_⟩, hseen'⟩
            · intro haccepts
              exact haccepts.2.1
            · intro htag
              exact ⟨trivial, htag,
                (carriesTag_iff (call.polledBy resp) (toTagOf resp)).mpr htag, trivial⟩
        | false =>
            refine ⟨⟨?_, ?_⟩, hseen'⟩
            · intro haccepts
              exact haccepts.2.1
            · intro htag
              exact ⟨trivial, htag, trivial⟩
  | pollCrashes session call relay resp ackSent why hresponse =>
      have hfitting : TagFitting (.byPoll call resp ackSent) := by
        intro _ t _ r hr
        cases hresponse with
        | badTo _ hstatus hpanic => simp [(rememberTag_eq_error hpanic).1] at hr
      exact ⟨iff_of_true ⟨trivial, trivial, trivial⟩ hfitting, fun _ => trivial⟩
  | byeAnswered call after resp next hnext =>
      obtain ⟨hpassed, hseen'⟩ := hnext.tagSeen (q.reading resp)
      exact ⟨iff_of_true ⟨trivial, hpassed⟩ trivial, fun _ => hseen'⟩

/-! ## Whole runs -/

/-- In a run, every ACK carries the tag of the response it is for, and every
answered call has and carries the tag of its 200, exactly when the 200s and the
acknowledged failures fit the tags that their calls have when they are read. -/
theorem bridge_tagsAgree_iff
    (config : Config) (events : List BridgeEvent) (t : BridgeState)
    (trace : List BridgeShown)
    (hrun : (bridgeMachine config).run bridgeStart events = some (t, trace)) :
    tagMonitor.Accepts ⟨none, none⟩ trace ↔
      (bridgeMachine config).Guarded (Reads TagFitting) bridgeStart events := by
  refine tagMonitor.accepts_run_iff
    (R := fun (b : BridgeState) q => b.phase.Ok ∧ TagSeen b.phase q) ?_
    ⟨bridgeStart_ok, rfl⟩ hrun
  rintro b q e b' shown ⟨hok, hseen⟩ hstep
  obtain ⟨hstepped, hok'⟩ := bridgeStep_ok hok hstep
  cases hc : consumed b.phase e with
  | none =>
      obtain ⟨haccepts, hseen'⟩ := (unread_of_stepped hstepped hc).tagSeen hseen
      exact ⟨iff_of_true haccepts (reads_of_none hc), fun _ => ⟨hok', hseen'⟩⟩
  | some c =>
      obtain ⟨haccepts, hseen'⟩ := (readStepped_of_stepped hstepped hc).tagSeen hseen
      rw [reads_iff hc]
      exact ⟨haccepts, fun hfitting => ⟨hok', hseen' hfitting⟩⟩

theorem bridge_tagsAgree_answeredFirst :
    ∃ t trace,
      (bridgeMachine trunkConfig).run bridgeStart trunkAnswered = some (t, trace) ∧
        t.phase.call.map Call.remoteTag = some (some (lit "t")) ∧
        tagMonitor.Accepts ⟨none, none⟩ trace ∧
        (bridgeMachine trunkConfig).Guarded (Reads TagFitting) bridgeStart
          trunkAnswered := by
  have htagged :
      ((bridgeMachine trunkConfig).run bridgeStart trunkAnswered).map
        (fun end_ => (end_.1.phase.call.map Call.remoteTag,
          decide (tagMonitor.Accepts ⟨none, none⟩ end_.2))) =
        some (some (some (lit "t")), true) := by
    decide +kernel
  obtain ⟨⟨t, trace⟩, hrun, hpair⟩ := Option.map_eq_some_iff.mp htagged
  obtain ⟨htag, haccepts⟩ := Prod.mk.inj hpair
  have haccepted := of_decide_eq_true haccepts
  exact ⟨t, trace, hrun, htag, haccepted,
    (bridge_tagsAgree_iff trunkConfig trunkAnswered t trace hrun).mp haccepted⟩

/-- A challenge to the first INVITE, with the tag `a`. -/
def taggedChallenge : Datagram :=
  datagramOf "SIP/2.0 407 Proxy Authentication Required\r\nTo: <sip:5@h>;tag=a\r\nCall-ID: 10-2\r\nCSeq: 1 INVITE\r\nProxy-Authenticate: Digest realm=\"r\", nonce=\"n\"\r\n\r\n"
    (by decide +kernel)

/-- The answer to the authenticated INVITE, with the tag `t`. -/
def authorizedAnswer : Datagram :=
  datagramOf "SIP/2.0 200 OK\r\nTo: <sip:5@h>;tag=t\r\nCall-ID: 10-2\r\nCSeq: 2 INVITE\r\nContent-Type: application/sdp\r\n\r\nc=IN IP4 10.0.0.9\r\nm=audio 4002 RTP/AVP 0\r\n"
    (by decide +kernel)

/-- The trunk asks for credentials and then answers. -/
def answeredAfterChallenge : List BridgeEvent :=
  trunkSetup ++
    [.invite (.received (some taggedChallenge) answerInputs) true,
      .invite (.head (headAt 0)) true,
      .invite (.received (some authorizedAnswer) answerInputs) true]

/-- The answered call keeps the tag of the challenge, and so does the ACK. -/
theorem bridge_tagsAgree_answeredAfterChallenge :
    ∃ t trace,
      (bridgeMachine trunkConfig).run bridgeStart answeredAfterChallenge =
          some (t, trace) ∧
        t.phase.call.map Call.remoteTag = some (some (lit "a")) ∧
        ¬ tagMonitor.Accepts ⟨none, none⟩ trace := by
  have htagged :
      ((bridgeMachine trunkConfig).run bridgeStart answeredAfterChallenge).map
        (fun end_ => (end_.1.phase.call.map Call.remoteTag,
          decide (tagMonitor.Accepts ⟨none, none⟩ end_.2))) =
        some (some (some (lit "a")), false) := by
    decide +kernel
  obtain ⟨⟨t, trace⟩, hrun, hpair⟩ := Option.map_eq_some_iff.mp htagged
  obtain ⟨htag, haccepts⟩ := Prod.mk.inj hpair
  exact ⟨t, trace, hrun, htag, of_decide_eq_false haccepts⟩

end SlmodemSipBridge.Bridge
