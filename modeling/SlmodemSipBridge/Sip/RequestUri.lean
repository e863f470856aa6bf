import SlmodemSipBridge.Sip.Identity
import SlmodemSipBridge.Support.Printed

/-!
# The Request-URI of a call

`invite` makes the URI once, from the dial string, and every request of the call
is for it: the INVITEs, also the authenticated one, the ACKs and the BYE.  Its
place on the wire is the request line.
-/

namespace SlmodemSipBridge.Sip

open Rust Transition

/-! ## On the wire -/

/-- The method of a request. -/
def Request.method : Request → Str
  | .register _ => lit "REGISTER"
  | .invite _ => lit "INVITE"
  | .ack _ => lit "ACK"
  | .bye _ _ => lit "BYE"

/-- The request line of a request for a URI. -/
def Request.line (request : Request) (uri : Str) : Str :=
  request.method ++ lit " " ++ uri ++ lit " SIP/2.0"

/-- A request of a call begins with its request line. -/
theorem line_prefix_wire (client : SipClient) {request : Request} {identity : RequestIdentity}
    (hidentity : request.identity = some identity) :
    request.line identity.requestUri ++ lit "\r\n" <+: client.wire request := by
  have hline : ∀ (method : String) (uri : Str), request.method = lit method →
      request.line uri ++ lit "\r\n" = lit (method ++ " ") ++ (uri ++ lit " SIP/2.0\r\n") := by
    intro method uri hmethod
    simp only [Request.line, hmethod, List.append_assoc, lit_append, String.reduceAppend]
  cases request with
  | register r => simp [Request.identity] at hidentity
  | invite r =>
      obtain rfl : r.identity = identity := by simpa [Request.identity] using hidentity
      rw [hline "INVITE" _ rfl]
      delta SipClient.wire SipClient.buildInvite
      simp only [InviteRequest.identity, String.reduceAppend, List.append_assoc,
        List.prefix_append_right_inj, List.prefix_append]
  | ack call =>
      obtain rfl : call.identity = identity := by simpa [Request.identity] using hidentity
      rw [hline "ACK" _ rfl]
      delta SipClient.wire SipClient.buildAck
      simp only [Call.identity, String.reduceAppend, List.append_assoc,
        List.prefix_append_right_inj, List.prefix_append]
  | bye call branch =>
      obtain rfl : call.identity = identity := by simpa [Request.identity] using hidentity
      rw [hline "BYE" _ rfl]
      delta SipClient.wire SipClient.buildBye
      simp only [Call.identity, String.reduceAppend, List.append_assoc,
        List.prefix_append_right_inj, List.prefix_append]

/-! ## Through `invite` -/

/-- A request of a call is for the URI. -/
def SipShown.IsFor (uri : Str) : SipShown → Prop
  | .sent _ request => ∀ identity ∈ request.identity, identity.requestUri = uri
  | _ => True

/-- The call that `invite` is for has the URI, and so has the INVITE that it
retransmits. -/
def InviteState.IsFor (client : SipClient) (uri : Str) : InviteState → Prop
  | .called args => client.inviteUri args.dial = uri
  | .looping l => l.call.inviteUri = uri ∧ l.invite.uri = uri
  | .receiving l => l.call.inviteUri = uri ∧ l.invite.uri = uri
  | .returned (.ok call) => call.inviteUri = uri
  | _ => True

variable {client : SipClient} {uri : Str}

theorem invite_isFor {r : InviteRequest} (h : r.uri = uri) (site : Site) :
    SipShown.IsFor uri (.sent site (.invite r)) := by
  rintro identity ⟨rfl⟩
  exact h

theorem ack_isFor {call : Call} (h : call.inviteUri = uri) (site : Site) :
    SipShown.IsFor uri (.sent site (.ack call)) := by
  rintro identity ⟨rfl⟩
  exact h

theorem response_isFor {l : InviteLoop} {resp : Str} {inputs : AnswerInputs}
    {next : InviteState} {shown : List SipShown}
    (hl : l.call.inviteUri = uri ∧ l.invite.uri = uri)
    (h : ResponseOutcome client l resp inputs (.ok (next, shown))) :
    (∀ o ∈ shown, o.IsFor uri) ∧ next.IsFor client uri := by
  have hnone : ∀ o ∈ ([] : List SipShown), o.IsFor uri := by simp
  have hack : ∀ site, ∀ o ∈ [SipShown.sent site (.ack (l.call.tagged resp))], o.IsFor uri :=
    fun site => List.forall_mem_singleton.mpr (ack_isFor hl.1 site)
  cases h with
  | unparsed _ => exact ⟨hnone, hl⟩
  | stale _ _ _ => exact ⟨hnone, hl⟩
  | admitted status _ hadmitted hdispatch =>
      cases hdispatch with
      | trying _ => exact ⟨hnone, hl⟩
      | ringing _ _ => exact ⟨hnone, hl⟩
      | earlyMedia _ _ _ => exact ⟨hnone, hl.1⟩
      | answered _ => exact ⟨List.forall_mem_singleton.mpr trivial, hl.1⟩
      | rejected _ _ _ => exact ⟨hack .errorAck, trivial⟩
      | rejectedUnsent _ _ _ => exact ⟨hnone, trivial⟩
      | unexpected _ => exact ⟨hnone, hl⟩
      | challenged _ _ hchallenge =>
          cases hchallenge with
          | again _ => exact ⟨hnone, trivial⟩
          | unusable _ _ _ _ => exact ⟨hnone, trivial⟩
          | ackUnsent _ _ _ _ _ => exact ⟨hnone, trivial⟩
          | retryUnsent _ _ _ _ _ _ => exact ⟨hack .challengeAck, trivial⟩
          | retried digest _ _ _ _ _ =>
              refine ⟨List.forall_mem_cons.mpr ⟨ack_isFor hl.1 .challengeAck, ?_⟩, hl⟩
              exact List.forall_mem_singleton.mpr (invite_isFor hl.1 .authInvite)

/-- A step of `invite` sends for the URI and keeps it. -/
theorem InviteStepped.isFor {s s' : InviteState} {e : InviteEvent} {shown : List SipShown}
    (hs : s.IsFor client uri) (h : InviteStepped client s e s' shown) :
    (∀ o ∈ shown, o.IsFor uri) ∧ s'.IsFor client uri := by
  cases h with
  | start args ids =>
      have huri : (firstInvite client args ids).uri = uri := hs
      have hout := inviteStart_outcome client args ids
      generalize inviteStart client args ids = out at hout ⊢
      cases hout with
      | undialable why _ => exact ⟨by simp, trivial⟩
      | unsent _ => exact ⟨by simp, trivial⟩
      | overflowed _ _ =>
          exact ⟨List.forall_mem_singleton.mpr (invite_isFor huri .invite), trivial⟩
      | sent _ _ =>
          exact ⟨List.forall_mem_singleton.mpr (invite_isFor huri .invite), huri, huri⟩
  | head l inputs =>
      have hout := inviteHead_outcome l inputs
      generalize inviteHead l inputs = out at hout ⊢
      cases hout with
      | exceeded why _ => exact ⟨by simp, trivial⟩
      | timedOut _ => exact ⟨by simp, trivial⟩
      | unsent _ _ => exact ⟨by simp, trivial⟩
      | quiet _ => exact ⟨by simp, hs⟩
      | retransmitted _ _ =>
          exact ⟨List.forall_mem_singleton.mpr (invite_isFor hs.2 .retransmit), hs⟩
  | silent l inputs => exact ⟨by simp, hs⟩
  | response l data inputs next shown hresponse =>
      obtain ⟨hshown, hnext⟩ := response_isFor hs hresponse
      exact ⟨List.forall_mem_cons.mpr ⟨trivial, hshown⟩, hnext⟩
  | crash l data inputs why _ => exact ⟨List.forall_mem_singleton.mpr trivial, trivial⟩

/-- A run of `invite` sends for the URI of its dial string. -/
theorem inviteRun_isFor {args : InviteArgs} {events : List InviteEvent} {t : InviteState}
    {trace : List SipShown}
    (hrun : (inviteMachine client).run (.called args) events = some (t, trace)) :
    ∀ o ∈ trace, o.IsFor (client.inviteUri args.dial) := by
  have hstart : InviteState.IsFor client (client.inviteUri args.dial) (.called args) := rfl
  refine ((inviteMachine client).forall_mem_shown ?_ hstart hrun).1
  intro s e s' shown hs hstep
  exact (inviteStepped_of_step hstep).isFor hs

end SlmodemSipBridge.Sip
