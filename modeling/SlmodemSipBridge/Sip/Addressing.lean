import SlmodemSipBridge.Sip.RequestUri
import SlmodemSipBridge.Sip.RoundTrip
import SlmodemSipBridge.Support.SipUri

/-!
# The URI of a dial string

`invite` puts the dial string between `sip:` and the domain as it is.  The number
sign is a dial character and has no place in a URI: with one the text is no URI at
all, and every other dial string reads back as the user at the domain.
-/

namespace SlmodemSipBridge.Sip

open Rust Bridge SipUri

/-! ## The places of the URI -/

/-- The URI stands in the request line and in the To header of an INVITE. -/
structure InvitesTo (text uri : Str) : Prop where
  requestLine : lit "INVITE " ++ uri ++ lit " SIP/2.0\r\n" <+: text
  toHeader : lit "\r\nTo: <" ++ uri ++ lit ">\r\n" <:+: text

theorem invitesTo_buildInvite (c : SipClient) (r : InviteRequest) :
    InvitesTo (c.buildInvite r) r.uri := by
  have hidentity : (Request.invite r).identity = some r.identity := rfl
  constructor
  · have hline := line_prefix_wire c hidentity
    simpa [Request.line, Request.method, InviteRequest.identity, SipClient.wire, lit] using hline
  · have hto : lit "\r\nTo: <" ++ r.uri ++ lit ">\r\n" =
        crlf ++ field (lit "To") (lit "<" ++ r.uri ++ lit ">") ++ crlf := by
      simp [field, crlf, lit]
    have hlead : c.leadLines (lit "INVITE") r.uri r.branch r.localTag ≠ [] := by
      simp [SipClient.leadLines]
    rw [hto, buildInvite_eq, SipClient.inviteLines]
    simp only [List.append_assoc, List.cons_append]
    exact (infix_joinLines hlead _ _).trans (List.prefix_append _ _).isInfix

/-! ## Reading the URI back -/

/-- An INVITE is for the dial string at the domain of the client: its URI reads as the
two. -/
def AddressedTo (c : SipClient) (dial : DialString) (text : Str) : Prop :=
  ∃ uri, InvitesTo text uri ∧ ReadsAs uri dial.text c.sipDomain

/-- The number sign is the one dial character that a user may not hold. -/
theorem isOf_of_dialText {dial : DialString} (h : '#' ∉ dial.text) :
    ∀ c ∈ dial.text, IsOf userUnreserved c := by
  intro c hc
  have hall := dial.forall_mem (p := fun d => d == '#' || IsOf userUnreserved d) (by decide) c hc
  rcases Bool.or_eq_true_iff.mp hall with heq | hof
  · exact absurd (beq_iff_eq.mp heq ▸ hc) h
  · exact of_decide_eq_true hof

theorem addressedTo_iff {c : SipClient} (hhost : IsHost c.sipDomain) {dial : DialString}
    {r : InviteRequest} (hr : r.uri = c.inviteUri dial.text) :
    AddressedTo c dial (c.buildInvite r) ↔ '#' ∉ dial.text := by
  constructor
  · rintro ⟨uri, -, hreads⟩ hmem
    exact absurd (hreads.user_over.mem '#' hmem) (by decide)
  · intro hmem
    refine ⟨r.uri, invitesTo_buildInvite c r, ?_⟩
    rw [hr]
    exact readsAs_of_mem dial.ne (isOf_of_dialText hmem) hhost

/-- With a number sign it is no URI, whatever the reading. -/
theorem text_ne_inviteUri {c : SipClient} {dial : DialString} (hmem : '#' ∈ dial.text)
    (u : Uri) : u.text ≠ c.inviteUri dial.text := by
  intro htext
  have hin : '#' ∈ u.text := by
    rw [htext]
    simp [SipClient.inviteUri, hmem]
  exact absurd (u.mem_text '#' hin) (by decide)

/-- Every INVITE that `invite` sends for an accepted dial string, at a domain that is a
host, has in its request line and its To header a URI that reads back as the two
exactly when the dial string is free of the number sign; with one it has no URI. -/
theorem invite_addressed_iff (client : SipClient) (hhost : IsHost client.sipDomain)
    (dial : DialString) (args : InviteArgs) (hdial : args.dial = dial.text)
    (events : List InviteEvent) (t : InviteState) (trace : List SipShown)
    (hrun : (inviteMachine client).run (.called args) events = some (t, trace))
    (site : Site) (r : InviteRequest) (hsent : .sent site (.invite r) ∈ trace) :
    (AddressedTo client dial (client.wire (.invite r)) ↔ '#' ∉ dial.text) ∧
      ((∃ u : Uri, u.text = r.uri) ↔ '#' ∉ dial.text) := by
  have huri : r.uri = client.inviteUri dial.text := by
    rw [← hdial]
    exact inviteRun_isFor hrun _ hsent r.identity rfl
  have haddressed := addressedTo_iff hhost huri
  refine ⟨haddressed, ?_⟩
  constructor
  · rintro ⟨u, hu⟩ hmem
    exact text_ne_inviteUri hmem u (hu.trans huri)
  · intro hmem
    have hreads := readsAs_of_mem dial.ne (isOf_of_dialText hmem) hhost
    obtain ⟨u, hu, -⟩ := hreads
    exact ⟨u, hu.trans huri.symm⟩

theorem isHost_trunk : IsHost trunkClient.sipDomain :=
  .name _ (.top _ (.single 'h' (by decide)))

theorem invite_addressed_five :
    ∃ t trace r, (inviteMachine trunkClient).run (.called trunkArgs) [.start trunkStart] =
        some (t, trace) ∧
      .sent .invite (.invite r) ∈ trace ∧
      AddressedTo trunkClient ⟨lit "5", by decide, by decide⟩ (trunkClient.wire (.invite r)) := by
  have hrun : (inviteMachine trunkClient).run (.called trunkArgs) [.start trunkStart] =
      some (.looping (firstLoop trunkClient trunkArgs trunkStart),
        [.sent .invite (.invite (firstInvite trunkClient trunkArgs trunkStart))]) := rfl
  have hsent := List.mem_singleton_self
    (SipShown.sent .invite (.invite (firstInvite trunkClient trunkArgs trunkStart)))
  refine ⟨_, _, _, hrun, hsent, ?_⟩
  exact (invite_addressed_iff trunkClient isHost_trunk ⟨lit "5", by decide, by decide⟩ trunkArgs
    rfl _ _ _ hrun .invite _ hsent).1.mpr (by decide)

/-- The dial string `5#`. -/
def hashDial : DialString := ⟨lit "5#", by decide, by decide⟩

/-- A call to `5#` over `trunkClient`. -/
def hashArgs : InviteArgs := { trunkArgs with dial := hashDial.text }

/-- The INVITE for `5#` has no URI, although the dial string is accepted. -/
theorem invite_misaddressed :
    DialString.parse (lit "T5#") = .ok hashDial ∧ IsHost trunkClient.sipDomain ∧
      ∃ t trace r,
        (inviteMachine trunkClient).run (.called hashArgs) [.start trunkStart] =
          some (t, trace) ∧
        .sent .invite (.invite r) ∈ trace ∧
        ¬ AddressedTo trunkClient hashDial (trunkClient.wire (.invite r)) ∧
        ∀ u : Uri, u.text ≠ r.uri := by
  have hrun : (inviteMachine trunkClient).run (.called hashArgs) [.start trunkStart] =
      some (.looping (firstLoop trunkClient hashArgs trunkStart),
        [.sent .invite (.invite (firstInvite trunkClient hashArgs trunkStart))]) := rfl
  have hmem : '#' ∈ hashDial.text := by decide
  have huri : (firstInvite trunkClient hashArgs trunkStart).uri =
      trunkClient.inviteUri hashDial.text := rfl
  refine ⟨rfl, isHost_trunk, _, _, _, hrun, List.mem_singleton_self _, ?_, ?_⟩
  · intro haddressed
    exact (addressedTo_iff isHost_trunk huri).mp haddressed hmem
  · exact text_ne_inviteUri hmem

end SlmodemSipBridge.Sip
