import SlmodemSipBridge.Sip.Transaction

/-!
# Registrations that the registrar grants

What a registrar may do before it grants a registration: grant it at once, or pose a
challenge, repeat itself or keep silent, and grant the second request.  Within the
deadline `register` returns.
-/

namespace SlmodemSipBridge.Sip

open Rust Bridge Transition

/-! ## Registrars -/

/-- The first REGISTER. -/
def firstRegister (ids : RegisterStart) : RegisterRequest where
  branch := generateBranch ids.branchHash
  tag := generateTag ids.tagHash
  callId := generateCallId ids.micros ids.pid
  cseq := 1
  auth := none

/-- An iteration of the wait for the second response: when it begins, and what it
receives. -/
structure RegisterTurn where
  now : ℕ
  datagram : Option Datagram

/-- The events of an iteration. -/
def RegisterTurn.events (t : RegisterTurn) : List RegisterEvent :=
  [.head t.now, .received t.datagram]

/-- The turns until the registrar grants the second REGISTER.  It may repeat what it
replied to the first. -/
inductive Grants (c : SipClient) (deadline : ℕ) (first second : RegisterRequest) :
    List RegisterTurn → Prop where
  | silence {t : RegisterTurn} {ts : List RegisterTurn} (hearly : t.now < deadline)
      (hnone : t.datagram = none) (hrest : Grants c deadline first second ts) :
      Grants c deadline first second (t :: ts)
  | late {t : RegisterTurn} {ts : List RegisterTurn} {data : Datagram} (reply : Reply)
      (hearly : t.now < deadline) (hdata : t.datagram = some data)
      (hreply : IsReply c (.register first) reply data)
      (hrest : Grants c deadline first second ts) :
      Grants c deadline first second (t :: ts)
  | granted {t : RegisterTurn} {data : Datagram} (reply : Reply) (hearly : t.now < deadline)
      (hdata : t.datagram = some data) (hreply : IsReply c (.register second) reply data)
      (hstatus : reply.status = 200) :
      Grants c deadline first second [t]

/-- The events of a registration that is granted. -/
inductive Enrols (c : SipClient) (ids : RegisterStart) : List RegisterEvent → Prop where
  | welcomed (data : Datagram) (retry : RegisterRetry) (reply : Reply)
      (hreply : IsReply c (.register (firstRegister ids)) reply data)
      (hstatus : reply.status = 200) :
      Enrols c ids [.start ids, .first (some data) retry]
  | challenged (data : Datagram) (retry : RegisterRetry) {ts : List RegisterTurn} (reply : Reply)
      (posed : Posed) (hreply : IsReply c (.register (firstRegister ids)) reply data)
      (hstatus : reply.status = 401) (hposed : reply.challenge = some posed)
      (hsent : retry.sent = true) (hhex : IsHex retry.cnonce)
      (hrest : Grants c (retry.deadlineBase + registerTimeout) (firstRegister ids)
        (authRegister c (firstRegister ids).callId (firstRegister ids).tag posed.digest retry)
        ts) :
      Enrols c ids (.start ids :: .first (some data) retry :: ts.flatMap RegisterTurn.events)

/-! ## The steps of a registration -/

theorem first_register {c : SipClient} {callId tag : Str} {data : Datagram}
    {retry : RegisterRetry} {next : RegisterState} {acts : List SipShown}
    (h : registerFirst c callId tag (fromUtf8Lossy data.val) retry = .ok (next, acts)) :
    (registerMachine c).step (.awaiting callId tag) (.first (some data) retry) =
      some (next, .read none (fromUtf8Lossy data.val) :: acts) := by
  simp only [registerMachine, registerStep, h]

theorem silent_register {c : SipClient} (deadline : ℕ) {t : RegisterTurn}
    (h : t.datagram = none) :
    (registerMachine c).step (.receiving deadline) (.received t.datagram) =
      some (.looping deadline, []) := by
  rw [h]
  rfl

/-- A turn in time is its receive. -/
theorem turn_register {c : SipClient} {deadline : ℕ} {t : RegisterTurn} {next : RegisterState}
    {acts : List SipShown} (hearly : t.now < deadline)
    (hreceived : (registerMachine c).step (.receiving deadline) (.received t.datagram) =
      some (next, acts)) :
    (registerMachine c).run (.looping deadline) t.events = some (next, acts) := by
  have hhead : (registerMachine c).step (.looping deadline) (.head t.now) =
      some (.receiving deadline, []) := by
    simp only [registerMachine, registerStep, if_neg (Nat.not_le.mpr hearly)]
  exact (registerMachine c).run_cons_of_step hhead ((registerMachine c).run_of_step hreceived)

theorem received_register {c : SipClient} {deadline : ℕ} {data : Datagram} {next : RegisterState}
    (h : registerSecond deadline (fromUtf8Lossy data.val) = .ok next) :
    (registerMachine c).step (.receiving deadline) (.received (some data)) =
      some (next, [.read none (fromUtf8Lossy data.val)]) := by
  simp only [registerMachine, registerStep, h]

section Responses

variable {reply : Reply} {callId callee method resp : Str} {cseq : ℕ}
  (hu : Understood reply callId callee method cseq resp)
include hu

/-- A reply to the first REGISTER is dropped by the second wait. -/
theorem Understood.registerSecond_late (hcseq : cseq ≠ 2) (deadline : ℕ) :
    registerSecond deadline resp = .ok (.looping deadline) := by
  simp [registerSecond, isStale, hu.cseqNum_eq, hcseq, bind, Except.bind, pure, Except.pure]

theorem Understood.registerSecond_granted (hcseq : cseq = 2) (hstatus : reply.status = 200)
    (deadline : ℕ) : registerSecond deadline resp = .ok (.returned (.ok ())) := by
  simp [registerSecond, isStale, hu.cseqNum_eq, hu.status_eq, hcseq, hstatus, bind, Except.bind,
    pure, Except.pure]

theorem Understood.registerFirst_welcomed (hstatus : reply.status = 200) (c : SipClient)
    (callId tag : Str) (retry : RegisterRetry) :
    registerFirst c callId tag resp retry = .ok (.returned (.ok ()), []) := by
  simp [registerFirst, hu.status_eq, hstatus, pure, Except.pure]

/-- A challenge is answered. -/
theorem Understood.registerFirst_challenged {posed : Posed} (hstatus : reply.status = 401)
    (hposed : reply.challenge = some posed) (c : SipClient) (callId tag : Str)
    {retry : RegisterRetry} (hsent : retry.sent = true) :
    registerFirst c callId tag resp retry =
      .ok (.looping (retry.deadlineBase + registerTimeout),
        [.sent .registerAuth (.register (authRegister c callId tag posed.digest retry))]) := by
  have hparsed : parseStatusCode resp = some 401 := hu.status_eq.trans (congrArg some hstatus)
  have hchallenge : usableChallenge 401 resp = some posed.digest := by
    have husable := hu.digest
    rw [hstatus, hposed] at husable
    exact husable
  have hread := (extractHeader_ok_iff wwwAuthenticate_mem_asked resp).mp
    (hu.returns.header _ wwwAuthenticate_mem_asked)
  obtain ⟨next, acts, hfirst, hverdict⟩ :=
    registerFirst_of_readable c none retry (fun _ => hread)
  rw [hfirst]
  cases hverdict with
  | accepted hother => simp [hparsed] at hother
  | retried _ hfound _ => rw [Option.some.inj (hfound.symm.trans hchallenge)]
  | unsent _ _ hunsent => simp [hsent] at hunsent
  | refused _ hother => simp [hother _ _ rfl hparsed] at hchallenge

end Responses

/-- A REGISTER has no tag in its To header. -/
theorem register_untagged (r : RegisterRequest) :
    ∀ tag ∈ (Request.register r).remoteTag, IsAscii tag := by
  rintro tag ⟨⟩

section Granted

variable {c : SipClient} (hc : c.Presentable) (hplain : c.Configured)
include hc hplain

/-- A registrar that grants the second REGISTER is heard. -/
theorem Grants.returns {deadline : ℕ} {first second : RegisterRequest} {ts : List RegisterTurn}
    (h : Grants c deadline first second ts) (hfirst : (Request.register first).Proper c)
    (hsecond : (Request.register second).Proper c) (hcseq : first.cseq ≠ 2)
    (hcseq' : second.cseq = 2) :
    ∃ acts, (registerMachine c).run (.looping deadline) (ts.flatMap RegisterTurn.events) =
      some (.returned (.ok ()), acts) := by
  induction h with
  | silence hearly hnone hrest ih =>
      obtain ⟨later, hrun⟩ := ih
      rw [List.flatMap_cons]
      exact ⟨_, (registerMachine c).run_append_of_run
        (turn_register hearly (silent_register deadline hnone)) hrun⟩
  | late reply hearly hdata hreply hrest ih =>
      obtain ⟨later, hrun⟩ := ih
      have hu := hreply.understood hc hplain hfirst (register_untagged _)
      have hreceived := received_register (c := c) (hu.registerSecond_late hcseq deadline)
      rw [← hdata] at hreceived
      rw [List.flatMap_cons]
      exact ⟨_, (registerMachine c).run_append_of_run (turn_register hearly hreceived) hrun⟩
  | granted reply hearly hdata hreply hstatus =>
      have hu := hreply.understood hc hplain hsecond (register_untagged _)
      have hreceived :=
        received_register (c := c) (hu.registerSecond_granted hcseq' hstatus deadline)
      rw [← hdata] at hreceived
      rw [List.flatMap_cons, List.flatMap_nil, List.append_nil]
      exact ⟨_, turn_register hearly hreceived⟩

/-- A registration that the registrar grants succeeds. -/
theorem Enrols.returns {ids : RegisterStart} (hsent : ids.sent = true) {es : List RegisterEvent}
    (h : Enrols c ids es) :
    ∃ acts, (registerMachine c).run .called es = some (.returned (.ok ()), acts) := by
  have hbare : ∀ value ∈ (firstRegister ids).auth, '\n' ∉ value ∧ Trimmed value := by
    rintro value ⟨⟩
  have hfirst : (Request.register (firstRegister ids)).Proper c :=
    ⟨⟨word_callId _ _, word_tag _, word_branch _, hbare⟩, Nat.le_succ 1⟩
  have hstart : (registerMachine c).step .called (.start ids) =
      some (.awaiting (firstRegister ids).callId (firstRegister ids).tag,
        [.sent .register (.register (firstRegister ids))]) := by
    simp only [registerMachine, registerStep, hsent, if_true, firstRegister]
  cases h with
  | welcomed data retry reply hreply hstatus =>
      have hu := hreply.understood hc hplain hfirst (register_untagged _)
      have hwelcome := first_register (c := c)
        (hu.registerFirst_welcomed hstatus c (firstRegister ids).callId (firstRegister ids).tag
          retry)
      exact ⟨_, (registerMachine c).run_cons_of_step hstart
        ((registerMachine c).run_of_step hwelcome)⟩
  | challenged data retry reply posed hreply hstatus hposed hretry hhex hrest =>
      have hu := hreply.understood hc hplain hfirst (register_untagged _)
      have hchallenge := first_register (c := c)
        (hu.registerFirst_challenged hstatus hposed c (firstRegister ids).callId
          (firstRegister ids).tag hretry)
      have hdrawn : (RegisterState.awaiting (firstRegister ids).callId
          (firstRegister ids).tag).Drawn := ⟨word_callId _ _, word_tag _⟩
      have he : (RegisterEvent.first (some data) retry).Hexed := hhex
      have hproper := (register_proper hc he hdrawn hchallenge).1
      rw [allProper_read, allProper_sent] at hproper
      have hone : (firstRegister ids).cseq ≠ 2 := by simp [firstRegister]
      obtain ⟨later, hrun⟩ := hrest.returns hc hplain hfirst hproper.1 hone rfl
      exact ⟨_, (registerMachine c).run_cons_of_step hstart
        ((registerMachine c).run_cons_of_step hchallenge hrun)⟩

end Granted

end SlmodemSipBridge.Sip
