import SlmodemSipBridge.Sip.Readable
import SlmodemSipBridge.Sip.Register
import SlmodemSipBridge.Sip.Stale

/-!
# What decides a registration

A registration is decided by final responses: the first one to the first
REGISTER and, if that is a challenge, the first one to the second.  `register`
takes whatever arrives first for the answer to the first REGISTER, and drops
only other CSeq numbers while it waits for the answer to the second.  The file
says which messages it treats as it should, and that a run that reads only such
messages has the right result, whatever else is put into it.
-/

namespace SlmodemSipBridge.Sip

open Rust Transition

/-! ## Final responses -/

/-- The message is a final response to the REGISTER with that number. -/
def IsFinal (cseq : ℕ) (msg : Str) : Prop :=
  (∃ status ∈ parseStatusCode msg, 200 ≤ status ∧ status < 700) ∧
    cseqOf msg = some (cseq, lit "REGISTER")

instance IsFinal.decidable (cseq : ℕ) : DecidablePred (IsFinal cseq) := fun msg =>
  inferInstanceAs
    (Decidable ((∃ status ∈ parseStatusCode msg, 200 ≤ status ∧ status < 700) ∧
      cseqOf msg = some (cseq, lit "REGISTER")))

/-- The first final response to the REGISTER with that number, and the messages
behind it. -/
def firstFinal (cseq : ℕ) : List Str → Option (Str × List Str)
  | [] => none
  | msg :: rest => if IsFinal cseq msg then some (msg, rest) else firstFinal cseq rest

/-- The messages are a registration: the first final response to the first REGISTER
is a 200, or it is a 401 with a challenge that can be answered and the first final
response to the second REGISTER is a 200. -/
def Registered (msgs : List Str) : Prop :=
  ∃ msg rest, firstFinal 1 msgs = some (msg, rest) ∧
    (parseStatusCode msg = some 200 ∨
      parseStatusCode msg = some 401 ∧ (usableChallenge 401 msg).isSome = true ∧
        ∃ msg' rest', firstFinal 2 rest = some (msg', rest') ∧
          parseStatusCode msg' = some 200)

/-- The messages are an answerable challenge and no final response to the second
REGISTER. -/
def Challenged (msgs : List Str) : Prop :=
  ∃ msg rest, msgs = msg :: rest ∧ IsFinal 1 msg ∧ parseStatusCode msg = some 401 ∧
    (usableChallenge 401 msg).isSome = true ∧ ∀ m ∈ rest, ¬ IsFinal 2 m

theorem firstFinal_of_forall_not {cseq : ℕ} {msgs : List Str}
    (h : ∀ msg ∈ msgs, ¬ IsFinal cseq msg) : firstFinal cseq msgs = none := by
  induction msgs with
  | nil => rfl
  | cons msg rest ih =>
      rw [List.forall_mem_cons] at h
      rw [firstFinal, if_neg h.1, ih h.2]

theorem firstFinal_append {cseq : ℕ} {before : List Str} {msg : Str}
    (h : ∀ m ∈ before, ¬ IsFinal cseq m) (hfinal : IsFinal cseq msg) (after : List Str) :
    firstFinal cseq (before ++ msg :: after) = some (msg, after) := by
  induction before with
  | nil => rw [List.nil_append, firstFinal, if_pos hfinal]
  | cons m before ih =>
      rw [List.forall_mem_cons] at h
      rw [List.cons_append, firstFinal, if_neg h.1, ih h.2]

theorem not_registered_nil : ¬ Registered [] := by
  rintro ⟨msg, rest, hfirst, -⟩
  contradiction

/-- The only message so far is final. -/
theorem registered_singleton_iff {msg : Str} (hfinal : IsFinal 1 msg) :
    Registered [msg] ↔ parseStatusCode msg = some 200 := by
  have hfirst : firstFinal 1 [msg] = some (msg, []) := if_pos hfinal
  have hsecond : firstFinal 2 [] = none := rfl
  simp [Registered, hfirst, hsecond]

theorem Challenged.not_registered {msgs : List Str} (h : Challenged msgs) :
    ¬ Registered msgs := by
  obtain ⟨msg, rest, rfl, hfinal, hstatus, -, hrest⟩ := h
  have hfirst : firstFinal 1 (msg :: rest) = some (msg, rest) := if_pos hfinal
  have hsecond : firstFinal 2 rest = none := firstFinal_of_forall_not hrest
  simp [Registered, hfirst, hstatus, hsecond]

theorem Challenged.append {msgs : List Str} (h : Challenged msgs) {msg : Str}
    (hother : ¬ IsFinal 2 msg) : Challenged (msgs ++ [msg]) := by
  obtain ⟨first, rest, rfl, hfinal, hstatus, hchallenge, hrest⟩ := h
  refine ⟨first, rest ++ [msg], rfl, hfinal, hstatus, hchallenge, ?_⟩
  intro m hm
  rcases List.mem_append.mp hm with hm | hm
  · exact hrest m hm
  · rwa [List.mem_singleton.mp hm]

/-- The final response to the second REGISTER. -/
theorem Challenged.registered_append_iff {msgs : List Str} (h : Challenged msgs) {msg : Str}
    (hfinal : IsFinal 2 msg) :
    Registered (msgs ++ [msg]) ↔ parseStatusCode msg = some 200 := by
  obtain ⟨first, rest, rfl, hchallenged, hstatus, hchallenge, hrest⟩ := h
  have hfirst : firstFinal 1 (first :: (rest ++ [msg])) = some (first, rest ++ [msg]) :=
    if_pos hchallenged
  have hsecond : firstFinal 2 (rest ++ [msg]) = some (msg, []) :=
    firstFinal_append hrest hfinal []
  simp [Registered, hfirst, hstatus, hchallenge, hsecond]

/-! ## What a message does -/

/-- The message that a step reads, with the number of the outstanding REGISTER. -/
def readBy : RegisterState → RegisterEvent → Option (ℕ × Str)
  | .awaiting _ _, .first (some data) _ => some (1, fromUtf8Lossy data.val)
  | .receiving _, .received (some data) => some (2, fromUtf8Lossy data.val)
  | _, _ => none

/-- `register` waits on for the response it waits for. -/
def RegisterState.again : RegisterState → RegisterState
  | .receiving deadline => .looping deadline
  | s => s

/-- The REGISTER that answers a challenge. -/
def authRegister (client : SipClient) (callId tag : Str) (digest : DigestChallenge)
    (retry : RegisterRetry) : RegisterRequest where
  branch := generateBranch retry.branchHash
  tag := tag
  callId := callId
  cseq := 2
  auth := some (digest.authHeaderValue client.md5Hex retry.cnonce client.username
    client.password (lit "REGISTER") (lit "sip:" ++ client.sipDomain))

/-- What a final response to the outstanding REGISTER leads to, and what is sent. -/
inductive Verdict (client : SipClient) :
    RegisterState → RegisterEvent → Str → RegisterState → List SipShown → Prop where
  | accepted {s : RegisterState} {e : RegisterEvent} {msg : Str}
      (hstatus : parseStatusCode msg = some 200) :
      Verdict client s e msg (.returned (.ok ())) []
  | retried {callId tag msg : Str} {datagram : Option Datagram} {retry : RegisterRetry}
      {digest : DigestChallenge} (hstatus : parseStatusCode msg = some 401)
      (hchallenge : usableChallenge 401 msg = some digest) (hsent : retry.sent = true) :
      Verdict client (.awaiting callId tag) (.first datagram retry) msg
        (.looping (retry.deadlineBase + registerTimeout))
        [.sent .registerAuth (.register (authRegister client callId tag digest retry))]
  | unsent {callId tag msg : Str} {datagram : Option Datagram} {retry : RegisterRetry}
      {digest : DigestChallenge} (hstatus : parseStatusCode msg = some 401)
      (hchallenge : usableChallenge 401 msg = some digest) (hsent : retry.sent = false) :
      Verdict client (.awaiting callId tag) (.first datagram retry) msg
        (.returned (.error .sendFailed)) []
  | refused {s : RegisterState} {e : RegisterEvent} {msg : Str} {why : RegisterError}
      (hstatus : parseStatusCode msg ≠ some 200)
      (hother : ∀ callId tag, s = .awaiting callId tag →
        parseStatusCode msg = some 401 → usableChallenge 401 msg = none) :
      Verdict client s e msg (.returned (.error why)) []

/-- A final response to the outstanding REGISTER is taken for its answer, and any
other message changes nothing. -/
def FinalsDecide (client : SipClient) (s : RegisterState) (e : RegisterEvent)
    (s' : RegisterState) (shown : List SipShown) : Prop :=
  ∀ read ∈ readBy s e,
    (IsFinal read.1 read.2 →
      Verdict client s e read.2 s' (shown.filterMap SipShown.act)) ∧
    (¬ IsFinal read.1 read.2 → s' = s.again ∧ shown.filterMap SipShown.act = [])

/-- The message is one that `register` treats as it should.  While it waits for the
first response: a final response to the first REGISTER, the challenge of which can
be searched for.  While it waits for the second: a message with a CSeq that can be
searched for, which is a final response to the second REGISTER or has another
number. -/
def Decisive : RegisterState → RegisterEvent → Prop
  | .awaiting _ _, .first (some data) _ =>
      IsFinal 1 (fromUtf8Lossy data.val) ∧
        (parseStatusCode (fromUtf8Lossy data.val) = some 401 →
          HeaderComparable (fromUtf8Lossy data.val) (lit "WWW-Authenticate"))
  | .receiving _, .received (some data) =>
      HeaderComparable (fromUtf8Lossy data.val) (lit "CSeq") ∧
        (IsFinal 2 (fromUtf8Lossy data.val) ∨
          ∃ n, cseqNumber (fromUtf8Lossy data.val) = some n ∧ n ≠ 2)
  | _, _ => True

/-- A header can be searched for where the search returns. -/
theorem isOk_extractHeader_iff {name : Str} (hname : name ∈ askedHeaders) (msg : Str) :
    (extractHeader msg name).isOk = true ↔ HeaderComparable msg name := by
  rw [← extractHeader_ok_iff hname]
  cases extractHeader msg name <;> simp [Except.isOk, Except.toBool]

/-- Where nothing is read, there is nothing to decide. -/
theorem decisive_of_unread {s : RegisterState} {e : RegisterEvent}
    (h : readBy s e = none) : Decisive s e := by
  unfold readBy at h
  unfold Decisive
  split <;> simp_all

instance Decisive.decidable : ∀ s e, Decidable (Decisive s e)
  | .awaiting _ _, .first (some data) _ =>
      have := decidable_of_iff _
        (isOk_extractHeader_iff wwwAuthenticate_mem_asked (fromUtf8Lossy data.val))
      inferInstanceAs (Decidable (_ ∧ _))
  | .receiving _, .received (some data) =>
      have := decidable_of_iff _
        (isOk_extractHeader_iff cseq_mem_asked (fromUtf8Lossy data.val))
      have : Decidable (∃ n, cseqNumber (fromUtf8Lossy data.val) = some n ∧ n ≠ 2) :=
        inferInstanceAs (Decidable (∃ n ∈ cseqNumber (fromUtf8Lossy data.val), n ≠ 2))
      inferInstanceAs (Decidable (_ ∧ _))
  | .called, _ => isTrue (decisive_of_unread rfl)
  | .awaiting _ _, .start _ => isTrue trivial
  | .awaiting _ _, .first none _ => isTrue trivial
  | .awaiting _ _, .head _ => isTrue trivial
  | .awaiting _ _, .received _ => isTrue trivial
  | .looping _, _ => isTrue (decisive_of_unread rfl)
  | .receiving _, .start _ => isTrue trivial
  | .receiving _, .first _ _ => isTrue trivial
  | .receiving _, .head _ => isTrue trivial
  | .receiving _, .received none => isTrue trivial
  | .returned _, _ => isTrue (decisive_of_unread rfl)
  | .panicked _, _ => isTrue (decisive_of_unread rfl)

/-! ## The first response -/

/-- The filter by CSeq is applied without a panic exactly where the header can be
searched for. -/
theorem isStale_ok_iff (cseq : ℕ) (msg : Str) :
    (∃ stale, isStale cseq msg = .ok stale) ↔ HeaderComparable msg (lit "CSeq") := by
  rw [← extractHeader_ok_iff cseq_mem_asked]
  constructor
  · rintro ⟨stale, hstale⟩
    cases hheader : extractHeader msg (lit "CSeq") with
    | ok found => exact ⟨found, rfl⟩
    | error why => simp [isStale, extractCseqNum, hheader, bind, Except.bind] at hstale
  · intro hheader
    obtain ⟨num, hnum⟩ := extractCseqNum_of_extractHeader hheader
    cases num with
    | none => exact ⟨false, by simp [isStale, hnum, bind, Except.bind, pure, Except.pure]⟩
    | some n => exact ⟨n != cseq, by simp [isStale, hnum, bind, Except.bind, pure, Except.pure]⟩

section First

variable (client : SipClient) {callId tag msg : Str} (datagram : Option Datagram)
  (retry : RegisterRetry)

/-- A challenge that can be searched for is answered, or refused. -/
theorem registerFirst_of_challenge (hstatus : parseStatusCode msg = some 401)
    (hread : HeaderComparable msg (lit "WWW-Authenticate")) :
    ∃ next shown, registerFirst client callId tag msg retry = .ok (next, shown) ∧
      Verdict client (.awaiting callId tag) (.first datagram retry) msg next shown := by
  obtain ⟨found, hfound⟩ := (extractHeader_ok_iff wwwAuthenticate_mem_asked msg).mpr hread
  have hvalue := extractHeader_eq_ok (by decide) hfound
  have hrefused : parseStatusCode msg ≠ some 200 := by simp [hstatus]
  simp only [registerFirst, hstatus, hfound, bind, Except.bind]
  cases found with
  | none =>
      have hnone : usableChallenge 401 msg = none := by
        simp [usableChallenge, challengeHeader, hvalue]
      exact ⟨_, _, rfl, .refused hrefused fun _ _ _ _ => hnone⟩
  | some authHeader =>
      obtain ⟨parsed, hparsed⟩ := parseDigestChallenge_total authHeader
      simp only [hparsed]
      cases parsed with
      | error e =>
          have hnone : usableChallenge 401 msg = none := by
            simp [usableChallenge, challengeHeader, hvalue, hparsed, Except.toOption]
          exact ⟨_, _, rfl, .refused hrefused fun _ _ _ _ => hnone⟩
      | ok digest =>
          have hchallenge : usableChallenge 401 msg = some digest := by
            simp [usableChallenge, challengeHeader, hvalue, hparsed, Except.toOption]
          cases hsent : retry.sent with
          | true => exact ⟨_, _, rfl, .retried hstatus hchallenge hsent⟩
          | false => exact ⟨_, _, rfl, .unsent hstatus hchallenge hsent⟩

theorem registerFirst_of_readable
    (hread : parseStatusCode msg = some 401 →
      HeaderComparable msg (lit "WWW-Authenticate")) :
    ∃ next shown, registerFirst client callId tag msg retry = .ok (next, shown) ∧
      Verdict client (.awaiting callId tag) (.first datagram retry) msg next shown := by
  by_cases hok : parseStatusCode msg = some 200
  · refine ⟨.returned (.ok ()), [], ?_, .accepted hok⟩
    simp [registerFirst, hok, pure, Except.pure]
  by_cases hauth : parseStatusCode msg = some 401
  · exact registerFirst_of_challenge client datagram retry hauth (hread hauth)
  · refine ⟨.returned (.error (.refused ((parseStatusCode msg).getD 0))), [], ?_,
      .refused hok fun _ _ _ h => absurd h hauth⟩
    simp [registerFirst, hok, hauth, pure, Except.pure]

/-- An answer to the first response is a verdict. -/
theorem registerFirst_eq_ok {next : RegisterState} {acts : List SipShown}
    (h : registerFirst client callId tag msg retry = .ok (next, acts)) :
    (parseStatusCode msg = some 401 → HeaderComparable msg (lit "WWW-Authenticate")) ∧
      Verdict client (.awaiting callId tag) (.first datagram retry) msg next acts := by
  have hread : parseStatusCode msg = some 401 →
      HeaderComparable msg (lit "WWW-Authenticate") := by
    intro hstatus
    rw [← extractHeader_ok_iff wwwAuthenticate_mem_asked]
    cases hheader : extractHeader msg (lit "WWW-Authenticate") with
    | ok found => exact ⟨found, rfl⟩
    | error why => simp [registerFirst, hstatus, hheader, bind, Except.bind] at h
  obtain ⟨next', acts', hfirst, hverdict⟩ :=
    registerFirst_of_readable client datagram retry hread
  rw [hfirst, Except.ok.injEq, Prod.mk.injEq] at h
  obtain ⟨rfl, rfl⟩ := h
  exact ⟨hread, hverdict⟩

/-- A challenge that cannot be searched for is a panic, and nothing else is. -/
theorem registerFirst_eq_error {why : Panic}
    (h : registerFirst client callId tag msg retry = .error why) :
    ¬ (parseStatusCode msg = some 401 →
      HeaderComparable msg (lit "WWW-Authenticate")) := by
  intro hread
  obtain ⟨next, acts, hfirst, -⟩ := registerFirst_of_readable client none retry hread
  rw [hfirst] at h
  contradiction

end First

/-! ## The responses to the second REGISTER -/

/-- A message of another number is dropped, and any other is a verdict. -/
theorem registerSecond_eq_ok (client : SipClient) (e : RegisterEvent) {deadline : ℕ}
    {msg : Str} {next : RegisterState} (h : registerSecond deadline msg = .ok next) :
    HeaderComparable msg (lit "CSeq") ∧
      ((∃ n, cseqNumber msg = some n ∧ n ≠ 2) ∧ next = .looping deadline ∨
        (¬ ∃ n, cseqNumber msg = some n ∧ n ≠ 2) ∧ (∃ result, next = .returned result) ∧
          Verdict client (.receiving deadline) e msg next []) := by
  rw [← isStale_ok_iff 2]
  cases hfilter : isStale 2 msg with
  | error why => simp [registerSecond, hfilter, bind, Except.bind] at h
  | ok stale =>
      refine ⟨⟨stale, rfl⟩, ?_⟩
      rw [← isStale_eq_ok hfilter]
      simp only [registerSecond, hfilter, bind, Except.bind, pure, Except.pure] at h
      cases stale with
      | true => exact Or.inl ⟨rfl, (Except.ok.inj h).symm⟩
      | false =>
          rw [if_neg (by simp)] at h
          refine Or.inr ⟨by simp, ?_⟩
          by_cases hok : parseStatusCode msg = some 200
          · rw [if_pos hok] at h
            obtain rfl := Except.ok.inj h
            exact ⟨⟨_, rfl⟩, .accepted hok⟩
          · rw [if_neg hok] at h
            obtain rfl := Except.ok.inj h
            exact ⟨⟨_, rfl⟩, .refused hok nofun⟩

theorem registerSecond_eq_error {deadline : ℕ} {msg : Str} {why : Panic}
    (h : registerSecond deadline msg = .error why) :
    ¬ HeaderComparable msg (lit "CSeq") := by
  rw [← isStale_ok_iff 2]
  rintro ⟨stale, hfilter⟩
  simp only [registerSecond, hfilter, bind, Except.bind, pure, Except.pure] at h
  split at h
  · contradiction
  · split at h <;> contradiction

/-! ## One step -/

/-- What a step of `register` can do. -/
inductive RegisterStepped (client : SipClient) :
    RegisterState → RegisterEvent → RegisterState → List SipShown → Prop where
  | started {callId tag : Str} (ids : RegisterStart) (request : Request) :
      RegisterStepped client .called (.start ids) (.awaiting callId tag)
        [.sent .register request]
  | unsent (ids : RegisterStart) :
      RegisterStepped client .called (.start ids) (.returned (.error .sendFailed)) []
  | noResponse (callId tag : Str) (retry : RegisterRetry) :
      RegisterStepped client (.awaiting callId tag) (.first none retry)
        (.returned (.error .noResponse)) []
  | first {next : RegisterState} (callId tag : Str) (data : Datagram)
      (retry : RegisterRetry) (acts : List SipShown)
      (hfirst : registerFirst client callId tag (fromUtf8Lossy data.val) retry =
        .ok (next, acts)) :
      RegisterStepped client (.awaiting callId tag) (.first (some data) retry) next
        (.read none (fromUtf8Lossy data.val) :: acts)
  | firstPanics (callId tag : Str) (data : Datagram) (retry : RegisterRetry) (why : Panic)
      (hfirst : registerFirst client callId tag (fromUtf8Lossy data.val) retry =
        .error why) :
      RegisterStepped client (.awaiting callId tag) (.first (some data) retry)
        (.panicked why) [.read none (fromUtf8Lossy data.val)]
  | timedOut (deadline now : ℕ) (hlate : deadline ≤ now) :
      RegisterStepped client (.looping deadline) (.head now)
        (.returned (.error .timedOut)) []
  | receives (deadline now : ℕ) (hearly : now < deadline) :
      RegisterStepped client (.looping deadline) (.head now) (.receiving deadline) []
  | silent (deadline : ℕ) :
      RegisterStepped client (.receiving deadline) (.received none) (.looping deadline) []
  | second {next : RegisterState} (deadline : ℕ) (data : Datagram)
      (hsecond : registerSecond deadline (fromUtf8Lossy data.val) = .ok next) :
      RegisterStepped client (.receiving deadline) (.received (some data)) next
        [.read none (fromUtf8Lossy data.val)]
  | secondPanics (deadline : ℕ) (data : Datagram) (why : Panic)
      (hsecond : registerSecond deadline (fromUtf8Lossy data.val) = .error why) :
      RegisterStepped client (.receiving deadline) (.received (some data)) (.panicked why)
        [.read none (fromUtf8Lossy data.val)]

theorem registerStepped_of_step {client : SipClient} {s s' : RegisterState}
    {e : RegisterEvent} {shown : List SipShown}
    (h : (registerMachine client).step s e = some (s', shown)) :
    RegisterStepped client s e s' shown := by
  change registerStep client s e = some (s', shown) at h
  unfold registerStep at h
  split at h
  · next ids =>
    split at h
    all_goals obtain ⟨rfl, rfl⟩ := Prod.mk.inj (Option.some.inj h)
    · exact .started ids _
    · exact .unsent ids
  · next callId tag datagram retry =>
    cases datagram with
    | none =>
        obtain ⟨rfl, rfl⟩ := Prod.mk.inj (Option.some.inj h)
        exact .noResponse callId tag retry
    | some data =>
        simp only at h
        split at h
        · next hfirst =>
          obtain ⟨rfl, rfl⟩ := Prod.mk.inj (Option.some.inj h)
          exact .first callId tag data retry _ hfirst
        · next hfirst =>
          obtain ⟨rfl, rfl⟩ := Prod.mk.inj (Option.some.inj h)
          exact .firstPanics callId tag data retry _ hfirst
  · next deadline now =>
    split at h
    · next hlate =>
      obtain ⟨rfl, rfl⟩ := Prod.mk.inj (Option.some.inj h)
      exact .timedOut deadline now hlate
    · next hlate =>
      obtain ⟨rfl, rfl⟩ := Prod.mk.inj (Option.some.inj h)
      exact .receives deadline now (Nat.lt_of_not_le hlate)
  · next deadline datagram =>
    cases datagram with
    | none =>
        obtain ⟨rfl, rfl⟩ := Prod.mk.inj (Option.some.inj h)
        exact .silent deadline
    | some data =>
        simp only at h
        split at h
        · next hsecond =>
          obtain ⟨rfl, rfl⟩ := Prod.mk.inj (Option.some.inj h)
          exact .second deadline data hsecond
        · next hsecond =>
          obtain ⟨rfl, rfl⟩ := Prod.mk.inj (Option.some.inj h)
          exact .secondPanics deadline data _ hsecond
  · contradiction

/-- A verdict ends the wait for the first response. -/
theorem Verdict.ne_awaiting {client : SipClient} {s s' : RegisterState} {e : RegisterEvent}
    {msg : Str} {acts : List SipShown} (h : Verdict client s e msg s' acts)
    (callId tag : Str) : s' ≠ .awaiting callId tag := by
  cases h <;> simp

/-- What is sent is no reading. -/
theorem Verdict.filterMap_acts {client : SipClient} {s s' : RegisterState}
    {e : RegisterEvent} {msg : Str} {acts : List SipShown}
    (h : Verdict client s e msg s' acts) : acts.filterMap SipShown.act = acts := by
  cases h <;> rfl

/-- A panic is neither a verdict nor a wait. -/
theorem not_decided_of_panicked {client : SipClient} {s s' : RegisterState}
    {e : RegisterEvent} {msg : Str} {acts : List SipShown} {why : Panic} {cseq : ℕ}
    (hnext : s' = .panicked why) (hagain : s.again ≠ .panicked why) :
    ¬ ((IsFinal cseq msg → Verdict client s e msg s' acts) ∧
      (¬ IsFinal cseq msg → s' = s.again ∧ acts = [])) := by
  subst hnext
  rintro ⟨hfinal, hother⟩
  by_cases h : IsFinal cseq msg
  · have hverdict := hfinal h
    contradiction
  · exact hagain (hother h).1.symm

/-- A step treats the message it reads as it should exactly when it is decisive. -/
theorem RegisterStepped.decides_iff {client : SipClient} {s s' : RegisterState}
    {e : RegisterEvent} {shown : List SipShown}
    (h : RegisterStepped client s e s' shown) :
    FinalsDecide client s e s' shown ↔ Decisive s e := by
  cases h with
  | first callId tag data retry acts hfirst =>
      simp only [FinalsDecide, readBy, Decisive, Option.mem_def, Option.some.injEq,
        forall_eq']
      obtain ⟨hread, hverdict⟩ := registerFirst_eq_ok client (some data) retry hfirst
      have hacts : (SipShown.read none (fromUtf8Lossy data.val) :: acts).filterMap
          SipShown.act = acts := hverdict.filterMap_acts
      rw [hacts, and_iff_left hread]
      constructor
      · intro h
        by_contra hfinal
        exact hverdict.ne_awaiting callId tag (h.2 hfinal).1
      · intro hfinal
        exact ⟨fun _ => hverdict, fun hnot => absurd hfinal hnot⟩
  | firstPanics callId tag data retry why hfirst =>
      simp only [FinalsDecide, readBy, Decisive, Option.mem_def, Option.some.injEq,
        forall_eq']
      apply iff_of_false
      · exact not_decided_of_panicked rfl nofun
      · exact fun h => registerFirst_eq_error client retry hfirst h.2
  | second deadline data hsecond =>
      simp only [FinalsDecide, readBy, Decisive, Option.mem_def, Option.some.injEq,
        forall_eq']
      obtain ⟨hread, hnext⟩ := registerSecond_eq_ok client (.received (some data)) hsecond
      rcases hnext with ⟨hnumber, rfl⟩ | ⟨hnumber, ⟨result, rfl⟩, hverdict⟩
      · have hnot : ¬ IsFinal 2 (fromUtf8Lossy data.val) := by
          intro hfinal
          obtain ⟨n, hn, hne⟩ := hnumber
          rw [cseqNumber_of_cseqOf hfinal.2, Option.some.injEq] at hn
          exact hne hn.symm
        apply iff_of_true
        · exact ⟨fun hfinal => absurd hfinal hnot, fun _ => ⟨rfl, rfl⟩⟩
        · exact ⟨hread, Or.inr hnumber⟩
      · rw [or_iff_left hnumber, and_iff_right hread]
        constructor
        · intro h
          by_contra hfinal
          have hagain := (h.2 hfinal).1
          contradiction
        · intro hfinal
          exact ⟨fun _ => hverdict, fun hnot => absurd hfinal hnot⟩
  | secondPanics deadline data why hsecond =>
      simp only [FinalsDecide, readBy, Decisive, Option.mem_def, Option.some.injEq,
        forall_eq']
      apply iff_of_false
      · exact not_decided_of_panicked rfl nofun
      · exact fun h => registerSecond_eq_error hsecond h.1
  | _ => exact iff_of_true nofun trivial

/-! ## The result of a run -/

/-- The text that is read. -/
def SipShown.message : SipShown → Option Str
  | .read _ msg => some msg
  | _ => none

/-- The messages that a trace reads. -/
def messagesRead (trace : List SipShown) : List Str := trace.filterMap SipShown.message

/-- What the messages read so far say in a state of `register`. -/
def Settled : RegisterState → List Str → Prop
  | .called, read => read = []
  | .awaiting _ _, read => read = []
  | .looping _, read => Challenged read
  | .receiving _, read => Challenged read
  | .returned result, read => result = .ok () ↔ Registered read
  | .panicked _, _ => False

section Result

variable {client : SipClient} {s s' : RegisterState} {e : RegisterEvent} {msg : Str}
  {acts shown : List SipShown} {read : List Str}

/-- A verdict on the first response. -/
theorem Verdict.settled_first {callId tag : Str}
    (h : Verdict client (.awaiting callId tag) e msg s' acts) (hfinal : IsFinal 1 msg) :
    Settled s' [msg] := by
  cases h with
  | accepted hstatus => simp [Settled, registered_singleton_iff hfinal, hstatus]
  | retried hstatus hchallenge hsent =>
      exact ⟨msg, [], rfl, hfinal, hstatus, by simp [hchallenge], by simp⟩
  | unsent hstatus hchallenge hsent => simp [Settled, registered_singleton_iff hfinal, hstatus]
  | refused hstatus hother => simp [Settled, registered_singleton_iff hfinal, hstatus]

/-- A verdict on the response to the second REGISTER. -/
theorem Verdict.settled_second {deadline : ℕ}
    (h : Verdict client (.receiving deadline) e msg s' acts) (hfinal : IsFinal 2 msg)
    (hread : Challenged read) : Settled s' (read ++ [msg]) := by
  cases h with
  | accepted hstatus => simp [Settled, hread.registered_append_iff hfinal, hstatus]
  | refused hstatus hother => simp [Settled, hread.registered_append_iff hfinal, hstatus]

theorem Verdict.messagesRead_acts (h : Verdict client s e msg s' acts) :
    messagesRead acts = [] := by
  cases h <;> rfl

/-- A step shows the message that it reads. -/
theorem messagesRead_step (h : RegisterStepped client s e s' shown) :
    messagesRead shown = (readBy s e).toList.map Prod.snd := by
  cases h with
  | first callId tag data retry acts hfirst =>
      obtain ⟨-, hverdict⟩ := registerFirst_eq_ok client (some data) retry hfirst
      exact congrArg (List.cons _) hverdict.messagesRead_acts
  | _ => rfl

/-- A decisive step keeps account of the messages read. -/
theorem settled_step (hsettled : Settled s read)
    (hstepped : RegisterStepped client s e s' shown) (hdecisive : Decisive s e) :
    Settled s' (read ++ messagesRead shown) := by
  have hdecides := hstepped.decides_iff.mpr hdecisive
  rw [messagesRead_step hstepped]
  cases hread : readBy s e with
  | none =>
      rw [Option.toList_none, List.map_nil, List.append_nil]
      cases hstepped with
      | started ids request => exact hsettled
      | unsent ids =>
          have hnil : read = [] := hsettled
          simp [Settled, hnil, not_registered_nil]
      | noResponse callId tag retry =>
          have hnil : read = [] := hsettled
          simp [Settled, hnil, not_registered_nil]
      | timedOut deadline now hlate =>
          have hnot := Challenged.not_registered hsettled
          simp [Settled, hnot]
      | receives deadline now hearly => exact hsettled
      | silent deadline => exact hsettled
      | first callId tag data retry acts hfirst => contradiction
      | firstPanics callId tag data retry why hfirst => contradiction
      | second deadline data hsecond => contradiction
      | secondPanics deadline data why hsecond => contradiction
  | some found =>
      obtain ⟨hverdict, hother⟩ := hdecides found hread
      rw [Option.toList_some, List.map_singleton]
      unfold readBy at hread
      split at hread
      · next callId tag data retry =>
        have hnil : read = [] := hsettled
        obtain rfl := Option.some.inj hread
        rw [hnil]
        exact (hverdict hdecisive.1).settled_first hdecisive.1
      · next deadline data =>
        obtain rfl := Option.some.inj hread
        by_cases hfinal : IsFinal 2 (fromUtf8Lossy data.val)
        · exact (hverdict hfinal).settled_second hfinal hsettled
        · rw [(hother hfinal).1]
          exact Challenged.append hsettled hfinal
      · contradiction

end Result

/-! ## Messages put in -/

/-- A message of the kind `P` for the outstanding REGISTER, received where `register`
waits for one and before the deadline of its loop. -/
inductive MessagePad (P : ℕ → Str → Prop) : RegisterState → List RegisterEvent → Prop where
  | first (callId tag : Str) (data : Datagram) (retry : RegisterRetry)
      (hkind : P 1 (fromUtf8Lossy data.val)) :
      MessagePad P (.awaiting callId tag) [.first (some data) retry]
  | atHead (deadline now : ℕ) (data : Datagram) (hearly : now < deadline)
      (hkind : P 2 (fromUtf8Lossy data.val)) :
      MessagePad P (.looping deadline) [.head now, .received (some data)]
  | atReceive (deadline now : ℕ) (data : Datagram) (hearly : now < deadline)
      (hkind : P 2 (fromUtf8Lossy data.val)) :
      MessagePad P (.receiving deadline) [.received (some data), .head now]

/-- The message is no final response to the REGISTER with that number. -/
def NotFinal (cseq : ℕ) (msg : Str) : Prop := ¬ IsFinal cseq msg

/-- The padded run is in the same state, and has only decisive messages to come. -/
structure KeepsPace (client : SipClient) (s t : RegisterState)
    (later : List RegisterEvent) : Prop where
  same : t = s
  decisive : (registerMachine client).Guarded Decisive t later

theorem keepsPace_keep (client : SipClient) (s t : RegisterState) (e : RegisterEvent)
    (s' : RegisterState) (shown : List SipShown) (later : List RegisterEvent)
    (h : KeepsPace client s t (e :: later))
    (hstep : (registerMachine client).step s e = some (s', shown)) :
    ∃ t' shown', (registerMachine client).step t e = some (t', shown') ∧
      shown'.filterMap SipShown.act = shown.filterMap SipShown.act ∧
      KeepsPace client s' t' later := by
  obtain ⟨rfl, hdecisive⟩ := h
  have hrest := ((registerMachine client).guarded_cons_of_step hstep).mp hdecisive
  exact ⟨s', shown, hstep, rfl, rfl, hrest.2⟩

/-- A head before the deadline. -/
theorem head_step (client : SipClient) {deadline now : ℕ} (hearly : now < deadline) :
    (registerMachine client).step (.looping deadline) (.head now) =
      some (.receiving deadline, []) :=
  if_neg (Nat.not_le_of_lt hearly)

/-- A message that comes where `register` waits for one is read. -/
theorem step_of_reading (client : SipClient) {s : RegisterState} {e : RegisterEvent}
    (h : readBy s e ≠ none) :
    ∃ s' shown, (registerMachine client).step s e = some (s', shown) := by
  unfold readBy at h
  split at h
  · simp only [registerMachine, registerStep]
    split <;> exact ⟨_, _, rfl⟩
  · simp only [registerMachine, registerStep]
    split <;> exact ⟨_, _, rfl⟩
  · contradiction

/-- A decisive message that is not final is dropped. -/
theorem received_step_of_guarded (client : SipClient) {deadline : ℕ} {data : Datagram}
    {later : List RegisterEvent}
    (hdecisive : (registerMachine client).Guarded Decisive (.receiving deadline)
      (.received (some data) :: later))
    (hinterim : ¬ IsFinal 2 (fromUtf8Lossy data.val)) :
    ∃ shown, (registerMachine client).step (.receiving deadline) (.received (some data)) =
      some (.looping deadline, shown) ∧ shown.filterMap SipShown.act = [] := by
  obtain ⟨next, shown, hstep⟩ := step_of_reading client (s := .receiving deadline)
    (e := .received (some data)) nofun
  have hread := (((registerMachine client).guarded_cons_of_step hstep).mp hdecisive).1
  have hdecides := (registerStepped_of_step hstep).decides_iff.mpr hread
  obtain ⟨rfl, hacts⟩ := (hdecides _ rfl).2 hinterim
  exact ⟨shown, hstep, hacts⟩

theorem keepsPace_pad (client : SipClient) (s t : RegisterState)
    (block later : List RegisterEvent)
    (h : KeepsPace client s t (block ++ later)) (hblock : MessagePad NotFinal s block) :
    ∃ t' shown', (registerMachine client).run t block = some (t', shown') ∧
      shown'.filterMap SipShown.act = [] ∧ KeepsPace client s t' later := by
  obtain ⟨rfl, hdecisive⟩ := h
  cases hblock with
  | first callId tag data retry hinterim =>
      -- Here a message that is not final would not be decisive.
      obtain ⟨next, shown, hstep⟩ := step_of_reading client (s := .awaiting callId tag)
        (e := .first (some data) retry) nofun
      have hfirst := (((registerMachine client).guarded_cons_of_step hstep).mp hdecisive).1
      exact absurd hfirst.1 hinterim
  | atHead deadline now data hearly hinterim =>
      have hhead := head_step client hearly
      have hread := (((registerMachine client).guarded_cons_of_step hhead).mp hdecisive).2
      obtain ⟨shown, hstep, hacts⟩ :=
        received_step_of_guarded client hread hinterim
      have hrest := (((registerMachine client).guarded_cons_of_step hstep).mp hread).2
      refine ⟨.looping deadline, shown, ?_, hacts, rfl, hrest⟩
      exact (registerMachine client).run_cons_of_step hhead
        ((registerMachine client).run_of_step hstep)
  | atReceive deadline now data hearly hinterim =>
      have hhead := head_step client hearly
      obtain ⟨shown, hstep, hacts⟩ :=
        received_step_of_guarded client hdecisive hinterim
      have hread := (((registerMachine client).guarded_cons_of_step hstep).mp hdecisive).2
      have hrest := (((registerMachine client).guarded_cons_of_step hhead).mp hread).2
      refine ⟨.receiving deadline, shown ++ [], ?_, ?_, rfl, hrest⟩
      · exact (registerMachine client).run_cons_of_step hstep
          ((registerMachine client).run_of_step hhead)
      · rwa [List.append_nil]

/-! ## Whole runs -/

/-- Registration is decided by final responses.  In every run, each message is
treated as it should be exactly when each is decisive; and where they are, the
result is what the first final responses say, and messages that are no final
responses can be put in anywhere without a change to what is sent or returned. -/
theorem register_finalsDecide_iff (client : SipClient) :
    (∀ events, (registerMachine client).Every (FinalsDecide client) .called events ↔
        (registerMachine client).Guarded Decisive .called events) ∧
      (∀ events result trace, (registerMachine client).Guarded Decisive .called events →
        (registerMachine client).run .called events = some (.returned result, trace) →
          (result = .ok () ↔ Registered (messagesRead trace))) ∧
      ∀ events padded t trace,
        Padded (registerMachine client) (fun _ => MessagePad NotFinal) none .called events padded →
          (registerMachine client).Guarded Decisive .called padded →
            (registerMachine client).run .called events = some (t, trace) →
              ∃ trace', (registerMachine client).run .called padded = some (t, trace') ∧
                trace'.filterMap SipShown.act = trace.filterMap SipShown.act := by
  refine ⟨?_, ?_, ?_⟩
  · intro events
    apply (registerMachine client).every_congr (I := fun _ => True) ?_ trivial
    intro s e s' shown _ hstep
    exact ⟨(registerStepped_of_step hstep).decides_iff, fun _ => trivial⟩
  · intro events result trace hdecisive hrun
    have hstart : Settled .called (messagesRead []) := rfl
    refine (registerMachine client).invariant_run
      (I := fun s before => Settled s (messagesRead before)) ?_ [] hstart hdecisive hrun
    intro s before e s' shown hsettled hstep hdecisive
    rw [messagesRead, List.filterMap_append]
    exact settled_step hsettled (registerStepped_of_step hstep) hdecisive
  · intro events padded t trace hpadded hdecisive hrun
    obtain ⟨last, t', trace', hrun', hacts, ⟨rfl, -⟩⟩ :=
      hpadded.run (R := fun _ => KeepsPace client) (fun _ => keepsPace_keep client)
        (fun _ => keepsPace_pad client) ⟨rfl, hdecisive⟩ hrun
    exact ⟨trace', hrun', hacts⟩

/-! ## Two registrations -/

/-- The start of a registration at time 0. -/
def trunkRegister : RegisterEvent := .start ⟨10, 2, 3, 4, true⟩

/-- What answers a challenge at time 0. -/
def registerAnswer : RegisterRetry := ⟨lit "c", 5, true, 0⟩

theorem length_registerTrying :
    (lit "SIP/2.0 100 Trying\r\nCSeq: 1 REGISTER\r\n\r\n").length ≤ maxSipMsgSize := by
  decide +kernel

/-- The REGISTER is being looked at. -/
def registerTrying : Datagram := datagramOf _ length_registerTrying

theorem length_registerDenied :
    (lit "SIP/2.0 401 Unauthorized\r\nWWW-Authenticate: Digest realm=\"h\", nonce=\"n\"\r\nCSeq: 1 REGISTER\r\n\r\n").length ≤
      maxSipMsgSize := by
  decide +kernel

/-- The REGISTER is challenged. -/
def registerDenied : Datagram := datagramOf _ length_registerDenied

theorem length_registerRetried :
    (lit "SIP/2.0 200 OK\r\nCSeq: 2 REGISTER\r\n\r\n").length ≤ maxSipMsgSize := by
  decide +kernel

/-- The second REGISTER is accepted. -/
def registerRetried : Datagram := datagramOf _ length_registerRetried

theorem length_registerAccepted :
    (lit "SIP/2.0 200 OK\r\nCSeq: 1 REGISTER\r\n\r\n").length ≤ maxSipMsgSize := by
  decide +kernel

/-- The registrar's 200 for the first REGISTER. -/
def registerAccepted : Datagram := datagramOf _ length_registerAccepted

/-- The message is a provisional response to the REGISTER with that number. -/
def IsProvisional (cseq : ℕ) (msg : Str) : Prop :=
  (∃ status ∈ parseStatusCode msg, 100 ≤ status ∧ status < 200) ∧
    cseqOf msg = some (cseq, lit "REGISTER")

instance IsProvisional.decidable (cseq : ℕ) : DecidablePred (IsProvisional cseq) := fun msg =>
  inferInstanceAs
    (Decidable ((∃ status ∈ parseStatusCode msg, 100 ≤ status ∧ status < 200) ∧
      cseqOf msg = some (cseq, lit "REGISTER")))

/-- The result that `register` has returned. -/
def RegisterState.result : RegisterState → Option (Except RegisterError Unit)
  | .returned result => some result
  | _ => none

/-- The deadline of a wait for a response to the second REGISTER. -/
def RegisterState.waitsUntil : RegisterState → Option ℕ
  | .receiving deadline => some deadline
  | _ => none

theorem waitsUntil_eq_some {s : RegisterState} {deadline : ℕ}
    (h : s.waitsUntil = some deadline) : s = .receiving deadline := by
  cases s with
  | receiving d => rw [Option.some.inj h]
  | _ => contradiction

/-- A challenge that is answered, up to the wait for the second response. -/
def challengedRegister : List RegisterEvent :=
  [trunkRegister, .first (some registerDenied) registerAnswer, .head 0]

/-- The challenge comes once more, and then the second REGISTER is accepted. -/
theorem challengedRegister_padded :
    Padded (registerMachine trunkClient) (fun _ => MessagePad NotFinal) none .called
      (challengedRegister ++ [.received (some registerRetried)])
      (challengedRegister ++
        [.received (some registerDenied), .head 0, .received (some registerRetried)]) := by
  have hwaits : ((registerMachine trunkClient).run .called challengedRegister).bind
      (fun out => out.1.waitsUntil) = some registerTimeout := by
    decide +kernel
  obtain ⟨⟨s, trace⟩, hrun, hs⟩ := Option.bind_eq_some_iff.mp hwaits
  obtain rfl := waitsUntil_eq_some hs
  apply Padded.append_of_run none hrun
  intro last
  have hpad : MessagePad NotFinal (.receiving registerTimeout)
      [.received (some registerDenied), .head 0] :=
    .atReceive registerTimeout 0 registerDenied (by decide)
      (show ¬ IsFinal 2 _ by decide +kernel)
  obtain ⟨next, later, hread⟩ := step_of_reading trunkClient
    (s := .receiving registerTimeout) (e := .received (some registerRetried)) nofun
  have hrest : Padded (registerMachine trunkClient) (fun _ => MessagePad NotFinal) last
      (.receiving registerTimeout) [.received (some registerRetried)]
      [.received (some registerRetried)] :=
    .refl last ((registerMachine trunkClient).run_of_step hread)
  exact .pad hpad hrest

theorem register_finalsDecide_lateChallenge :
    ∃ t trace trace',
      (registerMachine trunkClient).run .called
          (challengedRegister ++ [.received (some registerRetried)]) = some (t, trace) ∧
        (registerMachine trunkClient).run .called
          (challengedRegister ++
            [.received (some registerDenied), .head 0, .received (some registerRetried)]) =
              some (t, trace') ∧
        trace'.filterMap SipShown.act = trace.filterMap SipShown.act := by
  obtain ⟨hsome, hdecisive⟩ :
      ((registerMachine trunkClient).run .called
        (challengedRegister ++ [.received (some registerRetried)])).isSome = true ∧
      (registerMachine trunkClient).Guarded Decisive .called
        (challengedRegister ++
          [.received (some registerDenied), .head 0, .received (some registerRetried)]) := by
    decide +kernel
  obtain ⟨⟨t, trace⟩, hrun⟩ := Option.isSome_iff_exists.mp hsome
  obtain ⟨trace', hrun', hacts⟩ :=
    (register_finalsDecide_iff trunkClient).2.2 _ _ t trace challengedRegister_padded
      hdecisive hrun
  exact ⟨t, trace, trace', hrun, hrun', hacts⟩

/-- The first response accepts the REGISTER. -/
def acceptedAtOnce : List RegisterEvent :=
  [trunkRegister, .first (some registerAccepted) registerAnswer]

theorem acceptedAtOnce_padded :
    Padded (registerMachine trunkClient) (fun _ => MessagePad IsProvisional) none .called
      acceptedAtOnce
      [trunkRegister, .first (some registerTrying) registerAnswer,
        .first (some registerAccepted) registerAnswer] := by
  obtain ⟨callId, tag, shown, hstart⟩ : ∃ callId tag shown,
      (registerMachine trunkClient).step .called trunkRegister =
        some (.awaiting callId tag, shown) := ⟨_, _, _, rfl⟩
  have hpad : MessagePad IsProvisional (.awaiting callId tag)
      [.first (some registerTrying) registerAnswer] :=
    .first callId tag registerTrying registerAnswer (by decide +kernel)
  obtain ⟨next, later, hfirst⟩ := step_of_reading trunkClient (s := .awaiting callId tag)
    (e := .first (some registerAccepted) registerAnswer) nofun
  have hrest : Padded (registerMachine trunkClient) (fun _ => MessagePad IsProvisional)
      (some trunkRegister) (.awaiting callId tag)
      [.first (some registerAccepted) registerAnswer]
      [.first (some registerAccepted) registerAnswer] :=
    .refl _ ((registerMachine trunkClient).run_of_step hfirst)
  apply Padded.keep hstart
  exact Padded.pad hpad hrest

/-- A provisional response in front of the 200 makes `register` fail. -/
theorem register_provisionalRefused :
    (¬ ∀ (client : SipClient) (events padded : List RegisterEvent) (t : RegisterState)
        (trace : List SipShown),
        Padded (registerMachine client) (fun _ => MessagePad IsProvisional) none .called
            events padded →
          (registerMachine client).run .called events = some (t, trace) →
            ∃ trace', (registerMachine client).run .called padded = some (t, trace') ∧
              trace'.filterMap SipShown.act = trace.filterMap SipShown.act) ∧
      ((registerMachine trunkClient).run .called acceptedAtOnce).bind
          (fun out => out.1.result) = some (.ok ()) ∧
      ((registerMachine trunkClient).run .called
          [trunkRegister, .first (some registerTrying) registerAnswer]).bind
          (fun out => out.1.result) = some (.error (.refused 100)) := by
  -- With the provisional response `register` has returned when the 200 comes.
  obtain ⟨haccepted, hrefused, hnone⟩ :
      ((registerMachine trunkClient).run .called acceptedAtOnce).bind
          (fun out => out.1.result) = some (.ok ()) ∧
      ((registerMachine trunkClient).run .called
          [trunkRegister, .first (some registerTrying) registerAnswer]).bind
          (fun out => out.1.result) = some (.error (.refused 100)) ∧
      ((registerMachine trunkClient).run .called
        [trunkRegister, .first (some registerTrying) registerAnswer,
          .first (some registerAccepted) registerAnswer]).isNone = true := by
    decide +kernel
  refine ⟨?_, haccepted, hrefused⟩
  intro h
  obtain ⟨⟨t, trace⟩, hrun, -⟩ := Option.bind_eq_some_iff.mp haccepted
  obtain ⟨trace', hrun', -⟩ := h trunkClient acceptedAtOnce _ t trace acceptedAtOnce_padded hrun
  rw [hrun'] at hnone
  contradiction

end SlmodemSipBridge.Sip
