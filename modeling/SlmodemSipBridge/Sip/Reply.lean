import SlmodemSipBridge.Sip.Answer
import SlmodemSipBridge.Sip.Challenge
import SlmodemSipBridge.Sip.Outcome

/-!
# What the servers answer

A server of the trunk answers a request that it has read: it copies what makes the
transaction, adds its tag, and may pose a challenge or answer the offer.  Whatever it
answers, the client reads what was meant: the status, the transaction, the tag, the
challenge and the endpoint.
-/

namespace SlmodemSipBridge.Sip

open Rust Sdp Bridge Envelope

/-! ## Replies -/

/-- A challenge, with its parameters in the order in which they are printed. -/
structure Posed where
  digest : DigestChallenge
  params : List ChallengeParam

/-- What a server answers. -/
structure Reply where
  status : ℕ
  reason : Str
  tag : Option Str
  challenge : Option Posed
  answer : Option Answer

/-- The To header of the reply: it has a tag, its own or the one that was there. -/
def Reply.calleeOf (r : Reply) (callee : Str) : Str :=
  match r.tag with
  | some tag =>
      if contains (lit "tag=") callee then callee else callee ++ lit ";tag=" ++ tag
  | none => callee

/-- The body of the reply. -/
def Reply.body (r : Reply) : Str :=
  match r.answer with
  | some a => a.text
  | none => []

/-- The names of the headers that a reply has from its request. -/
def copiedNames : List Str := [lit "Via", lit "From", lit "To", lit "Call-ID", lit "CSeq"]

/-- A header that is copied from the request. -/
def copied (m : Message) (name : Str) : List Field :=
  (m.value name).toList.map fun value => ⟨name, value⟩

/-- The reply to a request. -/
def Reply.message (r : Reply) (m : Message) : Message where
  start := statusLine r.status r.reason
  fields :=
    copied m (lit "Via") ++ copied m (lit "From") ++
      ((m.value (lit "To")).toList.map fun callee => ⟨lit "To", r.calleeOf callee⟩) ++
      copied m (lit "Call-ID") ++ copied m (lit "CSeq") ++
      (r.challenge.toList.map fun posed =>
        ⟨challengeHeader r.status, renderChallenge posed.params⟩) ++
      (r.answer.toList.map fun _ => ⟨lit "Content-Type", lit "application/sdp"⟩) ++
      [lengthField r.body]
  body := r.body

/-- No value of the challenge has a quote, a line feed or a character beyond ASCII, and
none ends like the start of a parameter. -/
structure Posed.Sound (p : Posed) : Prop where
  order : ∃ algorithm, p.params.Perm (p.digest.params algorithm)
  clean : p.digest.Clean
  plain : ∀ name value, p.digest.value name = some value → IsAscii value ∧ '\n' ∉ value
  unlike : ∀ name value other, p.digest.value other = some value → ¬ EndsLike name value

/-- The reply is one that can be printed and read. -/
structure Reply.Sound (r : Reply) : Prop where
  status : 100 ≤ r.status ∧ r.status < 700
  reason : IsAscii r.reason ∧ '\n' ∉ r.reason
  tag : ∀ tag ∈ r.tag, tag ≠ [] ∧ IsAscii tag ∧ ∀ c ∈ tag, endsTag c = false
  challenge : ∀ posed ∈ r.challenge, posed.Sound
  answer : ∀ a ∈ r.answer, a.Sound

/-- The request is one that can be answered: a server finds its transaction and its
callee, and the values of the headers that it copies are printable ASCII. -/
structure Answerable (m : Message) (callId callee method : Str) (cseq : ℕ) : Prop where
  printable : ∀ name ∈ copiedNames, ∀ value, m.value name = some value →
    IsAscii value ∧ '\n' ∉ value ∧ Trimmed value
  callId_eq : m.value (lit "Call-ID") = some callId
  callee_eq : m.value (lit "To") = some callee
  cseq_eq : m.value (lit "CSeq") = some (decimal cseq ++ lit " " ++ method)
  cseq_lt : cseq < 2 ^ 32
  method_ne : method ≠ []
  noBlanks : NoBlanks method

/-! ## A challenge -/

section Posed

variable {p : Posed} (h : p.Sound)
include h

theorem Posed.Sound.mem_iff (name : ParamName) (value : Str) :
    .quoted name value ∈ p.params ↔ p.digest.value name = some value := by
  obtain ⟨algorithm, hperm⟩ := h.order
  rw [hperm.mem_iff, mem_params_iff]

/-- The client reads the challenge that was posed. -/
theorem Posed.Sound.parse_render :
    parseDigestChallenge (renderChallenge p.params) = .ok (.ok p.digest) := by
  rw [parseDigestChallenge_eq_ok_iff]
  intro name
  have hclean : ∀ other value, .quoted other value ∈ p.params → '"' ∉ value :=
    fun other value hmem => h.clean other value ((h.mem_iff other value).mp hmem)
  rw [renderChallenge, extractQuotedParam_renderParams name (by decide) hclean]
  rcases readParam_cases name p.params with ⟨after, hshadowed, -⟩ | ⟨-, hfound⟩
  · obtain ⟨before, other, value, hsplit, -, -, hends⟩ := hshadowed
    have hmem : .quoted other value ∈ p.params := by simp [hsplit]
    exact absurd hends (h.unlike name value other ((h.mem_iff other value).mp hmem))
  · rcases hfound with ⟨value, hmem, hread⟩ | ⟨habsent, hread⟩
    · rw [hread, (h.mem_iff name value).mp hmem]
    · rw [hread]
      cases hvalue : p.digest.value name with
      | none => rfl
      | some value => exact absurd ((h.mem_iff name value).mpr hvalue) (habsent value)

theorem Posed.Sound.params_ne : p.params ≠ [] :=
  List.ne_nil_of_mem ((h.mem_iff .realm p.digest.realm).mpr rfl)

omit h in
/-- A parameter ends with a quote or with its token. -/
theorem flushEnd_render (param : ChallengeParam) : FlushEnd param.render := by
  cases param with
  | quoted name value =>
      have hrender : ChallengeParam.render (.quoted name value) =
          (name.text ++ lit "=" ++ '"' :: value) ++ lit "\"" := by
        simp [ChallengeParam.render]
      rw [hrender]
      exact flushEnd_append (by decide) _
  | algorithm => exact (by decide : FlushEnd (lit "algorithm=MD5"))

omit h in
theorem flushEnd_renderParams {params : List ChallengeParam} (hne : params ≠ []) (lead : Str) :
    FlushEnd (renderParams lead params) := by
  induction params generalizing lead with
  | nil => exact absurd rfl hne
  | cons param params ih =>
      rw [renderParams]
      cases params with
      | nil =>
          rw [renderParams, List.append_nil]
          exact flushEnd_append (flushEnd_render param) lead
      | cons next params => exact flushEnd_append (ih (by simp) (lit ", ")) _

omit h in
/-- What holds of the characters of the parameters holds of their text. -/
theorem forall_mem_renderParams {P : Char → Prop} (hlit : ∀ c ∈ lit "=\", algorithm=MD5", P c)
    (hname : ∀ name : ParamName, ∀ c ∈ name.text, P c) {params : List ChallengeParam}
    (hvalue : ∀ name value, .quoted name value ∈ params → ∀ c ∈ value, P c) {lead : Str}
    (hlead : ∀ c ∈ lead, P c) : ∀ c ∈ renderParams lead params, P c := by
  have hsub : ∀ {s : Str}, (∀ c ∈ s, c ∈ lit "=\", algorithm=MD5") → ∀ c ∈ s, P c :=
    fun hs c hc => hlit c (hs c hc)
  induction params generalizing lead with
  | nil => simp [renderParams]
  | cons param params ih =>
      have hparam : ∀ c ∈ param.render, P c := by
        cases param with
        | quoted name value =>
            have hown := hvalue name value List.mem_cons_self
            simp only [ChallengeParam.render, List.forall_mem_append, List.forall_mem_cons]
            exact ⟨⟨hname name, hsub (by decide)⟩, hlit _ (by decide), hown, hsub (by decide)⟩
        | algorithm => exact hsub (by decide)
      have hrest := ih (fun name value hmem => hvalue name value (List.mem_cons_of_mem _ hmem))
        (hsub (by decide) : ∀ c ∈ lit ", ", P c)
      simp only [renderParams, List.forall_mem_append]
      exact ⟨⟨hlead, hparam⟩, hrest⟩

/-- The header of the challenge is ASCII on one line, with no blanks around. -/
theorem Posed.Sound.printable : IsAscii (renderChallenge p.params) ∧
    '\n' ∉ renderChallenge p.params ∧ Trimmed (renderChallenge p.params) := by
  have hnames : ∀ name : ParamName, ∀ c ∈ name.text, c.toNat < 128 ∧ c ≠ '\n' := by
    intro name
    cases name <;> decide
  have hvalues : ∀ name value, .quoted name value ∈ p.params →
      ∀ c ∈ value, c.toNat < 128 ∧ c ≠ '\n' := by
    intro name value hmem c hc
    obtain ⟨hascii, hline⟩ := h.plain name value ((h.mem_iff name value).mp hmem)
    exact ⟨hascii c hc, ne_of_mem_of_not_mem hc hline⟩
  have hall := forall_mem_renderParams (by decide) hnames hvalues
    (by decide : ∀ c ∈ lit "Digest ", c.toNat < 128 ∧ c ≠ '\n')
  have hcut : renderChallenge p.params = lit "Digest " ++ renderParams [] p.params := by
    rw [renderChallenge, ← renderParams_append h.params_ne, List.append_nil]
  refine ⟨fun c hc => (hall c hc).1, fun hmem => (hall '\n' hmem).2 rfl, ?_⟩
  rw [hcut]
  exact trimmed_of_head (c := 'D') rfl (by decide) (flushEnd_renderParams h.params_ne [])

end Posed

/-! ## The message of a reply -/

/-- A field of ASCII that can be printed and searched for. -/
structure Clear (f : Field) : Prop extends f.Printable where
  flush : Flush (f.name ++ [':'])
  ascii : IsAscii f.line

theorem clear_of_value {name value : Str}
    (hname : ':' ∉ name ∧ '\n' ∉ name ∧ Flush (name ++ [':']) ∧ IsAscii name)
    (hvalue : IsAscii value ∧ '\n' ∉ value ∧ Trimmed value) : Clear ⟨name, value⟩ where
  colon := hname.1
  name := hname.2.1
  value := hvalue.2.1
  trimmed := hvalue.2.2
  flush := hname.2.2.1
  ascii := (hname.2.2.2.append (by decide)).append hvalue.1

section Message

variable {m : Message} {callId callee method : Str} {cseq : ℕ}
  (hm : Answerable m callId callee method cseq) {r : Reply} (hr : r.Sound)
include hm

theorem clear_copied {name : Str} (hname : name ∈ copiedNames) :
    ∀ f ∈ copied m name, Clear f := by
  have hnames : ∀ name ∈ copiedNames,
      ':' ∉ name ∧ '\n' ∉ name ∧ Flush (name ++ [':']) ∧ IsAscii name := by decide
  intro f hf
  obtain ⟨value, hvalue, rfl⟩ := List.mem_map.mp hf
  exact clear_of_value (hnames name hname)
    (hm.printable name hname value (Option.mem_toList.mp hvalue))

include hr

/-- The To header with its tag can be printed. -/
theorem printable_callee :
    IsAscii (r.calleeOf callee) ∧ '\n' ∉ r.calleeOf callee ∧ Trimmed (r.calleeOf callee) := by
  have hcallee := hm.printable _ (by simp [copiedNames]) _ hm.callee_eq
  cases htag : r.tag with
  | none =>
      simp only [Reply.calleeOf, htag]
      exact hcallee
  | some tag =>
      obtain ⟨hne, hascii, hends⟩ := hr.tag tag htag
      have hblanks := noBlanks_of_not_endsTag hends
      simp only [Reply.calleeOf, htag]
      split
      · exact hcallee
      · have hline : '\n' ∉ lit ";tag=" ++ tag := by
          have hword := hblanks.oneLine.1
          simp [lit, hword]
        rw [List.append_assoc]
        refine ⟨hcallee.1.append (IsAscii.append (by decide) hascii), ?_, ?_⟩
        · simp [hcallee.2.1, hline]
        · exact hcallee.2.2.first.trimmed_append hcallee.2.2.ne
            (flushEnd_append (hblanks.trimmed hne).flushEnd _)

theorem clear_replyField : ∀ f ∈ (r.message m).fields, Clear f := by
  have hheader : ∀ status, ':' ∉ challengeHeader status ∧ '\n' ∉ challengeHeader status ∧
      Flush (challengeHeader status ++ [':']) ∧ IsAscii (challengeHeader status) := by
    intro status
    unfold challengeHeader
    split <;> decide
  have hlength : IsAscii (decimal (byteLen r.body)) ∧ '\n' ∉ decimal (byteLen r.body) ∧
      Trimmed (decimal (byteLen r.body)) := by
    have hdigits := noBlanks_decimal (byteLen r.body)
    exact ⟨isAscii_decimal _, hdigits.oneLine.1, hdigits.trimmed (decimal_ne_nil _)⟩
  simp only [Reply.message, List.forall_mem_append, List.forall_mem_map, Option.mem_toList,
    List.forall_mem_singleton]
  refine ⟨⟨⟨⟨⟨⟨⟨?_, ?_⟩, ?_⟩, ?_⟩, ?_⟩, ?_⟩, ?_⟩, clear_of_value (by decide) hlength⟩
  · exact clear_copied hm (by simp [copiedNames])
  · exact clear_copied hm (by simp [copiedNames])
  · intro value hvalue
    obtain rfl : callee = value := Option.some.inj (hm.callee_eq.symm.trans hvalue)
    exact clear_of_value (by decide) (printable_callee hm hr)
  · exact clear_copied hm (by simp [copiedNames])
  · exact clear_copied hm (by simp [copiedNames])
  · intro posed hposed
    exact clear_of_value (hheader r.status) (hr.challenge posed hposed).printable
  · intro a _
    exact clear_of_value (by decide) (by decide)

/-- The client can read the reply. -/
theorem lettered_reply : Lettered (r.message m) r.status where
  start := by
    have hdigits := (noBlanks_decimal r.status).oneLine.1
    have hreason := hr.reason.2
    simp [Reply.message, statusLine, lit, hdigits, hreason]
  start_ne := by simp [Reply.message, statusLine, lit]
  fields := fun f hf => (clear_replyField hm hr f hf).toPrintable
  status_start := ⟨r.reason, rfl⟩
  name := fun f hf => (clear_replyField hm hr f hf).flush
  ascii := by
    rw [Message.headLines, List.forall_mem_cons, List.forall_mem_map]
    refine ⟨?_, fun f hf => (clear_replyField hm hr f hf).ascii⟩
    exact ((IsAscii.append (by decide) (isAscii_decimal r.status)).append (by decide)).append
      hr.reason.1
  body := by
    cases hanswer : r.answer with
    | none =>
        have hbody : (r.message m).body = [] := by simp [Reply.message, Reply.body, hanswer]
        have hnil : lines [] = [] := by decide
        rw [hbody, hnil]
        exact List.forall_mem_nil _
    | some a =>
        have ha := hr.answer a hanswer
        have hbody : (r.message m).body = a.text := by simp [Reply.message, Reply.body, hanswer]
        rw [hbody, ha.lines_text]
        exact fun l hl => (ha.line l hl).toTypedLine

end Message

/-! ## What the headers of a reply are -/

/-- The value of a header that stands there perhaps, if it has the name. -/
def given (own name : Str) (value : Option Str) : Option Str :=
  if eqIgnoreAsciiCase own name then value else none

theorem find_given {α : Type} (own name : Str) (found : Option α) (text : α → Str)
    (rest : List Field) :
    (((found.toList.map fun a => (⟨own, text a⟩ : Field)) ++ rest).find? fun f =>
        eqIgnoreAsciiCase f.name name).map Field.value =
      (given own name (found.map text)).or
        ((rest.find? fun f => eqIgnoreAsciiCase f.name name).map Field.value) := by
  cases found with
  | none => simp [given]
  | some a =>
      by_cases hname : eqIgnoreAsciiCase own name = true
      · simp [given, hname]
      · simp [given, hname]

theorem value_reply (r : Reply) (m : Message) (name : Str) :
    (r.message m).value name =
      (given (lit "Via") name (m.value (lit "Via"))).or
        ((given (lit "From") name (m.value (lit "From"))).or
          ((given (lit "To") name ((m.value (lit "To")).map r.calleeOf)).or
            ((given (lit "Call-ID") name (m.value (lit "Call-ID"))).or
              ((given (lit "CSeq") name (m.value (lit "CSeq"))).or
                ((given (challengeHeader r.status) name
                    (r.challenge.map fun posed => renderChallenge posed.params)).or
                  ((given (lit "Content-Type") name
                      (r.answer.map fun _ => lit "application/sdp")).or
                    (given (lit "Content-Length") name
                      (some (decimal (byteLen r.body)))))))))) := by
  have hlast : ([lengthField r.body].find? fun f => eqIgnoreAsciiCase f.name name).map
      Field.value = given (lit "Content-Length") name (some (decimal (byteLen r.body))) := by
    have hfield := find_given (lit "Content-Length") name (some (decimal (byteLen r.body))) id []
    rw [List.find?_nil, Option.map_none, Option.or_none, Option.map_id] at hfield
    exact hfield
  rw [Message.value, Reply.message]
  simp only [copied, List.append_assoc]
  rw [find_given _ _ _ (fun value => value), find_given _ _ _ (fun value => value),
    find_given _ _ _ r.calleeOf, find_given _ _ _ (fun value => value),
    find_given _ _ _ (fun value => value), find_given, find_given, ← hlast]
  simp only [Option.map_id']

section Values

variable {m : Message} {callId callee method : Str} {cseq : ℕ}
  (hm : Answerable m callId callee method cseq) (r : Reply)
include hm

theorem value_reply_callee :
    (r.message m).value (lit "To") = some (r.calleeOf callee) := by
  rw [value_reply, hm.callee_eq]
  rfl

theorem value_reply_callId : (r.message m).value (lit "Call-ID") = some callId := by
  rw [value_reply, hm.callId_eq]
  rfl

theorem value_reply_cseq :
    (r.message m).value (lit "CSeq") = some (decimal cseq ++ lit " " ++ method) := by
  rw [value_reply, hm.cseq_eq]
  rfl

omit hm in
theorem value_reply_challenge :
    (r.message m).value (challengeHeader r.status) =
      r.challenge.map fun posed => renderChallenge posed.params := by
  rw [value_reply]
  generalize r.challenge.map (fun posed => renderChallenge posed.params) = challenge
  unfold challengeHeader
  split <;> exact Option.or_none

end Values

/-! ## What the client reads -/

/-- What the client reads in a response is what the server meant by its reply to a
request with these identifiers. -/
structure Understood (r : Reply) (callId callee method : Str) (cseq : ℕ) (resp : Str) :
    Prop where
  status_eq : parseStatusCode resp = some r.status
  callId_eq : headerValue resp (lit "Call-ID") = some callId
  cseqNum_eq : extractCseqNum resp = .ok (some cseq)
  cseq_eq : cseqOf resp = some (cseq, method)
  callee_eq : extractHeader resp (lit "To") = .ok (some (r.calleeOf callee))
  /-- The callee has no tag yet. -/
  tag : '=' ∉ callee → toTagOf resp = r.tag
  /-- The callee has a tag, as in a request within a dialog, and keeps it. -/
  tag_kept : ∀ target tag, callee = target ++ lit ";tag=" ++ tag → '=' ∉ target → tag ≠ [] →
    (∀ ch ∈ tag, endsTag ch = false) → toTagOf resp = some tag
  tag_ascii : ∀ tag ∈ toTagOf resp, IsAscii tag
  digest : usableChallenge r.status resp = r.challenge.map Posed.digest
  endpoint : acceptedEndpoint resp = r.answer.map Answer.endpoint
  returns : ParsersReturn resp

/-- The tag that a reply adds is the one that is read. -/
theorem tagParam_calleeOf {r : Reply} (hr : r.Sound) {callee : Str} (hcallee : '=' ∉ callee) :
    tagParam (r.calleeOf callee) = r.tag := by
  have hnone : contains (lit "tag=") callee = false := by
    rw [contains]
    cases hfind : find (lit "tag=") callee with
    | none => rfl
    | some n =>
        obtain ⟨before, after, rfl, -⟩ := find_eq_some hfind
        simp [lit] at hcallee
  cases htag : r.tag with
  | none =>
      simp only [Reply.calleeOf, htag, tagParam, extractTagParam_of_no_equals hcallee]
      rfl
  | some tag =>
      obtain ⟨hne, -, hends⟩ := hr.tag tag htag
      simp only [Reply.calleeOf, htag, hnone, Bool.false_eq_true, if_false, tagParam,
        extractTagParam_append hcallee hne hends]
      rfl

/-- The tag of a callee that has one is read, whatever the reply adds. -/
theorem tagParam_kept (r : Reply) {target tag : Str} (htarget : '=' ∉ target) (hne : tag ≠ [])
    (hends : ∀ ch ∈ tag, endsTag ch = false) :
    tagParam (r.calleeOf (target ++ lit ";tag=" ++ tag)) = some tag := by
  have hsuffix : lit "tag" <:+ target ++ lit ";tag" := ⟨target ++ lit ";", by simp [lit]⟩
  have hclear : '=' ∉ target ++ lit ";tag" := by
    simp [htarget, lit]
  obtain ⟨before, -, hfind⟩ := find_stem_of_suffix (by decide) hclear hsuffix tag
  have hvalue : (target ++ lit ";tag") ++ '=' :: tag = target ++ lit ";tag=" ++ tag := by
    simp [lit]
  have hstem : lit "tag" ++ ['='] = lit "tag=" := rfl
  rw [hvalue, hstem] at hfind
  have hsame : r.calleeOf (target ++ lit ";tag=" ++ tag) = target ++ lit ";tag=" ++ tag := by
    unfold Reply.calleeOf
    cases r.tag with
    | none => rfl
    | some own => simp only [contains, hfind, Option.isSome_some, if_true]
  rw [hsame]
  simp only [tagParam, extractTagParam_append htarget hne hends]
  rfl

/-- A tag is a part of its header. -/
theorem mem_of_mem_tagParam {header tag : Str} (h : tagParam header = some tag) {c : Char}
    (hc : c ∈ tag) : c ∈ header := by
  obtain ⟨found, hfound⟩ := extractTagParam_total header
  simp only [tagParam, hfound, Except.toOption, Option.join_some] at h
  subst h
  simp only [extractTagParam, pure, Except.pure] at hfound
  split at hfound
  · simp at hfound
  · next n hn =>
    obtain ⟨before, rest, rfl, rfl⟩ := find_eq_some hn
    rw [← byteLen_append, strFrom_append] at hfound
    have hpiece : ∃ piece, strTo rest ((findChar endsTag rest).getD (byteLen rest)) = .ok piece ∧
        ∀ ch ∈ piece, ch ∈ rest := by
      cases hstop : findChar endsTag rest with
      | none => exact ⟨rest, strTo_byteLen rest, fun _ => id⟩
      | some stop =>
          obtain ⟨before, ch, after, rfl, rfl, -, -⟩ := findChar_eq_some hstop
          exact ⟨before, strTo_append before (ch :: after), fun _ => List.mem_append_left _⟩
    obtain ⟨piece, hpiece, hsub⟩ := hpiece
    simp only [hpiece, bind, Except.bind] at hfound
    split at hfound
    · simp at hfound
    · obtain rfl := Option.some.inj (Except.ok.inj hfound)
      exact List.mem_append_right _ (hsub c (mem_of_mem_trim hc))

section Understood

variable {m : Message} {callId callee method : Str} {cseq : ℕ}
  (hm : Answerable m callId callee method cseq) {r : Reply} (hr : r.Sound)
include hm hr

/-- The endpoint that is read is the one of the answer. -/
theorem acceptedEndpoint_reply :
    acceptedEndpoint (r.message m).text = r.answer.map Answer.endpoint := by
  have hlettered := lettered_reply hm hr
  cases hanswer : r.answer with
  | none =>
      have hbody : (r.message m).body = [] := by simp [Reply.message, Reply.body, hanswer]
      have htype : ∀ f ∈ (r.message m).fields,
          eqIgnoreAsciiCase f.name (lit "Content-Type") = false := by
        have hheader : eqIgnoreAsciiCase (challengeHeader r.status) (lit "Content-Type") =
            false := by
          unfold challengeHeader
          split <;> decide
        simp only [Reply.message, copied, hanswer, List.forall_mem_append, List.forall_mem_map,
          List.forall_mem_singleton, Option.toList_none, List.not_mem_nil, false_implies,
          implies_true, and_true]
        exact ⟨⟨⟨⟨⟨⟨fun _ _ => by decide, fun _ _ => by decide⟩, fun _ _ => by decide⟩,
          fun _ _ => by decide⟩, fun _ _ => by decide⟩, fun _ _ => hheader⟩, rfl⟩
      simp only [acceptedEndpoint, sdpEndpoint, extractSdpBody_none hlettered hbody htype]
      rfl
  | some a =>
      have ha := hr.answer a hanswer
      have hbody : (r.message m).body = a.text := by simp [Reply.message, Reply.body, hanswer]
      have htype : (⟨lit "Content-Type", lit "application/sdp"⟩ : Field) ∈
          (r.message m).fields := by
        simp [Reply.message, hanswer]
      have hne : a.text ≠ [] := by
        simp [Answer.text, Answer.allLines, joinLines, connectionText, lit]
      have hflush : Flush a.text := by
        obtain ⟨l, ls, hlines⟩ : ∃ l ls, a.allLines = l :: ls :=
          List.exists_cons_of_ne_nil (by simp [Answer.allLines])
        have hl : SdpLine l := ha.line l (by simp [hlines])
        rw [Answer.text, hlines, joinLines_cons, List.append_assoc]
        exact hl.trimmed.first.append hl.trimmed.ne _
      have hextract : extractSdpBody (r.message m).text = .ok (some a.text) := by
        rw [← hbody] at hne hflush ⊢
        exact extractSdpBody_text hlettered hflush hne htype
      simp only [acceptedEndpoint, sdpEndpoint, hextract, ha.parseAnswer_text, bind,
        Except.bind]
      rfl

/-- The client reads a sound reply to a request as it was meant. -/
theorem reply_understood :
    Understood r callId callee method cseq (fromUtf8Lossy (utf8Bytes (r.message m).text)) := by
  rw [fromUtf8Lossy_utf8Bytes]
  have hlettered := lettered_reply hm hr
  have hstatus : r.status < 2 ^ 16 := hr.status.2.trans (by decide)
  have hasked : ∀ name ∈ askedHeaders, HeaderName name := by decide
  have hchallenge : HeaderName (challengeHeader r.status) := by
    unfold challengeHeader
    split <;> decide
  obtain ⟨hnum, hcseq⟩ := cseq_text hlettered hm.cseq_lt hm.method_ne hm.noBlanks
    (value_reply_cseq hm r)
  have hcallee := value_reply_callee hm r
  constructor
  · exact parseStatusCode_text hlettered hstatus
  · rw [headerValue_text hlettered (by decide), value_reply_callId hm r]
  · exact hnum
  · exact hcseq
  · rw [extractHeader_text hlettered (by decide), hcallee]
  · intro hequals
    rw [toTagOf, headerValue_text hlettered (by decide), hcallee]
    exact tagParam_calleeOf hr hequals
  · rintro target tag rfl htarget hne hends
    rw [toTagOf, headerValue_text hlettered (by decide), hcallee]
    exact tagParam_kept r htarget hne hends
  · intro tag htag
    rw [toTagOf, headerValue_text hlettered (by decide), hcallee] at htag
    exact fun c hc => (printable_callee hm hr).1 c (mem_of_mem_tagParam htag hc)
  · rw [usableChallenge, headerValue_text hlettered hchallenge, value_reply_challenge]
    cases hposed : r.challenge with
    | none => rfl
    | some posed =>
        have hparse := (hr.challenge posed hposed).parse_render
        simp only [Option.map_some, Option.bind_some, hparse]
        rfl
  · exact acceptedEndpoint_reply hm hr
  · exact
      { header := fun name hname => ⟨_, extractHeader_text hlettered (hasked name hname)⟩
        cseqNum := ⟨_, hnum⟩
        tagParam := extractTagParam_total
        sdpBody := extractSdpBody_total _
        challenge := parseDigestChallenge_total
        answer := parseAnswer_total }

end Understood

end SlmodemSipBridge.Sip
