import SlmodemSipBridge.Sip.Challenge
import SlmodemSipBridge.Sip.Credentials
import SlmodemSipBridge.Sip.Outcome
import SlmodemSipBridge.Support.Envelope

/-!
# The verifier at the other end

The values that `parse_digest_challenge` takes from a challenge have no quote and no
line feed, so the answer to it stands on one line; and where no value has a backslash
either, the verifier reads the credentials as they were meant.
-/

namespace SlmodemSipBridge.Sip

open Rust Envelope
open Parameters (Parameter Verbatim lookup)

/-! ## Printed parameters -/

/-- The text of parameters ends with a character that is no blank. -/
theorem flushEnd_params {params : List Parameter} (hne : params ≠ [])
    (h : ∀ p ∈ params, p.isQuoted = false → FlushEnd p.value) :
    FlushEnd (Parameters.render params) := by
  have hrender : ∀ p ∈ params, FlushEnd p.render := by
    intro p hp
    rw [Parameter.render]
    split
    · exact flushEnd_append (by decide) _
    · next htoken => exact flushEnd_append (h p hp (Bool.eq_false_of_not_eq_true htoken)) _
  clear h
  induction params with
  | nil => exact absurd rfl hne
  | cons p params ih =>
      rw [List.forall_mem_cons] at hrender
      cases params with
      | nil => simpa [Parameters.render, List.intercalate] using hrender.1
      | cons q params =>
          rw [Parameters.render_cons_cons]
          exact flushEnd_append (ih (by simp) hrender.2) _

/-! ## What a challenge is made of -/

/-- No value has a quote or a line feed in it. -/
def DigestChallenge.OneLined (d : DigestChallenge) : Prop :=
  ∀ name value, d.value name = some value → '"' ∉ value ∧ '\n' ∉ value

/-- A quoted parameter is cut out between two quotes. -/
theorem quotedParam_cut {header param value : Str}
    (h : extractQuotedParam header param = .ok (some value)) :
    '"' ∉ value ∧ ∀ c ∈ value, c ∈ header := by
  simp only [extractQuotedParam] at h
  split at h
  · simp [pure, Except.pure] at h
  · next found hfound =>
    obtain ⟨before, after, rfl, rfl⟩ := find_eq_some hfound
    have hrest : strFrom (before ++ (param ++ lit "=\"") ++ after)
        (byteLen before + byteLen (param ++ lit "=\"")) = .ok after := by
      rw [← byteLen_append]
      exact strFrom_append _ _
    simp only [hrest, bind, Except.bind] at h
    split at h
    · simp [pure, Except.pure] at h
    · next stop hstop =>
      obtain ⟨piece, c, rest, rfl, rfl, -, hpiece⟩ := findChar_eq_some hstop
      rw [strTo_append] at h
      obtain rfl : piece = value := by simpa [pure, Except.pure] using h
      constructor
      · intro hmem
        have hquote := hpiece _ hmem
        simp at hquote
      · intro d hd
        simp [hd]

/-- Whatever header a challenge is parsed from, its values are cut out of it. -/
theorem parseDigestChallenge_values {header : Str} {d : DigestChallenge}
    (h : parseDigestChallenge header = .ok (.ok d)) {name : ParamName} {value : Str}
    (hvalue : d.value name = some value) :
    extractQuotedParam header name.text = .ok (some value) := by
  obtain ⟨realm, hrealm⟩ := extractQuotedParam_total header (lit "realm")
  obtain ⟨nonce, hnonce⟩ := extractQuotedParam_total header (lit "nonce")
  obtain ⟨opaqueParam, hopaque⟩ := extractQuotedParam_total header (lit "opaque")
  obtain ⟨qop, hqop⟩ := extractQuotedParam_total header (lit "qop")
  simp only [parseDigestChallenge, hrealm, hnonce, hopaque, hqop, bind, Except.bind] at h
  cases realm with
  | none => simp [pure, Except.pure] at h
  | some realm =>
      cases nonce with
      | none => simp [pure, Except.pure] at h
      | some nonce =>
          simp only [pure, Except.pure, Except.ok.injEq] at h
          subst h
          cases name with
          | realm =>
              obtain rfl : realm = value := by simpa [DigestChallenge.value] using hvalue
              exact hrealm
          | nonce =>
              obtain rfl : nonce = value := by simpa [DigestChallenge.value] using hvalue
              exact hnonce
          | opaqueParam =>
              obtain rfl : opaqueParam = some value := hvalue
              exact hopaque
          | qop =>
              obtain rfl : qop = some value := hvalue
              exact hqop

/-- No piece between two delimiters has the delimiter in it. -/
theorem notMem_of_mem_splitOn (q : Char) (s : Str) : ∀ piece ∈ s.splitOn q, q ∉ piece := by
  induction s with
  | nil => simp [List.splitOn_eq_splitOnP]
  | cons c s ih =>
      rw [List.splitOn_eq_splitOnP] at ih ⊢
      rw [List.splitOnP_cons_eq_if_modifyHead]
      by_cases hc : c = q
      · rw [if_pos (beq_iff_eq.mpr hc), List.forall_mem_cons]
        exact ⟨by simp, ih⟩
      · obtain ⟨piece, pieces, hpieces⟩ :=
          List.exists_cons_of_ne_nil (List.splitOnP_ne_nil (· == q) s)
        rw [hpieces, List.forall_mem_cons] at ih
        rw [if_neg (by simpa using hc), hpieces, List.modifyHead_cons, List.forall_mem_cons,
          List.mem_cons, not_or]
        exact ⟨⟨fun heq => hc heq.symm, ih.1⟩, ih.2⟩

/-- No line has a line feed in it. -/
theorem newline_notMem_line {s l : Str} (h : l ∈ lines s) : '\n' ∉ l := by
  have hends : ∀ pieces : List Str, (∀ piece ∈ pieces, '\n' ∉ piece) →
      ∀ l ∈ endLines pieces, '\n' ∉ l := by
    intro pieces
    induction pieces using endLines.induct with
    | case1 => simp [endLines]
    | case2 last hempty => simp [endLines, hempty]
    | case3 last hlast =>
        intro hall l hl
        rw [endLines, if_neg hlast, List.mem_singleton] at hl
        exact hl ▸ hall last List.mem_cons_self
    | case4 piece next rest ih =>
        intro hall l hl
        rw [List.forall_mem_cons] at hall
        rw [endLines, List.mem_cons] at hl
        rcases hl with rfl | hl
        · unfold stripCarriageReturn
          split
          · exact fun hmem => hall.1 (List.dropLast_subset piece hmem)
          · exact hall.1
        · exact ih hall.2 l hl
  exact hends _ (notMem_of_mem_splitOn '\n' s) l h

theorem newline_notMem_headerValue {msg name value : Str}
    (h : headerValue msg name = some value) : '\n' ∉ value := by
  obtain ⟨l, hl, hline⟩ := List.exists_of_findSome?_eq_some h
  intro hmem
  unfold headerOfLine at hline
  simp only at hline
  split at hline
  · obtain rfl := Option.some.inj hline
    exact newline_notMem_line hl (mem_of_mem_trim (List.mem_of_mem_drop (mem_of_mem_trim hmem)))
  · simp at hline

/-- The values of a challenge that the client can use. -/
theorem oneLined_of_usable {status : ℕ} {resp : Str} {d : DigestChallenge}
    (h : usableChallenge status resp = some d) : d.OneLined := by
  unfold usableChallenge at h
  obtain ⟨header, hheader, hparsed⟩ := Option.bind_eq_some_iff.mp h
  have hok : parseDigestChallenge header = .ok (.ok d) := by
    obtain ⟨parsed, hparse⟩ := parseDigestChallenge_total header
    rw [hparse] at hparsed ⊢
    cases parsed with
    | error error => simp [Except.toOption] at hparsed
    | ok d' =>
        obtain rfl : d' = d := by simpa [Except.toOption] using hparsed
        rfl
  intro name value hvalue
  obtain ⟨hquote, hmem⟩ := quotedParam_cut (parseDigestChallenge_values hok hvalue)
  exact ⟨hquote, fun hline => newline_notMem_headerValue hheader (hmem _ hline)⟩

/-! ## The answer to a challenge -/

/-- The parameters answer a challenge: they are for its realm and nonce, for the user
and the URI, and give its opaque value back. -/
structure Answers (username uri : Str) (d : DigestChallenge) (params : List Parameter) :
    Prop where
  username : lookup params (lit "username") = some username
  realm : lookup params (lit "realm") = some d.realm
  nonce : lookup params (lit "nonce") = some d.nonce
  uri : lookup params (lit "uri") = some uri
  opaqueParam : lookup params (lit "opaque") = d.opaqueParam

/-- No value of the challenge has a backslash in it. -/
def DigestChallenge.Unescaped (d : DigestChallenge) : Prop :=
  ∀ name value, d.value name = some value → '\\' ∉ value

section Answer

variable (md5Hex : Str → Str) (cnonce : Str) (d : DigestChallenge)
variable (username password method uri : Str)

/-- The parameters of the header answer the challenge. -/
theorem authParams_answers :
    Answers username uri d (d.authParams md5Hex cnonce username password method uri) where
  username := rfl
  realm := rfl
  nonce := rfl
  uri := rfl
  opaqueParam := by
    obtain ⟨realm, nonce, opaqueParam, qop⟩ := d
    cases opaqueParam <;> cases qop <;> rfl

theorem authParams_ne_nil :
    d.authParams md5Hex cnonce username password method uri ≠ [] := by
  simp [DigestChallenge.authParams]

/-- What holds of the values of the challenge, of the user and the URI, and of digits holds
of each value of the answer. -/
theorem forall_authParam_value {P : Str → Prop}
    (hd : ∀ name value, d.value name = some value → P value) (huser : P username) (huri : P uri)
    (hresponse : P (computeDigestResponse md5Hex cnonce username password d.realm d.nonce method
      uri d.qop).response)
    (hcnonce : P cnonce) (hwords : ∀ word ∈ [lit "MD5", lit "auth", nonceCount], P word) :
    ∀ p ∈ d.authParams md5Hex cnonce username password method uri, P p.value := by
  simp only [List.forall_mem_cons, List.not_mem_nil, false_implies, implies_true, and_true]
    at hwords
  simp only [DigestChallenge.authParams, List.forall_mem_append, List.forall_mem_cons,
    List.not_mem_nil, false_implies, implies_true, and_true]
  refine ⟨⟨⟨huser, hd .realm _ rfl, hd .nonce _ rfl, huri, hresponse, hwords.1⟩, ?_⟩, ?_⟩
  · cases hcase : d.opaqueParam with
    | none => simp
    | some value => simpa using hd .opaqueParam value hcase
  · split
    · simp only [List.forall_mem_cons, List.not_mem_nil, false_implies, implies_true, and_true]
      refine ⟨hwords.2.1, hwords.2.2, ?_⟩
      simpa [computeDigestResponse] using hcnonce
    · simp

/-- The names of the answer are tokens, and so are the values without quotes. -/
theorem authParam_token : ∀ p ∈ d.authParams md5Hex cnonce username password method uri,
    Parameters.IsToken p.name ∧ (p.isQuoted = false → Parameters.IsToken p.value) := by
  simp only [DigestChallenge.authParams, List.forall_mem_append, List.forall_mem_cons,
    List.not_mem_nil, Bool.true_eq_false, false_implies, implies_true, and_true]
  refine ⟨⟨by decide, ?_⟩, ?_⟩
  · cases d.opaqueParam with
    | none => simp
    | some value =>
        simp only [List.forall_mem_singleton, Bool.true_eq_false, false_implies, and_true]
        decide
  · split
    · simp only [List.forall_mem_cons, List.not_mem_nil, Bool.true_eq_false, false_implies,
        implies_true, and_true]
      decide
    · simp

section Verbatim

variable {md5Hex cnonce d username uri} (hmd5 : ∀ s, IsHex (md5Hex s)) (hcnonce : IsHex cnonce)
  (hd : ∀ name value, d.value name = some value → Verbatim value) (huser : Verbatim username)
  (huri : Verbatim uri)
include hmd5 hcnonce hd huser huri

/-- The verifier reads the parameters that were meant. -/
theorem readCredentials_answer :
    readCredentials (d.authHeaderValue md5Hex cnonce username password method uri) =
      some (d.authParams md5Hex cnonce username password method uri) := by
  have hresponse : Verbatim (computeDigestResponse md5Hex cnonce username password d.realm d.nonce
      method uri d.qop).response := by
    rw [response_eq]
    exact (hmd5 _).verbatim
  have hvalues := forall_authParam_value md5Hex cnonce d username password method uri hd huser
    huri hresponse hcnonce.verbatim (by decide)
  have htokens := authParam_token md5Hex cnonce d username password method uri
  rw [authHeaderValue_eq_render, readCredentials_append]
  exact Parameters.read_render (authParams_ne_nil _ _ _ _ _ _ _) fun p hp =>
    ⟨(htokens p hp).1, fun _ => hvalues p hp, (htokens p hp).2⟩

/-- It finds the response that it demands, if its challenge has no qop or the qop `auth`. -/
theorem authParams_verifies (hqop : d.qop = none ∨ d.qop = some (lit "auth")) :
    Verifies md5Hex password method
      (d.authParams md5Hex cnonce username password method uri) := by
  have hanswerable : d.Answerable username uri :=
    ⟨hqop, huser, hd .realm _ rfl, hd .nonce _ rfl, huri,
      fun value hvalue => harmlessOpaque_of_verbatim (hd .opaqueParam value hvalue) _⟩
  obtain ⟨params, hread, hverifies⟩ := hanswerable.verifies hmd5 hcnonce
  rw [readCredentials_answer password method hmd5 hcnonce hd huser huri,
    Option.some.injEq] at hread
  exact hread ▸ hverifies

end Verbatim

variable {md5Hex cnonce d username uri}

/-- The answer stands on one line, with no blanks around. -/
theorem answer_legible (hmd5 : ∀ s, IsHex (md5Hex s)) (hcnonce : IsHex cnonce) (hd : d.OneLined)
    (huser : '\n' ∉ username) (huri : '\n' ∉ uri) :
    '\n' ∉ d.authHeaderValue md5Hex cnonce username password method uri ∧
      Trimmed (d.authHeaderValue md5Hex cnonce username password method uri) := by
  have htokens := authParam_token md5Hex cnonce d username password method uri
  constructor
  · have hresponse : '\n' ∉ (computeDigestResponse md5Hex cnonce username password d.realm
        d.nonce method uri d.qop).response := by
      rw [response_eq]
      exact (hmd5 _).notMem (by decide)
    have hvalues := forall_authParam_value md5Hex cnonce d username password method uri
      (fun name value hvalue => (hd name value hvalue).2) huser huri hresponse
      (hcnonce.notMem (by decide)) (by decide)
    have hparams : '\n' ∉ Parameters.render
        (d.authParams md5Hex cnonce username password method uri) := by
      refine Parameters.notMem_render (by decide) fun p hp => ⟨?_, hvalues p hp⟩
      exact fun hmem => absurd ((htokens p hp).1.2 _ hmem) (by decide)
    rw [authHeaderValue_eq_render]
    simp [lit, hparams]
  · have hends : ∀ p ∈ d.authParams md5Hex cnonce username password method uri,
        p.isQuoted = false → FlushEnd p.value := by
      simp only [DigestChallenge.authParams, List.forall_mem_append, List.forall_mem_cons,
        List.not_mem_nil, false_implies, implies_true, and_true]
      refine ⟨⟨by simp; decide, ?_⟩, ?_⟩
      · cases d.opaqueParam <;> simp
      · split
        · simp only [List.forall_mem_cons, List.not_mem_nil, false_implies, implies_true, and_true]
          exact ⟨fun _ => by decide, fun _ => by decide, by simp⟩
        · simp
    rw [authHeaderValue_eq_render]
    exact trimmed_of_head (c := 'D') rfl (by decide)
      (flushEnd_params (authParams_ne_nil _ _ _ _ _ _ _) hends)

end Answer

end SlmodemSipBridge.Sip
