import Mathlib.Logic.Function.Basic
import Mathlib.Tactic.Set
import SlmodemSipBridge.Sip.Digest
import SlmodemSipBridge.Support.Delimited
import SlmodemSipBridge.Support.Parameters

/-!
# The credentials a verifier checks

A verifier of RFC 2617 reads the parameters of the header value that answers a
challenge, and recomputes the response from the others.  `auth_header_value`
announces `qop=auth` for every challenge with a qop, while `compute_digest_response`
uses its formula for the value `auth` alone; and it writes the values between quotes
as they are, though a quote or a backslash in them means something else there.
-/

namespace SlmodemSipBridge.Sip

open Rust
open Parameters (Parameter ReadsMore Verbatim IsToken Separated lookup readMore readQuoted
  quotedText verbatim_of_readQuoted)

/-! ## The verifier -/

/-- Read the credentials of the Digest scheme. -/
def readCredentials (value : Str) : Option (List Parameter) :=
  if startsWith (lit "Digest ") value then
    Parameters.read (value.drop (lit "Digest ").length)
  else none

/-- What a verifier of RFC 2617 digests for the response, from the parameters of a
header: it knows the password and the method of the request. -/
def digestInput (md5Hex : Str → Str) (password method : Str) (params : List Parameter) :
    Option Str := do
  let username ← lookup params (lit "username")
  let realm ← lookup params (lit "realm")
  let nonce ← lookup params (lit "nonce")
  let uri ← lookup params (lit "uri")
  let ha1 := md5Hex (username ++ lit ":" ++ realm ++ lit ":" ++ password)
  let ha2 := md5Hex (method ++ lit ":" ++ uri)
  match lookup params (lit "qop") with
  | none => return ha1 ++ lit ":" ++ nonce ++ lit ":" ++ ha2
  | some qop =>
      let nc ← lookup params (lit "nc")
      let cnonce ← lookup params (lit "cnonce")
      return ha1 ++ lit ":" ++ nonce ++ lit ":" ++ nc ++ lit ":" ++ cnonce ++ lit ":" ++ qop ++
        lit ":" ++ ha2

/-- The header carries a response, the one its other parameters give. -/
def Verifies (md5Hex : Str → Str) (password method : Str) (params : List Parameter) :
    Prop :=
  ∃ input, digestInput md5Hex password method params = some input ∧
    lookup params (lit "response") = some (md5Hex input)

/-- What the parameters put between the nonce and the digest of the request. -/
def protection (params : List Parameter) : Option Str :=
  match lookup params (lit "qop") with
  | none => some []
  | some qop => do
      let nc ← lookup params (lit "nc")
      let cnonce ← lookup params (lit "cnonce")
      return lit ":" ++ nc ++ lit ":" ++ cnonce ++ lit ":" ++ qop

theorem digestInput_eq_some_iff {md5Hex : Str → Str} {password method : Str}
    {params : List Parameter} {input : Str} :
    digestInput md5Hex password method params = some input ↔
      ∃ username realm nonce uri part, lookup params (lit "username") = some username ∧
        lookup params (lit "realm") = some realm ∧ lookup params (lit "nonce") = some nonce ∧
        lookup params (lit "uri") = some uri ∧ protection params = some part ∧
        input = md5Hex (username ++ lit ":" ++ realm ++ lit ":" ++ password) ++ lit ":" ++
          nonce ++ part ++ lit ":" ++ md5Hex (method ++ lit ":" ++ uri) := by
  unfold digestInput protection
  cases lookup params (lit "username") with
  | none => simp
  | some username =>
  cases lookup params (lit "realm") with
  | none => simp
  | some realm =>
  cases lookup params (lit "nonce") with
  | none => simp
  | some nonce =>
  cases lookup params (lit "uri") with
  | none => simp
  | some uri =>
  cases lookup params (lit "qop") with
  | none => simp [eq_comm]
  | some qop =>
  cases lookup params (lit "nc") with
  | none => simp
  | some nc =>
  cases lookup params (lit "cnonce") with
  | none => simp
  | some cnonce => simp [eq_comm]

/-! ## The answer to a challenge -/

section Header

variable (md5Hex : Str → Str) (cnonce : Str) (d : DigestChallenge)
variable (username password method uri : Str)

/-- The parameters of the header value that answers a challenge. -/
def DigestChallenge.authParams : List Parameter :=
  let digestResp :=
    computeDigestResponse md5Hex cnonce username password d.realm d.nonce method uri d.qop
  [⟨lit "username", username, true⟩, ⟨lit "realm", d.realm, true⟩,
    ⟨lit "nonce", d.nonce, true⟩, ⟨lit "uri", uri, true⟩,
    ⟨lit "response", digestResp.response, true⟩, ⟨lit "algorithm", lit "MD5", false⟩] ++
    (match d.opaqueParam with
      | some value => [⟨lit "opaque", value, true⟩]
      | none => []) ++
    if d.qop.isSome then
      [⟨lit "qop", lit "auth", false⟩, ⟨lit "nc", nonceCount, false⟩,
        ⟨lit "cnonce", digestResp.cnonce, true⟩]
    else []

/-- `auth_header_value` renders these parameters. -/
theorem authHeaderValue_eq_render :
    d.authHeaderValue md5Hex cnonce username password method uri =
      lit "Digest " ++
        Parameters.render (d.authParams md5Hex cnonce username password method uri) := by
  obtain ⟨realm, nonce, opaqueParam, qop⟩ := d
  cases opaqueParam <;> cases qop <;>
    simp [DigestChallenge.authHeaderValue, DigestChallenge.authParams, Parameters.render,
      Parameter.render, List.intercalate, lit]

/-- What the answer to a challenge puts between the nonce and the digest of the
request. -/
def DigestChallenge.protection : Str :=
  if d.qop = some (lit "auth") then
    lit ":" ++ nonceCount ++ lit ":" ++ cnonce ++ lit ":auth"
  else []

/-- What the answer to a challenge digests for its response. -/
def DigestChallenge.answerInput : Str :=
  md5Hex (username ++ lit ":" ++ d.realm ++ lit ":" ++ password) ++ lit ":" ++ d.nonce ++
    d.protection cnonce ++ lit ":" ++ md5Hex (method ++ lit ":" ++ uri)

theorem response_eq :
    (computeDigestResponse md5Hex cnonce username password d.realm d.nonce method uri
      d.qop).response = md5Hex (d.answerInput md5Hex cnonce username password method uri) := by
  unfold DigestChallenge.answerInput DigestChallenge.protection computeDigestResponse
  split <;> simp [lit]

/-- The text that gives an opaque value back. -/
def opaqueText (value : Str) : Str := lit ", opaque=\"" ++ value ++ lit "\""

/-- The text that announces a quality of protection. -/
def qualityText : Str :=
  lit ", qop=auth, nc=" ++ nonceCount ++ lit ", cnonce=\"" ++ cnonce ++ lit "\""

/-- The text of the parameters that a challenge adds to the answer. -/
def DigestChallenge.moreText : Str :=
  d.opaqueParam.elim [] opaqueText ++ if d.qop.isSome then qualityText cnonce else []

/-- The text of the header value from the response on. -/
def DigestChallenge.responseText : Str :=
  quotedText (lit "response") (md5Hex (d.answerInput md5Hex cnonce username password method uri))
    (',' :: ' ' :: ((⟨lit "algorithm", lit "MD5", false⟩ : Parameter).render ++
      d.moreText cnonce))

/-- The header value, quote by quote. -/
theorem authHeaderValue_eq :
    d.authHeaderValue md5Hex cnonce username password method uri =
      lit "Digest " ++ (lit "username" ++ '=' :: '"' :: (username ++ '"' ::
        quotedText (lit "realm") d.realm (quotedText (lit "nonce") d.nonce
          (quotedText (lit "uri") uri
            (d.responseText md5Hex cnonce username password method uri))))) := by
  unfold DigestChallenge.responseText
  rw [← response_eq md5Hex cnonce d username password method uri]
  obtain ⟨realm, nonce, opaqueParam, qop⟩ := d
  cases opaqueParam <;> cases qop <;>
    simp [DigestChallenge.authHeaderValue, DigestChallenge.moreText, opaqueText, qualityText,
      quotedText, Parameter.render, computeDigestResponse, lit]

end Header

/-! ## Which answers verify -/

/-- A text of lowercase hexadecimal digits. -/
def IsHex (s : Str) : Prop := ∀ c ∈ s, ('0' ≤ c ∧ c ≤ '9') ∨ ('a' ≤ c ∧ c ≤ 'f')

theorem IsHex.notMem {s : Str} (h : IsHex s) {c : Char}
    (hc : ¬ (('0' ≤ c ∧ c ≤ '9') ∨ ('a' ≤ c ∧ c ≤ 'f'))) : c ∉ s :=
  fun hmem => hc (h c hmem)

theorem IsHex.verbatim {s : Str} (h : IsHex s) : Verbatim s :=
  ⟨h.notMem (by decide), h.notMem (by decide)⟩

/-- The opaque value of a challenge, in its quotes, reads as parameters none of which
is taken for the qop of the answer, its count or its client nonce. -/
def HarmlessOpaque (qop : Option Str) (value : Str) : Prop :=
  ∃ params, readMore (opaqueText value) = some params ∧
    if qop.isSome then
      (∀ found ∈ lookup params (lit "qop"), found = lit "auth") ∧
        (∀ found ∈ lookup params (lit "nc"), found = nonceCount) ∧
        lookup params (lit "cnonce") = none
    else lookup params (lit "qop") = none

/-- A challenge that is answered as a verifier demands: it has no qop or the qop `auth`,
and what is put between quotes stands for itself there. -/
structure DigestChallenge.Answerable (d : DigestChallenge) (username uri : Str) : Prop where
  qop : d.qop = none ∨ d.qop = some (lit "auth")
  username : Verbatim username
  realm : Verbatim d.realm
  nonce : Verbatim d.nonce
  uri : Verbatim uri
  opaqueParam : ∀ value ∈ d.opaqueParam, HarmlessOpaque d.qop value

/-- An opaque value without quotes and backslashes is harmless. -/
theorem harmlessOpaque_of_verbatim {value : Str} (h : Verbatim value) (qop : Option Str) :
    HarmlessOpaque qop value := by
  have hclear : (⟨lit "opaque", value, true⟩ : Parameter).Clear :=
    ⟨(by decide : IsToken (lit "opaque")), fun _ => h, by simp⟩
  have hread : ReadsMore (opaqueText value) [⟨lit "opaque", value, true⟩] := by
    have hmore := Parameters.readsMore_renderMore (List.forall_mem_singleton.mpr hclear)
    simpa [opaqueText, Parameters.renderMore, Parameter.render, lit] using hmore
  refine ⟨_, Parameters.readMore_eq_some_iff.mpr hread, ?_⟩
  have hnone : lookup [⟨lit "opaque", value, true⟩] (lit "qop") = none ∧
      lookup [⟨lit "opaque", value, true⟩] (lit "nc") = none ∧
      lookup [⟨lit "opaque", value, true⟩] (lit "cnonce") = none := ⟨rfl, rfl, rfl⟩
  cases qop with
  | none => exact hnone.1
  | some qop => simp [hnone]

/-- The parameters that announce a quality of protection. -/
def qualityParams (cnonce : Str) : List Parameter :=
  [⟨lit "qop", lit "auth", false⟩, ⟨lit "nc", nonceCount, false⟩,
    ⟨lit "cnonce", cnonce, true⟩]

theorem reads_qualityText {cnonce : Str} (h : IsHex cnonce) :
    ReadsMore (qualityText cnonce) (qualityParams cnonce) := by
  have hclear : ∀ p ∈ qualityParams cnonce, p.Clear := by
    simp only [qualityParams, List.forall_mem_cons, List.not_mem_nil, false_implies, implies_true,
      and_true]
    exact ⟨⟨by decide, by simp, fun _ => by decide⟩, ⟨by decide, by simp, fun _ => by decide⟩,
      ⟨(by decide : IsToken (lit "cnonce")), fun _ => h.verbatim, by simp⟩⟩
  have htext : qualityText cnonce = Parameters.renderMore (qualityParams cnonce) := by
    simp [qualityText, qualityParams, Parameters.renderMore, Parameter.render, lit]
  rw [htext]
  exact Parameters.readsMore_renderMore hclear

theorem separated_qualityText (cnonce : Str) : Separated (qualityText cnonce) :=
  Or.inr ⟨_, rfl⟩

theorem separated_moreText (cnonce : Str) (d : DigestChallenge) :
    Separated (d.moreText cnonce) := by
  unfold DigestChallenge.moreText
  cases d.opaqueParam with
  | some value => exact Or.inr ⟨_, rfl⟩
  | none =>
      cases d.qop with
      | none => exact Or.inl rfl
      | some qop => exact Or.inr ⟨_, rfl⟩

theorem protection_append_quality {params : List Parameter} {cnonce : Str} :
    protection (params ++ qualityParams cnonce) =
      some (lit ":" ++ ((lookup params (lit "nc")).getD nonceCount) ++ lit ":" ++
        ((lookup params (lit "cnonce")).getD cnonce) ++ lit ":" ++
          ((lookup params (lit "qop")).getD (lit "auth"))) := by
  have hquality : lookup (qualityParams cnonce) (lit "qop") = some (lit "auth") ∧
      lookup (qualityParams cnonce) (lit "nc") = some nonceCount ∧
      lookup (qualityParams cnonce) (lit "cnonce") = some cnonce := ⟨rfl, rfl, rfl⟩
  simp only [protection, Parameters.lookup_append, hquality, Option.or_some, bind,
    Option.bind_some, pure]

/-- What the challenge adds to the answer is read, and protects it as the response
does. -/
theorem reads_moreText {d : DigestChallenge} {cnonce : Str} (hcnonce : IsHex cnonce)
    (hqop : d.qop = none ∨ d.qop = some (lit "auth"))
    (hharmless : ∀ value ∈ d.opaqueParam, HarmlessOpaque d.qop value) :
    ∃ params, ReadsMore (d.moreText cnonce) params ∧
      protection params = some (d.protection cnonce) := by
  unfold DigestChallenge.moreText DigestChallenge.protection
  rcases hqop with hqop | hqop
  · have hnone : ¬ none = some (lit "auth") := by simp
    rw [hqop, if_neg hnone, Option.isSome_none, if_neg Bool.false_ne_true, List.append_nil]
    cases hvalue : d.opaqueParam with
    | none => exact ⟨[], .nil, rfl⟩
    | some value =>
        obtain ⟨params, hread, hlookup⟩ := hharmless value hvalue
        rw [hqop, Option.isSome_none, if_neg Bool.false_ne_true] at hlookup
        refine ⟨params, Parameters.readMore_eq_some_iff.mp hread, ?_⟩
        rw [protection, hlookup]
  · rw [hqop, if_pos rfl, Option.isSome_some, if_pos rfl]
    cases hvalue : d.opaqueParam with
    | none =>
        refine ⟨[] ++ qualityParams cnonce, by simpa using reads_qualityText hcnonce, ?_⟩
        rw [protection_append_quality]
        simp [lookup, lit]
    | some value =>
        obtain ⟨params, hread, hlookup⟩ := hharmless value hvalue
        rw [hqop, Option.isSome_some, if_pos rfl] at hlookup
        obtain ⟨hfoundQop, hfoundNc, hfoundCnonce⟩ := hlookup
        have hdefault : ∀ {found : Option Str} {value : Str}, (∀ x ∈ found, x = value) →
            found.getD value = value := by
          intro found value hall
          cases found with
          | none => rfl
          | some x => exact hall x rfl
        refine ⟨params ++ qualityParams cnonce, ?_, ?_⟩
        · exact (Parameters.readMore_eq_some_iff.mp hread).append (reads_qualityText hcnonce)
            (separated_qualityText cnonce)
        · rw [protection_append_quality, hdefault hfoundQop, hdefault hfoundNc, hfoundCnonce]
          simp [lit]

/-- The parameters of the header before those that the challenge adds. -/
def leadParams (username realm nonce uri response : Str) : List Parameter :=
  [⟨lit "username", username, true⟩, ⟨lit "realm", realm, true⟩, ⟨lit "nonce", nonce, true⟩,
    ⟨lit "uri", uri, true⟩, ⟨lit "response", response, true⟩,
    ⟨lit "algorithm", lit "MD5", false⟩]

theorem protection_lead (username realm nonce uri response : Str) (params : List Parameter) :
    protection (leadParams username realm nonce uri response ++ params) = protection params := by
  have hlead : ∀ name ∈ [lit "qop", lit "nc", lit "cnonce"],
      lookup (leadParams username realm nonce uri response) name = none := by
    simp only [List.forall_mem_cons, List.not_mem_nil, false_implies, implies_true, and_true]
    exact ⟨rfl, rfl, rfl⟩
  unfold protection
  simp only [Parameters.lookup_append, hlead (lit "qop") (by simp), hlead (lit "nc") (by simp),
    hlead (lit "cnonce") (by simp), Option.none_or]

theorem startsWith_append (s t : Str) : startsWith s (s ++ t) = true :=
  List.isPrefixOf_iff_prefix.mpr (List.prefix_append s t)

theorem readCredentials_append (s : Str) :
    readCredentials (lit "Digest " ++ s) = Parameters.read s := by
  rw [readCredentials, if_pos (startsWith_append _ _), List.drop_left]

section Reading

variable {md5Hex : Str → Str} {cnonce : Str} {d : DigestChallenge}
variable {username password method uri : Str}

/-- Reading the header begins with the user. -/
theorem readCredentials_eq_some_iff {params : List Parameter} :
    readCredentials (d.authHeaderValue md5Hex cnonce username password method uri) =
        some params ↔
      ∃ user rest params', params = ⟨lit "username", user, true⟩ :: params' ∧
        readQuoted (username ++ '"' ::
          quotedText (lit "realm") d.realm (quotedText (lit "nonce") d.nonce
            (quotedText (lit "uri") uri
              (d.responseText md5Hex cnonce username password method uri)))) =
          some (user, rest) ∧ ReadsMore rest params' := by
  have hname : IsToken (lit "username") := by decide
  rw [authHeaderValue_eq, readCredentials_append, Parameters.read_eq_some_iff]
  constructor
  · rintro ⟨p, rest, params', rfl, hp, hrest⟩
    have hread := Parameters.readParameter_eq_some_iff.mpr hp
    rw [Parameters.readParameter_quoted hname] at hread
    obtain ⟨⟨user, after⟩, huser, heq⟩ := Option.map_eq_some_iff.mp hread
    obtain ⟨rfl, rfl⟩ := Prod.mk.inj heq
    exact ⟨user, after, params', rfl, huser, hrest⟩
  · rintro ⟨user, rest, params', rfl, huser, hrest⟩
    exact ⟨_, rest, params', rfl, .quoted _ _ user rest hname huser, hrest⟩

/-- The response is read as it is, and then what the challenge adds. -/
theorem reads_responseText_iff (hmd5 : ∀ s, IsHex (md5Hex s)) {params : List Parameter} :
    ReadsMore (d.responseText md5Hex cnonce username password method uri) params ↔
      ∃ params', params =
          ⟨lit "response", md5Hex (d.answerInput md5Hex cnonce username password method uri),
            true⟩ :: ⟨lit "algorithm", lit "MD5", false⟩ :: params' ∧
        ReadsMore (d.moreText cnonce) params' := by
  have halgorithm : (⟨lit "algorithm", lit "MD5", false⟩ : Parameter).Clear :=
    ⟨by decide, by simp, fun _ => by decide⟩
  rw [DigestChallenge.responseText, ReadsMore.quotedText_iff (by decide)]
  simp only [Parameters.readQuoted_verbatim (hmd5 _).verbatim, Option.some.injEq, Prod.mk.injEq]
  constructor
  · rintro ⟨value, rest, params', rfl, ⟨rfl, rfl⟩, hrest⟩
    obtain ⟨params'', rfl, hmore⟩ :=
      (ReadsMore.render_iff halgorithm (separated_moreText cnonce d)).mp hrest
    exact ⟨params'', rfl, hmore⟩
  · rintro ⟨params', rfl, hmore⟩
    exact ⟨_, _, _, rfl, ⟨rfl, rfl⟩,
      (ReadsMore.render_iff halgorithm (separated_moreText cnonce d)).mpr ⟨params', rfl, hmore⟩⟩

/-- The parameters of an answer whose values stand for themselves are read as they were
meant. -/
theorem readCredentials_of_verbatim (hmd5 : ∀ s, IsHex (md5Hex s)) (huser : Verbatim username)
    (hrealm : Verbatim d.realm) (hnonce : Verbatim d.nonce) (huri : Verbatim uri)
    {params : List Parameter} (hmore : ReadsMore (d.moreText cnonce) params) :
    readCredentials (d.authHeaderValue md5Hex cnonce username password method uri) =
      some (leadParams username d.realm d.nonce uri
        (md5Hex (d.answerInput md5Hex cnonce username password method uri)) ++ params) := by
  rw [readCredentials_eq_some_iff]
  refine ⟨username, _, _, rfl, Parameters.readQuoted_verbatim huser _, ?_⟩
  rw [ReadsMore.quotedText_iff (by decide)]
  refine ⟨d.realm, _, _, rfl, Parameters.readQuoted_verbatim hrealm _, ?_⟩
  rw [ReadsMore.quotedText_iff (by decide)]
  refine ⟨d.nonce, _, _, rfl, Parameters.readQuoted_verbatim hnonce _, ?_⟩
  rw [ReadsMore.quotedText_iff (by decide)]
  refine ⟨uri, _, _, rfl, Parameters.readQuoted_verbatim huri _, ?_⟩
  exact (reads_responseText_iff hmd5).mpr ⟨params, rfl, hmore⟩

/-- A verifier accepts the answer to a challenge that can be answered. -/
theorem DigestChallenge.Answerable.verifies (h : d.Answerable username uri)
    (hmd5 : ∀ s, IsHex (md5Hex s)) (hcnonce : IsHex cnonce) :
    ∃ params, readCredentials
        (d.authHeaderValue md5Hex cnonce username password method uri) = some params ∧
      Verifies md5Hex password method params := by
  obtain ⟨params, hmore, hprotection⟩ := reads_moreText hcnonce h.qop h.opaqueParam
  refine ⟨_, readCredentials_of_verbatim hmd5 h.username h.realm h.nonce h.uri hmore,
    d.answerInput md5Hex cnonce username password method uri, ?_, rfl⟩
  rw [digestInput_eq_some_iff]
  refine ⟨username, d.realm, d.nonce, uri, d.protection cnonce, rfl, rfl, rfl, rfl, ?_, rfl⟩
  rw [protection_lead, hprotection]

end Reading

/-! ## A digest that keeps everything -/

/-- A code of a character in hexadecimal digits. -/
def charDigits (c : Char) : Str := List.replicate c.toNat 'a' ++ ['b']

/-- A digest of at least a given length, from which the text can be recovered. -/
def wideDigest (width : ℕ) (s : Str) : Str :=
  List.replicate width 'a' ++ 'c' :: s.flatMap charDigits

theorem isHex_wideDigest (width : ℕ) (s : Str) : IsHex (wideDigest width s) := by
  have ha : ∀ n, ∀ c ∈ List.replicate n 'a', c ∈ lit "abc" := by
    intro n c hc
    rw [List.eq_of_mem_replicate hc]
    decide
  have hall : ∀ c ∈ wideDigest width s, c ∈ lit "abc" := by
    simp only [wideDigest, charDigits, List.mem_append, List.mem_cons, List.mem_flatMap]
    rintro c (hc | rfl | ⟨d, -, hc | rfl | hc⟩)
    · exact ha _ c hc
    · decide
    · exact ha _ c hc
    · decide
    · simp at hc
  intro c hc
  have hdigit : ∀ d ∈ lit "abc", ('0' ≤ d ∧ d ≤ '9') ∨ ('a' ≤ d ∧ d ≤ 'f') := by decide
  exact hdigit c (hall c hc)

theorem length_wideDigest (width : ℕ) (s : Str) :
    width + s.length < (wideDigest width s).length := by
  have hchars : s.length ≤ (s.flatMap charDigits).length := by
    induction s with
    | nil => exact le_rfl
    | cons c s ih =>
        simp only [List.flatMap_cons, List.length_append, List.length_cons, charDigits]
        omega
  simp only [wideDigest, List.length_append, List.length_cons, List.length_replicate]
  omega

theorem charDigits_append_inj {c d : Char} {x y : Str}
    (h : charDigits c ++ x = charDigits d ++ y) : c = d ∧ x = y := by
  have hb : ∀ n, 'b' ∉ List.replicate n 'a' := by
    intro n hmem
    exact absurd (List.eq_of_mem_replicate hmem) (by decide)
  rw [charDigits, charDigits, List.append_assoc, List.append_assoc] at h
  obtain ⟨hcode, hrest⟩ := append_delimiter_inj (hb _) (hb _) h
  have hnat := congrArg List.length hcode
  rw [List.length_replicate, List.length_replicate] at hnat
  exact ⟨Char.toNat_inj.mp hnat, hrest⟩

theorem wideDigest_inj {width : ℕ} {s t : Str} (h : wideDigest width s = wideDigest width t) :
    s = t := by
  have hcodes : s.flatMap charDigits = t.flatMap charDigits :=
    (List.cons_eq_cons.mp (List.append_cancel_left h)).2
  clear h
  induction s generalizing t with
  | nil =>
      cases t with
      | nil => rfl
      | cons d t => simp [charDigits] at hcodes
  | cons c s ih =>
      cases t with
      | nil => simp [charDigits] at hcodes
      | cons d t =>
          obtain ⟨rfl, hrest⟩ := charDigits_append_inj hcodes
          rw [ih hrest]

/-! ## What verifies can be answered -/

section Verified

variable {d : DigestChallenge} {username password method uri : Str}

/-- The text is longer than what the digests of a header are made of. -/
theorem length_lt_of_digestInput {width : ℕ} {params : List Parameter} {input : Str}
    (h : digestInput (wideDigest width) password method params = some input) :
    width < input.length := by
  obtain ⟨user, realm, nonce, uri', part, -, -, -, -, -, rfl⟩ := digestInput_eq_some_iff.mp h
  have hwide := length_wideDigest width (user ++ lit ":" ++ realm ++ lit ":" ++ password)
  simp only [List.length_append]
  omega

/-- Changing a digest at the text that it gives itself changes no text. -/
theorem digestInput_update {width : ℕ} {params : List Parameter} {input : Str}
    (h : digestInput (wideDigest width) password method params = some input) (value : Str) :
    digestInput (Function.update (wideDigest width) input value) password method params =
      some input := by
  rw [digestInput_eq_some_iff] at h ⊢
  obtain ⟨user, realm, nonce, uri', part, huser, hrealm, hnonce, huri, hpart, hinput⟩ := h
  have hlength := congrArg List.length hinput
  simp only [List.length_append] at hlength
  have hha1 := length_wideDigest width (user ++ lit ":" ++ realm ++ lit ":" ++ password)
  have hha2 := length_wideDigest width (method ++ lit ":" ++ uri')
  have hne1 : user ++ lit ":" ++ realm ++ lit ":" ++ password ≠ input := by
    intro heq
    rw [heq] at hha1 hlength
    omega
  have hne2 : method ++ lit ":" ++ uri' ≠ input := by
    intro heq
    rw [heq] at hha2 hlength
    omega
  refine ⟨user, realm, nonce, uri', part, huser, hrealm, hnonce, huri, hpart, ?_⟩
  rw [Function.update_of_ne hne1, Function.update_of_ne hne2]
  exact hinput

/-- What a verifier digests is what the response is a digest of, if it accepts the answer
whatever the digest is. -/
theorem exists_input_eq
    (h : ∀ md5Hex : Str → Str, (∀ s, IsHex (md5Hex s)) → ∀ cnonce : Str, IsHex cnonce →
      ∃ params, readCredentials
          (d.authHeaderValue md5Hex cnonce username password method uri) = some params ∧
        Verifies md5Hex password method params)
    {width : ℕ} (hha1 : (username ++ lit ":" ++ d.realm ++ lit ":" ++ password).length ≤ width)
    (hha2 : (method ++ lit ":" ++ uri).length ≤ width) {cnonce : Str} (hcnonce : IsHex cnonce) :
    ∃ params, readCredentials
        (d.authHeaderValue (wideDigest width) cnonce username password method uri) =
          some params ∧
      digestInput (wideDigest width) password method params =
        some (d.answerInput (wideDigest width) cnonce username password method uri) := by
  obtain ⟨params, hread, input, hinput, hresponse⟩ :=
    h (wideDigest width) (isHex_wideDigest width) cnonce hcnonce
  refine ⟨params, hread, ?_⟩
  by_contra hother
  have hne : d.answerInput (wideDigest width) cnonce username password method uri ≠ input := by
    rintro rfl
    exact hother hinput
  have hlong := length_lt_of_digestInput hinput
  -- another digest of that text leaves the header as it is
  set other := Function.update (wideDigest width) input ('a' :: wideDigest width input)
    with hotherDef
  have hsame : ∀ s ≠ input, other s = wideDigest width s := fun s hs =>
    Function.update_of_ne hs _ _
  have hself : other input = 'a' :: wideDigest width input := Function.update_self _ _ _
  have hhex : ∀ s, IsHex (other s) := by
    intro s
    by_cases hs : s = input
    · rw [hs, hself]
      exact List.forall_mem_cons.mpr ⟨by decide, isHex_wideDigest width input⟩
    · rw [hsame s hs]
      exact isHex_wideDigest width s
  have hanswer : d.answerInput other cnonce username password method uri =
      d.answerInput (wideDigest width) cnonce username password method uri := by
    unfold DigestChallenge.answerInput
    rw [hsame _ (fun heq => by rw [heq] at hha1; omega),
      hsame _ (fun heq => by rw [heq] at hha2; omega)]
  have hheader : d.authHeaderValue other cnonce username password method uri =
      d.authHeaderValue (wideDigest width) cnonce username password method uri := by
    rw [authHeaderValue_eq, authHeaderValue_eq, DigestChallenge.responseText,
      DigestChallenge.responseText, hanswer, hsame _ hne]
  obtain ⟨params', hread', input', hinput', hresponse'⟩ := h other hhex cnonce hcnonce
  rw [hheader, hread, Option.some.injEq] at hread'
  subst hread'
  rw [hotherDef, digestInput_update hinput, Option.some.injEq] at hinput'
  subst hinput'
  rw [hresponse, hself, Option.some.injEq] at hresponse'
  have hlength := congrArg List.length hresponse'
  simp at hlength

/-- What stands between the nonce and the digest of the request begins with a colon. -/
theorem head?_protection {params : List Parameter} {part : Str}
    (h : protection params = some part) : part.head? ≠ some '\\' ∧ part.head? ≠ some '"' := by
  have hcolon : part = [] ∨ ∃ rest, part = ':' :: rest := by
    unfold protection at h
    split at h
    · exact Or.inl (Option.some.inj h).symm
    · obtain ⟨nc, -, h⟩ := Option.bind_eq_some_iff.mp h
      obtain ⟨cnonce, -, h⟩ := Option.bind_eq_some_iff.mp h
      exact Or.inr ⟨_, (Option.some.inj h).symm⟩
  rcases hcolon with rfl | ⟨rest, rfl⟩ <;> simp

/-- The digests at its ends and what lies between them are told from an input. -/
theorem input_inj {ha1 ha1' ha2 ha2' nonce nonce' part part' : Str} (h1 : ':' ∉ ha1)
    (h1' : ':' ∉ ha1') (h2 : ':' ∉ ha2) (h2' : ':' ∉ ha2')
    (h : ha1 ++ lit ":" ++ nonce ++ part ++ lit ":" ++ ha2 =
      ha1' ++ lit ":" ++ nonce' ++ part' ++ lit ":" ++ ha2') :
    ha1 = ha1' ∧ nonce ++ part = nonce' ++ part' ∧ ha2 = ha2' := by
  have hcolon : lit ":" = [':'] := rfl
  rw [hcolon, List.append_assoc _ [':'] ha2, List.append_assoc _ [':'] ha2'] at h
  obtain ⟨hfront, hha2⟩ := append_delimiter_inj_last h2 h2' h
  rw [List.append_assoc _ nonce, List.append_assoc _ [':'], List.append_assoc _ nonce',
    List.append_assoc _ [':']] at hfront
  obtain ⟨hha1, hmiddle⟩ := append_delimiter_inj h1 h1' hfront
  exact ⟨hha1, hmiddle, hha2⟩

/-- An answer that is digested as it is read has values that stand for themselves, and
what the challenge adds to it is read as it is meant. -/
theorem verbatim_of_input_eq {width : ℕ} {cnonce : Str} {params : List Parameter}
    (hread : readCredentials
      (d.authHeaderValue (wideDigest width) cnonce username password method uri) = some params)
    (hinput : digestInput (wideDigest width) password method params =
      some (d.answerInput (wideDigest width) cnonce username password method uri)) :
    Verbatim username ∧ Verbatim d.realm ∧ Verbatim d.nonce ∧ Verbatim uri ∧
      ∃ more, ReadsMore (d.moreText cnonce) more ∧
        protection more = some (d.protection cnonce) := by
  have hcolon : ∀ s, ':' ∉ wideDigest width s := fun s =>
    (isHex_wideDigest width s).notMem (by decide)
  obtain ⟨user, rest₁, more₁, rfl, hreadUser, hmore₁⟩ := readCredentials_eq_some_iff.mp hread
  obtain ⟨user', realm, nonce, uri', part, huser, hrealm, hnonce, huri, hpart, heq⟩ :=
    digestInput_eq_some_iff.mp hinput
  obtain rfl : user = user' := Option.some.inj huser
  obtain ⟨hha1, hmiddle, hha2⟩ :=
    input_inj (hcolon _) (hcolon _) (hcolon _) (hcolon _) heq
  -- one quoted value after the other is what the digest has in its place
  have hnames : user ++ (lit ":" ++ realm) = username ++ (lit ":" ++ d.realm) := by
    have hsame := (wideDigest_inj hha1).symm
    rw [List.append_cancel_right_eq, List.append_cancel_right_eq] at hsame
    simpa using hsame
  obtain ⟨hverbatimUser, rfl, rfl⟩ := verbatim_of_readQuoted hreadUser hnames (by simp [lit])
  obtain ⟨value, rest₂, more₂, rfl, hreadRealm, hmore₂⟩ :=
    (ReadsMore.quotedText_iff (by decide)).mp hmore₁
  obtain rfl : value = realm := Option.some.inj hrealm
  obtain ⟨hverbatimRealm, rfl, rfl⟩ := verbatim_of_readQuoted (x := []) (y := []) hreadRealm
    (by simpa [lit] using hnames) (by simp)
  obtain ⟨value, rest₃, more₃, rfl, hreadNonce, hmore₃⟩ :=
    (ReadsMore.quotedText_iff (by decide)).mp hmore₂
  obtain rfl : value = nonce := Option.some.inj hnonce
  obtain ⟨hverbatimNonce, rfl, rfl⟩ :=
    verbatim_of_readQuoted hreadNonce hmiddle.symm (head?_protection hpart)
  obtain ⟨value, rest₄, more₄, rfl, hreadUri, hmore₄⟩ :=
    (ReadsMore.quotedText_iff (by decide)).mp hmore₃
  obtain rfl : value = uri' := Option.some.inj huri
  obtain rfl : uri = value := List.append_cancel_left (wideDigest_inj hha2)
  obtain ⟨hverbatimUri, -, rfl⟩ := verbatim_of_readQuoted (x := []) (y := []) hreadUri rfl (by simp)
  obtain ⟨more, rfl, hmore⟩ := (reads_responseText_iff (isHex_wideDigest width)).mp hmore₄
  refine ⟨hverbatimUser, hverbatimRealm, hverbatimNonce, hverbatimUri, more, hmore, ?_⟩
  have hlead := protection_lead user d.realm d.nonce uri
    (wideDigest width (d.answerInput (wideDigest width) cnonce user password method uri)) more
  rw [← List.append_cancel_left hmiddle] at hpart
  exact hlead.symm.trans hpart

/-- A quote inside the announcement of a quality of protection leaves nothing that can be
read on. -/
theorem not_readsMore_inside {cnonce v after : Str} (hcnonce : IsHex cnonce)
    (h : readQuoted (qualityText cnonce) = some (v, after)) (params : List Parameter) :
    ¬ ReadsMore after params := by
  have hlead : Verbatim (lit ", qop=auth, nc=" ++ nonceCount ++ lit ", cnonce=") := by decide
  have htext : qualityText cnonce =
      lit ", qop=auth, nc=" ++ nonceCount ++ lit ", cnonce=" ++ '"' :: (cnonce ++ ['"']) := by
    simp [qualityText, lit]
  rw [htext, Parameters.readQuoted_verbatim hlead] at h
  obtain ⟨-, rfl⟩ := Prod.mk.inj (Option.some.inj h)
  intro hread
  have hcomma : ',' ∉ cnonce := hcnonce.notMem (by decide)
  generalize hs : cnonce ++ ['"'] = s at hread
  cases hread with
  | nil => simp at hs
  | cons more p rest params hp hrest =>
      cases cnonce with
      | nil => simp at hs
      | cons c cnonce =>
          rw [List.cons_append] at hs
          obtain ⟨rfl, -⟩ := List.cons_eq_cons.mp hs
          exact hcomma List.mem_cons_self

/-- Where the answer announces a quality of protection, its parameters are read behind
those that the opaque value reads as. -/
theorem reads_moreText_announced {cnonce : Str} (hcnonce : IsHex cnonce)
    (hqop : d.qop.isSome = true) {params : List Parameter}
    (h : ReadsMore (d.moreText cnonce) params) :
    ∃ before, params = before ++ qualityParams cnonce ∧
      ReadsMore (d.opaqueParam.elim [] opaqueText) before := by
  rw [DigestChallenge.moreText, if_pos hqop] at h
  cases hvalue : d.opaqueParam with
  | none =>
      rw [hvalue, Option.elim_none, List.nil_append] at h
      exact ⟨[], h.unique (reads_qualityText hcnonce), .nil⟩
  | some value =>
      have htext : opaqueText value ++ qualityText cnonce =
          (lit ", opaque=\"" ++ value) ++ '"' :: qualityText cnonce := by
        simp [opaqueText, lit]
      rw [hvalue, Option.elim_some, htext] at h
      obtain ⟨before, after, rfl, hbefore, hafter⟩ :=
        h.split fun v rest hread => not_readsMore_inside hcnonce hread
      refine ⟨before, ?_, hbefore⟩
      rw [hafter.unique (reads_qualityText hcnonce)]

/-- The qop, the count and the client nonce that the answer is digested with are the ones
that are read, for an empty client nonce and another. -/
theorem lookups_of_protection {params : List Parameter}
    (h : ∀ cnonce ∈ [[], lit "0"], protection (params ++ qualityParams cnonce) =
      some (d.protection cnonce)) :
    d.qop = some (lit "auth") ∧ (∀ found ∈ lookup params (lit "qop"), found = lit "auth") ∧
      (∀ found ∈ lookup params (lit "nc"), found = nonceCount) ∧
      lookup params (lit "cnonce") = none := by
  rw [List.forall_mem_cons, List.forall_mem_singleton, protection_append_quality,
    protection_append_quality, Option.some.injEq, Option.some.injEq] at h
  obtain ⟨hempty, hzero⟩ := h
  have hqop : d.qop = some (lit "auth") := by
    by_contra hother
    rw [DigestChallenge.protection, if_neg hother] at hempty
    simp [lit] at hempty
  rw [DigestChallenge.protection, if_pos hqop] at hempty hzero
  have hcnonce : lookup params (lit "cnonce") = none := by
    cases hlookup : lookup params (lit "cnonce") with
    | none => rfl
    | some found =>
        rw [hlookup] at hempty hzero
        have hlength := congrArg List.length (hempty.symm.trans hzero)
        simp [lit] at hlength
  rw [hcnonce] at hempty
  have hcut : (lookup params (lit "nc")).getD nonceCount ++ ':' :: ':' ::
      (lookup params (lit "qop")).getD (lit "auth") =
        nonceCount ++ ':' :: ':' :: lit "auth" := by
    simpa [lit] using hempty
  obtain ⟨hnc, hauth⟩ := append_delimiters_inj (by decide) (by decide) hcut
  refine ⟨hqop, ?_, ?_, hcnonce⟩
  · intro found hfound
    rwa [Option.mem_def.mp hfound] at hauth
  · intro found hfound
    rwa [Option.mem_def.mp hfound] at hnc

/-- A challenge whose answer verifies whatever the digest and the client nonce are can be
answered. -/
theorem answerable_of_verifies
    (h : ∀ md5Hex : Str → Str, (∀ s, IsHex (md5Hex s)) → ∀ cnonce : Str, IsHex cnonce →
      ∃ params, readCredentials
          (d.authHeaderValue md5Hex cnonce username password method uri) = some params ∧
        Verifies md5Hex password method params) :
    d.Answerable username uri := by
  set width := (username ++ lit ":" ++ d.realm ++ lit ":" ++ password).length +
    (method ++ lit ":" ++ uri).length with hwidth
  have hverbatim : ∀ cnonce, IsHex cnonce →
      Verbatim username ∧ Verbatim d.realm ∧ Verbatim d.nonce ∧ Verbatim uri ∧
        ∃ more, ReadsMore (d.moreText cnonce) more ∧
          protection more = some (d.protection cnonce) := by
    intro cnonce hcnonce
    obtain ⟨params, hread, hinput⟩ :=
      exists_input_eq h (Nat.le_add_right _ _) (Nat.le_add_left _ _) hcnonce
    exact verbatim_of_input_eq hread hinput
  have hempty : IsHex [] := by simp [IsHex]
  have hzero : IsHex (lit "0") := by simp [IsHex, lit]
  obtain ⟨huser, hrealm, hnonce, huri, more, hmore, hprotection⟩ := hverbatim [] hempty
  cases hqop : d.qop with
  | none =>
      refine ⟨Or.inl hqop, huser, hrealm, hnonce, huri, ?_⟩
      intro value hvalue
      rw [DigestChallenge.moreText, Option.mem_def.mp hvalue, hqop, Option.isSome_none,
        if_neg Bool.false_ne_true, List.append_nil] at hmore
      refine ⟨more, Parameters.readMore_eq_some_iff.mpr hmore, ?_⟩
      rw [hqop, Option.isSome_none, if_neg Bool.false_ne_true]
      rw [DigestChallenge.protection, hqop, if_neg (by simp)] at hprotection
      cases hlookup : lookup more (lit "qop") with
      | none => rfl
      | some found =>
          rw [protection, hlookup] at hprotection
          obtain ⟨nc, -, hrest⟩ := Option.bind_eq_some_iff.mp hprotection
          obtain ⟨cnonce, -, hrest⟩ := Option.bind_eq_some_iff.mp hrest
          simp [lit] at hrest
  | some qop =>
      have hsome : d.qop.isSome = true := by rw [hqop]; rfl
      obtain ⟨before, rfl, hbefore⟩ := reads_moreText_announced hempty hsome hmore
      obtain ⟨-, -, -, -, more', hmore', hprotection'⟩ := hverbatim (lit "0") hzero
      obtain ⟨before', rfl, hbefore'⟩ := reads_moreText_announced hzero hsome hmore'
      obtain rfl := hbefore.unique hbefore'
      obtain ⟨hauth, hfoundQop, hfoundNc, hfoundCnonce⟩ := lookups_of_protection
        (List.forall_mem_cons.mpr ⟨hprotection, List.forall_mem_singleton.mpr hprotection'⟩)
      refine ⟨Or.inr hauth, huser, hrealm, hnonce, huri, ?_⟩
      intro value hvalue
      rw [Option.mem_def.mp hvalue, Option.elim_some] at hbefore
      refine ⟨before, Parameters.readMore_eq_some_iff.mpr hbefore, ?_⟩
      rw [if_pos hsome]
      exact ⟨hfoundQop, hfoundNc, hfoundCnonce⟩

/-- The answer to a challenge verifies, whatever the digest and the client nonce are,
exactly for a challenge that can be answered. -/
theorem authHeaderValue_verifies_iff (d : DigestChallenge)
    (username password method uri : Str) :
    (∀ md5Hex : Str → Str, (∀ s, IsHex (md5Hex s)) → ∀ cnonce : Str, IsHex cnonce →
      ∃ params, readCredentials
          (d.authHeaderValue md5Hex cnonce username password method uri) = some params ∧
        Verifies md5Hex password method params) ↔ d.Answerable username uri := by
  constructor
  · exact answerable_of_verifies
  · intro h md5Hex hmd5 cnonce hcnonce
    exact h.verifies hmd5 hcnonce

/-- A challenge that offers two qualities of protection. -/
def listChallenge : DigestChallenge where
  realm := lit "sip.telnyx.com"
  nonce := lit "3f2a"
  opaqueParam := none
  qop := some (lit "auth,auth-int")

/-- The answer to a challenge with two qualities of protection is refused. -/
theorem authHeaderValue_listRefused :
    ¬ ∀ md5Hex : Str → Str, (∀ s, IsHex (md5Hex s)) → ∀ cnonce : Str, IsHex cnonce →
      ∃ params, readCredentials
          (listChallenge.authHeaderValue md5Hex cnonce (lit "user") (lit "secret")
            (lit "INVITE") (lit "sip:123@sip.telnyx.com")) = some params ∧
        Verifies md5Hex (lit "secret") (lit "INVITE") params := by
  intro h
  have hqop := (answerable_of_verifies h).qop
  revert hqop
  decide

end Verified

end SlmodemSipBridge.Sip
