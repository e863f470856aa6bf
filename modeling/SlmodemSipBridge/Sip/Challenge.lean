import SlmodemSipBridge.Sip.Digest
import SlmodemSipBridge.Support.Delimited

/-!
# Reading a rendered challenge

A server renders a challenge as `Digest p1="v1", p2="v2", …`, its parameters in
any order.  `parse_digest_challenge` finds each parameter by a search for its
name, `=` and a quote over the whole header.  A value that ends with such a name
and `=` is followed by a quote as well, so its end looks like the start of the
parameter; the file says exactly when that matters.
-/

namespace SlmodemSipBridge.Sip

open Rust

/-! ## A search for a quoted parameter, quote by quote -/

section Search

variable {param piece : Str}

theorem quoted_eq (param : Str) : param ++ lit "=\"" = (param ++ lit "=") ++ ['"'] := by
  rw [List.append_assoc]
  rfl

theorem not_mem_stem (hparam : '"' ∉ param) : '"' ∉ param ++ lit "=" := by
  simp only [List.mem_append, not_or]
  exact ⟨hparam, by decide⟩

/-- Without a quote there is no quoted parameter. -/
theorem extractQuotedParam_of_no_quote {header : Str} (hheader : '"' ∉ header) (param : Str) :
    extractQuotedParam header param = .ok none := by
  have hfind : find (param ++ lit "=\"") header = none := by
    cases hfound : find (param ++ lit "=\"") header with
    | none => rfl
    | some found =>
        obtain ⟨before, after, rfl, -⟩ := find_eq_some hfound
        rw [quoted_eq] at hheader
        simp at hheader
  simp only [extractQuotedParam, hfind]
  rfl

/-- The search starts at the first piece that ends with the name and `=`. -/
theorem extractQuotedParam_of_suffix (hparam : '"' ∉ param) (hpiece : '"' ∉ piece)
    (hends : param ++ lit "=" <:+ piece) (rest : Str) :
    extractQuotedParam (piece ++ '"' :: rest) param =
      match findChar (· == '"') rest with
      | none => .ok none
      | some stop => some <$> strTo rest stop := by
  obtain ⟨before, rfl, hfind⟩ :=
    find_stem_of_suffix (not_mem_stem hparam) hpiece hends rest
  rw [← quoted_eq] at hfind
  have hslice : strFrom (before ++ (param ++ lit "=") ++ '"' :: rest)
      (byteLen before + byteLen (param ++ lit "=\"")) = .ok rest := by
    have hcut : before ++ (param ++ lit "=") ++ '"' :: rest =
        (before ++ (param ++ lit "=\"")) ++ rest := by
      rw [quoted_eq]
      simp
    rw [← byteLen_append, hcut]
    exact strFrom_append _ _
  simp only [extractQuotedParam, hfind, hslice, bind, Except.bind]
  cases findChar (· == '"') rest with
  | none => rfl
  | some stop => cases strTo rest stop <;> rfl

/-- What is found there reaches to the next quote. -/
theorem extractQuotedParam_eq_some {value : Str} (hparam : '"' ∉ param)
    (hpiece : '"' ∉ piece) (hends : param ++ lit "=" <:+ piece) (hvalue : '"' ∉ value)
    (after : Str) :
    extractQuotedParam (piece ++ '"' :: (value ++ '"' :: after)) param =
      .ok (some value) := by
  have hstop : findChar (· == '"') (value ++ '"' :: after) = some (byteLen value) := by
    apply findChar_append
    · intro c hc
      simp only [beq_eq_false_iff_ne]
      rintro rfl
      exact hvalue hc
    · rfl
  rw [extractQuotedParam_of_suffix hparam hpiece hends, hstop]
  simp [Functor.map, Except.map]

/-- Without another quote nothing is found. -/
theorem extractQuotedParam_eq_none {rest : Str} (hparam : '"' ∉ param)
    (hpiece : '"' ∉ piece) (hends : param ++ lit "=" <:+ piece) (hrest : '"' ∉ rest) :
    extractQuotedParam (piece ++ '"' :: rest) param = .ok none := by
  have hstop : findChar (· == '"') rest = none := by
    rw [findChar_eq_none_iff]
    intro c hc
    simp only [beq_eq_false_iff_ne]
    rintro rfl
    exact hrest hc
  rw [extractQuotedParam_of_suffix hparam hpiece hends, hstop]

/-- Other pieces are passed over. -/
theorem extractQuotedParam_of_not_suffix (hparam : '"' ∉ param) (hpiece : '"' ∉ piece)
    (hends : ¬ param ++ lit "=" <:+ piece) (rest : Str) :
    extractQuotedParam (piece ++ '"' :: rest) param = extractQuotedParam rest param := by
  have hfind := find_stem_of_not_suffix (not_mem_stem hparam) hpiece hends rest
  rw [← quoted_eq] at hfind
  cases hfound : find (param ++ lit "=\"") rest with
  | none =>
      rw [hfound] at hfind
      simp only [Option.map_none] at hfind
      simp [extractQuotedParam, hfind, hfound]
  | some found =>
      obtain ⟨before, after, rfl, rfl⟩ := find_eq_some hfound
      rw [hfound] at hfind
      simp only [Option.map_some] at hfind
      have hnear : strFrom (before ++ (param ++ lit "=\"") ++ after)
          (byteLen before + byteLen (param ++ lit "=\"")) = .ok after := by
        rw [← byteLen_append]
        exact strFrom_append _ _
      have hfar : strFrom (piece ++ '"' :: (before ++ (param ++ lit "=\"") ++ after))
          (byteLen (piece ++ ['"']) + byteLen before + byteLen (param ++ lit "=\"")) =
          .ok after := by
        have hcut : piece ++ '"' :: (before ++ (param ++ lit "=\"") ++ after) =
            ((piece ++ ['"']) ++ before ++ (param ++ lit "=\"")) ++ after := by simp
        rw [hcut, ← byteLen_append, ← byteLen_append]
        exact strFrom_append _ _
      simp only [extractQuotedParam, hfind, hfound, hnear, hfar]

end Search

/-! ## Rendered challenges -/

/-- The parameters that the client reads. -/
inductive ParamName where
  | realm
  | nonce
  | opaqueParam
  | qop
  deriving DecidableEq, Repr

/-- A parameter's name on the wire. -/
def ParamName.text : ParamName → Str
  | .realm => lit "realm"
  | .nonce => lit "nonce"
  | .opaqueParam => lit "opaque"
  | .qop => lit "qop"

/-- A parameter as a server renders it. -/
inductive ChallengeParam where
  | quoted (name : ParamName) (value : Str)
  | algorithm
  deriving DecidableEq, Repr

/-- The text of one parameter. -/
def ChallengeParam.render : ChallengeParam → Str
  | .quoted name value => name.text ++ lit "=" ++ '"' :: (value ++ lit "\"")
  | .algorithm => lit "algorithm=MD5"

/-- The parameters one after the other, the first behind `lead` and each of the
others behind a comma and a blank. -/
def renderParams : Str → List ChallengeParam → Str
  | _, [] => []
  | lead, param :: params => lead ++ param.render ++ renderParams (lit ", ") params

/-- The value of a challenge header. -/
def renderChallenge (params : List ChallengeParam) : Str :=
  renderParams (lit "Digest ") params

/-- The value that a challenge has for a parameter. -/
def DigestChallenge.value (d : DigestChallenge) : ParamName → Option Str
  | .realm => some d.realm
  | .nonce => some d.nonce
  | .opaqueParam => d.opaqueParam
  | .qop => d.qop

/-- The parameters of a challenge, with or without `algorithm=MD5`. -/
def DigestChallenge.params (d : DigestChallenge) (algorithm : Bool) :
    List ChallengeParam :=
  ([.realm, .nonce, .opaqueParam, .qop].filterMap fun name =>
      (d.value name).map (.quoted name)) ++
    if algorithm then [.algorithm] else []

/-- No value has a quote in it. -/
def DigestChallenge.Clean (d : DigestChallenge) : Prop :=
  ∀ name value, d.value name = some value → '"' ∉ value

theorem mem_params_iff {d : DigestChallenge} {algorithm : Bool} {name : ParamName}
    {value : Str} :
    .quoted name value ∈ d.params algorithm ↔ d.value name = some value := by
  constructor
  · intro hmem
    rcases List.mem_append.mp hmem with hmem | hmem
    · obtain ⟨other, -, hother⟩ := List.mem_filterMap.mp hmem
      obtain ⟨v, hv, heq⟩ := Option.map_eq_some_iff.mp hother
      simp only [ChallengeParam.quoted.injEq] at heq
      obtain ⟨rfl, rfl⟩ := heq
      exact hv
    · cases algorithm <;> simp at hmem
  · intro hvalue
    apply List.mem_append_left
    rw [List.mem_filterMap]
    refine ⟨name, ?_, by simp [hvalue]⟩
    cases name <;> simp

/-! ## What the searches find in a rendering -/

/-- Whether a value ends with the name of a parameter and `=`. -/
def EndsLike (name : ParamName) (value : Str) : Prop := name.text ++ lit "=" <:+ value

instance (name : ParamName) (value : Str) : Decidable (EndsLike name value) :=
  inferInstanceAs (Decidable (_ <:+ _))

/-- The text from a value's closing quote to the next opening quote. -/
def gapText : Str → List ChallengeParam → Option Str
  | _, [] => none
  | lead, .quoted name _ :: _ => some (lead ++ name.text ++ lit "=")
  | lead, .algorithm :: params => gapText (lead ++ lit "algorithm=MD5, ") params

/-- What a search for a parameter finds in the parameters. -/
def readParam (name : ParamName) : List ChallengeParam → Option Str
  | [] => none
  | .algorithm :: params => readParam name params
  | .quoted other value :: params =>
      if other = name then some value
      else if EndsLike name value then gapText (lit ", ") params
      else readParam name params

theorem quote_notMem_text (name : ParamName) : '"' ∉ name.text := by
  cases name <;> decide

/-- No name ends another one. -/
theorem endsLike_name_iff {name other : ParamName} {lead : Str} :
    EndsLike name (lead ++ other.text ++ lit "=") ↔ name = other := by
  constructor
  · intro h
    have hreverse := List.reverse_prefix.mpr h
    cases name <;> cases other <;> first | rfl | simp [ParamName.text, lit] at hreverse
  · rintro rfl
    exact ⟨lead, (List.append_assoc _ _ _).symm⟩

theorem renderParams_append {a b : Str} {params : List ChallengeParam} (h : params ≠ []) :
    renderParams (a ++ b) params = a ++ renderParams b params := by
  cases params with
  | nil => exact absurd rfl h
  | cons param params => simp [renderParams]

theorem renderParams_quoted (lead : Str) (name : ParamName) (value : Str)
    (params : List ChallengeParam) :
    renderParams lead (.quoted name value :: params) =
      (lead ++ name.text ++ lit "=") ++
        '"' :: (value ++ '"' :: renderParams (lit ", ") params) := by
  simp [renderParams, ChallengeParam.render, lit]

theorem renderParams_algorithm (lead : Str) (params : List ChallengeParam) :
    renderParams lead (.algorithm :: params) =
      if params = [] then lead ++ lit "algorithm=MD5"
      else renderParams (lead ++ lit "algorithm=MD5, ") params := by
  by_cases hlast : params = []
  · simp [hlast, renderParams, ChallengeParam.render]
  · have hlit : lit "algorithm=MD5, " = lit "algorithm=MD5" ++ lit ", " := rfl
    rw [if_neg hlast, hlit, ← List.append_assoc, renderParams_append hlast]
    rfl

theorem quote_notMem_algorithm {lead : Str} (hlead : '"' ∉ lead) :
    '"' ∉ lead ++ lit "algorithm=MD5" ∧ '"' ∉ lead ++ lit "algorithm=MD5, " := by
  simp only [List.mem_append, not_or]
  exact ⟨⟨hlead, by decide⟩, hlead, by decide⟩

/-- The quotes of a rendering are those of its quoted parameters. -/
theorem renderParams_gap {lead : Str} (hlead : '"' ∉ lead) (params : List ChallengeParam) :
    match gapText lead params with
    | none => '"' ∉ renderParams lead params
    | some gap => '"' ∉ gap ∧ ∃ rest, renderParams lead params = gap ++ '"' :: rest := by
  induction params generalizing lead with
  | nil => simp [gapText, renderParams]
  | cons param params ih =>
      cases param with
      | quoted name value =>
          have hname := quote_notMem_text name
          refine ⟨?_, _, renderParams_quoted lead name value params⟩
          simp only [List.mem_append, not_or]
          exact ⟨⟨hlead, hname⟩, by decide⟩
      | algorithm =>
          obtain ⟨hshort, hlong⟩ := quote_notMem_algorithm hlead
          rw [renderParams_algorithm]
          by_cases hlast : params = []
          · rw [if_pos hlast, hlast]
            exact hshort
          · rw [if_neg hlast]
            exact ih hlong

/-- The search over a rendered challenge is the search over its parameters. -/
theorem extractQuotedParam_renderParams (name : ParamName) {lead : Str}
    (hlead : '"' ∉ lead) {params : List ChallengeParam}
    (hclean : ∀ other value, .quoted other value ∈ params → '"' ∉ value) :
    extractQuotedParam (renderParams lead params) name.text =
      .ok (readParam name params) := by
  have hname := quote_notMem_text name
  induction params generalizing lead with
  | nil => exact extractQuotedParam_of_no_quote (by simp [renderParams]) _
  | cons param params ih =>
      have hrest : ∀ other value, .quoted other value ∈ params → '"' ∉ value :=
        fun other value hmem => hclean other value (List.mem_cons_of_mem _ hmem)
      cases param with
      | algorithm =>
          obtain ⟨hshort, hlong⟩ := quote_notMem_algorithm hlead
          rw [renderParams_algorithm, readParam]
          by_cases hlast : params = []
          · rw [if_pos hlast, extractQuotedParam_of_no_quote hshort, hlast]
            rfl
          · rw [if_neg hlast]
            exact ih hlong hrest
      | quoted other value =>
          have hvalue : '"' ∉ value := hclean other value List.mem_cons_self
          have hpiece : '"' ∉ lead ++ other.text ++ lit "=" := by
            simp only [List.mem_append, not_or]
            exact ⟨⟨hlead, quote_notMem_text other⟩, by decide⟩
          rw [renderParams_quoted, readParam]
          by_cases hown : other = name
          · rw [if_pos hown]
            apply extractQuotedParam_eq_some hname hpiece _ hvalue
            exact endsLike_name_iff.mpr hown.symm
          rw [if_neg hown, extractQuotedParam_of_not_suffix hname hpiece
            fun h => hown (endsLike_name_iff.mp h).symm]
          by_cases hends : EndsLike name value
          · -- The value's closing quote is taken for the parameter's opening one.
            have hgap := renderParams_gap (by decide : '"' ∉ lit ", ") params
            rw [if_pos hends]
            cases hnext : gapText (lit ", ") params with
            | none =>
                rw [hnext] at hgap
                exact extractQuotedParam_eq_none hname hvalue hends hgap
            | some gap =>
                rw [hnext] at hgap
                obtain ⟨hclear, rest, hrender⟩ := hgap
                rw [hrender]
                exact extractQuotedParam_eq_some hname hvalue hends hclear rest
          · rw [if_neg hends, extractQuotedParam_of_not_suffix hname hvalue hends]
            exact ih (by decide) hrest

/-! ## When the challenge is read back -/

/-- A parameter at which the search for `name` stops. -/
def ChallengeParam.Stops (name : ParamName) : ChallengeParam → Prop
  | .quoted other value => other = name ∨ EndsLike name value
  | .algorithm => False

/-- In front of the parameter `name`, or where it is absent, a value ends with
the name and `=`; `after` are the parameters behind the first such value. -/
def Shadowed (name : ParamName) (params after : List ChallengeParam) : Prop :=
  ∃ before other value, params = before ++ .quoted other value :: after ∧
    (∀ param ∈ before, ¬ param.Stops name) ∧ other ≠ name ∧ EndsLike name value

theorem not_shadowed_nil (name : ParamName) (after : List ChallengeParam) :
    ¬ Shadowed name [] after := by
  rintro ⟨before, other, value, hsplit, -⟩
  simp at hsplit

/-- A parameter at which the search does not stop misleads nobody. -/
theorem shadowed_cons_iff {name : ParamName} {param : ChallengeParam}
    (hpass : ¬ param.Stops name) (params after : List ChallengeParam) :
    Shadowed name (param :: params) after ↔ Shadowed name params after := by
  constructor
  · rintro ⟨before, other, value, hsplit, hbefore, hother, hends⟩
    cases before with
    | nil =>
        obtain ⟨rfl, -⟩ := List.cons_eq_cons.mp hsplit
        exact absurd (Or.inr hends) hpass
    | cons first before =>
        obtain ⟨rfl, hrest⟩ := List.cons_eq_cons.mp hsplit
        exact ⟨before, other, value, hrest,
          fun p hp => hbefore p (List.mem_cons_of_mem _ hp), hother, hends⟩
  · rintro ⟨before, other, value, rfl, hbefore, hother, hends⟩
    refine ⟨param :: before, other, value, rfl, ?_, hother, hends⟩
    intro p hp
    rcases List.mem_cons.mp hp with rfl | hp
    · exact hpass
    · exact hbefore p hp

/-- The parameter itself is found where the search reaches it. -/
theorem not_shadowed_own (name : ParamName) (value : Str)
    (params after : List ChallengeParam) :
    ¬ Shadowed name (.quoted name value :: params) after := by
  rintro ⟨before, other, v, hsplit, hbefore, hother, -⟩
  cases before with
  | nil =>
      obtain ⟨heq, -⟩ := List.cons_eq_cons.mp hsplit
      simp only [ChallengeParam.quoted.injEq] at heq
      exact hother heq.1.symm
  | cons first before =>
      obtain ⟨rfl, -⟩ := List.cons_eq_cons.mp hsplit
      exact hbefore _ List.mem_cons_self (Or.inl rfl)

/-- A search that is not misled finds the parameter's own value; one that is
misled finds what stands behind the misleading value. -/
theorem readParam_cases (name : ParamName) (params : List ChallengeParam) :
    (∃ after, Shadowed name params after ∧
        readParam name params = gapText (lit ", ") after) ∨
      ((∀ after, ¬ Shadowed name params after) ∧
        ((∃ value, .quoted name value ∈ params ∧ readParam name params = some value) ∨
          (∀ value, .quoted name value ∉ params) ∧ readParam name params = none)) := by
  induction params with
  | nil => exact .inr ⟨not_shadowed_nil name, .inr ⟨by simp, rfl⟩⟩
  | cons param params ih =>
      by_cases hpass : param.Stops name
      · cases param with
        | algorithm => exact hpass.elim
        | quoted other value =>
            by_cases hown : other = name
            · subst hown
              refine .inr ⟨not_shadowed_own other value params, .inl ⟨value, ?_, ?_⟩⟩
              · exact List.mem_cons_self
              · rw [readParam, if_pos rfl]
            · have hends : EndsLike name value := hpass.resolve_left hown
              refine .inl ⟨params, ⟨[], other, value, rfl, by simp, hown, hends⟩, ?_⟩
              rw [readParam, if_neg hown, if_pos hends]
      · have hread : readParam name (param :: params) = readParam name params := by
          cases param with
          | algorithm => rfl
          | quoted other value =>
              rw [readParam, if_neg fun h => hpass (.inl h),
                if_neg fun h => hpass (.inr h)]
        have hmem : ∀ value,
            .quoted name value ∈ param :: params ↔ .quoted name value ∈ params := by
          intro value
          rw [List.mem_cons, or_iff_right]
          rintro rfl
          exact hpass (.inl rfl)
        simpa only [shadowed_cons_iff hpass, hread, hmem] using ih

/-- The gap behind a misleading value is one and the same. -/
theorem readParam_of_shadowed {name : ParamName} {params after : List ChallengeParam}
    (h : Shadowed name params after) :
    readParam name params = gapText (lit ", ") after := by
  obtain ⟨before, other, value, rfl, hbefore, hother, hends⟩ := h
  induction before with
  | nil => rw [List.nil_append, readParam, if_neg hother, if_pos hends]
  | cons param before ih =>
      have hpass : ¬ param.Stops name := hbefore param List.mem_cons_self
      have hread : readParam name (param :: (before ++ .quoted other value :: after)) =
          readParam name (before ++ .quoted other value :: after) := by
        cases param with
        | algorithm => rfl
        | quoted other' value' =>
            rw [readParam, if_neg fun h => hpass (.inl h),
              if_neg fun h => hpass (.inr h)]
      rw [List.cons_append, hread]
      exact ih fun p hp => hbefore p (List.mem_cons_of_mem _ hp)

/-- `parse_digest_challenge` as one lookup for each parameter. -/
theorem parseDigestChallenge_eq_ok_iff (header : Str) (d : DigestChallenge) :
    parseDigestChallenge header = .ok (.ok d) ↔
      ∀ name : ParamName,
        extractQuotedParam header name.text = .ok (d.value name) := by
  obtain ⟨realm, hrealm⟩ := extractQuotedParam_total header (lit "realm")
  obtain ⟨nonce, hnonce⟩ := extractQuotedParam_total header (lit "nonce")
  obtain ⟨opaqueParam, hopaque⟩ := extractQuotedParam_total header (lit "opaque")
  obtain ⟨qop, hqop⟩ := extractQuotedParam_total header (lit "qop")
  have hall : (∀ name : ParamName,
      extractQuotedParam header name.text = .ok (d.value name)) ↔
        realm = some d.realm ∧ nonce = some d.nonce ∧ opaqueParam = d.opaqueParam ∧
          qop = d.qop := by
    constructor
    · intro h
      have hr := h .realm
      have hn := h .nonce
      have ho := h .opaqueParam
      have hq := h .qop
      simp only [ParamName.text, hrealm, hnonce, hopaque, hqop, Except.ok.injEq] at hr hn ho hq
      exact ⟨hr, hn, ho, hq⟩
    · rintro ⟨rfl, rfl, rfl, rfl⟩ name
      cases name with
      | realm => exact hrealm
      | nonce => exact hnonce
      | opaqueParam => exact hopaque
      | qop => exact hqop
  rw [hall]
  simp only [parseDigestChallenge, hrealm, hnonce, hopaque, hqop, bind, Except.bind]
  cases realm with
  | none => simp [pure, Except.pure]
  | some realm =>
      cases nonce with
      | none => simp [pure, Except.pure]
      | some nonce =>
          simp only [pure, Except.pure, Except.ok.injEq, Option.some.injEq]
          constructor
          · rintro rfl
            exact ⟨rfl, rfl, rfl, rfl⟩
          · rintro ⟨rfl, rfl, rfl, rfl⟩
            rfl

/-- For every challenge without quotes in its values and every order of its
parameters, the rendered header is read back as that challenge exactly when, for
each of the four parameters, the text behind the first misleading value, if there
is one, happens to be what the parameter should have. -/
theorem parseDigestChallenge_render_iff {d : DigestChallenge} (hclean : d.Clean)
    {algorithm : Bool} {params : List ChallengeParam}
    (hperm : params.Perm (d.params algorithm)) :
    parseDigestChallenge (renderChallenge params) = .ok (.ok d) ↔
      ∀ name after, Shadowed name params after →
        gapText (lit ", ") after = d.value name := by
  have hmem : ∀ name value,
      .quoted name value ∈ params ↔ d.value name = some value := by
    intro name value
    rw [hperm.mem_iff, mem_params_iff]
  have hread : ∀ name : ParamName,
      extractQuotedParam (renderChallenge params) name.text =
        .ok (readParam name params) := by
    intro name
    apply extractQuotedParam_renderParams name (by decide)
    intro other value hvalue
    exact hclean other value ((hmem other value).mp hvalue)
  rw [parseDigestChallenge_eq_ok_iff]
  simp only [hread, Except.ok.injEq]
  constructor
  · intro h name after hshadowed
    rw [← readParam_of_shadowed hshadowed]
    exact h name
  · intro h name
    rcases readParam_cases name params with ⟨after, hshadowed, hfound⟩ | ⟨-, hfound⟩
    · rw [hfound]
      exact h name after hshadowed
    · rcases hfound with ⟨value, hvalue, hfound⟩ | ⟨habsent, hfound⟩
      · rw [hfound, (hmem name value).mp hvalue]
      · rw [hfound]
        cases hvalue : d.value name with
        | none => rfl
        | some value => exact absurd ((hmem name value).mpr hvalue) (habsent value)

/-! ## A nonce that ends like a parameter -/

/-- A challenge without qop, whose nonce ends with `qop=`. -/
def deceptiveChallenge : DigestChallenge where
  realm := lit "sip.telnyx.com"
  nonce := lit "dGVsbnl4qop="
  opaqueParam := none
  qop := none

/-- Its header, with the nonce in front of the realm. -/
def deceptiveParams : List ChallengeParam :=
  [.quoted .nonce (lit "dGVsbnl4qop="), .quoted .realm (lit "sip.telnyx.com"), .algorithm]

theorem clean_of_values {d : DigestChallenge}
    (h : ∀ name ∈ [ParamName.realm, .nonce, .opaqueParam, .qop],
      (d.value name).all (fun value => !value.contains '"') = true) : d.Clean := by
  intro name value hvalue hquote
  have hname := h name (by cases name <;> simp)
  rw [hvalue] at hname
  simp only [Option.all_some, Bool.not_eq_true', List.contains_eq_mem,
    decide_eq_false_iff_not] at hname
  exact hname hquote

theorem clean_deceptiveChallenge : deceptiveChallenge.Clean :=
  clean_of_values (by decide)

theorem perm_deceptiveParams : deceptiveParams.Perm (deceptiveChallenge.params true) := by
  decide

theorem parseDigestChallenge_render_deceptive :
    parseDigestChallenge (renderChallenge deceptiveParams) = .ok (.ok deceptiveChallenge) ↔
      ∀ name after, Shadowed name deceptiveParams after →
        gapText (lit ", ") after = deceptiveChallenge.value name :=
  parseDigestChallenge_render_iff clean_deceptiveChallenge perm_deceptiveParams

/-- The nonce is taken for the start of a qop. -/
theorem parseDigestChallenge_deceived :
    ¬ ∀ (d : DigestChallenge), d.Clean → ∀ (algorithm : Bool)
      (params : List ChallengeParam), params.Perm (d.params algorithm) →
        parseDigestChallenge (renderChallenge params) = .ok (.ok d) := by
  intro h
  have hread := h deceptiveChallenge clean_deceptiveChallenge true deceptiveParams
    perm_deceptiveParams
  revert hread
  decide

end SlmodemSipBridge.Sip
