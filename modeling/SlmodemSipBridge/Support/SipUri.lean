import SlmodemSipBridge.Support.Delimited

/-!
# SIP URIs

The grammar of a SIP URI in RFC 3261: user and password, host and port, parameters
and headers, with the scheme in lower case.  Each part keeps the delimiters that end
it out of its alphabet or escapes them, so that a text is the text of one URI only.
-/

namespace SipUri

open Rust

/-! ## Characters -/

/-- `unreserved`: letters, digits and marks. -/
def isUnreserved (c : Char) : Bool := c.isAlphanum || (lit "-_.!~*'()").contains c

/-- `HEXDIG`. -/
def isHexDigit (c : Char) : Bool :=
  c.isDigit || ('a' ≤ c && c ≤ 'f') || ('A' ≤ c && c ≤ 'F')

/-- What a user may hold besides unreserved characters and escapes. -/
def userUnreserved : Str := lit "&=+$,;?/"

/-- The same for a password. -/
def passwordUnreserved : Str := lit "&=+$,"

/-- The same for the name and the value of a parameter. -/
def paramUnreserved : Str := lit "[]/:&+$"

/-- The same for the name and the value of a header. -/
def headerUnreserved : Str := lit "[]/?:+$"

/-- What a token may hold besides letters and digits. -/
def tokenMarks : Str := lit "-.!%*_+`'~"

/-- An unreserved character, or one of the others that are allowed. -/
def IsOf (extra : Str) (c : Char) : Prop := isUnreserved c = true ∨ c ∈ extra

instance (extra : Str) (c : Char) : Decidable (IsOf extra c) :=
  inferInstanceAs (Decidable (_ ∨ _))

/-- A text of unreserved characters, of others that are allowed in its place, and of
escapes. -/
inductive Over (extra : Str) : Str → Prop where
  | nil : Over extra []
  | char {c : Char} {s : Str} (hc : IsOf extra c) (hs : Over extra s) : Over extra (c :: s)
  | escaped {a b : Char} {s : Str} (ha : isHexDigit a = true) (hb : isHexDigit b = true)
      (hs : Over extra s) : Over extra ('%' :: a :: b :: s)

theorem IsOf.mono {extra more : Str} {c : Char} (h : IsOf extra c)
    (hsub : extra.all (IsOf more ·) = true) : IsOf more c := by
  rcases h with hunreserved | hc
  · exact Or.inl hunreserved
  · exact of_decide_eq_true (List.all_eq_true.mp hsub c hc)

theorem isUnreserved_of_isAlphanum {c : Char} (h : c.isAlphanum = true) :
    isUnreserved c = true := by
  simp [isUnreserved, h]

theorem isUnreserved_of_isHexDigit {c : Char} (h : isHexDigit c = true) :
    isUnreserved c = true := by
  apply isUnreserved_of_isAlphanum
  have hletters : ('f' : Char) ≤ 'z' ∧ ('F' : Char) ≤ 'Z' := by decide
  simp only [isHexDigit, Bool.or_eq_true, Bool.and_eq_true, decide_eq_true_eq] at h
  delta Char.isAlphanum Char.isAlpha Char.isUpper Char.isLower
  simp only [Bool.or_eq_true, Bool.and_eq_true, decide_eq_true_eq]
  rcases h with (hdigit | ⟨hlow, hhigh⟩) | ⟨hlow, hhigh⟩
  · exact Or.inr hdigit
  · exact Or.inl (Or.inr ⟨hlow, Char.le_trans hhigh hletters.1⟩)
  · exact Or.inl (Or.inl ⟨hlow, Char.le_trans hhigh hletters.2⟩)

theorem Over.mem {extra s : Str} (h : Over extra s) : ∀ c ∈ s, IsOf ('%' :: extra) c := by
  induction h with
  | nil => simp
  | char hc hs ih =>
      exact List.forall_mem_cons.mpr ⟨hc.imp_right (List.mem_cons_of_mem _), ih⟩
  | escaped ha hb hs ih =>
      refine List.forall_mem_cons.mpr ⟨Or.inr List.mem_cons_self, ?_⟩
      refine List.forall_mem_cons.mpr ⟨Or.inl (isUnreserved_of_isHexDigit ha), ?_⟩
      exact List.forall_mem_cons.mpr ⟨Or.inl (isUnreserved_of_isHexDigit hb), ih⟩

theorem Over.of_forall_mem {extra s : Str} (h : ∀ c ∈ s, IsOf extra c) : Over extra s := by
  induction s with
  | nil => exact .nil
  | cons c s ih =>
      rw [List.forall_mem_cons] at h
      exact .char h.1 (ih h.2)

/-! ## Hosts -/

/-- One to so many characters of a class. -/
def IsRun (p : Char → Bool) (most : ℕ) (s : Str) : Prop :=
  s ≠ [] ∧ s.length ≤ most ∧ ∀ c ∈ s, p c = true

/-- A label of letters, digits and inner hyphens.  A `toplabel` begins with a letter, a
`domainlabel` may also begin with a digit. -/
inductive IsLabel (first : Char → Bool) : Str → Prop where
  | single (c : Char) (hc : first c = true) : IsLabel first [c]
  | long (c : Char) (s : Str) (d : Char) (hc : first c = true)
      (hs : ∀ x ∈ s, x.isAlphanum = true ∨ x = '-') (hd : d.isAlphanum = true) :
      IsLabel first (c :: (s ++ [d]))

/-- `hostname`. -/
inductive IsHostname : Str → Prop where
  | top (s : Str) (hs : IsLabel Char.isAlpha s) : IsHostname s
  | dotted (s : Str) (hs : IsLabel Char.isAlpha s) : IsHostname (s ++ ['.'])
  | sub (l s : Str) (hl : IsLabel Char.isAlphanum l) (hs : IsHostname s) :
      IsHostname (l ++ '.' :: s)

/-- `IPv4address`. -/
inductive IsIpv4 : Str → Prop where
  | mk (a b c d : Str) (ha : IsRun Char.isDigit 3 a) (hb : IsRun Char.isDigit 3 b)
      (hc : IsRun Char.isDigit 3 c) (hd : IsRun Char.isDigit 3 d) :
      IsIpv4 (a ++ '.' :: (b ++ '.' :: (c ++ '.' :: d)))

/-- `hexseq`. -/
inductive IsHexSeq : Str → Prop where
  | single (s : Str) (hs : IsRun isHexDigit 4 s) : IsHexSeq s
  | cons (s t : Str) (hs : IsRun isHexDigit 4 s) (ht : IsHexSeq t) : IsHexSeq (s ++ ':' :: t)

/-- `hexpart`, with a run of zeros elided or not. -/
inductive IsHexPart : Str → Prop where
  | full (s : Str) (hs : IsHexSeq s) : IsHexPart s
  | elided (s t : Str) (hs : s = [] ∨ IsHexSeq s) (ht : t = [] ∨ IsHexSeq t) :
      IsHexPart (s ++ ':' :: ':' :: t)

/-- `IPv6address`. -/
inductive IsIpv6 : Str → Prop where
  | plain (s : Str) (hs : IsHexPart s) : IsIpv6 s
  | mapped (s t : Str) (hs : IsHexPart s) (ht : IsIpv4 t) : IsIpv6 (s ++ ':' :: t)

/-- `host`. -/
inductive IsHost : Str → Prop where
  | name (s : Str) (hs : IsHostname s) : IsHost s
  | ipv4 (s : Str) (hs : IsIpv4 s) : IsHost s
  | ipv6 (s : Str) (hs : IsIpv6 s) : IsHost ('[' :: (s ++ [']']))

/-- A host name and an IPv4 address are of letters, digits, hyphens and dots. -/
def IsNameChar (c : Char) : Prop := c.isAlphanum = true ∨ c ∈ lit "-."

/-- An IPv6 address is of hexadecimal digits, colons and dots. -/
def IsIpv6Char (c : Char) : Prop := isHexDigit c = true ∨ c ∈ lit ":."

theorem IsLabel.mem {first : Char → Bool} {s : Str}
    (hfirst : ∀ c, first c = true → c.isAlphanum = true) (h : IsLabel first s) :
    s ≠ [] ∧ ∀ c ∈ s, IsNameChar c := by
  cases h with
  | single c hc => exact ⟨by simp, List.forall_mem_singleton.mpr (Or.inl (hfirst c hc))⟩
  | long c s d hc hs hd =>
      refine ⟨by simp, List.forall_mem_cons.mpr ⟨Or.inl (hfirst c hc), ?_⟩⟩
      refine List.forall_mem_append.mpr ⟨?_, List.forall_mem_singleton.mpr (Or.inl hd)⟩
      intro x hx
      rcases hs x hx with halphanum | rfl
      · exact Or.inl halphanum
      · exact Or.inr (by decide)

theorem isAlphanum_of_isAlpha (c : Char) (h : c.isAlpha = true) : c.isAlphanum = true := by
  simp [Char.isAlphanum, h]

theorem isNameChar_dot : IsNameChar '.' := Or.inr (by decide)

theorem IsHostname.mem {s : Str} (h : IsHostname s) : s ≠ [] ∧ ∀ c ∈ s, IsNameChar c := by
  induction h with
  | top s hs => exact hs.mem isAlphanum_of_isAlpha
  | dotted s hs =>
      obtain ⟨hne, hmem⟩ := hs.mem isAlphanum_of_isAlpha
      exact ⟨by simp, List.forall_mem_append.mpr
        ⟨hmem, List.forall_mem_singleton.mpr isNameChar_dot⟩⟩
  | sub l s hl hs ih =>
      obtain ⟨hne, hmem⟩ := hl.mem fun _ h => h
      exact ⟨by simp, List.forall_mem_append.mpr
        ⟨hmem, List.forall_mem_cons.mpr ⟨isNameChar_dot, ih.2⟩⟩⟩

theorem IsIpv4.mem {s : Str} (h : IsIpv4 s) :
    s ≠ [] ∧ ∀ c ∈ s, c.isDigit = true ∨ c = '.' := by
  cases h with
  | mk a b c d ha hb hc hd =>
      have hdigits : ∀ {t : Str}, IsRun Char.isDigit 3 t →
          ∀ x ∈ t, x.isDigit = true ∨ x = '.' := fun ht x hx => Or.inl (ht.2.2 x hx)
      refine ⟨by simp, List.forall_mem_append.mpr ⟨hdigits ha, ?_⟩⟩
      refine List.forall_mem_cons.mpr ⟨Or.inr rfl, List.forall_mem_append.mpr ⟨hdigits hb, ?_⟩⟩
      refine List.forall_mem_cons.mpr ⟨Or.inr rfl, List.forall_mem_append.mpr ⟨hdigits hc, ?_⟩⟩
      exact List.forall_mem_cons.mpr ⟨Or.inr rfl, hdigits hd⟩

theorem isIpv6Char_colon : IsIpv6Char ':' := Or.inr (by decide)

theorem IsHexSeq.mem {s : Str} (h : IsHexSeq s) : ∀ c ∈ s, IsIpv6Char c := by
  induction h with
  | single s hs => exact fun c hc => Or.inl (hs.2.2 c hc)
  | cons s t hs ht ih =>
      refine List.forall_mem_append.mpr ⟨fun c hc => Or.inl (hs.2.2 c hc), ?_⟩
      exact List.forall_mem_cons.mpr ⟨isIpv6Char_colon, ih⟩

theorem IsHexPart.mem {s : Str} (h : IsHexPart s) : ∀ c ∈ s, IsIpv6Char c := by
  have hpart : ∀ {t : Str}, t = [] ∨ IsHexSeq t → ∀ c ∈ t, IsIpv6Char c := by
    rintro t (rfl | ht)
    · simp
    · exact ht.mem
  cases h with
  | full s hs => exact hs.mem
  | elided s t hs ht =>
      refine List.forall_mem_append.mpr ⟨hpart hs, List.forall_mem_cons.mpr ⟨isIpv6Char_colon, ?_⟩⟩
      exact List.forall_mem_cons.mpr ⟨isIpv6Char_colon, hpart ht⟩

theorem IsIpv6.mem {s : Str} (h : IsIpv6 s) : ∀ c ∈ s, IsIpv6Char c := by
  cases h with
  | plain s hs => exact hs.mem
  | mapped s t hs ht =>
      refine List.forall_mem_append.mpr ⟨hs.mem, List.forall_mem_cons.mpr ⟨isIpv6Char_colon, ?_⟩⟩
      intro c hc
      rcases ht.mem.2 c hc with hdigit | rfl
      · exact Or.inl (by simp [isHexDigit, hdigit])
      · exact Or.inr (by decide)

/-- A host is a name or stands in brackets. -/
theorem IsHost.shape {s : Str} (h : IsHost s) :
    (s ≠ [] ∧ ∀ c ∈ s, IsNameChar c) ∨
      ∃ t, s = '[' :: (t ++ [']']) ∧ ∀ c ∈ t, IsIpv6Char c := by
  cases h with
  | name s hs => exact Or.inl hs.mem
  | ipv4 s hs =>
      obtain ⟨hne, hmem⟩ := hs.mem
      refine Or.inl ⟨hne, ?_⟩
      intro c hc
      rcases hmem c hc with hdigit | rfl
      · exact Or.inl (by simp [Char.isAlphanum, hdigit])
      · exact isNameChar_dot
  | ipv6 s hs => exact Or.inr ⟨s, rfl, hs.mem⟩

/-- What may stand behind a host: a port, parameters and headers. -/
def EndsHost (c : Char) : Prop := c ∈ lit ":;?"

instance (c : Char) : Decidable (EndsHost c) := inferInstanceAs (Decidable (c ∈ lit ":;?"))

theorem IsNameChar.not_endsHost {c : Char} (h : IsNameChar c) : ¬ EndsHost c := by
  intro hends
  have hall : (lit ":;?").all (fun c => !c.isAlphanum && !(lit "-.").contains c) = true := by
    decide
  have hother := List.all_eq_true.mp hall c hends
  rcases h with halphanum | hmark
  · simp [halphanum] at hother
  · simp [hmark] at hother

/-- A host is cut from what stands behind it in one way only. -/
theorem IsHost.append_inj {s t a b : Str} (hs : IsHost s) (ht : IsHost t)
    (ha : Stops EndsHost a) (hb : Stops EndsHost b) (h : s ++ a = t ++ b) :
    s = t ∧ a = b := by
  have hopen : ∀ {s t a b : Str}, s ≠ [] → (∀ c ∈ s, IsNameChar c) →
      s ++ a ≠ '[' :: (t ++ [']']) ++ b := by
    intro s t a b hne hmem heq
    obtain ⟨c, s, rfl⟩ := List.exists_cons_of_ne_nil hne
    obtain ⟨rfl, -⟩ : c = '[' ∧ _ := by simpa using heq
    rcases hmem '[' List.mem_cons_self with hbracket | hbracket
    · exact absurd hbracket (by decide)
    · exact absurd hbracket (by decide)
  have hclose : ∀ {s : Str}, (∀ c ∈ s, IsIpv6Char c) → ']' ∉ s := by
    intro s hmem hbracket
    rcases hmem ']' hbracket with hclose | hclose
    · exact absurd hclose (by decide)
    · exact absurd hclose (by decide)
  rcases hs.shape with ⟨hsne, hsmem⟩ | ⟨s, rfl, hsmem⟩
  · rcases ht.shape with ⟨-, htmem⟩ | ⟨t, rfl, -⟩
    · exact append_stop_inj (fun c hc => (hsmem c hc).not_endsHost)
        (fun c hc => (htmem c hc).not_endsHost) ha hb h
    · exact absurd h (hopen hsne hsmem)
  · rcases ht.shape with ⟨htne, htmem⟩ | ⟨t, rfl, htmem⟩
    · exact absurd h.symm (hopen htne htmem)
    · have hinner : s ++ ']' :: a = t ++ ']' :: b := by simpa using h
      obtain ⟨rfl, rfl⟩ := append_delimiter_inj (hclose hsmem) (hclose htmem) hinner
      exact ⟨rfl, rfl⟩

/-! ## URIs -/

/-- A part that is left out, or follows its delimiter. -/
def optional (q : Char) : Option Str → Str
  | none => []
  | some s => q :: s

/-- `userinfo`, without the sign that ends it.  A telephone subscriber is a user too: it
escapes what the alphabet of a user lacks. -/
@[ext]
structure Userinfo where
  user : Str
  password : Option Str
  user_ne : user ≠ []
  user_over : Over userUnreserved user
  password_over : ∀ p ∈ password, Over passwordUnreserved p

/-- The text of a user and a password. -/
def Userinfo.text (i : Userinfo) : Str := i.user ++ optional ':' i.password

/-- A text of letters, digits and the marks of a token. -/
def IsToken (s : Str) : Prop := ∀ c ∈ s, c.isAlphanum = true ∨ c ∈ tokenMarks

/-- The parameters whose value may be any token. -/
def takesToken (name : Str) : Prop :=
  toAsciiLowercase name ∈ [lit "transport", lit "user", lit "method"]

/-- `uri-parameter`. -/
@[ext]
structure Param where
  name : Str
  value : Option Str
  name_ne : name ≠ []
  name_over : Over paramUnreserved name
  value_ok : ∀ v ∈ value, v ≠ [] ∧ (Over paramUnreserved v ∨ takesToken name ∧ IsToken v)

/-- The text of a parameter. -/
def Param.text (p : Param) : Str := p.name ++ optional '=' p.value

/-- `header`. -/
@[ext]
structure Header where
  name : Str
  value : Str
  name_ne : name ≠ []
  name_over : Over headerUnreserved name
  value_over : Over headerUnreserved value

/-- The text of a header. -/
def Header.text (h : Header) : Str := h.name ++ '=' :: h.value

/-- `SIP-URI`. -/
@[ext]
structure Uri where
  userinfo : Option Userinfo
  host : Str
  port : Option Str
  params : List Param
  headers : List Header
  host_ok : IsHost host
  port_ok : ∀ p ∈ port, p ≠ [] ∧ ∀ c ∈ p, c.isDigit = true

/-- The texts of a list, each behind its delimiter. -/
def listed (q : Char) (ts : List Str) : Str := ts.flatMap (q :: ·)

/-- The text of the headers. -/
def headersText : List Header → Str
  | [] => []
  | h :: hs => '?' :: (h.text ++ listed '&' (hs.map Header.text))

/-- The text of the user and the password. -/
def userinfoText : Option Userinfo → Str
  | none => []
  | some i => i.text ++ ['@']

/-- The text behind the host. -/
def Uri.behind (u : Uri) : Str :=
  optional ':' u.port ++ (listed ';' (u.params.map Param.text) ++ headersText u.headers)

/-- The text of a URI. -/
def Uri.text (u : Uri) : Str :=
  lit "sip:" ++ (userinfoText u.userinfo ++ (u.host ++ u.behind))

/-! ## The alphabets of the parts -/

/-- The characters of a URI besides the unreserved ones and the sign behind the user. -/
def uriMarks : Str := lit "%&=+$,;?/:[]`"

theorem Userinfo.mem (i : Userinfo) : ∀ c ∈ i.text, IsOf (':' :: '%' :: userUnreserved) c := by
  rw [Userinfo.text, List.forall_mem_append]
  constructor
  · intro c hc
    exact (i.user_over.mem c hc).imp_right (List.mem_cons_of_mem _)
  · cases hpassword : i.password with
    | none => simp [optional]
    | some p =>
        refine List.forall_mem_cons.mpr ⟨Or.inr List.mem_cons_self, ?_⟩
        intro c hc
        exact ((i.password_over p hpassword).mem c hc).mono (by decide)

theorem Param.mem (p : Param) :
    ∀ c ∈ p.text, IsOf ('=' :: '%' :: (paramUnreserved ++ tokenMarks)) c := by
  rw [Param.text, List.forall_mem_append]
  constructor
  · intro c hc
    exact (p.name_over.mem c hc).mono (by decide)
  · cases hvalue : p.value with
    | none => simp [optional]
    | some v =>
        refine List.forall_mem_cons.mpr ⟨Or.inr List.mem_cons_self, ?_⟩
        intro c hc
        rcases (p.value_ok v hvalue).2 with hover | ⟨-, htoken⟩
        · exact (hover.mem c hc).mono (by decide)
        · have hc' : IsOf tokenMarks c :=
            (htoken c hc).imp_left isUnreserved_of_isAlphanum
          exact hc'.mono (by decide)

theorem Header.mem (h : Header) : ∀ c ∈ h.text, IsOf ('=' :: '%' :: headerUnreserved) c := by
  rw [Header.text, List.forall_mem_append, List.forall_mem_cons]
  refine ⟨?_, Or.inr List.mem_cons_self, ?_⟩
  · intro c hc
    exact (h.name_over.mem c hc).mono (by decide)
  · intro c hc
    exact (h.value_over.mem c hc).mono (by decide)

theorem mem_listed {q : Char} {ts : List Str} {c : Char} (h : c ∈ listed q ts) :
    c = q ∨ ∃ t ∈ ts, c ∈ t := by
  obtain ⟨t, ht, hc⟩ := List.mem_flatMap.mp h
  rcases List.mem_cons.mp hc with rfl | hc
  · exact Or.inl rfl
  · exact Or.inr ⟨t, ht, hc⟩

theorem mem_params {ps : List Param} : ∀ c ∈ listed ';' (ps.map Param.text),
    IsOf (';' :: '=' :: '%' :: (paramUnreserved ++ tokenMarks)) c := by
  intro c hc
  rcases mem_listed hc with rfl | ⟨t, ht, hc⟩
  · exact Or.inr List.mem_cons_self
  · obtain ⟨p, -, rfl⟩ := List.mem_map.mp ht
    exact (p.mem c hc).imp_right (List.mem_cons_of_mem _)

theorem mem_headers {hs : List Header} : ∀ c ∈ headersText hs, IsOf uriMarks c := by
  cases hs with
  | nil => simp [headersText]
  | cons h hs =>
      rw [headersText, List.forall_mem_cons, List.forall_mem_append]
      refine ⟨Or.inr (by decide), fun c hc => (h.mem c hc).mono (by decide), ?_⟩
      intro c hc
      rcases mem_listed hc with rfl | ⟨t, ht, hc⟩
      · exact Or.inr (by decide)
      · obtain ⟨h', -, rfl⟩ := List.mem_map.mp ht
        exact (h'.mem c hc).mono (by decide)

theorem IsHost.mem {s : Str} (h : IsHost s) : ∀ c ∈ s, IsOf uriMarks c := by
  rcases h.shape with ⟨-, hmem⟩ | ⟨t, rfl, hmem⟩
  · intro c hc
    have hname : IsOf (lit "-.") c := (hmem c hc).imp_left isUnreserved_of_isAlphanum
    exact hname.mono (by decide)
  · refine List.forall_mem_cons.mpr ⟨Or.inr (by decide), List.forall_mem_append.mpr ⟨?_, ?_⟩⟩
    · intro c hc
      have hinner : IsOf (lit ":.") c := (hmem c hc).imp_left isUnreserved_of_isHexDigit
      exact hinner.mono (by decide)
    · exact List.forall_mem_singleton.mpr (Or.inr (by decide))

theorem Uri.mem_behind (u : Uri) : ∀ c ∈ u.behind, IsOf uriMarks c := by
  rw [Uri.behind, List.forall_mem_append, List.forall_mem_append]
  refine ⟨?_, fun c hc => (mem_params c hc).mono (by decide), mem_headers⟩
  cases hport : u.port with
  | none => simp [optional]
  | some p =>
      refine List.forall_mem_cons.mpr ⟨Or.inr (by decide), ?_⟩
      intro c hc
      have hdigit := (u.port_ok p hport).2 c hc
      exact Or.inl (isUnreserved_of_isAlphanum (by simp [Char.isAlphanum, hdigit]))

/-- The sign behind the user occurs in no other part of a URI. -/
theorem Uri.at_notMem (u : Uri) : '@' ∉ u.host ++ u.behind := by
  intro hat
  have hall : ∀ c ∈ u.host ++ u.behind, IsOf uriMarks c :=
    List.forall_mem_append.mpr ⟨u.host_ok.mem, u.mem_behind⟩
  exact absurd (hall '@' hat) (by decide)

theorem Userinfo.at_notMem (i : Userinfo) : '@' ∉ i.text :=
  fun hat => absurd (i.mem '@' hat) (by decide)

/-! ## One reading -/

theorem stops_optional {P : Char → Prop} {q : Char} (hq : P q) (s : Option Str) {a : Str}
    (ha : Stops P a) : Stops P (optional q s ++ a) := by
  cases s with
  | none => exact ha
  | some s => exact stops_cons hq _

theorem stops_optional_end {P : Char → Prop} {q : Char} (hq : P q) (s : Option Str) :
    Stops P (optional q s) := by
  have hs := stops_optional hq s (stops_nil P)
  rwa [List.append_nil] at hs

theorem stops_listed {P : Char → Prop} {q : Char} (hq : P q) (ts : List Str) {a : Str}
    (ha : Stops P a) : Stops P (listed q ts ++ a) := by
  cases ts with
  | nil => exact ha
  | cons t ts => exact stops_cons hq _

theorem stops_headersText {P : Char → Prop} (hq : P '?') (hs : List Header) :
    Stops P (headersText hs) := by
  cases hs with
  | nil => exact stops_nil P
  | cons h hs => exact stops_cons hq _

/-- A part that may be left out ends where the next begins. -/
theorem optional_append_inj {P : Char → Prop} {q : Char} {s t : Option Str} {a b : Str}
    (hq : ¬ P q) (hs : ∀ x ∈ s, ∀ c ∈ x, ¬ P c) (ht : ∀ x ∈ t, ∀ c ∈ x, ¬ P c)
    (ha : Stops P a) (hb : Stops P b) (h : optional q s ++ a = optional q t ++ b) :
    s = t ∧ a = b := by
  cases s with
  | none =>
      cases t with
      | none => exact ⟨rfl, h⟩
      | some t =>
          obtain rfl : a = q :: (t ++ b) := h
          exact absurd (ha q rfl) hq
  | some s =>
      cases t with
      | none =>
          obtain rfl : q :: (s ++ a) = b := h
          exact absurd (hb q rfl) hq
      | some t =>
          have htail : s ++ a = t ++ b := List.tail_eq_of_cons_eq h
          obtain ⟨rfl, rfl⟩ := append_stop_inj (hs s rfl) (ht t rfl) ha hb htail
          exact ⟨rfl, rfl⟩

/-- A list ends where the next part begins, and each text where the next does. -/
theorem listed_append_inj {P : Char → Prop} {q : Char} {ss ts : List Str} {a b : Str}
    (hq : ¬ P q) (hss : ∀ s ∈ ss, ∀ c ∈ s, ¬ (c = q ∨ P c))
    (hts : ∀ t ∈ ts, ∀ c ∈ t, ¬ (c = q ∨ P c)) (ha : Stops P a) (hb : Stops P b)
    (h : listed q ss ++ a = listed q ts ++ b) : ss = ts ∧ a = b := by
  induction ss generalizing ts with
  | nil =>
      cases ts with
      | nil => exact ⟨rfl, h⟩
      | cons t ts =>
          obtain rfl : a = q :: (t ++ listed q ts ++ b) := h
          exact absurd (ha q rfl) hq
  | cons s ss ih =>
      cases ts with
      | nil =>
          obtain rfl : q :: (s ++ listed q ss ++ a) = b := h
          exact absurd (hb q rfl) hq
      | cons t ts =>
          rw [List.forall_mem_cons] at hss hts
          have hrest : ∀ {rs : List Str} {c : Str}, Stops P c →
              Stops (fun d => d = q ∨ P d) (listed q rs ++ c) :=
            fun hc => stops_listed (Or.inl rfl) _ fun d hd => Or.inr (hc d hd)
          have htail : s ++ (listed q ss ++ a) = t ++ (listed q ts ++ b) := by
            rw [← List.append_assoc, ← List.append_assoc]
            exact List.tail_eq_of_cons_eq h
          obtain ⟨rfl, htails⟩ := append_stop_inj hss.1 hts.1 (hrest ha) (hrest hb) htail
          obtain ⟨rfl, rfl⟩ := ih hss.2 hts.2 htails
          exact ⟨rfl, rfl⟩

theorem optional_injective (q : Char) : Function.Injective (optional q) := by
  intro s t h
  cases s with
  | none =>
      cases t with
      | none => rfl
      | some t => simp [optional] at h
  | some s =>
      cases t with
      | none => simp [optional] at h
      | some t => exact congrArg some (List.tail_eq_of_cons_eq h)

/-- A text and the part behind its delimiter. -/
theorem append_optional_inj {q : Char} {s t : Str} {x y : Option Str} (hs : ∀ c ∈ s, ¬ c = q)
    (ht : ∀ c ∈ t, ¬ c = q) (h : s ++ optional q x = t ++ optional q y) : s = t ∧ x = y := by
  have hstops : ∀ z, Stops (· = q) (optional q z) := stops_optional_end rfl
  obtain ⟨rfl, hrest⟩ := append_stop_inj hs ht (hstops x) (hstops y) h
  exact ⟨rfl, optional_injective q hrest⟩

theorem Userinfo.text_injective : Function.Injective Userinfo.text := by
  intro i j h
  have hcolon : ∀ k : Userinfo, ∀ c ∈ k.user, ¬ c = ':' := by
    rintro k c hc rfl
    exact absurd (k.user_over.mem _ hc) (by decide)
  obtain ⟨huser, hpassword⟩ := append_optional_inj (hcolon i) (hcolon j) h
  exact Userinfo.ext huser hpassword

theorem Param.text_injective : Function.Injective Param.text := by
  intro p r h
  have hequals : ∀ k : Param, ∀ c ∈ k.name, ¬ c = '=' := by
    rintro k c hc rfl
    exact absurd (k.name_over.mem _ hc) (by decide)
  obtain ⟨hname, hvalue⟩ := append_optional_inj (hequals p) (hequals r) h
  exact Param.ext hname hvalue

theorem Header.text_injective : Function.Injective Header.text := by
  intro h k heq
  have hequals : ∀ k : Header, '=' ∉ k.name := fun k hc =>
    absurd (k.name_over.mem _ hc) (by decide)
  obtain ⟨hname, hvalue⟩ := append_delimiter_inj (hequals h) (hequals k) heq
  exact Header.ext hname hvalue

theorem headersText_injective : Function.Injective headersText := by
  intro hs ks heq
  have hand : ∀ h : Header, ∀ c ∈ h.text, ¬ (c = '&' ∨ False) := by
    rintro h c hc (rfl | hfalse)
    · exact absurd (h.mem _ hc) (by decide)
    · exact hfalse
  cases hs with
  | nil =>
      cases ks with
      | nil => rfl
      | cons k ks => simp [headersText] at heq
  | cons h hs =>
      cases ks with
      | nil => simp [headersText] at heq
      | cons k ks =>
          -- The first header is one of the list but for the sign in front of it.
          have hlisted : listed '&' ((h :: hs).map Header.text) ++ [] =
              listed '&' ((k :: ks).map Header.text) ++ [] := by
            have htail := List.tail_eq_of_cons_eq heq
            rw [List.append_nil, List.append_nil]
            exact congrArg ('&' :: ·) htail
          have hall : ∀ rs : List Header, ∀ t ∈ rs.map Header.text, ∀ c ∈ t,
              ¬ (c = '&' ∨ False) := by
            intro rs t ht
            obtain ⟨r, -, rfl⟩ := List.mem_map.mp ht
            exact hand r
          have hmaps := (listed_append_inj (P := fun _ => False) not_false (hall _) (hall _)
            (stops_nil _) (stops_nil _) hlisted).1
          exact List.map_injective_iff.mpr Header.text_injective hmaps

theorem userinfoText_append_inj {i j : Option Userinfo} {a b : Str} (ha : '@' ∉ a)
    (hb : '@' ∉ b) (h : userinfoText i ++ a = userinfoText j ++ b) : i = j ∧ a = b := by
  have hsome : ∀ (k : Userinfo) (c : Str), '@' ∈ userinfoText (some k) ++ c := by
    simp [userinfoText]
  cases i with
  | none =>
      cases j with
      | none => exact ⟨rfl, h⟩
      | some j =>
          have ha' : a = userinfoText (some j) ++ b := h
          exact absurd (ha' ▸ hsome j b) ha
  | some i =>
      cases j with
      | none =>
          have hb' : userinfoText (some i) ++ a = b := h
          exact absurd (hb' ▸ hsome i a) hb
      | some j =>
          have hcut : i.text ++ '@' :: a = j.text ++ '@' :: b := by
            simpa [userinfoText] using h
          obtain ⟨htext, rfl⟩ := append_delimiter_inj i.at_notMem j.at_notMem hcut
          exact ⟨congrArg some (Userinfo.text_injective htext), rfl⟩

theorem Uri.stops_behind (u : Uri) : Stops EndsHost u.behind :=
  stops_optional (by decide) u.port
    (stops_listed (by decide) _ (stops_headersText (by decide) u.headers))

/-- What stands behind the host has one reading. -/
theorem behind_inj {u v : Uri} (h : u.behind = v.behind) :
    u.port = v.port ∧ u.params = v.params ∧ u.headers = v.headers := by
  have hport : ∀ w : Uri, ∀ p ∈ w.port, ∀ c ∈ p, ¬ c ∈ lit ";?" := by
    intro w p hp c hc hstop
    have hall : (lit ";?").all (fun d => !d.isDigit) = true := by decide
    have hdigit := List.all_eq_true.mp hall c hstop
    simp [(w.port_ok p hp).2 c hc] at hdigit
  have hlater : ∀ w : Uri, Stops (· ∈ lit ";?")
      (listed ';' (w.params.map Param.text) ++ headersText w.headers) := fun w =>
    stops_listed (by decide) _ (stops_headersText (by decide) w.headers)
  obtain ⟨hports, hrest⟩ :=
    optional_append_inj (by decide) (hport u) (hport v) (hlater u) (hlater v) h
  have hparam : ∀ w : Uri, ∀ t ∈ w.params.map Param.text, ∀ c ∈ t, ¬ (c = ';' ∨ c = '?') := by
    intro w t ht c hc hstop
    obtain ⟨p, -, rfl⟩ := List.mem_map.mp ht
    have hof := p.mem c hc
    rcases hstop with rfl | rfl
    · exact absurd hof (by decide)
    · exact absurd hof (by decide)
  obtain ⟨hparams, hheaders⟩ := listed_append_inj (by decide) (hparam u) (hparam v)
    (stops_headersText (by decide) _) (stops_headersText (by decide) _) hrest
  exact ⟨hports, List.map_injective_iff.mpr Param.text_injective hparams,
    headersText_injective hheaders⟩

/-- The grammar is unambiguous: a text is the text of one URI only. -/
theorem Uri.text_injective : Function.Injective Uri.text := by
  intro u v h
  have htail := List.append_cancel_left h
  obtain ⟨huserinfo, hrest⟩ := userinfoText_append_inj u.at_notMem v.at_notMem htail
  obtain ⟨hhost, hbehind⟩ :=
    u.host_ok.append_inj v.host_ok u.stops_behind v.stops_behind hrest
  obtain ⟨hport, hparams, hheaders⟩ := behind_inj hbehind
  exact Uri.ext huserinfo hhost hport hparams hheaders

/-- Every character of a URI is unreserved or has its place in it. -/
theorem Uri.mem_text (u : Uri) : ∀ c ∈ u.text, IsOf ('@' :: uriMarks) c := by
  have hscheme : (lit "sip:").all (IsOf ('@' :: uriMarks) ·) = true := by decide
  rw [Uri.text, List.forall_mem_append, List.forall_mem_append, List.forall_mem_append]
  refine ⟨fun c hc => of_decide_eq_true (List.all_eq_true.mp hscheme c hc), ?_,
    fun c hc => (u.host_ok.mem c hc).mono (by decide),
    fun c hc => (u.mem_behind c hc).mono (by decide)⟩
  cases u.userinfo with
  | none => simp [userinfoText]
  | some i =>
      rw [userinfoText, List.forall_mem_append]
      exact ⟨fun c hc => (i.mem c hc).mono (by decide),
        List.forall_mem_singleton.mpr (Or.inr List.mem_cons_self)⟩

/-! ## A user at a host -/

/-- The text is a URI, and reading it gives this user, literally and without a
password, and this host, and nothing else. -/
def ReadsAs (text user host : Str) : Prop :=
  ∃ u : Uri, u.text = text ∧ (∀ v : Uri, v.text = text → v = u) ∧
    (∃ i : Userinfo, u.userinfo = some i ∧ i.user = user ∧ i.password = none) ∧
    u.host = host ∧ u.port = none ∧ u.params = [] ∧ u.headers = [] ∧ '%' ∉ user

/-- A user of its own alphabet without escapes at a host reads as such. -/
theorem readsAs_of_mem {user host : Str} (hne : user ≠ [])
    (huser : ∀ c ∈ user, IsOf userUnreserved c) (hhost : IsHost host) :
    ReadsAs (lit "sip:" ++ user ++ lit "@" ++ host) user host := by
  have hpercent : '%' ∉ user := fun hmem => absurd (huser '%' hmem) (by decide)
  have hover : Over userUnreserved user := .of_forall_mem huser
  refine ⟨⟨some ⟨user, none, hne, hover, by simp⟩, host, none, [], [], hhost, by simp⟩, ?_, ?_,
    ⟨_, rfl, rfl, rfl⟩, rfl, rfl, rfl, rfl, hpercent⟩
  · simp [Uri.text, userinfoText, Userinfo.text, Uri.behind, optional, listed, headersText, lit]
  · intro v hv
    apply Uri.text_injective
    rw [hv]
    simp [Uri.text, userinfoText, Userinfo.text, Uri.behind, optional, listed, headersText, lit]

/-- What reads as a user is of the user's alphabet. -/
theorem ReadsAs.user_over {text user host : Str} (h : ReadsAs text user host) :
    Over userUnreserved user := by
  obtain ⟨-, -, -, ⟨i, -, rfl, -⟩, -⟩ := h
  exact i.user_over

end SipUri
