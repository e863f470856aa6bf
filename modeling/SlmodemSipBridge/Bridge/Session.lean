import SlmodemSipBridge.Support.Text

/-!
# Sessions and dial strings

`session.rs` and `dial_string.rs`: the states a call goes through on the bridge
and the strings that slmodemd may dial.
-/

namespace SlmodemSipBridge.Bridge

open Rust

/-! ## Dial strings -/

/-- The prefixes that select tone or pulse dialling. -/
def isTonePulse (c : Char) : Bool := c == 'T' || c == 't' || c == 'P' || c == 'p'

/-- Strip the tone and pulse prefixes. -/
def stripTonePulsePrefix (input : Str) : Str := input.dropWhile isTonePulse

/-- The characters of a dial string. -/
def isAllowedDialChar (c : Char) : Bool :=
  ('0' ≤ c && c ≤ '9') || c == '*' || c == '#' || c == '+' || c == ',' ||
    c == 'w' || c == 'W'

/-- A dial string is not empty and holds dial characters only. -/
structure DialString where
  text : Str
  ne : text ≠ []
  allowed : text.all isAllowedDialChar = true

/-- Why a dial string is rejected. -/
inductive DialStringError where
  | empty
  | unsupported (stripped : Str)
  deriving DecidableEq, Repr

/-- Parse a dial string. -/
def DialString.parse (input : Str) : Except DialStringError DialString :=
  if hempty : stripTonePulsePrefix input = [] then .error .empty
  else if hallowed : (stripTonePulsePrefix input).all isAllowedDialChar = true then
    .ok ⟨stripTonePulsePrefix input, hempty, hallowed⟩
  else .error (.unsupported (stripTonePulsePrefix input))

/-! ## The alphabet of dial strings -/

/-- The characters of a dial string, one by one. -/
def dialAlphabet : Str := lit "0123456789*#+,wW"

/-- A digit of the range is one of the ten. -/
theorem mem_digits_of_le {c : Char} (hlow : '0' ≤ c) (hhigh : c ≤ '9') :
    c ∈ lit "0123456789" := by
  have hall : ∀ n < 58, 48 ≤ n → Char.ofNat n ∈ lit "0123456789" := by decide
  have hbelow : c.toNat < 58 := Nat.lt_succ_of_le hhigh
  have hmem := hall c.toNat hbelow hlow
  rwa [Char.ofNat_toNat] at hmem

theorem isAllowedDialChar_iff {c : Char} : isAllowedDialChar c = true ↔ c ∈ dialAlphabet := by
  have hsplit : dialAlphabet = lit "0123456789" ++ ['*', '#', '+', ',', 'w', 'W'] := by decide
  have hdigits : ('0' ≤ c ∧ c ≤ '9') ↔ c ∈ lit "0123456789" := by
    constructor
    · rintro ⟨hlow, hhigh⟩
      exact mem_digits_of_le hlow hhigh
    · intro hmem
      have hall : (lit "0123456789").all (fun c => '0' ≤ c ∧ c ≤ '9') = true := by decide
      exact of_decide_eq_true (List.all_eq_true.mp hall c hmem)
  simp only [isAllowedDialChar, hsplit, List.mem_append, ← hdigits, Bool.or_eq_true,
    Bool.and_eq_true, decide_eq_true_eq, beq_iff_eq, List.mem_cons, List.not_mem_nil, or_false,
    or_assoc]

theorem DialString.mem_alphabet (dial : DialString) : ∀ c ∈ dial.text, c ∈ dialAlphabet :=
  fun c hc => isAllowedDialChar_iff.mp (List.all_eq_true.mp dial.allowed c hc)

/-- What holds of the alphabet holds of a dial string. -/
theorem DialString.forall_mem (dial : DialString) {p : Char → Bool}
    (h : dialAlphabet.all p = true) : ∀ c ∈ dial.text, p c = true :=
  fun c hc => List.all_eq_true.mp h c (dial.mem_alphabet c hc)

/-! ## Sessions -/

/-- The states of a session. -/
inductive SessionState where
  | init
  | originating
  | connectingMedia
  | mediaActive
  | terminating
  | terminated
  deriving DecidableEq, Repr

/-- The session of a dialled call. -/
structure Session where
  dial : Str
  state : SessionState
  deriving DecidableEq, Repr

/-- A new session. -/
def Session.new (dial : Str) : Session := ⟨dial, .init⟩

/-- Whether a session may go from one state to another. -/
def isValidTransition : SessionState → SessionState → Bool
  | .init, .originating => true
  | .originating, .connectingMedia => true
  | .connectingMedia, .mediaActive => true
  | .connectingMedia, .terminating => true
  | .originating, .terminating => true
  | .mediaActive, .terminating => true
  | .terminating, .terminated => true
  | _, _ => false

/-- An invalid state transition. -/
structure SessionError where
  source : SessionState
  target : SessionState
  deriving DecidableEq, Repr

/-- Move a session on. -/
def Session.transition (s : Session) (next : SessionState) :
    Except SessionError Session :=
  if isValidTransition s.state next then .ok { s with state := next }
  else .error ⟨s.state, next⟩

end SlmodemSipBridge.Bridge
