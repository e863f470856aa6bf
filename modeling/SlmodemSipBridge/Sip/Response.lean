import SlmodemSipBridge.Sip.Request

/-!
# Responses and the call they answer

What `invite` and `poll_answer` read out of a response for their call: whether
the CSeq filter drops it, the remote tag and the endpoint of its SDP.  Beside
these stand the header values and the transaction of a response, computed without
slices by the same reader, which knows the long names of headers only and wants their
colon right behind them, and what the one has to do with the other.
-/

namespace SlmodemSipBridge.Sip

open Rust Sdp

/-! ## What the code reads -/

/-- Whether the filter by CSeq drops a response. -/
def isStale (cseq : ℕ) (resp : Str) : Checked Bool := do
  match ← extractCseqNum resp with
  | some respCseq => return respCseq != cseq
  | none => return false

/-- Take the remote tag from the To header, unless there is one already. -/
def Call.rememberTag (call : Call) (resp : Str) : Checked Call := do
  if call.remoteTag.isNone then
    match ← extractHeader resp (lit "To") with
    | none => return call
    | some header =>
        match ← extractTagParam header with
        | none => return call
        | some tag => return { call with remoteTag := some tag }
  else return call

/-- The endpoint of a response's SDP, if it has an SDP that is accepted. -/
def sdpEndpoint (resp : Str) : Checked (Option SocketAddr) := do
  match ← extractSdpBody resp with
  | none => return none
  | some sdp =>
      match ← parseAnswer sdp with
      | .error _ => return none
      | .ok answer => return some ⟨answer.addr, answer.port⟩

/-- Take the endpoint of a 200, if it has an SDP that is accepted. -/
def Call.takeEndpoint (call : Call) (resp : Str) : Checked Call := do
  match ← sdpEndpoint resp with
  | some rtpAddr => return { call with remoteRtp := some rtpAddr }
  | none => return call

/-! ## What a response says -/

/-- The value a line gives to the header whose name and colon are `pre`. -/
def headerOfLine (pre line : Str) : Option Str :=
  let trimmed := trim line
  if pre.length < trimmed.length ∧
      eqIgnoreAsciiCase (trimmed.take pre.length) pre = true then
    some (trim (trimmed.drop pre.length))
  else none

/-- The value of the first header of that name. -/
def headerValue (msg name : Str) : Option Str :=
  (lines msg).findSome? (headerOfLine (name ++ lit ":"))

/-- The number and the method of the CSeq header. -/
def cseqOf (resp : Str) : Option (ℕ × Str) :=
  match (headerValue resp (lit "CSeq")).map splitWhitespace with
  | some [num, method] => (parseU32 num).map (·, method)
  | _ => none

/-- The number of the CSeq header, whatever follows it. -/
def cseqNumber (resp : Str) : Option ℕ :=
  (headerValue resp (lit "CSeq")).bind fun value =>
    (splitWhitespace value).head?.bind parseU32

/-- The response is to the call's current INVITE transaction. -/
def Belongs (call : Call) (resp : Str) : Prop :=
  headerValue resp (lit "Call-ID") = some call.callId ∧
    cseqOf resp = some (call.cseq, lit "INVITE")

instance (call : Call) (resp : Str) : Decidable (Belongs call resp) := by
  unfold Belongs
  infer_instance

/-- The tag parameter of a header value. -/
def tagParam (header : Str) : Option Str := (extractTagParam header).toOption.join

/-- The tag of a response's To header. -/
def toTagOf (resp : Str) : Option Str := (headerValue resp (lit "To")).bind tagParam

/-- The endpoint of a response's SDP, if it has an SDP that is accepted. -/
def acceptedEndpoint (resp : Str) : Option SocketAddr := (sdpEndpoint resp).toOption.join

/-- The call with the remote tag of a response, if it had none. -/
def Call.tagged (call : Call) (resp : Str) : Call :=
  { call with remoteTag := call.remoteTag.or (toTagOf resp) }

/-- The call that a 200 answers. -/
def Call.answeredBy (call : Call) (resp : Str) : Call :=
  { call with
    remoteRtp := (acceptedEndpoint resp).or call.remoteRtp
    state := .answered }

/-! ## Reading a header is finding its line -/

/-- All characters of a text are ASCII. -/
def IsAscii (s : Str) : Prop := ∀ c ∈ s, c.toNat < 128

instance (s : Str) : Decidable (IsAscii s) :=
  List.decidableBAll (fun c : Char => c.toNat < 128) s

theorem byteLen_of_isAscii {s : Str} (h : IsAscii s) : byteLen s = s.length := by
  induction s with
  | nil => rfl
  | cons c s ih =>
      have hc : c.utf8Size = 1 := by
        have hval : c.val ≤ 127 := by
          have hlt : c.toNat < 128 := h c List.mem_cons_self
          rw [UInt32.le_iff_toNat_le]
          change c.toNat ≤ 127
          omega
        exact if_pos hval
      have hs : IsAscii s := fun d hd => h d (List.mem_cons_of_mem c hd)
      simp only [byteLen, hc, ih hs, List.length_cons]
      omega

theorem toNat_lt_of_toAsciiLower_eq {c d : Char}
    (h : toAsciiLower c = toAsciiLower d) (hd : d.toNat < 128) : c.toNat < 128 := by
  have hbound : ∀ e : Char, e ≤ 'Z' → e.toNat < 91 := by
    intro e he
    have hle : e.toNat ≤ 'Z'.toNat := he
    have hz : 'Z'.toNat = 90 := by decide
    omega
  by_cases hc : 'A' ≤ c ∧ c ≤ 'Z'
  · have := hbound c hc.2
    omega
  · by_cases hd' : 'A' ≤ d ∧ d ≤ 'Z'
    · have hlt := hbound d hd'.2
      rw [toAsciiLower, if_neg hc, toAsciiLower, if_pos hd'] at h
      have hlower : ∀ n < 91, (Char.ofNat (n + 32)).toNat < 128 := by decide
      exact h ▸ hlower d.toNat hlt
    · rw [toAsciiLower, if_neg hc, toAsciiLower, if_neg hd'] at h
      exact h ▸ hd

/-- A text that is an ASCII text up to case is as long, in both measures. -/
theorem isAscii_of_eqIgnoreAsciiCase {s t : Str}
    (h : eqIgnoreAsciiCase s t = true) (ht : IsAscii t) :
    IsAscii s ∧ s.length = t.length := by
  have hmap : s.map toAsciiLower = t.map toAsciiLower := by
    simpa [eqIgnoreAsciiCase, toAsciiLowercase] using h
  refine ⟨?_, by simpa using congrArg List.length hmap⟩
  intro c hc
  have hmem : toAsciiLower c ∈ t.map toAsciiLower :=
    hmap ▸ List.mem_map_of_mem hc
  obtain ⟨d, hd, heq⟩ := List.mem_map.mp hmem
  exact toNat_lt_of_toAsciiLower_eq heq.symm (ht d hd)

/-- The specified line test, at a line cut after as many bytes as the name has. -/
theorem headerOfLine_append {pre line a b : Str} (hpre : IsAscii pre)
    (htrim : trim line = a ++ b) (ha : byteLen a = byteLen pre) (hb : b ≠ []) :
    headerOfLine pre line =
      if eqIgnoreAsciiCase a pre = true then some (trim b) else none := by
  have hlen : byteLen pre = pre.length := byteLen_of_isAscii hpre
  have hpos : 0 < b.length := List.length_pos_iff.mpr hb
  by_cases heq : eqIgnoreAsciiCase a pre = true
  · obtain ⟨-, hlength⟩ := isAscii_of_eqIgnoreAsciiCase heq hpre
    have hcond : pre.length < (trim line).length ∧
        eqIgnoreAsciiCase ((trim line).take pre.length) pre = true := by
      rw [htrim, ← hlength, List.take_left, List.length_append]
      exact ⟨by omega, heq⟩
    rw [if_pos heq, headerOfLine, if_pos hcond, htrim, ← hlength, List.drop_left]
  · rw [if_neg heq, headerOfLine]
    refine if_neg ?_
    rintro ⟨-, htake⟩
    obtain ⟨hascii, hlength⟩ := isAscii_of_eqIgnoreAsciiCase htake hpre
    -- Both cuts are after the same number of bytes, so they are the same cut.
    have hcut := splitAtByte_append ((trim line).take pre.length)
      ((trim line).drop pre.length)
    rw [List.take_append_drop, byteLen_of_isAscii hascii, hlength, ← hlen, ← ha,
      htrim, splitAtByte_append, Option.some.injEq, Prod.mk.injEq] at hcut
    rw [htrim, ← hlen, ← ha, ← hcut.1] at htake
    exact heq htake

theorem headerOfLine_of_short {pre line : Str} (hpre : IsAscii pre)
    (hshort : ¬ byteLen pre < byteLen (trim line)) : headerOfLine pre line = none := by
  refine if_neg ?_
  rintro ⟨hlt, htake⟩
  obtain ⟨hascii, hlength⟩ := isAscii_of_eqIgnoreAsciiCase htake hpre
  have hbytes := byteLen_append ((trim line).take pre.length)
    ((trim line).drop pre.length)
  rw [List.take_append_drop, byteLen_of_isAscii hascii, hlength] at hbytes
  have hlen : byteLen pre = pre.length := byteLen_of_isAscii hpre
  have hdrop : byteLen ((trim line).drop pre.length) = 0 := by omega
  rw [byteLen_eq_zero_iff, List.drop_eq_nil_iff] at hdrop
  omega

/-- Where `extract_header` does not panic, it finds the value specified. -/
theorem extractHeaderIn_eq_ok {pre : Str} (hpre : IsAscii pre) {rest : List Str}
    {r : Option Str} (h : extractHeaderIn pre rest = .ok r) :
    rest.findSome? (headerOfLine pre) = r := by
  induction rest with
  | nil => simpa [extractHeaderIn] using h
  | cons line rest ih =>
      simp only [extractHeaderIn] at h
      by_cases hlong : byteLen pre < byteLen (trim line)
      · rw [if_pos hlong] at h
        cases hsplit : splitAtByte (trim line) (byteLen pre) with
        | none => simp [strTo, hsplit, bind, Except.bind] at h
        | some parts =>
            obtain ⟨a, b⟩ := parts
            obtain ⟨htrim, ha⟩ := splitAtByte_eq_some hsplit
            simp only [strTo, strFrom, hsplit, bind, Except.bind] at h
            have hb : b ≠ [] := by
              rintro rfl
              rw [htrim, byteLen_append, ha] at hlong
              simp [byteLen] at hlong
            have hline := headerOfLine_append hpre htrim ha hb
            by_cases heq : eqIgnoreAsciiCase a pre = true
            · rw [if_pos heq] at h hline
              simpa [hline, pure, Except.pure] using h
            · rw [if_neg heq] at h hline
              simpa [hline] using ih h
      · rw [if_neg hlong] at h
        simpa [headerOfLine_of_short hpre hlong] using ih h

theorem extractHeader_eq_ok {msg name : Str} (hname : IsAscii name) {r : Option Str}
    (h : extractHeader msg name = .ok r) : headerValue msg name = r := by
  have hpre : IsAscii (name ++ lit ":") := by
    intro c hc
    rcases List.mem_append.mp hc with hc | hc
    · exact hname c hc
    · have hcolon : IsAscii (lit ":") := by decide
      exact hcolon c hc
  exact extractHeaderIn_eq_ok hpre h

/-! ## What the readers find -/

theorem isStale_eq_ok {cseq : ℕ} {resp : Str} {stale : Bool}
    (h : isStale cseq resp = .ok stale) :
    stale = true ↔ ∃ n, cseqNumber resp = some n ∧ n ≠ cseq := by
  simp only [isStale, extractCseqNum] at h
  cases hheader : extractHeader resp (lit "CSeq") with
  | error why => simp [hheader, bind, Except.bind] at h
  | ok found =>
      have hvalue := extractHeader_eq_ok (by decide) hheader
      simp only [hheader, bind, Except.bind] at h
      cases found with
      | none =>
          simp only [pure, Except.pure, Except.ok.injEq] at h
          simp [← h, cseqNumber, hvalue]
      | some value =>
          cases hwords : splitWhitespace value with
          | nil =>
              simp only [hwords, pure, Except.pure, Except.ok.injEq] at h
              simp [← h, cseqNumber, hvalue, hwords]
          | cons num rest =>
              cases hnum : parseU32 num with
              | none =>
                  simp only [hwords, hnum, pure, Except.pure, Except.ok.injEq] at h
                  simp [← h, cseqNumber, hvalue, hwords, hnum]
              | some n =>
                  simp only [hwords, hnum, pure, Except.pure, Except.ok.injEq] at h
                  simp [← h, cseqNumber, hvalue, hwords, hnum]

/-- The number of a CSeq header that is complete. -/
theorem cseqNumber_of_cseqOf {resp method : Str} {n : ℕ}
    (h : cseqOf resp = some (n, method)) : cseqNumber resp = some n := by
  unfold cseqOf at h
  split at h
  · next num method hwords =>
    obtain ⟨value, hvalue, hsplit⟩ := Option.map_eq_some_iff.mp hwords
    obtain ⟨n, hn, heq⟩ := Option.map_eq_some_iff.mp h
    simp only [Prod.mk.injEq] at heq
    simp [cseqNumber, hvalue, hsplit, hn, heq.1]
  · simp at h

/-- A response to the current transaction passes the filter. -/
theorem Belongs.cseqNumber_eq {call : Call} {resp : Str} (h : Belongs call resp) :
    cseqNumber resp = some call.cseq :=
  cseqNumber_of_cseqOf h.2

theorem Belongs.isStale_ne {call : Call} {resp : Str} (h : Belongs call resp) :
    isStale call.cseq resp ≠ .ok true := by
  intro hstale
  obtain ⟨n, hn, hne⟩ := (isStale_eq_ok hstale).mp rfl
  rw [h.cseqNumber_eq, Option.some.injEq] at hn
  exact hne hn.symm

theorem rememberTag_eq_ok {call call' : Call} {resp : Str}
    (h : call.rememberTag resp = .ok call') : call' = call.tagged resp := by
  unfold Call.rememberTag at h
  unfold Call.tagged
  cases htag : call.remoteTag with
  | some tag =>
      simp only [htag, Option.isNone_some, Bool.false_eq_true, if_false, pure,
        Except.pure, Except.ok.injEq] at h
      rw [← h, Option.some_or, ← htag]
  | none =>
      simp only [htag, Option.isNone_none, if_true] at h
      cases hheader : extractHeader resp (lit "To") with
      | error why => simp [hheader, bind, Except.bind] at h
      | ok found =>
          have hvalue := extractHeader_eq_ok (by decide) hheader
          simp only [hheader, bind, Except.bind] at h
          cases found with
          | none =>
              simp only [pure, Except.pure, Except.ok.injEq] at h
              simp only [toTagOf, hvalue, Option.bind_none, Option.or_none]
              rw [← h, ← htag]
          | some header =>
              obtain ⟨tag, hparam⟩ := extractTagParam_total header
              have htagOf : toTagOf resp = tag := by
                simp [toTagOf, hvalue, tagParam, hparam, Except.toOption]
              simp only [hparam, pure, Except.pure] at h
              rw [htagOf, Option.none_or]
              cases tag with
              | none =>
                  simp only [Except.ok.injEq] at h
                  rw [← h, ← htag]
              | some tag =>
                  simp only [Except.ok.injEq] at h
                  exact h.symm

/-- The only reader of the tag that can panic is the search for the header. -/
theorem rememberTag_eq_error {call : Call} {resp : Str} {why : Panic}
    (h : call.rememberTag resp = .error why) :
    call.remoteTag = none ∧ extractHeader resp (lit "To") = .error why := by
  unfold Call.rememberTag at h
  cases htag : call.remoteTag with
  | some tag => simp [htag, pure, Except.pure] at h
  | none =>
      refine ⟨rfl, ?_⟩
      simp only [htag, Option.isNone_none, if_true] at h
      cases hheader : extractHeader resp (lit "To") with
      | error why' => simpa [hheader, bind, Except.bind] using h
      | ok found =>
          simp only [hheader, bind, Except.bind] at h
          cases found with
          | none => simp [pure, Except.pure] at h
          | some header =>
              obtain ⟨tag, hparam⟩ := extractTagParam_total header
              cases tag <;> simp [hparam, pure, Except.pure] at h

/-- Reading the endpoint never panics. -/
theorem sdpEndpoint_eq (resp : Str) : sdpEndpoint resp = .ok (acceptedEndpoint resp) := by
  have htotal : ∃ r, sdpEndpoint resp = .ok r := by
    obtain ⟨body, hbody⟩ := extractSdpBody_total resp
    simp only [sdpEndpoint, hbody, bind, Except.bind]
    cases body with
    | none => exact ⟨none, rfl⟩
    | some sdp =>
        obtain ⟨answer, hanswer⟩ := parseAnswer_total sdp
        simp only [hanswer]
        cases answer with
        | error e => exact ⟨none, rfl⟩
        | ok answer => exact ⟨_, rfl⟩
  obtain ⟨r, hr⟩ := htotal
  simp [acceptedEndpoint, hr, Except.toOption]

theorem takeEndpoint_eq (call : Call) (resp : Str) :
    call.takeEndpoint resp =
      .ok { call with remoteRtp := (acceptedEndpoint resp).or call.remoteRtp } := by
  simp only [Call.takeEndpoint, sdpEndpoint_eq, bind, Except.bind]
  cases acceptedEndpoint resp <;> rfl

end SlmodemSipBridge.Sip
