import SlmodemSipBridge.Bridge.DialLines
import SlmodemSipBridge.Bridge.Run

/-!
# Dial strings and the reads they come in

`run` waits again after a dial string that it rejects.  The new wait starts with
an empty line and a new read, so what followed the rejected line in its read is
lost.  The file compares the dial strings obtained from a stream under different
splits into reads, and says when what is lost does not matter.
-/

namespace SlmodemSipBridge.Bridge

open Rust LineScan

/-! ## The dial strings that `run` obtains -/

/-- The dial string that a step of the bridge obtains. -/
def dialOf : Phase → WaitEvent → List Str
  | .waiting lineBuf, e =>
      match waitStep lineBuf e with
      | .dialled ds _ => [ds]
      | _ => []
  | _, _ => []

/-- The dial strings that `run` obtains while it does nothing but wait. -/
def obtainedDials (config : Config) : BridgeState → List WaitEvent → List Str
  | _, [] => []
  | b, e :: es =>
      match bridgeStep config b (.wait e) with
      | none => []
      | some (next, _) => dialOf b.phase e ++ obtainedDials config next es

/-- `run` rejects the dial string and waits again. -/
def goesBack (calls : ℕ) (ds : Str) : Bool :=
  !(DialString.parse ds).isOk && decide (calls < callsLimit)

/-- The bridge that waits. -/
def atWait (calls : ℕ) (lineBuf : List UInt8) : BridgeState := ⟨calls, .waiting lineBuf⟩

section Steps

variable (config : Config) (calls : ℕ) {lineBuf : List UInt8} {e : WaitEvent}
  (es : List WaitEvent)

theorem obtained_waiting {lineBuf' : List UInt8} (h : waitStep lineBuf e = .waiting lineBuf') :
    obtainedDials config (atWait calls lineBuf) (e :: es) =
      obtainedDials config (atWait calls lineBuf') es := by
  simp [obtainedDials, bridgeStep, atWait, dialOf, h]

/-- A bridge that does not wait takes no bytes for a dial string. -/
theorem obtained_elsewhere {b : BridgeState} (h : ∀ lineBuf, b.phase ≠ .waiting lineBuf) :
    obtainedDials config b es = [] := by
  cases es with
  | nil => rfl
  | cons e es =>
      obtain ⟨calls, phase⟩ := b
      have hnone : bridgeStep config ⟨calls, phase⟩ (.wait e) = none := by
        cases phase <;> first | rfl | exact absurd rfl (h _)
      simp [obtainedDials, hnone]

theorem obtained_dialled {ds : Str} {tail : List UInt8}
    (h : waitStep lineBuf e = .dialled ds tail) :
    obtainedDials config (atWait calls lineBuf) (e :: es) =
      ds :: if goesBack (calls + 1) ds then obtainedDials config (atWait (calls + 1) []) es
        else [] := by
  have hstep : bridgeStep config (atWait calls lineBuf) (.wait e) =
      some (⟨calls + 1, (dialledWith (calls + 1) ds tail).1⟩,
        (dialledWith (calls + 1) ds tail).2) := by
    simp [bridgeStep, atWait, h]
  have hdial : dialOf (atWait calls lineBuf).phase e = [ds] := by
    simp [dialOf, atWait, h]
  rw [obtainedDials, hstep]
  simp only [hdial, List.singleton_append, List.cons.injEq, true_and]
  cases hparse : DialString.parse ds with
  | ok dial =>
      have hback : goesBack (calls + 1) ds = false := by simp [goesBack, hparse, Except.isOk,
        Except.toBool]
      rw [hback]
      apply obtained_elsewhere
      intro lineBuf'
      simp [dialledWith, hparse, Session.new, Session.transition, isValidTransition]
  | error why =>
      have hphase : dialledWith (calls + 1) ds tail = loopHead (calls + 1) := by
        simp [dialledWith, hparse]
      rw [hphase]
      by_cases hlimit : calls + 1 < callsLimit
      · have hback : goesBack (calls + 1) ds = true := by
          simp [goesBack, hparse, hlimit, Except.isOk, Except.toBool]
        rw [hback, loopHead, decide_eq_true hlimit]
        rfl
      · have hback : goesBack (calls + 1) ds = false := by simp [goesBack, hlimit]
        rw [hback]
        apply obtained_elsewhere
        intro lineBuf'
        simp [loopHead, hlimit, panicWith]

end Steps

/-! ## Bytes that come one by one -/

theorem length_oneByte (b : UInt8) : [b].length ≤ waitBufferSize := by
  simp [waitBufferSize]

/-- A read of one byte. -/
def oneByte (b : UInt8) : WaitEvent := .slRead (some ⟨[b], length_oneByte b⟩)

/-- Every byte in a read of its own. -/
def bytewise (bytes : List UInt8) : List WaitEvent := bytes.map oneByte

theorem waitBytes_ne_closed (lineBuf bytes : List UInt8) : waitBytes lineBuf bytes ≠ .closed := by
  rw [waitBytes_eq_scan]
  cases scan newline lineBufLimit dialCommand lineBuf bytes <;> simp [ofScan]

theorem waitStep_read (lineBuf : List UInt8) {data : Chunk waitBufferSize}
    (h : data.val ≠ []) : waitStep lineBuf (.slRead (some data)) = waitBytes lineBuf data.val :=
  if_neg h

/-- The first byte and then the others. -/
theorem waitBytes_cons (lineBuf : List UInt8) (b : UInt8) (rest : List UInt8) :
    waitBytes lineBuf (b :: rest) =
      match waitBytes lineBuf [b] with
      | .waiting lineBuf' => waitBytes lineBuf' rest
      | .dialled ds _ => .dialled ds rest
      | .closed => .closed := by
  by_cases hb : b = 10
  · simp only [waitBytes, if_pos hb]
    cases dialCommand lineBuf <;> rfl
  · simp only [waitBytes, if_neg hb]
    split <;> rfl

/-- The dial strings of a stream that comes byte by byte, by its scan. -/
theorem obtained_bytewise (config : Config) (calls : ℕ) (lineBuf bytes : List UInt8)
    (es : List WaitEvent) :
    obtainedDials config (atWait calls lineBuf) (bytewise bytes ++ es) =
      match waitBytes lineBuf bytes with
      | .waiting lineBuf' => obtainedDials config (atWait calls lineBuf') es
      | .dialled ds rest =>
          ds :: if goesBack (calls + 1) ds then
            obtainedDials config (atWait (calls + 1) []) (bytewise rest ++ es) else []
      | .closed => [] := by
  induction bytes generalizing lineBuf with
  | nil => rfl
  | cons b rest ih =>
      have hread : waitStep lineBuf (oneByte b) = waitBytes lineBuf [b] :=
        waitStep_read lineBuf (by simp)
      have hcons : bytewise (b :: rest) ++ es = oneByte b :: (bytewise rest ++ es) := rfl
      rw [hcons, waitBytes_cons]
      cases hfirst : waitBytes lineBuf [b] with
      | waiting lineBuf' =>
          rw [obtained_waiting config calls _ (hread.trans hfirst)]
          exact ih lineBuf'
      | dialled ds tail => exact obtained_dialled config calls _ (hread.trans hfirst)
      | closed => exact absurd hfirst (waitBytes_ne_closed lineBuf [b])

theorem obtained_bytes (config : Config) (calls : ℕ) (lineBuf bytes : List UInt8) :
    obtainedDials config (atWait calls lineBuf) (bytewise bytes) =
      match waitBytes lineBuf bytes with
      | .dialled ds rest =>
          ds :: if goesBack (calls + 1) ds then
            obtainedDials config (atWait (calls + 1) []) (bytewise rest) else []
      | _ => [] := by
  have hscan := obtained_bytewise config calls lineBuf bytes []
  simp only [List.append_nil] at hscan
  rw [hscan]
  cases waitBytes lineBuf bytes <;> rfl

/-! ## Splits that lose nothing -/

/-- The wait goes on: bytes come, or silence is written. -/
def WaitEvent.Flows : WaitEvent → Prop
  | .slRead none => False
  | .slRead (some data) => data.val ≠ []
  | .silenceTick written => written = true
  | .heartbeat => True

/-- Bytes at the start of a line in which there is no command and after which no
line is begun. -/
def HarmlessTail (bytes : List UInt8) : Prop := waitBytes [] bytes = .waiting []

/-- Wherever a dial string comes that `run` rejects and waits again, what follows
its line in the read is harmless. -/
def TailsHarmless : ℕ → List UInt8 → List WaitEvent → Prop
  | _, _, [] => True
  | calls, lineBuf, e :: es =>
      match waitStep lineBuf e with
      | .waiting lineBuf => TailsHarmless calls lineBuf es
      | .dialled ds tail =>
          goesBack (calls + 1) ds = true →
            HarmlessTail tail ∧ TailsHarmless (calls + 1) [] es
      | .closed => True

theorem bytesRead_bytewise (bytes : List UInt8) : bytesRead (bytewise bytes) = bytes := by
  induction bytes with
  | nil => rfl
  | cons b rest ih =>
      have hcons : bytewise (b :: rest) = oneByte b :: bytewise rest := rfl
      rw [hcons]
      simp [oneByte, bytesRead, ih]

theorem flows_bytewise (bytes : List UInt8) : ∀ e ∈ bytewise bytes, e.Flows := by
  intro e he
  obtain ⟨b, -, rfl⟩ := List.mem_map.mp he
  simp [oneByte, WaitEvent.Flows]

theorem bytesRead_append {es : List WaitEvent} (h : ∀ e ∈ es, e.Flows) (es' : List WaitEvent) :
    bytesRead (es ++ es') = bytesRead es ++ bytesRead es' := by
  induction es with
  | nil => rfl
  | cons e es ih =>
      rw [List.forall_mem_cons] at h
      have hrest := ih h.2
      cases e with
      | slRead read =>
          cases read with
          | none => exact h.1.elim
          | some data =>
              have hne : data.val ≠ [] := h.1
              simp [bytesRead, hne, hrest]
      | silenceTick written =>
          have hwritten : written = true := h.1
          simp [bytesRead, hwritten, hrest]
      | heartbeat => exact hrest

/-- A read brings one byte. -/
def WaitEvent.ReadsOne : WaitEvent → Prop
  | .slRead (some data) => data.val.length = 1
  | _ => True

theorem readsOne_bytewise (bytes : List UInt8) : ∀ e ∈ bytewise bytes, e.ReadsOne := by
  intro e he
  obtain ⟨b, -, rfl⟩ := List.mem_map.mp he
  simp [oneByte, WaitEvent.ReadsOne]

/-- An event that flows brings some bytes, or none. -/
theorem WaitEvent.Flows.brings {e : WaitEvent} (h : e.Flows) (lineBuf : List UInt8) :
    ∃ data : List UInt8, waitStep lineBuf e = waitBytes lineBuf data ∧
      (e.ReadsOne → data.length ≤ 1) ∧
      ∀ es, bytesRead (e :: es) = data ++ bytesRead es := by
  cases e with
  | slRead read =>
      cases read with
      | none => exact h.elim
      | some data =>
          have hne : data.val ≠ [] := h
          exact ⟨data.val, waitStep_read lineBuf hne, fun hone => Nat.le_of_eq hone,
            fun es => by simp [bytesRead, hne]⟩
  | silenceTick written =>
      have hwritten : written = true := h
      exact ⟨[], by simp [waitStep, waitBytes, hwritten], fun _ => Nat.zero_le 1,
        fun es => by simp [bytesRead, hwritten]⟩
  | heartbeat => exact ⟨[], rfl, fun _ => Nat.zero_le 1, fun _ => rfl⟩

/-- Nothing follows a line in a read of one byte. -/
theorem tail_of_length_le_one {lineBuf data tail : List UInt8} {ds : Str}
    (hone : data.length ≤ 1) (h : waitBytes lineBuf data = .dialled ds tail) : tail = [] := by
  match data, hone with
  | [], _ => simp [waitBytes] at h
  | [b], _ =>
      by_cases hb : b = 10
      · simp only [waitBytes, if_pos hb] at h
        cases hline : dialCommand lineBuf with
        | none => simp [hline] at h
        | some read =>
            rw [hline, WaitOutcome.dialled.injEq] at h
            exact h.2.symm
      · simp only [waitBytes, if_neg hb] at h
        split at h <;> simp at h

theorem tailsHarmless_of_readsOne {calls : ℕ} {lineBuf : List UInt8} {es : List WaitEvent}
    (hflows : ∀ e ∈ es, e.Flows) (hone : ∀ e ∈ es, e.ReadsOne) :
    TailsHarmless calls lineBuf es := by
  induction es generalizing calls lineBuf with
  | nil => trivial
  | cons e es ih =>
      rw [List.forall_mem_cons] at hflows hone
      obtain ⟨data, hstep, hlength, -⟩ := hflows.1.brings lineBuf
      rw [TailsHarmless, hstep]
      cases hscan : waitBytes lineBuf data with
      | waiting lineBuf' => exact ih hflows.2 hone.2
      | dialled ds tail =>
          rw [tail_of_length_le_one (hlength hone.1) hscan]
          exact fun _ => ⟨rfl, ih hflows.2 hone.2⟩
      | closed => trivial

theorem tailsHarmless_bytewise (calls : ℕ) (lineBuf bytes : List UInt8) :
    TailsHarmless calls lineBuf (bytewise bytes) :=
  tailsHarmless_of_readsOne (flows_bytewise bytes) (readsOne_bytewise bytes)

theorem tailsHarmless_append {calls : ℕ} {lineBuf : List UInt8} {es es' : List WaitEvent}
    (h : TailsHarmless calls lineBuf es)
    (h' : ∀ calls lineBuf, TailsHarmless calls lineBuf es') :
    TailsHarmless calls lineBuf (es ++ es') := by
  induction es generalizing calls lineBuf with
  | nil => exact h' calls lineBuf
  | cons e es ih =>
      rw [List.cons_append, TailsHarmless]
      rw [TailsHarmless] at h
      cases hstep : waitStep lineBuf e with
      | waiting lineBuf' =>
          rw [hstep] at h
          exact ih h
      | dialled ds tail =>
          rw [hstep] at h
          exact fun hback => ⟨(h hback).1, ih (h hback).2⟩
      | closed => trivial

theorem tailsHarmless_of_append {calls : ℕ} {lineBuf : List UInt8} {es es' : List WaitEvent}
    (h : TailsHarmless calls lineBuf (es ++ es')) : TailsHarmless calls lineBuf es := by
  induction es generalizing calls lineBuf with
  | nil => trivial
  | cons e es ih =>
      rw [List.cons_append, TailsHarmless] at h
      rw [TailsHarmless]
      cases hstep : waitStep lineBuf e with
      | waiting lineBuf' =>
          rw [hstep] at h
          exact ih h
      | dialled ds tail =>
          rw [hstep] at h
          exact fun hback => ⟨(h hback).1, ih (h hback).2⟩
      | closed => trivial

theorem bytewise_append (xs ys : List UInt8) :
    bytewise (xs ++ ys) = bytewise xs ++ bytewise ys := List.map_append

/-- A split that loses nothing obtains what the bytes one by one would. -/
theorem obtained_eq_bytewise (config : Config) {calls : ℕ} {lineBuf : List UInt8}
    {es : List WaitEvent} (hflows : ∀ e ∈ es, e.Flows)
    (h : TailsHarmless calls lineBuf es) :
    obtainedDials config (atWait calls lineBuf) es =
      obtainedDials config (atWait calls lineBuf) (bytewise (bytesRead es)) := by
  induction es generalizing calls lineBuf with
  | nil => rfl
  | cons e es ih =>
      rw [List.forall_mem_cons] at hflows
      obtain ⟨data, hstep, -, hbytes⟩ := hflows.1.brings lineBuf
      rw [TailsHarmless, hstep] at h
      rw [hbytes, bytewise_append, obtained_bytewise]
      cases hscan : waitBytes lineBuf data with
      | waiting lineBuf' =>
          rw [hscan] at h
          rw [obtained_waiting config calls es (hstep.trans hscan)]
          exact ih hflows.2 h
      | dialled ds tail =>
          rw [hscan] at h
          rw [obtained_dialled config calls es (hstep.trans hscan)]
          by_cases hback : goesBack (calls + 1) ds = true
          · obtain ⟨htail, hrest⟩ := h hback
            have hlost : waitBytes [] tail = .waiting [] := htail
            simp only [hback, if_true, obtained_bytewise, hlost]
            rw [ih hflows.2 hrest]
          · simp [hback]
      | closed => exact absurd hscan (waitBytes_ne_closed lineBuf data)

/-! ## Splits that lose something -/

/-- The command to dial 0, without its newline. -/
def dialZero : List UInt8 := asciiBytes (lit "DIAL:0")

/-- As many `x` as fill up a buffer beyond its limit. -/
def filler (lineBuf : List UInt8) : List UInt8 :=
  List.replicate (lineBufLimit + 1 - lineBuf.length) 120

/-- The command to dial 0 once the line begun has been filled up. -/
def flushed (lineBuf : List UInt8) : List UInt8 :=
  filler lineBuf ++ dialZero ++ [newline]

theorem newline_notMem_line (lineBuf : List UInt8) : newline ∉ filler lineBuf ++ dialZero := by
  intro hmem
  rcases List.mem_append.mp hmem with hmem | hmem
  · have heq := List.eq_of_mem_replicate hmem
    contradiction
  · revert hmem
    decide

/-- Behind the line begun, the command begins a line of its own. -/
theorem waitBytes_flushed {lineBuf : List UInt8} (h : lineBuf.length ≤ lineBufLimit) :
    waitBytes lineBuf (flushed lineBuf) = .dialled (lit "0") [] := by
  have hblock : (lineBuf ++ filler lineBuf).length = lineBufLimit + 1 := by
    rw [List.length_append, filler, List.length_replicate]
    omega
  have hkept : kept lineBufLimit (lineBuf ++ (filler lineBuf ++ dialZero)) = dialZero := by
    rw [← List.append_assoc, kept_append hblock]
    exact kept_of_le (by decide)
  have hread : dialCommand dialZero = some (lit "0") := by decide
  rw [waitBytes_eq_scan, flushed, scan_line _ _ _ h (newline_notMem_line lineBuf), hkept,
    hread]
  rfl

/-- At the start of a line, the command ends a line of `x`. -/
theorem waitBytes_nil_flushed {lineBuf : List UInt8} (h : lineBuf.length ≤ lineBufLimit)
    (hne : lineBuf ≠ []) : waitBytes [] (flushed lineBuf) = .waiting [] := by
  have hpos : 0 < lineBuf.length := List.length_pos_iff.mpr hne
  have hempty : ([] : List UInt8).length ≤ lineBufLimit := Nat.zero_le _
  have hread : dialCommand (kept lineBufLimit (filler lineBuf ++ dialZero)) = none := by
    have hzero : dialZero.length = 6 := rfl
    have hfill : (filler lineBuf).length = lineBufLimit + 1 - lineBuf.length :=
      List.length_replicate
    have hlimit : lineBufLimit = 256 := rfl
    by_cases hshort : (filler lineBuf ++ dialZero).length ≤ lineBufLimit
    · obtain ⟨n, hn⟩ : ∃ n, lineBufLimit + 1 - lineBuf.length = n + 1 :=
        ⟨lineBufLimit - lineBuf.length, by omega⟩
      rw [kept_of_le hshort, filler, hn, List.replicate_succ, List.cons_append]
      rfl
    · -- The buffer is emptied once more, inside the command.
      rw [List.length_append] at hshort
      have hdiv : (filler lineBuf ++ dialZero).length / (lineBufLimit + 1) = 1 := by
        rw [hlimit] at hfill hshort ⊢
        rw [List.length_append]
        omega
      obtain ⟨k, hk, hsum⟩ : ∃ k, k < 6 ∧ lineBufLimit + 1 = (filler lineBuf).length + (k + 1) :=
        ⟨lineBuf.length - 1, by omega, by omega⟩
      have hends : ∀ k < 6, dialCommand (dialZero.drop (k + 1)) = none := by decide
      rw [kept, hdiv, Nat.mul_one, hsum, ← List.drop_drop, List.drop_left]
      exact hends k hk
  rw [waitBytes_eq_scan, flushed, scan_line _ _ _ hempty (newline_notMem_line lineBuf),
    List.nil_append, hread]
  rfl

/-- If what is lost is not harmless, the stream can go on in a way that shows. -/
theorem exists_later_of_not_harmless (config : Config) (calls : ℕ) {tail : List UInt8}
    (h : ¬ HarmlessTail tail) :
    ∃ later, obtainedDials config (atWait calls []) (bytewise later) ≠
      obtainedDials config (atWait calls []) (bytewise (tail ++ later)) := by
  cases hscan : waitBytes [] tail with
  | closed => exact absurd hscan (waitBytes_ne_closed [] tail)
  | dialled ds rest =>
      refine ⟨[], ?_⟩
      rw [List.append_nil, obtained_bytes, obtained_bytes, hscan]
      simp [waitBytes]
  | waiting lineBuf =>
      have hne : lineBuf ≠ [] := by
        rintro rfl
        exact h hscan
      have hlimit : lineBuf.length ≤ lineBufLimit := by
        rw [waitBytes_eq_scan] at hscan
        cases hgather : scan newline lineBufLimit dialCommand [] tail with
        | found ds rest => simp [hgather, ofScan] at hscan
        | gathering buffer =>
            rw [hgather, ofScan, WaitOutcome.waiting.injEq] at hscan
            rw [← hscan]
            exact length_of_gathering _ _ _ (Nat.zero_le _) hgather
      refine ⟨flushed lineBuf, ?_⟩
      have hquiet : obtainedDials config (atWait calls []) (bytewise (flushed lineBuf)) = [] := by
        rw [obtained_bytes, waitBytes_nil_flushed hlimit hne]
      have hheard := obtained_bytes config calls lineBuf (flushed lineBuf)
      rw [waitBytes_flushed hlimit] at hheard
      rw [bytewise_append, obtained_bytewise, hscan, hquiet]
      simp [hheard]

/-- A split that loses something harmful: at some point the stream can go on in a
way that shows. -/
theorem exists_later_of_not_tailsHarmless (config : Config) {calls : ℕ}
    {lineBuf : List UInt8} {es : List WaitEvent} (hflows : ∀ e ∈ es, e.Flows)
    (h : ¬ TailsHarmless calls lineBuf es) :
    ∃ pre, pre <+: es ∧ ∃ later,
      obtainedDials config (atWait calls lineBuf) (pre ++ bytewise later) ≠
        obtainedDials config (atWait calls lineBuf) (bytewise (bytesRead pre ++ later)) := by
  induction es generalizing calls lineBuf with
  | nil => exact absurd trivial h
  | cons e es ih =>
      rw [List.forall_mem_cons] at hflows
      obtain ⟨data, hstep, -, hbytes⟩ := hflows.1.brings lineBuf
      rw [TailsHarmless, hstep] at h
      cases hscan : waitBytes lineBuf data with
      | closed => exact absurd hscan (waitBytes_ne_closed lineBuf data)
      | waiting lineBuf' =>
          rw [hscan] at h
          obtain ⟨pre, hpre, later, hne⟩ := ih hflows.2 h
          refine ⟨e :: pre, (List.cons_prefix_cons).mpr ⟨rfl, hpre⟩, later, ?_⟩
          rw [List.cons_append, obtained_waiting config calls _ (hstep.trans hscan), hbytes,
            List.append_assoc, bytewise_append, obtained_bytewise, hscan]
          exact hne
      | dialled ds tail =>
          rw [hscan] at h
          obtain ⟨hback, hlost⟩ := Classical.not_imp.mp h
          by_cases htail : HarmlessTail tail
          · have hskipped : waitBytes [] tail = .waiting [] := htail
            have hrest : ¬ TailsHarmless (calls + 1) [] es := fun hrest => hlost ⟨htail, hrest⟩
            obtain ⟨pre, hpre, later, hne⟩ := ih hflows.2 hrest
            refine ⟨e :: pre, (List.cons_prefix_cons).mpr ⟨rfl, hpre⟩, later, ?_⟩
            rw [List.cons_append, obtained_dialled config calls _ (hstep.trans hscan), hbytes,
              List.append_assoc, bytewise_append, obtained_bytewise, hscan]
            simp only [hback, if_true, obtained_bytewise, hskipped]
            exact fun heq => hne (List.cons_injective heq)
          · obtain ⟨later, hne⟩ := exists_later_of_not_harmless config (calls + 1) htail
            refine ⟨[e], (List.cons_prefix_cons).mpr ⟨rfl, List.nil_prefix⟩, later, ?_⟩
            rw [List.singleton_append, obtained_dialled config calls _ (hstep.trans hscan),
              hbytes, List.append_assoc, bytewise_append, obtained_bytewise, hscan]
            simp only [hback, if_true, bytesRead, List.nil_append, ← bytewise_append]
            exact fun heq => hne (List.cons_injective heq)

/-- The dial strings do not depend on the split: wherever it is cut and however the
stream goes on, the same bytes in reads of one byte give the same dial strings. -/
def SplitFree (config : Config) (calls : ℕ) (es : List WaitEvent) : Prop :=
  ∀ pre, pre <+: es → ∀ (later : List UInt8) (es' : List WaitEvent),
    (∀ e ∈ es', e.Flows) → (∀ e ∈ es', e.ReadsOne) →
      bytesRead es' = bytesRead pre ++ later →
        obtainedDials config (atWait calls []) (pre ++ bytewise later) =
          obtainedDials config (atWait calls []) es'

/-- Two splits of a stream that lose nothing obtain the same dial strings. -/
theorem obtained_eq_of_tailsHarmless (config : Config) {calls : ℕ} {es es' : List WaitEvent}
    (hflows : ∀ e ∈ es, e.Flows) (hflows' : ∀ e ∈ es', e.Flows)
    (hbytes : bytesRead es' = bytesRead es) (h : TailsHarmless calls [] es)
    (h' : TailsHarmless calls [] es') :
    obtainedDials config (atWait calls []) es = obtainedDials config (atWait calls []) es' := by
  rw [obtained_eq_bytewise config hflows h, obtained_eq_bytewise config hflows' h', hbytes]

theorem splitFree_iff (config : Config) (calls : ℕ) {es : List WaitEvent}
    (hflows : ∀ e ∈ es, e.Flows) :
    SplitFree config calls es ↔ TailsHarmless calls [] es := by
  constructor
  · intro h
    by_contra hharm
    obtain ⟨pre, hpre, later, hne⟩ := exists_later_of_not_tailsHarmless config hflows hharm
    exact hne (h pre hpre later _ (flows_bytewise _) (readsOne_bytewise _)
      (bytesRead_bytewise _))
  · rintro h pre ⟨post, rfl⟩ later es' hflows' hone hbytes
    have hpre : ∀ e ∈ pre, e.Flows := fun e he => hflows e (List.mem_append_left _ he)
    have hall : ∀ e ∈ pre ++ bytewise later, e.Flows := by
      intro e he
      rcases List.mem_append.mp he with he | he
      · exact hpre e he
      · exact flows_bytewise later e he
    apply obtained_eq_of_tailsHarmless config hall hflows'
    · rw [hbytes, bytesRead_append hpre, bytesRead_bytewise]
    · exact tailsHarmless_append (tailsHarmless_of_append h)
        fun calls lineBuf => tailsHarmless_bytewise calls lineBuf later
    · exact tailsHarmless_of_readsOne hflows' hone

/-- For every stream in any reads, with any ticks between them: the dial strings
that `run` obtains do not depend on the split exactly when, wherever a dial string
is rejected, what follows its line in the same read is harmless; and any two such
splits of a stream obtain the same ones. -/
theorem bridge_dialsSplitFree_iff (config : Config) (calls : ℕ) {es : List WaitEvent}
    (hflows : ∀ e ∈ es, e.Flows) :
    (SplitFree config calls es ↔ TailsHarmless calls [] es) ∧
      ∀ es' : List WaitEvent, (∀ e ∈ es', e.Flows) → bytesRead es' = bytesRead es →
        TailsHarmless calls [] es → TailsHarmless calls [] es' →
          obtainedDials config (atWait calls []) es =
            obtainedDials config (atWait calls []) es' := by
  constructor
  · exact splitFree_iff config calls hflows
  · intro es' hflows' hbytes h h'
    exact obtained_eq_of_tailsHarmless config hflows hflows' hbytes h h'

/-! ## Two commands in one read -/

/-- Two commands that are rejected. -/
def twoCommands : List UInt8 := asciiBytes (lit "DIAL:x\nDIAL:y\n")

theorem length_twoCommands : twoCommands.length ≤ waitBufferSize := by decide

/-- Both commands in one read. -/
def oneRead : List WaitEvent := [.slRead (some ⟨twoCommands, length_twoCommands⟩)]

theorem flows_oneRead : ∀ e ∈ oneRead, e.Flows := by
  intro e he
  rw [List.mem_singleton.mp he]
  exact List.cons_ne_nil _ _

theorem bridge_dialsSplitFree_twoCommands :
    (SplitFree trunkConfig 0 oneRead ↔ TailsHarmless 0 [] oneRead) ∧
      ∀ es' : List WaitEvent, (∀ e ∈ es', e.Flows) → bytesRead es' = bytesRead oneRead →
        TailsHarmless 0 [] oneRead → TailsHarmless 0 [] es' →
          obtainedDials trunkConfig (atWait 0 []) oneRead =
            obtainedDials trunkConfig (atWait 0 []) es' :=
  bridge_dialsSplitFree_iff trunkConfig 0 flows_oneRead

/-- The second command is lost with the read of the first. -/
theorem bridge_commandLost :
    ¬ ∀ (config : Config) (calls : ℕ) (es es' : List WaitEvent),
      (∀ e ∈ es, e.Flows) → (∀ e ∈ es', e.Flows) → bytesRead es = bytesRead es' →
        obtainedDials config (atWait calls []) es =
          obtainedDials config (atWait calls []) es' := by
  intro h
  have hsame := h trunkConfig 0 oneRead (bytewise twoCommands) flows_oneRead
    (flows_bytewise twoCommands) (bytesRead_bytewise twoCommands).symm
  have hone : obtainedDials trunkConfig (atWait 0 []) oneRead = [lit "x"] := by decide +kernel
  have hall : obtainedDials trunkConfig (atWait 0 []) (bytewise twoCommands) =
      [lit "x", lit "y"] := by decide +kernel
  rw [hone, hall] at hsame
  contradiction

end SlmodemSipBridge.Bridge
