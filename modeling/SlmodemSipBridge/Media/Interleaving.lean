import SlmodemSipBridge.Media.Outgoing
import SlmodemSipBridge.Support.Beside

/-!
# The two directions of the relay

`try_join!` polls the two loops of the relay in any order.  They share nothing
but their end, so a relay in which no loop fails is the two loops side by side:
what it sends depends on slmodemd's reads alone, what it writes on the received
datagrams alone, and neither on how the two were interleaved.
-/

namespace SlmodemSipBridge.Media

open Rust Codec Rtp Transition

/-! ## The loops alone -/

/-- Where a loop is after an iteration, unless it fails or panics. -/
def Flow.branch {σ : Type} : Flow σ → Option (Branch σ)
  | .next locals => some (.running locals)
  | .stop total => some (.finished total)
  | .fail _ => none
  | .panic _ => none

/-- `sl_to_rtp` as a machine. -/
def slToRtpMachine (remote : SocketAddr) :
    Machine (Branch SlToRtp) (Option (Chunk relayBufferSize) × Bool) RelayShown where
  step
    | .finished _, _ => none
    | .running l, (read, sent) =>
        (slToRtpIteration l remote read sent).1.branch.map fun branch =>
          (branch, (slToRtpIteration l remote read sent).2)

/-- `rtp_to_sl` as a machine. -/
def rtpToSlMachine :
    Machine (Branch ℕ) (Option (Chunk maxRtpPacketSize) × Bool) RelayShown where
  step
    | .finished _, _ => none
    | .running total, (datagram, written) =>
        (rtpToSlIteration total datagram written).1.branch.map fun branch =>
          (branch, (rtpToSlIteration total datagram written).2)

/-! ## The sides of the relay -/

/-- The loop that an event is for. -/
def RelayEvent.side : RelayEvent →
    (Option (Chunk relayBufferSize) × Bool) ⊕ (Option (Chunk maxRtpPacketSize) × Bool)
  | .slRead read sent => .inl (read, sent)
  | .rtpReceived datagram written => .inr (datagram, written)

/-- The event of a loop. -/
def RelayEvent.ofSide :
    (Option (Chunk relayBufferSize) × Bool) ⊕ (Option (Chunk maxRtpPacketSize) × Bool) →
      RelayEvent
  | .inl (read, sent) => .slRead read sent
  | .inr (datagram, written) => .rtpReceived datagram written

/-- The loop that shows an observation. -/
def RelayShown.side : RelayShown → RelayShown ⊕ RelayShown
  | .written slin => .inr (.written slin)
  | o => .inl o

/-- The reads from slmodemd among the events of a relay. -/
def slReads (es : List RelayEvent) : List (Option (Chunk relayBufferSize) × Bool) :=
  lefts (es.map RelayEvent.side)

/-- The receives from the RTP socket among the events of a relay. -/
def rtpReceives (es : List RelayEvent) : List (Option (Chunk maxRtpPacketSize) × Bool) :=
  rights (es.map RelayEvent.side)

/-- What `sl_to_rtp` shows in a trace. -/
def outgoingShown (trace : List RelayShown) : List RelayShown :=
  lefts (trace.map RelayShown.side)

/-- What `rtp_to_sl` shows in a trace. -/
def incomingShown (trace : List RelayShown) : List RelayShown :=
  rights (trace.map RelayShown.side)

theorem ofSide_side (e : RelayEvent) : RelayEvent.ofSide e.side = e := by
  cases e <;> rfl

theorem map_ofSide_map_side (es : List RelayEvent) :
    (es.map RelayEvent.side).map RelayEvent.ofSide = es := by
  rw [List.map_map]
  calc es.map (RelayEvent.ofSide ∘ RelayEvent.side) = es.map id :=
        List.map_congr_left fun e _ => ofSide_side e
    _ = es := List.map_id _

/-- `sl_to_rtp` shows nothing of the other side. -/
theorem slToRtpIteration_shown (l : SlToRtp) (remote : SocketAddr)
    (read : Option (Chunk relayBufferSize)) (sent : Bool) :
    (slToRtpIteration l remote read sent).2.map RelayShown.side =
      (slToRtpIteration l remote read sent).2.map .inl := by
  unfold slToRtpIteration
  split
  · rfl
  · split
    · rfl
    · simp only
      split
      · rfl
      · split
        · rfl
        · split
          · rfl
          · split <;> rfl

/-- `rtp_to_sl` shows nothing of the other side. -/
theorem rtpToSlIteration_shown (total : ℕ) (datagram : Option (Chunk maxRtpPacketSize))
    (written : Bool) :
    (rtpToSlIteration total datagram written).2.map RelayShown.side =
      (rtpToSlIteration total datagram written).2.map .inr := by
  unfold rtpToSlIteration
  split
  · rfl
  · split
    · rfl
    · rfl
    · split <;> rfl

/-! ## The relay as the two loops -/

/-- The relay failed: a loop returned an error or panicked. -/
def Relay.Failed : Relay → Prop
  | .running _ => False
  | .returned (.ok _) => False
  | .returned (.error _) => True
  | .panicked _ => True

/-- The relay with its loops at two places. -/
def joinedAt (remote : SocketAddr) (b : Branch SlToRtp × Branch ℕ) : Relay :=
  Loops.join { remoteRtp := remote, slToRtp := b.1, rtpToSl := b.2 }

/-- An iteration after which the relay has not failed succeeded. -/
theorem exists_branch_of_joined {σ : Type} {flow : Flow σ} {put : Branch σ → Loops}
    (h : ¬ (flow.joined put).Failed) : ∃ branch, flow.branch = some branch := by
  cases flow with
  | next locals => exact ⟨_, rfl⟩
  | stop total => exact ⟨_, rfl⟩
  | fail error => exact absurd trivial h
  | panic why => exact absurd trivial h

section Steps

variable {remote : SocketAddr}

theorem joinedAt_running_left (l : SlToRtp) (inner : Branch ℕ) :
    joinedAt remote (.running l, inner) =
      .running { remoteRtp := remote, slToRtp := .running l, rtpToSl := inner } := rfl

theorem joinedAt_running_right (outer : Branch SlToRtp) (total : ℕ) :
    joinedAt remote (outer, .running total) =
      .running { remoteRtp := remote, slToRtp := outer, rtpToSl := .running total } := by
  cases outer <;> rfl

/-- An iteration of `sl_to_rtp` that succeeds is joined as its branch. -/
theorem joined_outer {flow : Flow SlToRtp} {outer : Branch SlToRtp}
    (h : flow.branch = some outer) (inner : Branch ℕ) :
    (flow.joined fun branch =>
        { remoteRtp := remote, slToRtp := branch, rtpToSl := inner }) =
      joinedAt remote (outer, inner) := by
  cases flow with
  | next locals =>
      obtain rfl := Option.some.inj h
      rfl
  | stop total =>
      obtain rfl := Option.some.inj h
      rfl
  | fail error => simp [Flow.branch] at h
  | panic why => simp [Flow.branch] at h

/-- So is one of `rtp_to_sl`. -/
theorem joined_inner {flow : Flow ℕ} {inner : Branch ℕ} (h : flow.branch = some inner)
    (outer : Branch SlToRtp) :
    (flow.joined fun branch =>
        { remoteRtp := remote, slToRtp := outer, rtpToSl := branch }) =
      joinedAt remote (outer, inner) := by
  cases flow with
  | next locals =>
      obtain rfl := Option.some.inj h
      exact (joinedAt_running_right outer locals).symm
  | stop total =>
      obtain rfl := Option.some.inj h
      rfl
  | fail error => simp [Flow.branch] at h
  | panic why => simp [Flow.branch] at h

/-- A step of one of the loops is a step of the relay. -/
theorem relayStep_of_beside {b b' : Branch SlToRtp × Branch ℕ}
    {e : (Option (Chunk relayBufferSize) × Bool) ⊕ (Option (Chunk maxRtpPacketSize) × Bool)}
    {shown : List (RelayShown ⊕ RelayShown)}
    (h : ((slToRtpMachine remote).beside rtpToSlMachine).step b e = some (b', shown)) :
    relayMachine.step (joinedAt remote b) (.ofSide e) =
      some (joinedAt remote b', shown.map (Sum.elim id id)) := by
  obtain ⟨outer, inner⟩ := b
  obtain ⟨outer', inner'⟩ := b'
  cases e with
  | inl e =>
      obtain ⟨out, hown, hsame, rfl⟩ := Machine.beside_step_inl_iff.mp h
      obtain ⟨read, sent⟩ := e
      cases outer with
      | finished total => simp [slToRtpMachine] at hown
      | running l =>
          simp only [slToRtpMachine, Option.map_eq_some_iff, Prod.mk.injEq] at hown
          obtain ⟨branch, hbranch, rfl, rfl⟩ := hown
          obtain rfl : inner' = inner := hsame
          rw [joinedAt_running_left, RelayEvent.ofSide, step_slRead rfl, joined_outer hbranch]
          simp
  | inr e =>
      obtain ⟨out, hown, hsame, rfl⟩ := Machine.beside_step_inr_iff.mp h
      obtain ⟨datagram, written⟩ := e
      cases inner with
      | finished total => simp [rtpToSlMachine] at hown
      | running total =>
          simp only [rtpToSlMachine, Option.map_eq_some_iff, Prod.mk.injEq] at hown
          obtain ⟨branch, hbranch, rfl, rfl⟩ := hown
          obtain rfl : outer' = outer := hsame
          rw [joinedAt_running_right, RelayEvent.ofSide, step_rtpReceived rfl,
            joined_inner hbranch]
          simp

/-- A step of the relay that does not fail is a step of one of the loops. -/
theorem beside_of_relayStep {b : Branch SlToRtp × Branch ℕ} {e : RelayEvent} {s' : Relay}
    {shown : List RelayShown}
    (h : relayMachine.step (joinedAt remote b) e = some (s', shown)) (hs' : ¬ s'.Failed) :
    ∃ b', joinedAt remote b' = s' ∧
      ((slToRtpMachine remote).beside rtpToSlMachine).step b e.side =
        some (b', shown.map RelayShown.side) := by
  obtain ⟨outer, inner⟩ := b
  cases e with
  | slRead read sent =>
      cases outer with
      | finished total => cases inner <;> simp [joinedAt, Loops.join, relayMachine, relayStep] at h
      | running l =>
          rw [joinedAt_running_left, step_slRead rfl, Option.some.injEq, Prod.mk.injEq] at h
          obtain ⟨rfl, rfl⟩ := h
          obtain ⟨branch, hbranch⟩ := exists_branch_of_joined hs'
          refine ⟨(branch, inner), (joined_outer hbranch inner).symm, ?_⟩
          apply Machine.beside_step_inl_iff.mpr
          exact ⟨_, by simp [slToRtpMachine, hbranch], rfl, slToRtpIteration_shown _ _ _ _⟩
  | rtpReceived datagram written =>
      cases inner with
      | finished total => cases outer <;> simp [joinedAt, Loops.join, relayMachine, relayStep] at h
      | running total =>
          rw [joinedAt_running_right, step_rtpReceived rfl, Option.some.injEq,
            Prod.mk.injEq] at h
          obtain ⟨rfl, rfl⟩ := h
          obtain ⟨branch, hbranch⟩ := exists_branch_of_joined hs'
          refine ⟨(outer, branch), (joined_inner hbranch outer).symm, ?_⟩
          apply Machine.beside_step_inr_iff.mpr
          exact ⟨_, by simp [rtpToSlMachine, hbranch], rfl, rtpToSlIteration_shown _ _ _⟩

/-- A relay that has not failed ran each loop on its own events. -/
theorem loops_of_run {b : Branch SlToRtp × Branch ℕ} {es : List RelayEvent} {t : Relay}
    {trace : List RelayShown}
    (hrun : relayMachine.run (joinedAt remote b) es = some (t, trace)) (ht : ¬ t.Failed) :
    ∃ b' : Branch SlToRtp × Branch ℕ, joinedAt remote b' = t ∧
      (slToRtpMachine remote).run b.1 (slReads es) = some (b'.1, outgoingShown trace) ∧
      rtpToSlMachine.run b.2 (rtpReceives es) = some (b'.2, incomingShown trace) := by
  have hlive : ∀ s e s' shown, relayMachine.step s e = some (s', shown) → ¬ s.Failed := by
    intro s e s' shown hstep hfailed
    have hhalted : s.Halted := by
      cases s with
      | running loops => exact hfailed.elim
      | returned result => trivial
      | panicked why => trivial
    rw [relayStep_of_halted hhalted e] at hstep
    contradiction
  obtain ⟨b', hb', hbeside⟩ :=
    Machine.run_comap (m := (slToRtpMachine remote).beside rtpToSlMachine)
      (f := joinedAt remote) (g := RelayEvent.side) (h := RelayShown.side) hlive
      (fun _ _ _ _ hstep hs' => beside_of_relayStep hstep hs') hrun ht
  exact ⟨b', hb', Machine.runs_of_beside hbeside⟩

/-- Runs of the two loops make a run of the relay, however they are interleaved. -/
theorem run_of_loops {b b' : Branch SlToRtp × Branch ℕ} {es : List RelayEvent}
    {outgoing incoming : List RelayShown}
    (hout : (slToRtpMachine remote).run b.1 (slReads es) = some (b'.1, outgoing))
    (hin : rtpToSlMachine.run b.2 (rtpReceives es) = some (b'.2, incoming)) :
    ∃ trace, relayMachine.run (joinedAt remote b) es = some (joinedAt remote b', trace) := by
  obtain ⟨trace, hbeside, -, -⟩ := Machine.beside_of_runs hout hin
  have hrun := ((slToRtpMachine remote).beside rtpToSlMachine).run_map relayMachine
    (f := joinedAt remote) (g := RelayEvent.ofSide) (h := Sum.elim id id)
    (fun _ _ _ _ hstep => relayStep_of_beside hstep) hbeside
  rw [map_ofSide_map_side] at hrun
  exact ⟨_, hrun⟩

theorem not_failed_joinedAt (b : Branch SlToRtp × Branch ℕ) :
    ¬ (joinedAt remote b).Failed := by
  obtain ⟨outer, inner⟩ := b
  cases outer <;> cases inner <;> exact id

end Steps

/-! ## Interleavings -/

/-- A relay that does not fail does the same for every interleaving of its reads
and its receives: it ends in the same state with the same counts, and either
loop shows the same. -/
theorem relay_orderFree (sender : RtpSender) (remote : SocketAddr)
    {es : List RelayEvent} (es' : List RelayEvent) {t : Relay} {trace : List RelayShown}
    (hrun : relayMachine.run (relayStart sender remote) es = some (t, trace))
    (ht : ¬ t.Failed) (hreads : slReads es' = slReads es)
    (hreceives : rtpReceives es' = rtpReceives es) :
    ∃ trace', relayMachine.run (relayStart sender remote) es' = some (t, trace') ∧
      outgoingShown trace' = outgoingShown trace ∧
      incomingShown trace' = incomingShown trace := by
  have hstart : relayStart sender remote =
      joinedAt remote (.running ⟨0, none, sender⟩, .running 0) := rfl
  rw [hstart] at hrun ⊢
  obtain ⟨b', rfl, hout, hin⟩ := loops_of_run hrun ht
  rw [← hreads] at hout
  rw [← hreceives] at hin
  obtain ⟨trace', hrun'⟩ := run_of_loops hout hin
  refine ⟨trace', hrun', ?_⟩
  obtain ⟨b'', -, hout', hin'⟩ := loops_of_run hrun' (not_failed_joinedAt b')
  rw [hout, Option.some.injEq, Prod.mk.injEq] at hout'
  rw [hin, Option.some.injEq, Prod.mk.injEq] at hin'
  exact ⟨hout'.2.symm, hin'.2.symm⟩

/-- A datagram of RTP whose payload is one byte. -/
def oneCode : Chunk maxRtpPacketSize :=
  ⟨[0x80, 0, 0, 0, 0, 0, 0, 0, 0, 0, 0, 0, 0xFF], by decide⟩

/-- The datagram is heard before the read rather than after it. -/
theorem relay_orderFree_swapped :
    ∃ t trace trace',
      relayMachine.run (relayStart (createRtpSender 7) ⟨.v4 ⟨10, 0, 0, 1⟩, 4000⟩)
          [.slRead (some ⟨[1, 2], by decide⟩) true, .rtpReceived (some oneCode) true] =
        some (t, trace) ∧
      relayMachine.run (relayStart (createRtpSender 7) ⟨.v4 ⟨10, 0, 0, 1⟩, 4000⟩)
          [.rtpReceived (some oneCode) true, .slRead (some ⟨[1, 2], by decide⟩) true] =
        some (t, trace') ∧
      outgoingShown trace' = outgoingShown trace ∧
      incomingShown trace' = incomingShown trace := by
  have hfirst : relayMachine.run
      (relayStart (createRtpSender 7) ⟨.v4 ⟨10, 0, 0, 1⟩, 4000⟩)
      [.slRead (some ⟨[1, 2], by decide⟩) true, .rtpReceived (some oneCode) true] =
        some (.running
            { remoteRtp := ⟨.v4 ⟨10, 0, 0, 1⟩, 4000⟩
              slToRtp := .running ⟨1, none, ⟨7, 1, 160⟩⟩
              rtpToSl := .running 1 },
          [.taken [1, 2],
            .packet [0x80, 0, 0, 0, 0, 0, 0, 0, 0, 0, 0, 7, 0xDB] ⟨.v4 ⟨10, 0, 0, 1⟩, 4000⟩,
            .written [0, 0]]) := rfl
  obtain ⟨trace', hrun, hout, hin⟩ :=
    relay_orderFree (createRtpSender 7) ⟨.v4 ⟨10, 0, 0, 1⟩, 4000⟩
      [.rtpReceived (some oneCode) true, .slRead (some ⟨[1, 2], by decide⟩) true] hfirst id
      rfl rfl
  exact ⟨_, _, trace', hfirst, hrun, hout, hin⟩

/-! ## Accounts -/

/-- The payload of a received datagram, if it is one of RTP. -/
def heardPayload (datagram : Option (Chunk maxRtpPacketSize)) : Option (List UInt8) :=
  datagram.bind fun data => (parsePacket data.val).toOption.join

/-- The payloads that receives bring, in order. -/
def heardPayloads (receives : List (Option (Chunk maxRtpPacketSize) × Bool)) :
    List (List UInt8) :=
  receives.filterMap fun receive => heardPayload receive.1

/-- The byte count of `rtp_to_sl`. -/
def Branch.total : Branch ℕ → ℕ
  | .running total => total
  | .finished total => total

/-- An iteration that succeeds writes the payload it has heard, if any, and counts
its bytes. -/
theorem rtpToSlIteration_heard {total : ℕ} {datagram : Option (Chunk maxRtpPacketSize)}
    {written : Bool} {inner : Branch ℕ}
    (h : (rtpToSlIteration total datagram written).1.branch = some inner) :
    inner.total = total + ((heardPayload datagram).toList.flatten).length ∧
      (rtpToSlIteration total datagram written).2 =
        (heardPayload datagram).toList.map fun payload => .written (decodeUlaw payload) := by
  cases datagram with
  | none =>
      obtain rfl := Option.some.inj h
      exact ⟨rfl, rfl⟩
  | some data =>
      have hheard : heardPayload (some data) = (parsePacket data.val).toOption.join := rfl
      rw [hheard]
      cases hparse : parsePacket data.val with
      | error why => exact absurd hparse (parsePacket_ne_error data.val why)
      | ok parsed =>
          cases parsed with
          | none =>
              simp only [rtpToSlIteration, hparse] at h ⊢
              obtain rfl := Option.some.inj h
              exact ⟨rfl, rfl⟩
          | some payload =>
              simp only [rtpToSlIteration, hparse] at h ⊢
              cases written with
              | false => simp [Flow.branch] at h
              | true =>
                  obtain rfl := Option.some.inj h
                  simp [Branch.total, Except.toOption]

/-- The incoming loop writes what it decodes of the payloads, in order. -/
theorem incoming_of_run {b b' : Branch ℕ}
    {receives : List (Option (Chunk maxRtpPacketSize) × Bool)} {trace : List RelayShown}
    (hrun : rtpToSlMachine.run b receives = some (b', trace)) :
    b'.total = b.total + (heardPayloads receives).flatten.length ∧
      trace = (heardPayloads receives).map fun payload => .written (decodeUlaw payload) := by
  induction receives generalizing b trace with
  | nil =>
      obtain ⟨rfl, rfl⟩ := rtpToSlMachine.run_nil_eq_some_iff.mp hrun
      exact ⟨rfl, rfl⟩
  | cons receive receives ih =>
      obtain ⟨inner, shown, later, hstep, hrest, rfl⟩ :=
        rtpToSlMachine.run_cons_eq_some_iff.mp hrun
      obtain ⟨hcount, rfl⟩ := ih hrest
      obtain ⟨datagram, written⟩ := receive
      cases b with
      | finished total => simp [rtpToSlMachine] at hstep
      | running total =>
          simp only [rtpToSlMachine, Option.map_eq_some_iff, Prod.mk.injEq] at hstep
          obtain ⟨branch, hbranch, rfl, rfl⟩ := hstep
          obtain ⟨htotal, hshown⟩ := rtpToSlIteration_heard hbranch
          have hcons : heardPayloads ((datagram, written) :: receives) =
              (heardPayload datagram).toList ++ heardPayloads receives := by
            cases hheard : heardPayload datagram <;> simp [heardPayloads, hheard]
          rw [hcons, hcount, htotal, hshown]
          constructor
          · rw [List.flatten_append, List.length_append, Nat.add_assoc]
            rfl
          · rw [List.map_append]

theorem writtenAudio_incomingShown (trace : List RelayShown) :
    writtenAudio (incomingShown trace) = writtenAudio trace := by
  induction trace with
  | nil => rfl
  | cons o trace ih =>
      cases o with
      | taken bytes => exact ih
      | packet data remote => exact ih
      | written slin => exact congrArg (slin ++ ·) ih

theorem writtenAudio_heard (list : List (List UInt8)) :
    writtenAudio (list.map fun payload => .written (decodeUlaw payload)) =
      decodeUlaw list.flatten := by
  induction list with
  | nil => rfl
  | cons payload list ih =>
      rw [List.flatten_cons, decodeUlaw_append, ← ih]
      rfl

/-- What a relay that returns has done: the audio written and the two byte counts. -/
structure Accounts (es : List RelayEvent) (trace : List RelayShown) (toRtp toSl : ℕ) :
    Prop where
  /-- slmodemd hears the payloads of all RTP datagrams, decoded in the order received. -/
  heard : writtenAudio trace = decodeUlaw (heardPayloads (rtpReceives es)).flatten
  heardCount : toSl = (heardPayloads (rtpReceives es)).flatten.length
  /-- It gets a sample for each byte counted. -/
  played : (writtenAudio trace).length = 2 * toSl
  sentCount : toRtp =
    ((sentPackets trace).map fun packet => packet.length - rtpHeaderSize).sum
  /-- A byte is counted for each sample that slmodemd's reads hold whole. -/
  spoken : toRtp = (audioReads es).flatten.length / 2

/-- The counts that `relay_media` returns are those of the audio that passed,
however its loops were interleaved. -/
theorem relay_accounts (sender : RtpSender) (remote : SocketAddr) {es : List RelayEvent}
    {trace : List RelayShown} {toRtp toSl : ℕ}
    (hrun : relayMachine.run (relayStart sender remote) es =
      some (.returned (.ok (toRtp, toSl)), trace)) :
    Accounts es trace toRtp toSl := by
  have hstart : relayStart sender remote =
      joinedAt remote (.running ⟨0, none, sender⟩, .running 0) := rfl
  obtain ⟨⟨hsent, hcount⟩, -⟩ := outgoing_of_run hrun
  rw [takenReads_of_run hrun] at hsent hcount
  set list := payloads [] (audioReads es) with hlist
  have hcounted : toRtp = 0 + list.flatten.length := hcount toRtp rfl
  rw [hstart] at hrun
  obtain ⟨⟨outer, inner⟩, hend, -, hin⟩ := loops_of_run hrun id
  obtain ⟨htotal, hshown⟩ := incoming_of_run hin
  have hinner : inner.total = toSl := by
    cases outer with
    | running l => simp [joinedAt, Loops.join] at hend
    | finished total =>
        cases inner with
        | running total => simp [joinedAt, Loops.join] at hend
        | finished total =>
            simp only [joinedAt, Loops.join, Relay.returned.injEq, Except.ok.injEq,
              Prod.mk.injEq] at hend
            exact hend.2
  have hheard : writtenAudio trace = decodeUlaw (heardPayloads (rtpReceives es)).flatten := by
    rw [← writtenAudio_incomingShown, hshown, writtenAudio_heard]
  have hheardCount : toSl = (heardPayloads (rtpReceives es)).flatten.length := by
    rw [← hinner, htotal]
    exact Nat.zero_add _
  refine
    { heard := hheard
      heardCount := hheardCount
      played := ?_
      sentCount := ?_
      spoken := ?_ }
  · rw [hheard, decodeUlaw_length, hheardCount]
  · have hlengths : (sentPackets trace).map (fun packet => packet.length - rtpHeaderSize) =
        list.map List.length := by
      have hpackets : (sentPackets trace).map List.length =
          list.map fun payload => rtpHeaderSize + payload.length := by
        rw [hsent]
        exact length_packetize sender list
      have hless := congrArg (List.map (· - rtpHeaderSize)) hpackets
      simpa [List.map_map, Function.comp_def] using hless
    rw [hcounted, hlengths, List.length_flatten, Nat.zero_add]
  · rw [hcounted, hlist, payloads_flatten (by simp) (audioReads es), ulawOf_length,
      List.nil_append, List.length_take, Nat.min_eq_left (Framing.wholeLength_le _ _),
      Framing.wholeLength]
    omega

/-- Three bytes are read and a code is heard before either stream ends. -/
theorem relay_accounts_oneCode :
    ∃ trace, Accounts
      [.slRead (some ⟨[1, 2, 3], by decide⟩) true, .rtpReceived (some oneCode) true,
        .slRead (some ⟨[], by decide⟩) true, .rtpReceived none true] trace 1 1 := by
  have hrun : relayMachine.run
      (relayStart (createRtpSender 7) ⟨.v4 ⟨10, 0, 0, 1⟩, 4000⟩)
      [.slRead (some ⟨[1, 2, 3], by decide⟩) true, .rtpReceived (some oneCode) true,
        .slRead (some ⟨[], by decide⟩) true, .rtpReceived none true] =
        some (.returned (.ok (1, 1)),
          [.taken [1, 2, 3],
            .packet [0x80, 0, 0, 0, 0, 0, 0, 0, 0, 0, 0, 7, 0xDB] ⟨.v4 ⟨10, 0, 0, 1⟩, 4000⟩,
            .written [0, 0]]) := rfl
  exact ⟨_, relay_accounts (createRtpSender 7) ⟨.v4 ⟨10, 0, 0, 1⟩, 4000⟩ hrun⟩

end SlmodemSipBridge.Media
