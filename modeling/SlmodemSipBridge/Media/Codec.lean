import Mathlib.Tactic.Linarith
import SlmodemSipBridge.Support.Framing
import SlmodemSipBridge.Support.Rust

/-!
# G.711 µ-law ↔ signed 16-bit linear PCM

`codec.rs`.  The `i32` locals of the two sample conversions are integers here:
their magnitudes stay below `2 ^ 16`, so no operation on them overflows.
-/

namespace SlmodemSipBridge.Codec

open Rust

/-- Bias added before µ-law compression. -/
def bias : ℤ := 0x84

/-- Maximum linear magnitude before clipping. -/
def clip : ℤ := 32635

/-- Segment lookup table: `(biased_sample >> 7)` to the segment number. -/
def expLut : List UInt8 :=
  [0,0,1,1,2,2,2,2,3,3,3,3,3,3,3,3,
    4,4,4,4,4,4,4,4,4,4,4,4,4,4,4,4,
    5,5,5,5,5,5,5,5,5,5,5,5,5,5,5,5,
    5,5,5,5,5,5,5,5,5,5,5,5,5,5,5,5,
    6,6,6,6,6,6,6,6,6,6,6,6,6,6,6,6,
    6,6,6,6,6,6,6,6,6,6,6,6,6,6,6,6,
    6,6,6,6,6,6,6,6,6,6,6,6,6,6,6,6,
    6,6,6,6,6,6,6,6,6,6,6,6,6,6,6,6,
    7,7,7,7,7,7,7,7,7,7,7,7,7,7,7,7,
    7,7,7,7,7,7,7,7,7,7,7,7,7,7,7,7,
    7,7,7,7,7,7,7,7,7,7,7,7,7,7,7,7,
    7,7,7,7,7,7,7,7,7,7,7,7,7,7,7,7,
    7,7,7,7,7,7,7,7,7,7,7,7,7,7,7,7,
    7,7,7,7,7,7,7,7,7,7,7,7,7,7,7,7,
    7,7,7,7,7,7,7,7,7,7,7,7,7,7,7,7,
    7,7,7,7,7,7,7,7,7,7,7,7,7,7,7,7]

/-- Encode a single 16-bit signed linear sample to 8-bit µ-law. -/
def slinSampleToUlaw (sample : Int16) : UInt8 :=
  let sign : UInt8 := (sample >>> 8).toUInt16.toUInt8 &&& 0x80
  let magnitude : ℤ := if sign ≠ 0 then -sample.toInt else sample.toInt
  let magnitude : ℤ := if magnitude > clip then clip else magnitude
  let magnitude : ℤ := magnitude + bias
  -- The index is masked to eight bits, so the lookup never leaves the table.
  let exponent : UInt8 := expLut.getD ((magnitude >>> (7 : ℕ)).toNat &&& 0xFF) 0
  let mantissa : UInt8 :=
    UInt8.ofNat ((magnitude >>> (exponent.toNat + 3)).toNat &&& 0x0F)
  ~~~(sign ||| (exponent <<< 4) ||| mantissa)

/-- Decode a single 8-bit µ-law byte to 16-bit signed linear. -/
def ulawSampleToSlin (uVal : UInt8) : Int16 :=
  let uVal := ~~~uVal
  let sign := uVal &&& 0x80
  let exponent : ℕ := ((uVal &&& 0x70) >>> 4).toNat
  let mantissa : ℤ := (uVal &&& 0x0F).toNat
  let sample : ℤ := (mantissa * 2 ^ 3 + bias) * 2 ^ exponent
  let sample : ℤ := sample - bias
  if sign ≠ 0 then -(Int16.ofInt sample) else Int16.ofInt sample

/-- The samples of `chunks_exact(2)`, read little-endian. -/
def samples : List UInt8 → List Int16
  | lo :: hi :: rest => i16FromLeBytes lo hi :: samples rest
  | _ => []

/-- Convert a buffer of signed 16-bit little-endian PCM to µ-law. -/
def encodeUlaw (slin : List UInt8) : Checked (List UInt8) := do
  assert (slin.length % 2 == 0)
    s!"slin buffer must contain whole 16-bit samples, got {slin.length} bytes"
  return (samples slin).map slinSampleToUlaw

/-- Convert a buffer of µ-law to signed 16-bit little-endian PCM. -/
def decodeUlaw (ulaw : List UInt8) : List UInt8 :=
  ulaw.flatMap fun byte => leBytes16 (ulawSampleToSlin byte)

/-- Combine the residual byte of a previous read with new data.  The second
component is the new residual byte. -/
def alignSlinBuffer (residual : Option UInt8) (data : List UInt8) :
    List UInt8 × Option UInt8 :=
  let buf := residual.toList ++ data
  if buf.length % 2 ≠ 0 then (buf.dropLast, buf.getLast?) else (buf, none)

/-! ## Sample buffers -/

theorem samples_length (slin : List UInt8) :
    (samples slin).length = slin.length / 2 := by
  induction slin using samples.induct with
  | case1 lo hi rest ih =>
      simp only [samples, List.length_cons, ih]
      omega
  | case2 slin hshort =>
      match slin, hshort with
      | [], _ => rfl
      | [_], _ => simp [samples]
      | lo :: hi :: rest, hshort => exact (hshort lo hi rest rfl).elim

theorem samples_append {xs : List UInt8} (hxs : 2 ∣ xs.length) (ys : List UInt8) :
    samples (xs ++ ys) = samples xs ++ samples ys := by
  induction xs using samples.induct with
  | case1 lo hi rest ih =>
      have hrest : 2 ∣ rest.length := by
        simp only [List.length_cons] at hxs
        omega
      simp [samples, ih hrest]
  | case2 xs hshort =>
      match xs, hshort with
      | [], _ => rfl
      | [_], _ => simp at hxs
      | lo :: hi :: rest, hshort => exact (hshort lo hi rest rfl).elim

theorem encodeUlaw_eq_ok {slin : List UInt8} (heven : 2 ∣ slin.length) :
    encodeUlaw slin = .ok ((samples slin).map slinSampleToUlaw) := by
  have hmod : slin.length % 2 = 0 := Nat.mod_eq_zero_of_dvd heven
  simp [encodeUlaw, hmod]

/-- Encoding works group by group. -/
theorem samples_flatten {groups : List (List UInt8)}
    (heven : ∀ group ∈ groups, 2 ∣ group.length) :
    samples groups.flatten = (groups.map samples).flatten := by
  induction groups with
  | nil => rfl
  | cons group groups ih =>
      rw [List.flatten_cons, samples_append (heven group List.mem_cons_self),
        ih fun g hg => heven g (List.mem_cons_of_mem _ hg)]
      rfl

theorem decodeUlaw_append (xs ys : List UInt8) :
    decodeUlaw (xs ++ ys) = decodeUlaw xs ++ decodeUlaw ys := by
  simp [decodeUlaw]

theorem decodeUlaw_length (ulaw : List UInt8) :
    (decodeUlaw ulaw).length = 2 * ulaw.length := by
  induction ulaw with
  | nil => rfl
  | cons byte ulaw ih =>
      simp only [decodeUlaw, List.flatMap_cons, List.length_append] at ih ⊢
      rw [ih, List.length_cons]
      simp only [leBytes16, List.length_cons, List.length_nil]
      omega

/-- The samples of a decoded buffer are those that its bytes decode to. -/
theorem samples_decodeUlaw (ulaw : List UInt8) :
    samples (decodeUlaw ulaw) = ulaw.map ulawSampleToSlin := by
  induction ulaw with
  | nil => rfl
  | cons byte ulaw ih =>
      have hcons : decodeUlaw (byte :: ulaw) =
          leBytes16 (ulawSampleToSlin byte) ++ decodeUlaw ulaw := rfl
      rw [hcons, leBytes16, List.cons_append, List.cons_append, List.nil_append, samples,
        i16FromLeBytes_leBytes16, ih]
      rfl

/-! ## The residual byte -/

/-- `align_slin_buffer` passes on whole samples and carries over the rest. -/
theorem alignSlinBuffer_eq (residual : Option UInt8) (data : List UInt8) :
    (alignSlinBuffer residual data).1 =
        (residual.toList ++ data).take
          (Framing.wholeLength 2 (residual.toList ++ data).length) ∧
      (alignSlinBuffer residual data).2.toList =
        (residual.toList ++ data).drop
          (Framing.wholeLength 2 (residual.toList ++ data).length) := by
  set buf := residual.toList ++ data with hbuf
  have hsplit := Framing.wholeLength_add_mod 2 buf.length
  by_cases hodd : buf.length % 2 = 0
  · have hwhole : Framing.wholeLength 2 buf.length = buf.length := by omega
    rw [hwhole, List.take_length, List.drop_length]
    simp [alignSlinBuffer, ← hbuf, hodd]
  · have hwhole : Framing.wholeLength 2 buf.length = buf.length - 1 := by omega
    have hne : buf ≠ [] := by
      intro hnil
      simp [hnil] at hodd
    rw [hwhole, ← List.dropLast_eq_take, List.drop_length_sub_one hne]
    simp [alignSlinBuffer, ← hbuf, hodd, List.getLast?_eq_some_getLast hne]

example : slinSampleToUlaw 0 = 0xFF ∧ ulawSampleToSlin 0xFF = 0 := by decide

end SlmodemSipBridge.Codec
