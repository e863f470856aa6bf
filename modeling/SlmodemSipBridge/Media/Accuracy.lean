import SlmodemSipBridge.Media.Codec
import SlmodemSipBridge.Support.Companding

/-!
# The accuracy of the codec

`slin_sample_to_ulaw` clips and biases the magnitude of a sample and keeps the
segment and the cell it falls into, and `ulaw_sample_to_slin` gives the middle
of that cell: on biased magnitudes the codec is a logarithmic quantizer with
sixteen cells in each segment.
-/

namespace SlmodemSipBridge.Codec

open Rust Companding

/-! ## Codes -/

/-- The code of a sign, a segment and a cell. -/
def ulawCode (negative : Bool) (exponent mantissa : ℕ) : UInt8 :=
  let sign : UInt8 := if negative then 0x80 else 0
  ~~~(sign ||| (UInt8.ofNat exponent <<< 4) ||| UInt8.ofNat mantissa)

/-- A magnitude with a sign. -/
def withSign (negative : Bool) (magnitude : ℤ) : ℤ :=
  if negative then -magnitude else magnitude

/-- A code decodes to the middle of its cell. -/
theorem toInt_ulawCode : ∀ (negative : Bool), ∀ exponent < 8, ∀ mantissa < 16,
    (ulawSampleToSlin (ulawCode negative exponent mantissa)).toInt =
      withSign negative ((mantissa * 8 + 132) * 2 ^ exponent - 132) := by
  decide +kernel

/-- Every byte is a code. -/
theorem exists_ulawCode (u : UInt8) :
    ∃ negative, ∃ exponent < 8, ∃ mantissa < 16, u = ulawCode negative exponent mantissa := by
  have hcodes : ∀ n < 256, UInt8.ofNat n =
      ulawCode (decide (n < 128)) ((255 - n) / 16 % 8) ((255 - n) % 16) := by
    decide +kernel
  refine ⟨decide (u.toNat < 128), (255 - u.toNat) / 16 % 8, Nat.mod_lt _ (by decide),
    (255 - u.toNat) % 16, Nat.mod_lt _ (by decide), ?_⟩
  rw [← hcodes u.toNat u.toNat_lt, UInt8.ofNat_toNat]

/-! ## Encoding -/

/-- The clipped and biased magnitude of a sample. -/
def biased (s : Int16) : ℕ := min s.toInt.natAbs 32635 + 132

/-- The segment of a sample. -/
def segment (s : Int16) : ℕ := Nat.log2 (biased s) - 7

theorem biased_bounds (s : Int16) : 132 ≤ biased s ∧ biased s ≤ 32767 := by
  simp only [biased]
  omega

theorem log2_biased (s : Int16) : 7 ≤ Nat.log2 (biased s) ∧ Nat.log2 (biased s) < 15 := by
  obtain ⟨hlow, hhigh⟩ := biased_bounds s
  have hne : biased s ≠ 0 := by omega
  rw [Nat.le_log2 hne, Nat.log2_lt hne]
  omega

/-- The sign bit, on the bits of a sample. -/
theorem setWidth_sshiftRight_and (x : BitVec 16) :
    BitVec.setWidth 8 (x.sshiftRight 8) &&& 128#8 = if x.msb then 128#8 else 0#8 := by
  have hmask : ∀ i < 8, (128#8).getLsbD i = decide (i = 7) := by decide
  have htop : (BitVec.setWidth 8 (x.sshiftRight 8)).getLsbD 7 = x.msb := by
    rw [BitVec.getLsbD_setWidth, BitVec.getLsbD_sshiftRight, BitVec.msb_eq_getLsbD_last]
    rfl
  apply BitVec.eq_of_getLsbD_eq
  intro i hi
  rw [BitVec.getLsbD_and, hmask i hi]
  by_cases h7 : i = 7
  · rw [h7, htop]
    cases x.msb <;> rfl
  · cases x.msb <;> simp [hmask i hi, h7]

theorem signBit_eq (s : Int16) :
    (s >>> 8).toUInt16.toUInt8 &&& 0x80 = if s.toInt < 0 then 0x80 else 0 := by
  apply UInt8.toBitVec_inj.mp
  have hmsb : s.toBitVec.msb = decide (s.toInt < 0) := BitVec.msb_eq_toInt
  have hshift : (s >>> 8).toUInt16.toUInt8.toBitVec =
      BitVec.setWidth 8 (s.toBitVec.sshiftRight 8) := rfl
  rw [UInt8.toBitVec_and, hshift, UInt8.toBitVec_ofNat, setWidth_sshiftRight_and, hmsb]
  by_cases h : s.toInt < 0
  · simp [h]
  · simp [h]

/-- The table holds the segments. -/
theorem expLut_eq : ∀ n < 256, expLut[n]? = some (UInt8.ofNat (Nat.log2 n)) := by
  decide +kernel

/-- The lookup finds the segment of a sample. -/
theorem expLut_biased (s : Int16) :
    expLut[((biased s : ℤ) >>> (7 : ℕ)).toNat &&& 0xFF]? = some (UInt8.ofNat (segment s)) := by
  obtain ⟨-, hhigh⟩ := biased_bounds s
  have hshift : ((biased s : ℤ) >>> (7 : ℕ)).toNat = biased s / 2 ^ 7 := by
    rw [← Int.natCast_shiftRight, Int.toNat_natCast, Nat.shiftRight_eq_div_pow]
  have hlt : biased s / 2 ^ 7 < 256 := by omega
  have hmask : biased s / 2 ^ 7 &&& 0xFF = biased s / 2 ^ 7 :=
    (Nat.and_two_pow_sub_one_eq_mod _ 8).trans (Nat.mod_eq_of_lt hlt)
  have hlog : Nat.log2 (biased s / 2 ^ 7) = segment s := by
    rw [segment, Nat.log2_eq_log_two, Nat.log_div_base_pow, Nat.log2_eq_log_two]
  rw [hshift, hmask, expLut_eq _ hlt, hlog]

/-- The cell of a sample within its segment. -/
theorem mantissa_biased (s : Int16) :
    ((biased s : ℤ) >>> (segment s + 3)).toNat &&& 0x0F =
      biased s / width 4 (biased s) - 16 := by
  obtain ⟨hlow, -⟩ := biased_bounds s
  obtain ⟨hseven, -⟩ := log2_biased s
  have hk : 2 ^ 4 ≤ biased s := by omega
  have hwidth : width 4 (biased s) = 2 ^ (segment s + 3) := by
    rw [width, segment]
    congr 1
    omega
  have hshift : ((biased s : ℤ) >>> (segment s + 3)).toNat = biased s / width 4 (biased s) := by
    rw [← Int.natCast_shiftRight, Int.toNat_natCast, Nat.shiftRight_eq_div_pow, hwidth]
  have hfrom := two_pow_le_div hk
  have hto := div_lt_two_pow hk
  have hmask : biased s / width 4 (biased s) &&& 0x0F = biased s / width 4 (biased s) % 16 :=
    Nat.and_two_pow_sub_one_eq_mod _ 4
  rw [hshift, hmask]
  omega

/-- The magnitude that the encoder works with. -/
theorem magnitude_eq (s : Int16) :
    (if (if s.toInt < 0 then -s.toInt else s.toInt) > clip then clip
      else if s.toInt < 0 then -s.toInt else s.toInt) + bias = (biased s : ℤ) := by
  simp only [clip, bias, biased]
  split <;> split <;> omega

theorem signBit_ne_zero_iff (s : Int16) :
    (if s.toInt < 0 then (0x80 : UInt8) else 0) ≠ 0 ↔ s.toInt < 0 := by
  by_cases h : s.toInt < 0
  · simp [h]
  · simp [h]

/-- The code of a sample. -/
theorem slinSampleToUlaw_eq (s : Int16) :
    slinSampleToUlaw s =
      ulawCode (decide (s.toInt < 0)) (segment s) (biased s / width 4 (biased s) - 16) := by
  have hsegment : (UInt8.ofNat (segment s)).toNat = segment s := by
    have hlog := log2_biased s
    rw [UInt8.toNat_ofNat', segment]
    omega
  simp only [slinSampleToUlaw, signBit_eq, signBit_ne_zero_iff, magnitude_eq,
    List.getD_eq_getElem?_getD, expLut_biased, Option.getD_some, hsegment, mantissa_biased,
    ulawCode, decide_eq_true_eq]

/-! ## A pass through the codec -/

/-- A sample encoded and decoded. -/
def recode (s : Int16) : Int16 := ulawSampleToSlin (slinSampleToUlaw s)

/-- On biased magnitudes the codec is a quantizer. -/
theorem toInt_recode (s : Int16) :
    (recode s).toInt =
      withSign (decide (s.toInt < 0)) ((quantize 4 (biased s) : ℤ) - 132) := by
  obtain ⟨hlow, -⟩ := biased_bounds s
  obtain ⟨hseven, hfifteen⟩ := log2_biased s
  have hk : 2 ^ 4 ≤ biased s := by omega
  have hfrom := two_pow_le_div hk
  have hto := div_lt_two_pow hk
  have hwidth : width 4 (biased s) = 8 * 2 ^ segment s := by
    have hlog : Nat.log2 (biased s) - 4 = 3 + segment s := by
      rw [segment]
      omega
    rw [width, hlog, Nat.pow_add]
  have hmiddle : quantize 4 (biased s) =
      ((biased s / width 4 (biased s) - 16) * 8 + 132) * 2 ^ segment s := by
    have hcell : biased s / width 4 (biased s) =
        biased s / width 4 (biased s) - 16 + 16 := by omega
    generalize biased s / width 4 (biased s) - 16 = m at hcell ⊢
    have hhalf : 8 * 2 ^ segment s / 2 = 4 * 2 ^ segment s := by omega
    rw [quantize, hcell, hwidth, hhalf]
    ring
  rw [recode, slinSampleToUlaw_eq, toInt_ulawCode _ _ (by rw [segment]; omega) _ (by omega),
    hmiddle]
  push_cast
  rfl

/-- Zero is the middle of the first cell. -/
theorem le_quantize_biased (s : Int16) : 132 ≤ quantize 4 (biased s) := by
  have hzero : quantize 4 132 = 132 := by decide
  calc 132 = quantize 4 132 := hzero.symm
    _ ≤ quantize 4 (biased s) := quantize_le_quantize (by decide) (biased_bounds s).1

/-! ### Accuracy -/

/-- How far the decoded sample may be from the sample. -/
structure Accurate (s decoded : Int16) : Prop where
  within : s.toInt.natAbs ≤ 32635 →
    (decoded.toInt - s.toInt).natAbs ≤ 2 ^ (Nat.log2 (s.toInt.natAbs + 132) - 7 + 2)
  clipped : 32635 < s.toInt.natAbs → decoded.toInt = s.toInt.sign * 32124

/-- A sample within the clip level loses half a cell at most. -/
theorem recode_within {s : Int16} (hs : s.toInt.natAbs ≤ 32635) :
    ((recode s).toInt - s.toInt).natAbs ≤
      2 ^ (Nat.log2 (s.toInt.natAbs + 132) - 7 + 2) := by
  have hbiased : biased s = s.toInt.natAbs + 132 := by rw [biased, Nat.min_eq_left hs]
  obtain ⟨hseven, -⟩ := log2_biased s
  have hhalf : width 4 (biased s) / 2 = 2 ^ (Nat.log2 (biased s) - 7 + 2) := by
    have hlog : Nat.log2 (biased s) - 4 = Nat.log2 (biased s) - 7 + 2 + 1 := by omega
    rw [width, hlog, Nat.pow_succ, Nat.mul_div_cancel _ (by decide)]
  obtain ⟨hbelow, habove⟩ := quantize_error 4 (biased s)
  rw [hhalf, hbiased] at hbelow habove
  rw [toInt_recode, hbiased, withSign]
  by_cases hneg : s.toInt < 0
  · rw [decide_eq_true hneg, if_pos rfl]
    omega
  · rw [decide_eq_false hneg, if_neg Bool.false_ne_true]
    omega

/-- A sample beyond the clip level becomes the middle of the last cell. -/
theorem recode_clipped {s : Int16} (hs : 32635 < s.toInt.natAbs) :
    (recode s).toInt = s.toInt.sign * 32124 := by
  have hbiased : biased s = 32767 := by rw [biased, Nat.min_eq_right (Nat.le_of_lt hs)]
  have hlast : quantize 4 32767 = 32256 := by decide
  rw [toInt_recode, hbiased, hlast, withSign]
  by_cases hneg : s.toInt < 0
  · rw [decide_eq_true hneg, if_pos rfl, Int.sign_eq_neg_one_of_neg hneg]
    rfl
  · rw [decide_eq_false hneg, if_neg Bool.false_ne_true,
      Int.sign_eq_one_of_pos (by omega)]
    rfl

theorem accurate_recode (s : Int16) : Accurate s (recode s) := ⟨recode_within, recode_clipped⟩

/-! ### Order -/

theorem quantize_biased_le {s t : Int16} (h : s.toInt.natAbs ≤ t.toInt.natAbs) :
    quantize 4 (biased s) ≤ quantize 4 (biased t) := by
  obtain ⟨hlow, -⟩ := biased_bounds s
  apply quantize_le_quantize (by omega)
  simp only [biased]
  omega

/-- The codec keeps the order of samples. -/
theorem recode_le_recode {s t : Int16} (h : s ≤ t) : recode s ≤ recode t := by
  rw [Int16.le_iff_toInt_le] at h ⊢
  rw [toInt_recode, toInt_recode, withSign, withSign]
  have hs := le_quantize_biased s
  have ht := le_quantize_biased t
  by_cases hneg : s.toInt < 0
  · rw [decide_eq_true hneg, if_pos rfl]
    by_cases hneg' : t.toInt < 0
    · -- The larger of two negative samples has the smaller magnitude.
      have hmagnitude := quantize_biased_le (show t.toInt.natAbs ≤ s.toInt.natAbs by omega)
      rw [decide_eq_true hneg', if_pos rfl]
      omega
    · rw [decide_eq_false hneg', if_neg Bool.false_ne_true]
      omega
  · have hneg' : ¬ t.toInt < 0 := by omega
    have hmagnitude := quantize_biased_le (show s.toInt.natAbs ≤ t.toInt.natAbs by omega)
    rw [decide_eq_false hneg, decide_eq_false hneg', if_neg Bool.false_ne_true,
      if_neg Bool.false_ne_true]
    omega

/-! ### A second pass -/

/-- The middle of a cell is recoded without loss. -/
theorem recode_of_middle {s : Int16} (hs : s.toInt.natAbs ≤ 32635)
    (hmiddle : quantize 4 (s.toInt.natAbs + 132) = s.toInt.natAbs + 132) :
    recode s = s := by
  have hbiased : biased s = s.toInt.natAbs + 132 := by rw [biased, Nat.min_eq_left hs]
  apply Int16.toInt_inj.mp
  rw [toInt_recode, hbiased, hmiddle, withSign]
  by_cases hneg : s.toInt < 0
  · rw [decide_eq_true hneg, if_pos rfl]
    omega
  · rw [decide_eq_false hneg, if_neg Bool.false_ne_true]
    omega

/-- A decoded sample is recoded without loss, also that of the negative zero. -/
theorem recode_ulawSampleToSlin (u : UInt8) :
    recode (ulawSampleToSlin u) = ulawSampleToSlin u := by
  obtain ⟨negative, exponent, hexponent, mantissa, hmantissa, rfl⟩ := exists_ulawCode u
  have hpow : 2 ^ exponent ≤ 2 ^ 7 := Nat.pow_le_pow_right (by decide) (by omega)
  have hpos : 1 ≤ 2 ^ exponent := Nat.two_pow_pos exponent
  have hlow : 132 ≤ (mantissa * 8 + 132) * 2 ^ exponent := by nlinarith
  have hhigh : (mantissa * 8 + 132) * 2 ^ exponent ≤ 252 * 2 ^ 7 :=
    Nat.mul_le_mul (by omega) hpow
  have hmagnitude : (ulawSampleToSlin (ulawCode negative exponent mantissa)).toInt.natAbs + 132 =
      (mantissa * 8 + 132) * 2 ^ exponent := by
    rw [toInt_ulawCode negative exponent hexponent mantissa hmantissa, withSign]
    have hcast : ((mantissa * 8 + 132) * 2 ^ exponent : ℤ) =
        (((mantissa * 8 + 132) * 2 ^ exponent : ℕ) : ℤ) := by push_cast; rfl
    rw [hcast]
    split <;> omega
  have hcell : (mantissa * 8 + 132) * 2 ^ exponent =
      (2 ^ 4 + mantissa) * 2 ^ (exponent + 2 + 1) + 2 ^ (exponent + 2) := by ring
  apply recode_of_middle
  · omega
  · rw [hmagnitude, hcell]
    exact quantize_middle (by omega) (exponent + 2)

/-! ## Overflow -/

/-- A value of the signed integers of a width, if it is one. -/
def signed (bits : ℕ) (n : ℤ) : Option ℤ :=
  if -2 ^ (bits - 1) ≤ n ∧ n < 2 ^ (bits - 1) then some n else none

theorem signed_eq {bits : ℕ} {n : ℤ} (hlow : -2 ^ (bits - 1) ≤ n) (hhigh : n < 2 ^ (bits - 1)) :
    signed bits n = some n := if_pos ⟨hlow, hhigh⟩

/-- `slin_sample_to_ulaw` with each operation checked: `none` where an integer
overflows, a shift is too wide or an index is out of bounds. -/
def slinSampleToUlawChecked (sample : Int16) : Option UInt8 := do
  let sign : UInt8 := (sample >>> 8).toUInt16.toUInt8 &&& 0x80
  let magnitude ← signed 32 (if sign ≠ 0 then -sample.toInt else sample.toInt)
  let magnitude : ℤ := if magnitude > clip then clip else magnitude
  let magnitude ← signed 32 (magnitude + bias)
  let exponent ← expLut[(magnitude >>> (7 : ℕ)).toNat &&& 0xFF]?
  guard (exponent.toNat + 3 < 32)
  let mantissa : UInt8 :=
    UInt8.ofNat ((magnitude >>> (exponent.toNat + 3)).toNat &&& 0x0F)
  return ~~~(sign ||| (exponent <<< 4) ||| mantissa)

/-- `ulaw_sample_to_slin` with each operation checked; no bit is shifted out, and the
cast to `i16` changes no value. -/
def ulawSampleToSlinChecked (uVal : UInt8) : Option Int16 := do
  let uVal := ~~~uVal
  let sign := uVal &&& 0x80
  let exponent : ℕ := ((uVal &&& 0x70) >>> 4).toNat
  let mantissa : ℤ := (uVal &&& 0x0F).toNat
  guard (exponent < 32)
  let sample ← signed 32 (mantissa * 2 ^ 3 + bias)
  let sample ← signed 32 (sample * 2 ^ exponent)
  let sample ← signed 32 (sample - bias)
  let sample ← signed 16 sample
  let sample ← signed 16 (if sign ≠ 0 then -sample else sample)
  return Int16.ofInt sample

/-- Nothing overflows when a sample is encoded, not even the magnitude of the least
one. -/
theorem slinSampleToUlawChecked_eq (s : Int16) :
    slinSampleToUlawChecked s = some (slinSampleToUlaw s) := by
  have hlow : -2 ^ 15 ≤ s.toInt := s.le_toInt
  have hhigh : s.toInt < 2 ^ 15 := s.toInt_lt
  have hmagnitude : signed 32 (if s.toInt < 0 then -s.toInt else s.toInt) =
      some (if s.toInt < 0 then -s.toInt else s.toInt) := by
    apply signed_eq
    · split <;> omega
    · split <;> omega
  have hbiased : signed 32 (biased s : ℤ) = some (biased s : ℤ) := by
    obtain ⟨-, hle⟩ := biased_bounds s
    exact signed_eq (by omega) (by omega)
  have hsegment : (UInt8.ofNat (segment s)).toNat = segment s ∧ segment s + 3 < 32 := by
    have hlog := log2_biased s
    rw [UInt8.toNat_ofNat', segment]
    omega
  simp only [slinSampleToUlawChecked, slinSampleToUlaw_eq, signBit_eq, signBit_ne_zero_iff,
    hmagnitude, Option.bind_eq_bind, Option.bind_some, magnitude_eq, hbiased, expLut_biased,
    hsegment.1, guard, if_pos hsegment.2, mantissa_biased, ulawCode, decide_eq_true_eq]
  rfl

theorem ulawSampleToSlinChecked_eq (u : UInt8) :
    ulawSampleToSlinChecked u = some (ulawSampleToSlin u) := by
  have hall : ∀ n < 256, ulawSampleToSlinChecked (UInt8.ofNat n) =
      some (ulawSampleToSlin (UInt8.ofNat n)) := by
    decide +kernel
  have hu := hall u.toNat u.toNat_lt
  rwa [UInt8.ofNat_toNat] at hu

/-! ## Whole buffers -/

/-- The buffer that comes out of the codec holds the recoded samples. -/
theorem recoded_buffer {slin : List UInt8} (heven : 2 ∣ slin.length) :
    ∃ ulaw, encodeUlaw slin = .ok ulaw ∧ (decodeUlaw ulaw).length = slin.length ∧
      samples (decodeUlaw ulaw) = (samples slin).map recode := by
  refine ⟨_, encodeUlaw_eq_ok heven, ?_, ?_⟩
  · rw [decodeUlaw_length, List.length_map, samples_length, Nat.mul_div_cancel' heven]
  · rw [samples_decodeUlaw, List.map_map]
    rfl

/-- A decoded buffer goes through the codec unchanged. -/
theorem recoded_decodeUlaw (ulaw : List UInt8) :
    (encodeUlaw (decodeUlaw ulaw)).map decodeUlaw = .ok (decodeUlaw ulaw) := by
  have heven : 2 ∣ (decodeUlaw ulaw).length := ⟨ulaw.length, decodeUlaw_length ulaw⟩
  rw [encodeUlaw_eq_ok heven, samples_decodeUlaw, List.map_map]
  apply congrArg Except.ok
  rw [decodeUlaw, decodeUlaw, List.flatMap_map]
  apply congrArg List.flatten
  apply List.map_congr_left
  intro u _
  exact congrArg leBytes16 (recode_ulawSampleToSlin u)

/-- A buffer of whole samples that goes through the codec keeps its length, its samples
up to half a cell of their segments or the clip level, and their order; nothing
overflows on the way, and a second pass changes nothing more. -/
theorem codec_accurate :
    (∀ slin : List UInt8, 2 ∣ slin.length →
      ∃ ulaw, encodeUlaw slin = .ok ulaw ∧ (decodeUlaw ulaw).length = slin.length ∧
        samples (decodeUlaw ulaw) =
          (samples slin).map fun s => ulawSampleToSlin (slinSampleToUlaw s)) ∧
      (∀ s, Accurate s (ulawSampleToSlin (slinSampleToUlaw s))) ∧
      (∀ s t : Int16, s ≤ t →
        ulawSampleToSlin (slinSampleToUlaw s) ≤ ulawSampleToSlin (slinSampleToUlaw t)) ∧
      (∀ ulaw, (encodeUlaw (decodeUlaw ulaw)).map decodeUlaw = .ok (decodeUlaw ulaw)) ∧
      (∀ s, slinSampleToUlawChecked s = some (slinSampleToUlaw s)) ∧
      ∀ u, ulawSampleToSlinChecked u = some (ulawSampleToSlin u) :=
  ⟨fun _ heven => recoded_buffer heven, accurate_recode, fun _ _ h => recode_le_recode h,
    recoded_decodeUlaw, slinSampleToUlawChecked_eq, ulawSampleToSlinChecked_eq⟩

end SlmodemSipBridge.Codec
