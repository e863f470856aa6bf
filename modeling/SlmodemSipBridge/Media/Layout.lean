import Mathlib.Data.Nat.Bitwise
import SlmodemSipBridge.Media.Rtp

/-!
# The RTP header layout

The wire format of an RTP packet, stated over bytes and independently of the
parser: a fixed header whose first byte announces what follows it, the CSRC
list, the optional header extension and the rest.  `parse_packet` accepts
exactly the packets of this layout whose rest is not empty.
-/

namespace SlmodemSipBridge.Rtp

open Rust

/-! ## The first byte -/

/-- The version, the top two bits of the first byte. -/
def versionOf (first : UInt8) : ℕ := first.toNat / 64

/-- The X bit of the first byte. -/
def extensionBit (first : UInt8) : Bool := first.toNat / 16 % 2 == 1

/-- The CSRC count, the low four bits of the first byte. -/
def csrcCount (first : UInt8) : ℕ := first.toNat % 16

theorem version_eq_two_iff (first : UInt8) :
    (first >>> 6) &&& 0x03 = 2 ↔ versionOf first = 2 := by
  have hlt : first.toNat < 256 := first.toNat_lt
  have hvalue : ((first >>> 6) &&& 0x03).toNat = first.toNat / 64 := by
    have hmask := Nat.and_two_pow_sub_one_eq_mod (first.toNat / 64) 2
    norm_num at hmask
    simp only [UInt8.toNat_and, UInt8.toNat_shiftRight, UInt8.reduceToNat,
      Nat.reduceMod, Nat.shiftRight_eq_div_pow, Nat.reducePow, hmask]
    omega
  rw [← UInt8.toNat_inj, hvalue]
  rfl

theorem csrcCount_eq (first : UInt8) :
    (first &&& 0x0F).toNat = csrcCount first := by
  have hmask := Nat.and_two_pow_sub_one_eq_mod first.toNat 4
  norm_num at hmask
  simp only [UInt8.toNat_and, UInt8.reduceToNat, hmask, csrcCount]

theorem extensionBit_iff (first : UInt8) :
    (first &&& 0x10) ≠ 0 ↔ extensionBit first = true := by
  have hbit : (first &&& 0x10).toNat = 2 ^ 4 * (first.toNat.testBit 4).toNat := by
    rw [← Nat.two_pow_and, Nat.and_comm]
    simp only [UInt8.toNat_and, UInt8.reduceToNat, Nat.reducePow]
  have htest : extensionBit first = first.toNat.testBit 4 := by
    rw [Nat.testBit_eq_decide_div_mod_eq]
    rfl
  rw [ne_eq, ← UInt8.toNat_inj, hbit, htest]
  cases first.toNat.testBit 4 <;> simp

/-! ## The layout -/

/-- The bytes of the header extension that the X bit announces: a profile of two
bytes, a big-endian length and that many words of four bytes. -/
inductive ExtensionPart : Bool → List UInt8 → Prop where
  | absent : ExtensionPart false []
  | present (profile words : List UInt8) (hi lo : UInt8) :
      profile.length = 2 →
      words.length = 4 * (hi.toNat * 256 + lo.toNat) →
      ExtensionPart true (profile ++ [hi, lo] ++ words)

/-- `rest` is what remains of `data` behind a version 2 header. -/
def Headed (data rest : List UInt8) : Prop :=
  ∃ first fixed csrc extension,
    data = (first :: fixed) ++ csrc ++ extension ++ rest ∧
      versionOf first = 2 ∧
      (first :: fixed).length = 12 ∧
      csrc.length = 4 * csrcCount first ∧
      ExtensionPart (extensionBit first) extension

/-- `data` is a header followed by a payload that is not empty. -/
def HasLayout (data payload : List UInt8) : Prop :=
  Headed data payload ∧ payload ≠ []

/-! ## The parser -/

/-- Where the payload begins, for a first byte and the rest of the packet. -/
def payloadOffset (data : List UInt8) (first : UInt8) : ℕ :=
  let headerLen := 12 + 4 * csrcCount first
  if extensionBit first then
    headerLen + 4 + 4 * ((data.getD (headerLen + 2) 0).toNat * 256 +
      (data.getD (headerLen + 3) 0).toNat)
  else headerLen

theorem u16FromBeBytes_toNat (hi lo : UInt8) :
    (u16FromBeBytes hi lo).toNat = hi.toNat * 256 + lo.toNat := by
  have hhi : hi.toNat < 256 := hi.toNat_lt
  have hlo : lo.toNat < 256 := lo.toNat_lt
  rw [u16FromBeBytes, UInt16.toNat_ofNat']
  omega

/-- The payload begins behind the fixed header and the CSRC list. -/
theorem headerLen_le_payloadOffset (data : List UInt8) (first : UInt8) :
    12 + 4 * csrcCount first ≤ payloadOffset data first := by
  simp only [payloadOffset]
  split <;> omega

theorem payloadOffset_of_no_extension (data : List UInt8) {first : UInt8}
    (hx : extensionBit first = false) :
    payloadOffset data first = 12 + csrcCount first * 4 := by
  simp only [payloadOffset, hx, Nat.mul_comm 4 (csrcCount first)]
  rfl

theorem le_payloadOffset_of_extension (data : List UInt8) {first : UInt8}
    (hx : extensionBit first = true) :
    12 + 4 * csrcCount first + 4 ≤ payloadOffset data first := by
  simp only [payloadOffset, hx, if_true]
  omega

/-- The length of a header extension is read from its third and fourth byte. -/
theorem payloadOffset_of_extension {data : List UInt8} {first : UInt8}
    (hx : extensionBit first = true)
    (hhi : 12 + csrcCount first * 4 + 2 < data.length)
    (hlo : 12 + csrcCount first * 4 + 3 < data.length) :
    payloadOffset data first =
      12 + csrcCount first * 4 +
        (4 + (u16FromBeBytes data[12 + csrcCount first * 4 + 2]
          data[12 + csrcCount first * 4 + 3]).toNat * 4) := by
  rw [u16FromBeBytes_toNat]
  simp only [payloadOffset, hx, if_true, Nat.mul_comm 4 (csrcCount first),
    List.getD_eq_getElem data 0 hhi, List.getD_eq_getElem data 0 hlo]
  omega

/-- The parser as one test: the version, and whether something follows the
parts that the first byte announces. -/
theorem parsePacket_cons (first : UInt8) (tail : List UInt8) :
    parsePacket (first :: tail) =
      .ok (if versionOf first = 2 ∧
          payloadOffset (first :: tail) first < (first :: tail).length then
        some ((first :: tail).drop (payloadOffset (first :: tail) first))
      else none) := by
  generalize hdata : first :: tail = data
  have hfirst : index data 0 = .ok first := by rw [← hdata]; rfl
  have hheader := headerLen_le_payloadOffset data first
  have hnone : ¬ (versionOf first = 2 ∧ payloadOffset data first < data.length) →
      (.ok none : Checked (Option (List UInt8))) =
        .ok (if versionOf first = 2 ∧ payloadOffset data first < data.length then
          some (data.drop (payloadOffset data first)) else none) := by
    intro hnot
    rw [if_neg hnot]
  unfold parsePacket
  simp only [minRtpPacketSize, rtpHeaderSize, hfirst, bind, Except.bind, csrcCount_eq]
  split
  · next hmin =>
    apply hnone
    omega
  split
  · next hversion =>
    apply hnone
    rw [ne_eq, version_eq_two_iff] at hversion
    exact fun h => hversion h.1
  next hmin hversion =>
  have hv : versionOf first = 2 := (version_eq_two_iff first).mp (not_not.mp hversion)
  split
  · next hshort =>
    apply hnone
    omega
  -- The last two tests differ only in how the offset of the payload comes about.
  by_cases hx : extensionBit first = true
  · rw [if_pos ((extensionBit_iff first).mpr hx)]
    split
    · next hext =>
      apply hnone
      have hle := le_payloadOffset_of_extension data hx
      omega
    · next hext =>
      have hhi : 12 + csrcCount first * 4 + 2 < data.length := by omega
      have hlo : 12 + csrcCount first * 4 + 3 < data.length := by omega
      rw [index_eq_ok hhi, index_eq_ok hlo]
      simp only [← payloadOffset_of_extension hx hhi hlo]
      split
      · next hend =>
        apply hnone
        omega
      · next hend =>
        rw [sliceFrom_eq_ok (by omega), if_pos ⟨hv, by omega⟩]
        rfl
  · rw [if_neg (mt (extensionBit_iff first).mp hx),
      ← payloadOffset_of_no_extension data (Bool.eq_false_of_not_eq_true hx)]
    split
    · next hend =>
      apply hnone
      omega
    · next hend =>
      rw [sliceFrom_eq_ok (by omega), if_pos ⟨hv, by omega⟩]
      rfl

theorem parsePacket_nil : parsePacket [] = .ok none := rfl

/-- The offset of the payload is the length of the header's parts. -/
theorem payloadOffset_eq {first : UInt8} {fixed csrc extension rest : List UInt8}
    (hfixed : (first :: fixed).length = 12)
    (hcsrc : csrc.length = 4 * csrcCount first)
    (hext : ExtensionPart (extensionBit first) extension) :
    payloadOffset ((first :: fixed) ++ csrc ++ extension ++ rest) first =
      ((first :: fixed) ++ csrc ++ extension).length := by
  generalize hx : extensionBit first = x at hext
  cases hext with
  | absent =>
      simp only [payloadOffset, hx, Bool.false_eq_true, if_false, List.append_nil,
        List.length_append, hfixed, hcsrc]
  | present profile words hi lo hprofile hwords =>
      generalize hbefore : (first :: fixed) ++ csrc ++ profile = before
      have hlen : before.length = 12 + 4 * csrcCount first + 2 := by
        rw [← hbefore, List.length_append, List.length_append, hfixed, hcsrc, hprofile]
      have hdata : (first :: fixed) ++ csrc ++ (profile ++ [hi, lo] ++ words) ++ rest =
          before ++ hi :: lo :: (words ++ rest) := by
        rw [← hbefore]
        simp
      have hhi : ((first :: fixed) ++ csrc ++ (profile ++ [hi, lo] ++ words) ++ rest).getD
          (12 + 4 * csrcCount first + 2) 0 = hi := by
        rw [hdata, ← hlen]
        simp
      have hlo : ((first :: fixed) ++ csrc ++ (profile ++ [hi, lo] ++ words) ++ rest).getD
          (12 + 4 * csrcCount first + 3) 0 = lo := by
        rw [hdata, show 12 + 4 * csrcCount first + 3 = before.length + 1 by omega]
        simp
      simp only [payloadOffset, hx, if_true, hhi, hlo, List.length_append, hfixed, hcsrc,
        hprofile, hwords, List.length_cons, List.length_nil]
      omega

/-- A header with nothing behind it is no packet; otherwise what is behind it is
the payload. -/
theorem parsePacket_of_headed {data rest : List UInt8} (h : Headed data rest) :
    parsePacket data = .ok (if rest.isEmpty then none else some rest) := by
  obtain ⟨first, fixed, csrc, extension, rfl, hversion, hfixed, hcsrc, hext⟩ := h
  have hoffset : payloadOffset ((first :: fixed) ++ csrc ++ extension ++ rest) first =
      ((first :: fixed) ++ csrc ++ extension).length := payloadOffset_eq hfixed hcsrc hext
  have hcons : (first :: fixed) ++ csrc ++ extension ++ rest =
      first :: (fixed ++ csrc ++ extension ++ rest) := by simp
  have hparse := parsePacket_cons first (fixed ++ csrc ++ extension ++ rest)
  rw [← hcons, hoffset, List.drop_left' rfl] at hparse
  rw [hparse]
  cases rest with
  | nil => simp
  | cons byte rest => simp [hversion]

/-- Bytes cut at three places. -/
theorem eq_append_of_cuts (data : List UInt8) {i j k : ℕ} (hij : i ≤ j) (hjk : j ≤ k) :
    data = data.take i ++ (data.drop i).take (j - i) ++ (data.drop j).take (k - j) ++
      data.drop k := by
  have hlast : data.drop k = (data.drop j).drop (k - j) := by
    rw [List.drop_drop, Nat.add_sub_cancel' hjk]
  have hmid : data.drop j = (data.drop i).drop (j - i) := by
    rw [List.drop_drop, Nat.add_sub_cancel' hij]
  rw [hlast, List.append_assoc, List.take_append_drop, hmid, List.append_assoc,
    List.take_append_drop, List.take_append_drop]

/-- The bytes that the length of a header extension counts are one. -/
theorem extensionPart_take (p₀ p₁ hi lo : UInt8) {words : List UInt8}
    (hwords : 4 * (hi.toNat * 256 + lo.toNat) ≤ words.length) :
    ExtensionPart true
      ((p₀ :: p₁ :: hi :: lo :: words).take (4 + 4 * (hi.toNat * 256 + lo.toNat))) := by
  have htake : (p₀ :: p₁ :: hi :: lo :: words).take (4 + 4 * (hi.toNat * 256 + lo.toNat)) =
      [p₀, p₁] ++ [hi, lo] ++ words.take (4 * (hi.toNat * 256 + lo.toNat)) := by
    rw [Nat.add_comm]
    rfl
  rw [htake]
  apply ExtensionPart.present
  · rfl
  · rw [List.length_take, Nat.min_eq_left hwords]

/-- The header in front of the payload the parser finds. -/
theorem headed_of_offset {first : UInt8} {tail : List UInt8}
    (hversion : versionOf first = 2)
    (hoffset : payloadOffset (first :: tail) first < (first :: tail).length) :
    Headed (first :: tail)
      ((first :: tail).drop (payloadOffset (first :: tail) first)) := by
  generalize hdata : first :: tail = data at hoffset
  generalize hheader : 12 + 4 * csrcCount first = headerLen
  have hle : headerLen ≤ payloadOffset data first := by
    rw [← hheader]
    exact headerLen_le_payloadOffset data first
  have hfixed : data.take 12 = first :: tail.take 11 := by rw [← hdata]; rfl
  have hsplit := eq_append_of_cuts data (show 12 ≤ headerLen by omega) hle
  refine ⟨first, tail.take 11, (data.drop 12).take (headerLen - 12),
    (data.drop headerLen).take (payloadOffset data first - headerLen), ?_, hversion,
    ?_, ?_, ?_⟩
  · rw [← hfixed]
    exact hsplit
  · rw [← hfixed, List.length_take]
    omega
  · rw [List.length_take, List.length_drop]
    omega
  by_cases hx : extensionBit first = true
  · have hhi : data.getD (headerLen + 2) 0 = (data.drop headerLen).getD 2 0 := by
      simp [List.getD_eq_getElem?_getD]
    have hlo : data.getD (headerLen + 3) 0 = (data.drop headerLen).getD 3 0 := by
      simp [List.getD_eq_getElem?_getD]
    have hext : payloadOffset data first - headerLen =
        4 + 4 * (((data.drop headerLen).getD 2 0).toNat * 256 +
          ((data.drop headerLen).getD 3 0).toNat) := by
      simp only [payloadOffset, hheader, hx, if_true, hhi, hlo]
      omega
    have hafter : payloadOffset data first - headerLen ≤ (data.drop headerLen).length := by
      rw [List.length_drop]
      omega
    have hlong : 4 ≤ (data.drop headerLen).length := by omega
    rw [hext] at hafter
    rw [hx, hext]
    match hbytes : data.drop headerLen, hlong with
    | p₀ :: p₁ :: hi :: lo :: words, _ =>
        rw [hbytes] at hafter
        simp only [List.getD_cons_succ, List.getD_cons_zero, List.length_cons] at hafter ⊢
        apply extensionPart_take
        omega
  · have hzero : payloadOffset data first - headerLen = 0 := by
      simp [payloadOffset, hheader, hx]
    rw [hzero, List.take_zero, Bool.eq_false_of_not_eq_true hx]
    exact .absent

/-- `parse_packet` never indexes out of bounds, returns a payload exactly for the
packets of the layout, and `None` for every other slice of bytes. -/
theorem parsePacket_layout (data : List UInt8) :
    (∀ why, parsePacket data ≠ .error why) ∧
      (∀ payload, parsePacket data = .ok (some payload) ↔ HasLayout data payload) ∧
      (parsePacket data = .ok none ↔ ∀ payload, ¬ HasLayout data payload) := by
  have hsome : ∀ payload,
      parsePacket data = .ok (some payload) ↔ HasLayout data payload := by
    intro payload
    constructor
    · intro hparse
      cases data with
      | nil => simp [parsePacket_nil] at hparse
      | cons first tail =>
          rw [parsePacket_cons] at hparse
          split at hparse
          · next hfits =>
            obtain ⟨hversion, hoffset⟩ := hfits
            have hpayload : (first :: tail).drop (payloadOffset (first :: tail) first) =
                payload := by simpa using hparse
            constructor
            · rw [← hpayload]
              exact headed_of_offset hversion hoffset
            · rw [← hpayload, ne_eq, List.drop_eq_nil_iff]
              omega
          · simp at hparse
    · rintro ⟨hheaded, hne⟩
      rw [parsePacket_of_headed hheaded, if_neg (by simpa using hne)]
  refine ⟨parsePacket_ne_error data, hsome, ?_⟩
  constructor
  · intro hnone payload hlayout
    rw [(hsome payload).mpr hlayout] at hnone
    simp at hnone
  · intro hno
    cases hparse : parsePacket data with
    | error why => exact absurd hparse (parsePacket_ne_error data why)
    | ok found =>
        cases found with
        | none => rfl
        | some payload => exact absurd ((hsome payload).mp hparse) (hno payload)

end SlmodemSipBridge.Rtp
