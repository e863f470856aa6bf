import SlmodemSipBridge.Support.Utf8

/-!
# `str::as_bytes`

The bytes of a text, which the decoder gives back as they were: what one side sends
as a text, the other receives as the same text.
-/

namespace Rust

/-- `str::as_bytes`. -/
def utf8Bytes (s : Str) : List UInt8 := s.flatMap String.utf8EncodeChar

@[simp] theorem utf8Bytes_nil : utf8Bytes [] = [] := rfl

@[simp] theorem utf8Bytes_append (s t : Str) :
    utf8Bytes (s ++ t) = utf8Bytes s ++ utf8Bytes t := by
  simp [utf8Bytes]

/-- `str::len` counts the bytes. -/
theorem utf8Bytes_length (s : Str) : (utf8Bytes s).length = byteLen s := by
  induction s with
  | nil => rfl
  | cons c s ih =>
      rw [utf8Bytes, List.flatMap_cons, List.length_append, String.length_utf8EncodeChar]
      exact congrArg (c.utf8Size + ·) ih

/-! ## Single bytes -/

theorem utf8Decode_cons (pending : Option Pending) (b : UInt8) (bytes : List UInt8) :
    utf8Decode pending (b :: bytes) =
      (utf8Next pending b).1 ++ utf8Decode (utf8Next pending b).2 bytes := by
  cases pending <;> rfl

/-- A byte in the middle of a character. -/
theorem utf8Next_more {p : Pending} {b : UInt8} (hlow : p.low ≤ b.toNat)
    (hhigh : b.toNat ≤ p.high) (hmissing : p.missing ≠ 1) :
    utf8Next (some p) b =
      ([], some ⟨p.value * 64 + (b.toNat - 0x80), p.missing - 1, 0x80, 0xBF⟩) := by
  simp [utf8Next, hlow, hhigh, hmissing]

/-- The last byte of a character. -/
theorem utf8Next_last {p : Pending} {b : UInt8} (hlow : p.low ≤ b.toNat)
    (hhigh : b.toNat ≤ p.high) (hmissing : p.missing = 1) :
    utf8Next (some p) b = ([Char.ofNat (p.value * 64 + (b.toNat - 0x80))], none) := by
  simp [utf8Next, hlow, hhigh, hmissing]

theorem toNat_ofNat_of_lt {n : ℕ} (h : n < 256) : (UInt8.ofNat n).toNat = n := by
  rw [UInt8.toNat_ofNat', Nat.mod_eq_of_lt h]

/-! ## The first byte of a character -/

section First

variable {v : ℕ}

theorem utf8Start_one (h : v ≤ 0x7F) : utf8Start (UInt8.ofNat v) = ([Char.ofNat v], none) := by
  have hbyte : (UInt8.ofNat v).toNat = v := toNat_ofNat_of_lt (by omega)
  simp only [utf8Start, hbyte]
  rw [if_pos (by omega)]

theorem utf8Start_two (hlow : 0x80 ≤ v) (hhigh : v ≤ 0x7FF) :
    utf8Start (UInt8.ofNat (v / 64 % 0x20 + 0xC0)) = ([], some ⟨v / 64, 1, 0x80, 0xBF⟩) := by
  have hbyte : (UInt8.ofNat (v / 64 % 0x20 + 0xC0)).toNat = v / 64 + 0xC0 := by
    rw [toNat_ofNat_of_lt (by omega)]
    omega
  simp only [utf8Start, hbyte]
  rw [if_neg (by omega), if_pos (by omega), Nat.add_sub_cancel]

/-- The second byte of three is in the range that the first one asks for: the text is
not overlong, and no surrogate. -/
theorem utf8Start_three (hlow : 0x800 ≤ v) (hhigh : v ≤ 0xFFFF)
    (hscalar : v < 0xD800 ∨ 0xDFFF < v) :
    ∃ low high, utf8Start (UInt8.ofNat (v / 4096 % 0x10 + 0xE0)) =
        ([], some ⟨v / 4096, 2, low, high⟩) ∧
      low ≤ v / 64 % 0x40 + 0x80 ∧ v / 64 % 0x40 + 0x80 ≤ high := by
  have hbyte : (UInt8.ofNat (v / 4096 % 0x10 + 0xE0)).toNat = v / 4096 + 0xE0 := by
    rw [toNat_ofNat_of_lt (by omega)]
    omega
  simp only [utf8Start, hbyte]
  rw [if_neg (by omega), if_neg (by omega)]
  by_cases hzero : v / 4096 = 0
  · rw [hzero, if_pos rfl]
    exact ⟨_, _, rfl, by omega, by omega⟩
  rw [if_neg (by omega)]
  by_cases hsurrogates : v / 4096 = 0xD
  · rw [hsurrogates, if_pos rfl]
    exact ⟨_, _, rfl, by omega, by omega⟩
  rw [if_neg (by omega), if_pos (by omega), Nat.add_sub_cancel]
  exact ⟨_, _, rfl, by omega, by omega⟩

theorem utf8Start_four (hlow : 0x10000 ≤ v) (hhigh : v < 0x110000) :
    ∃ low high, utf8Start (UInt8.ofNat (v / 262144 % 0x08 + 0xF0)) =
        ([], some ⟨v / 262144, 3, low, high⟩) ∧
      low ≤ v / 4096 % 0x40 + 0x80 ∧ v / 4096 % 0x40 + 0x80 ≤ high := by
  have hbyte : (UInt8.ofNat (v / 262144 % 0x08 + 0xF0)).toNat = v / 262144 + 0xF0 := by
    rw [toNat_ofNat_of_lt (by omega)]
    omega
  simp only [utf8Start, hbyte]
  rw [if_neg (by omega), if_neg (by omega), if_neg (by omega), if_neg (by omega),
    if_neg (by omega)]
  by_cases hzero : v / 262144 = 0
  · rw [hzero, if_pos rfl]
    exact ⟨_, _, rfl, by omega, by omega⟩
  rw [if_neg (by omega)]
  by_cases hlast : v / 262144 = 4
  · rw [hlast, if_neg (by omega), if_pos rfl]
    exact ⟨_, _, rfl, by omega, by omega⟩
  rw [if_pos (by omega), Nat.add_sub_cancel]
  exact ⟨_, _, rfl, by omega, by omega⟩

end First

/-! ## Whole characters -/

/-- A byte that continues a character, in any range. -/
theorem toNat_continuation (n : ℕ) :
    (UInt8.ofNat (n % 0x40 + 0x80)).toNat = n % 0x40 + 0x80 :=
  toNat_ofNat_of_lt (by omega)

/-- The continuation of the character `v` goes on. -/
theorem continued_more (value v missing low high : ℕ) (hlow : low ≤ v % 0x40 + 0x80)
    (hhigh : v % 0x40 + 0x80 ≤ high) (hmissing : missing ≠ 1) :
    utf8Next (some ⟨value, missing, low, high⟩) (UInt8.ofNat (v % 0x40 + 0x80)) =
      ([], some ⟨value * 64 + v % 0x40, missing - 1, 0x80, 0xBF⟩) := by
  rw [utf8Next_more (by rw [toNat_continuation]; exact hlow)
    (by rw [toNat_continuation]; exact hhigh) hmissing, toNat_continuation,
    Nat.add_sub_cancel]

/-- The continuation of the character `v` ends. -/
theorem continued_last (value v low high : ℕ) (hlow : low ≤ v % 0x40 + 0x80)
    (hhigh : v % 0x40 + 0x80 ≤ high) :
    utf8Next (some ⟨value, 1, low, high⟩) (UInt8.ofNat (v % 0x40 + 0x80)) =
      ([Char.ofNat (value * 64 + v % 0x40)], none) := by
  rw [utf8Next_last (by rw [toNat_continuation]; exact hlow)
    (by rw [toNat_continuation]; exact hhigh) rfl, toNat_continuation, Nat.add_sub_cancel]

theorem utf8Decode_char (c : Char) (bytes : List UInt8) :
    utf8Decode none (String.utf8EncodeChar c ++ bytes) = c :: utf8Decode none bytes := by
  have hscalar : c.val.toNat < 0xD800 ∨ 0xDFFF < c.val.toNat ∧ c.val.toNat < 0x110000 :=
    c.valid
  have hchar : Char.ofNat c.val.toNat = c := Char.ofNat_toNat c
  generalize hv : c.val.toNat = v at hscalar hchar
  unfold String.utf8EncodeChar
  simp only [hv]
  split
  · next hone =>
    have hfirst : utf8Next none (UInt8.ofNat v) = ([Char.ofNat v], none) := utf8Start_one hone
    simp only [List.cons_append, List.nil_append, utf8Decode_cons, hfirst, hchar]
  split
  · next hone htwo =>
    have hfirst : utf8Next none (UInt8.ofNat (v / 64 % 0x20 + 0xC0)) = _ :=
      utf8Start_two (by omega) htwo
    have hlast := continued_last (v / 64) v 0x80 0xBF (by omega) (by omega)
    have hvalue : v / 64 * 64 + v % 0x40 = v := by omega
    simp only [List.cons_append, List.nil_append, utf8Decode_cons, hfirst, hlast, hvalue,
      hchar]
  split
  · next hone htwo hthree =>
    obtain ⟨low, high, hstart, hlow, hhigh⟩ :=
      utf8Start_three (by omega) hthree (by omega : v < 0xD800 ∨ 0xDFFF < v)
    have hfirst : utf8Next none (UInt8.ofNat (v / 4096 % 0x10 + 0xE0)) = _ := hstart
    have hsecond := continued_more (v / 4096) (v / 64) 2 low high hlow hhigh (by decide)
    have hlast := continued_last (v / 4096 * 64 + v / 64 % 0x40) v 0x80 0xBF (by omega)
      (by omega)
    have hvalue : (v / 4096 * 64 + v / 64 % 0x40) * 64 + v % 0x40 = v := by omega
    simp only [List.cons_append, List.nil_append, utf8Decode_cons, hfirst, hsecond, hlast,
      hvalue, hchar]
  · next hone htwo hthree =>
    obtain ⟨low, high, hstart, hlow, hhigh⟩ :=
      utf8Start_four (by omega) (by omega : v < 0x110000)
    have hfirst : utf8Next none (UInt8.ofNat (v / 262144 % 0x08 + 0xF0)) = _ := hstart
    have hsecond := continued_more (v / 262144) (v / 4096) 3 low high hlow hhigh (by decide)
    have hthird := continued_more (v / 262144 * 64 + v / 4096 % 0x40) (v / 64) 2 0x80 0xBF
      (by omega) (by omega) (by decide)
    have hlast := continued_last
      ((v / 262144 * 64 + v / 4096 % 0x40) * 64 + v / 64 % 0x40) v 0x80 0xBF (by omega)
      (by omega)
    have hvalue : ((v / 262144 * 64 + v / 4096 % 0x40) * 64 + v / 64 % 0x40) * 64 +
        v % 0x40 = v := by omega
    simp only [List.cons_append, List.nil_append, utf8Decode_cons, hfirst, hsecond, hthird,
      hlast, hvalue, hchar]

/-- What is sent as a text is received as that text. -/
theorem fromUtf8Lossy_utf8Bytes (s : Str) : fromUtf8Lossy (utf8Bytes s) = s := by
  induction s with
  | nil => rfl
  | cons c s ih =>
      rw [fromUtf8Lossy, utf8Bytes, List.flatMap_cons, utf8Decode_char]
      exact congrArg (c :: ·) ih

end Rust
