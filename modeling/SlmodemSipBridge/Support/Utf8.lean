import SlmodemSipBridge.Support.Text

/-!
# `String::from_utf8_lossy`

A decoder that replaces each maximal ill-formed part by U+FFFD.  It reads one
byte at a time and remembers the character begun but not finished.
-/

namespace Rust

/-- U+FFFD. -/
def replacement : Char := Char.ofNat 0xFFFD

/-- A character begun: its bits so far, how many bytes are missing, and the
range in which the next one has to be. -/
structure Pending where
  value : ℕ
  missing : ℕ
  low : ℕ
  high : ℕ
  deriving DecidableEq, Repr

/-- What the first byte of a character does. -/
def utf8Start (b : UInt8) : Str × Option Pending :=
  let n := b.toNat
  if n < 0x80 then ([Char.ofNat n], none)
  else if 0xC2 ≤ n ∧ n ≤ 0xDF then ([], some ⟨n - 0xC0, 1, 0x80, 0xBF⟩)
  else if n = 0xE0 then ([], some ⟨0, 2, 0xA0, 0xBF⟩)
  else if n = 0xED then ([], some ⟨0xD, 2, 0x80, 0x9F⟩)
  else if 0xE1 ≤ n ∧ n ≤ 0xEF then ([], some ⟨n - 0xE0, 2, 0x80, 0xBF⟩)
  else if n = 0xF0 then ([], some ⟨0, 3, 0x90, 0xBF⟩)
  else if 0xF1 ≤ n ∧ n ≤ 0xF3 then ([], some ⟨n - 0xF0, 3, 0x80, 0xBF⟩)
  else if n = 0xF4 then ([], some ⟨4, 3, 0x80, 0x8F⟩)
  else ([replacement], none)

/-- What the next byte does.  A byte out of range ends the part begun and starts
afresh. -/
def utf8Next (pending : Option Pending) (b : UInt8) : Str × Option Pending :=
  match pending with
  | none => utf8Start b
  | some p =>
      if p.low ≤ b.toNat ∧ b.toNat ≤ p.high then
        let value := p.value * 64 + (b.toNat - 0x80)
        if p.missing = 1 then ([Char.ofNat value], none)
        else ([], some ⟨value, p.missing - 1, 0x80, 0xBF⟩)
      else
        let (text, next) := utf8Start b
        (replacement :: text, next)

/-- Decode from a character begun. -/
def utf8Decode : Option Pending → List UInt8 → Str
  | none, [] => []
  | some _, [] => [replacement]
  | pending, b :: bytes =>
      let (text, next) := utf8Next pending b
      text ++ utf8Decode next bytes

/-- `String::from_utf8_lossy`. -/
def fromUtf8Lossy (bytes : List UInt8) : Str := utf8Decode none bytes

/-- The bytes of a text of ASCII characters. -/
def asciiBytes (s : Str) : List UInt8 := s.map fun c => UInt8.ofNat c.toNat

@[simp] theorem asciiBytes_length (s : Str) : (asciiBytes s).length = s.length := by
  simp [asciiBytes]

end Rust
