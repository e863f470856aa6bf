import Mathlib.Algebra.Group.Nat.Defs
import Mathlib.Data.Nat.Basic

/-!
# Panics, fixed-width bytes and number formatting

The parts of Rust's language and standard library that are not about text:
computations that may panic, the byte representations of the fixed-width
integers, and the number formats `{}` and `{:x}`.
-/

namespace Rust

/-- Why a thread panicked. -/
inductive Panic where
  | assertion (message : String)
  | indexOutOfBounds
  | notCharBoundary
  | instantOverflow
  deriving DecidableEq, Repr

/-- A computation that ends in a value or in a panic. -/
abbrev Checked (α : Type*) := Except Panic α

/-- `assert!(condition, message)`. -/
def assert (condition : Bool) (message : String) : Checked Unit :=
  if condition then .ok () else .error (.assertion message)

@[simp] theorem assert_true (message : String) :
    assert true message = .ok () := rfl

@[simp] theorem assert_false (message : String) :
    assert false message = .error (.assertion message) := rfl

/-- `data[i]`. -/
def index {α : Type*} (data : List α) (i : ℕ) : Checked α :=
  match data[i]? with
  | some a => .ok a
  | none => .error .indexOutOfBounds

theorem index_eq_ok {α : Type*} {data : List α} {i : ℕ} (h : i < data.length) :
    index data i = .ok data[i] := by
  simp [index, h]

/-- `&data[i..]`. -/
def sliceFrom {α : Type*} (data : List α) (i : ℕ) : Checked (List α) :=
  if i ≤ data.length then .ok (data.drop i) else .error .indexOutOfBounds

theorem sliceFrom_eq_ok {α : Type*} {data : List α} {i : ℕ}
    (h : i ≤ data.length) : sliceFrom data i = .ok (data.drop i) := by
  simp [sliceFrom, h]

/-- The first time that an `Instant` cannot hold: its seconds are an `i64`. -/
def instantLimit : ℕ := 2 ^ 63 * 10 ^ 9

/-- `instant + duration`, both in nanoseconds. -/
def addDuration (instant duration : ℕ) : Checked ℕ :=
  if instant + duration < instantLimit then .ok (instant + duration)
  else .error .instantOverflow

/-- The bytes that a read or a receive puts into a buffer of `cap` bytes. -/
abbrev Chunk (cap : ℕ) := {bytes : List UInt8 // bytes.length ≤ cap}

/-! ## Byte representations -/

/-- `u16::to_be_bytes`. -/
def beBytes16 (x : UInt16) : List UInt8 :=
  [UInt8.ofNat (x.toNat / 2 ^ 8), UInt8.ofNat x.toNat]

/-- `u32::to_be_bytes`. -/
def beBytes32 (x : UInt32) : List UInt8 :=
  [UInt8.ofNat (x.toNat / 2 ^ 24), UInt8.ofNat (x.toNat / 2 ^ 16),
    UInt8.ofNat (x.toNat / 2 ^ 8), UInt8.ofNat x.toNat]

/-- `u16::from_be_bytes`. -/
def u16FromBeBytes (hi lo : UInt8) : UInt16 :=
  UInt16.ofNat (hi.toNat * 2 ^ 8 + lo.toNat)

/-- `u32::from_be_bytes`. -/
def u32FromBeBytes (b₃ b₂ b₁ b₀ : UInt8) : UInt32 :=
  UInt32.ofNat
    (b₃.toNat * 2 ^ 24 + b₂.toNat * 2 ^ 16 + b₁.toNat * 2 ^ 8 + b₀.toNat)

/-- `i16::to_le_bytes`. -/
def leBytes16 (x : Int16) : List UInt8 :=
  [UInt8.ofNat x.toUInt16.toNat, UInt8.ofNat (x.toUInt16.toNat / 2 ^ 8)]

/-- `i16::from_le_bytes`. -/
def i16FromLeBytes (lo hi : UInt8) : Int16 :=
  (UInt16.ofNat (hi.toNat * 2 ^ 8 + lo.toNat)).toInt16

@[simp] theorem beBytes16_length (x : UInt16) : (beBytes16 x).length = 2 := rfl

@[simp] theorem beBytes32_length (x : UInt32) : (beBytes32 x).length = 4 := rfl

theorem u16FromBeBytes_beBytes16 (x : UInt16) :
    u16FromBeBytes (UInt8.ofNat (x.toNat / 2 ^ 8)) (UInt8.ofNat x.toNat) = x := by
  have hx : x.toNat < 2 ^ 16 := x.toNat_lt
  apply UInt16.toNat_inj.mp
  simp only [u16FromBeBytes, UInt8.toNat_ofNat', UInt16.toNat_ofNat']
  omega

theorem u32FromBeBytes_beBytes32 (x : UInt32) :
    u32FromBeBytes (UInt8.ofNat (x.toNat / 2 ^ 24)) (UInt8.ofNat (x.toNat / 2 ^ 16))
      (UInt8.ofNat (x.toNat / 2 ^ 8)) (UInt8.ofNat x.toNat) = x := by
  have hx : x.toNat < 2 ^ 32 := x.toNat_lt
  apply UInt32.toNat_inj.mp
  simp only [u32FromBeBytes, UInt8.toNat_ofNat', UInt32.toNat_ofNat']
  omega

theorem i16FromLeBytes_leBytes16 (x : Int16) :
    i16FromLeBytes (UInt8.ofNat x.toUInt16.toNat) (UInt8.ofNat (x.toUInt16.toNat / 2 ^ 8)) =
      x := by
  have hx : x.toUInt16.toNat < 2 ^ 16 := x.toUInt16.toNat_lt
  have hsame : UInt16.ofNat ((UInt8.ofNat (x.toUInt16.toNat / 2 ^ 8)).toNat * 2 ^ 8 +
      (UInt8.ofNat x.toUInt16.toNat).toNat) = x.toUInt16 := by
    apply UInt16.toNat_inj.mp
    simp only [UInt8.toNat_ofNat', UInt16.toNat_ofNat']
    omega
  rw [i16FromLeBytes, hsame]
  rfl

/-! ## Number formats -/

/-- The format `{}` of an unsigned integer. -/
def decimal (n : ℕ) : List Char := Nat.toDigits 10 n

/-- The format `{:x}` of an unsigned integer. -/
def hex (n : ℕ) : List Char := Nat.toDigits 16 n

end Rust
