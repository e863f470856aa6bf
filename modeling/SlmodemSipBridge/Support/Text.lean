import Mathlib.Algebra.Order.Group.Nat
import Mathlib.Data.List.DropRight
import SlmodemSipBridge.Support.Rust

/-!
# Rust's `str`

A text is its list of characters.  Positions in a text are byte offsets into
its UTF-8 encoding, as in Rust: a slice panics when its offset is not a
character boundary.
-/

namespace Rust

/-- A text, as its characters. -/
abbrev Str := List Char

/-- The characters of a literal. -/
@[coe] def lit (s : String) : Str := s.toList

instance : Coe String Str := ⟨lit⟩

/-- The characters of a text are tried, not all characters. -/
instance decidableForallMem {P : Char → Prop} [DecidablePred P] (s : Str) :
    Decidable (∀ c ∈ s, P c) :=
  List.decidableBAll P s

/-- `str::len`: the length in bytes. -/
def byteLen : Str → ℕ
  | [] => 0
  | c :: s => c.utf8Size + byteLen s

@[simp] theorem byteLen_append (s t : Str) :
    byteLen (s ++ t) = byteLen s + byteLen t := by
  induction s with
  | nil => simp [byteLen]
  | cons c s ih => simp [byteLen, ih, Nat.add_assoc]

theorem byteLen_eq_zero_iff {s : Str} : byteLen s = 0 ↔ s = [] := by
  cases s with
  | nil => simp [byteLen]
  | cons c s =>
      have hc : 0 < c.utf8Size := c.utf8Size_pos
      simp only [byteLen, reduceCtorEq, iff_false]
      omega

/-! ## Slices -/

/-- Split a text at a byte offset, if that is a character boundary. -/
def splitAtByte : Str → ℕ → Option (Str × Str)
  | s, 0 => some ([], s)
  | [], _ + 1 => none
  | c :: s, n + 1 =>
      if c.utf8Size ≤ n + 1 then
        (splitAtByte s (n + 1 - c.utf8Size)).map fun p => (c :: p.1, p.2)
      else none

theorem splitAtByte_append (s t : Str) :
    splitAtByte (s ++ t) (byteLen s) = some (s, t) := by
  induction s with
  | nil => cases t <;> rfl
  | cons c s ih =>
      have hc : 0 < c.utf8Size := c.utf8Size_pos
      obtain ⟨n, hn⟩ : ∃ n, c.utf8Size + byteLen s = n + 1 :=
        ⟨c.utf8Size + byteLen s - 1, by omega⟩
      have hrest : n + 1 - c.utf8Size = byteLen s := by omega
      simp only [List.cons_append, byteLen, hn, splitAtByte, hrest, ih]
      rw [if_pos (by omega)]
      rfl

theorem splitAtByte_eq_some {s a b : Str} {n : ℕ}
    (h : splitAtByte s n = some (a, b)) : s = a ++ b ∧ byteLen a = n := by
  induction s, n using splitAtByte.induct generalizing a with
  | case1 s =>
      simp only [splitAtByte, Option.some.injEq, Prod.mk.injEq] at h
      obtain ⟨rfl, rfl⟩ := h
      exact ⟨rfl, rfl⟩
  | case2 n => simp [splitAtByte] at h
  | case3 c s n hfits ih =>
      rw [splitAtByte, if_pos hfits, Option.map_eq_some_iff] at h
      obtain ⟨⟨a', b'⟩, hsplit, heq⟩ := h
      simp only [Prod.mk.injEq] at heq
      obtain ⟨rfl, rfl⟩ := heq
      obtain ⟨rfl, hlen⟩ := ih hsplit
      refine ⟨rfl, ?_⟩
      simp only [byteLen, hlen]
      omega
  | case4 c s n hcut =>
      rw [splitAtByte, if_neg hcut] at h
      simp at h

/-- `&s[n..]`. -/
def strFrom (s : Str) (n : ℕ) : Checked Str :=
  match splitAtByte s n with
  | some (_, b) => .ok b
  | none => .error .notCharBoundary

/-- `&s[..n]`. -/
def strTo (s : Str) (n : ℕ) : Checked Str :=
  match splitAtByte s n with
  | some (a, _) => .ok a
  | none => .error .notCharBoundary

@[simp] theorem strFrom_append (s t : Str) :
    strFrom (s ++ t) (byteLen s) = .ok t := by
  simp [strFrom, splitAtByte_append]

@[simp] theorem strTo_append (s t : Str) :
    strTo (s ++ t) (byteLen s) = .ok s := by
  simp [strTo, splitAtByte_append]

/-! ## Searching -/

/-- `str::find` of a text: the byte offset of its first occurrence. -/
def find (needle : Str) : Str → Option ℕ
  | [] => if needle.isEmpty then some 0 else none
  | c :: s =>
      if needle.isPrefixOf (c :: s) then some 0
      else (find needle s).map (c.utf8Size + ·)

/-- `str::find` of a character class. -/
def findChar (p : Char → Bool) : Str → Option ℕ
  | [] => none
  | c :: s => if p c then some 0 else (findChar p s).map (c.utf8Size + ·)

/-- `str::contains`. -/
def contains (needle s : Str) : Bool := (find needle s).isSome

/-- `str::starts_with`. -/
def startsWith (pattern s : Str) : Bool := pattern.isPrefixOf s

theorem find_eq_some {needle s : Str} {n : ℕ} (h : find needle s = some n) :
    ∃ before after, s = before ++ needle ++ after ∧ byteLen before = n := by
  induction s generalizing n with
  | nil =>
      by_cases hempty : needle = []
      · simp only [find, hempty, List.isEmpty_nil, if_true, Option.some.injEq] at h
        exact ⟨[], [], by simp [hempty], h⟩
      · simp [find, hempty] at h
  | cons c s ih =>
      by_cases hprefix : needle.isPrefixOf (c :: s) = true
      · rw [find, if_pos hprefix, Option.some.injEq] at h
        obtain ⟨after, hafter⟩ := List.isPrefixOf_iff_prefix.mp hprefix
        exact ⟨[], after, by simp [hafter], h⟩
      · rw [find, if_neg hprefix, Option.map_eq_some_iff] at h
        obtain ⟨k, hk, rfl⟩ := h
        obtain ⟨before, after, rfl, rfl⟩ := ih hk
        exact ⟨c :: before, after, by simp, rfl⟩

theorem findChar_eq_some {p : Char → Bool} {s : Str} {n : ℕ}
    (h : findChar p s = some n) :
    ∃ before c after, s = before ++ c :: after ∧ byteLen before = n ∧
      p c = true ∧ ∀ d ∈ before, p d = false := by
  induction s generalizing n with
  | nil => simp [findChar] at h
  | cons c s ih =>
      by_cases hc : p c = true
      · rw [findChar, if_pos hc, Option.some.injEq] at h
        exact ⟨[], c, s, rfl, h, hc, by simp⟩
      · rw [findChar, if_neg hc, Option.map_eq_some_iff] at h
        obtain ⟨k, hk, rfl⟩ := h
        obtain ⟨before, d, after, rfl, rfl, hd, hbefore⟩ := ih hk
        refine ⟨c :: before, d, after, rfl, rfl, hd, ?_⟩
        intro e he
        rcases List.mem_cons.mp he with rfl | he
        · exact Bool.eq_false_of_not_eq_true hc
        · exact hbefore e he

/-! ## Characters -/

/-- `char::is_whitespace`: the property `White_Space` of Unicode. -/
def isWhitespace (c : Char) : Bool :=
  let n := c.toNat
  (9 ≤ n && n ≤ 13) || n == 0x20 || n == 0x85 || n == 0xA0 || n == 0x1680 ||
    (0x2000 ≤ n && n ≤ 0x200A) || n == 0x2028 || n == 0x2029 || n == 0x202F ||
    n == 0x205F || n == 0x3000

/-- `char::to_ascii_lowercase`. -/
def toAsciiLower (c : Char) : Char :=
  if 'A' ≤ c ∧ c ≤ 'Z' then Char.ofNat (c.toNat + 32) else c

/-- `str::to_ascii_lowercase`. -/
def toAsciiLowercase (s : Str) : Str := s.map toAsciiLower

/-- `str::eq_ignore_ascii_case`. -/
def eqIgnoreAsciiCase (s t : Str) : Bool :=
  toAsciiLowercase s == toAsciiLowercase t

/-! ## Lines, words and blanks -/

/-- `str::trim_start`. -/
def trimStart (s : Str) : Str := s.dropWhile isWhitespace

/-- `str::trim_end`. -/
def trimEnd (s : Str) : Str := s.rdropWhile isWhitespace

/-- `str::trim`. -/
def trim (s : Str) : Str := trimEnd (trimStart s)

/-- Strip a pattern from the start, at most so many times. -/
def stripRepeated (pattern : Str) : ℕ → Str → Str
  | 0, s => s
  | n + 1, s =>
      if pattern.isPrefixOf s then stripRepeated pattern n (s.drop pattern.length)
      else s

/-- `str::trim_start_matches` of a text that is not empty. -/
def trimStartMatches (pattern s : Str) : Str := stripRepeated pattern s.length s

/-- Drop one carriage return at the end. -/
def stripCarriageReturn (s : Str) : Str :=
  if s.getLast? = some '\r' then s.dropLast else s

/-- End the pieces between line feeds: each but the last gives up its carriage
return, and an empty last piece is no line. -/
def endLines : List Str → List Str
  | [] => []
  | [last] => if last.isEmpty then [] else [last]
  | piece :: next :: rest => stripCarriageReturn piece :: endLines (next :: rest)

/-- `str::lines`. -/
def lines (s : Str) : List Str := endLines (s.splitOn '\n')

/-- `str::split_whitespace`. -/
def splitWhitespace (s : Str) : List Str :=
  (s.splitOnP isWhitespace).filter (!·.isEmpty)

/-- `str::splitn`. -/
def splitN : ℕ → Char → Str → List Str
  | 0, _, _ => []
  | 1, _, s => [s]
  | n + 2, sep, s =>
      let piece := s.takeWhile (· != sep)
      match s.dropWhile (· != sep) with
      | [] => [piece]
      | _ :: rest => piece :: splitN (n + 1) sep rest

/-! ## Numbers -/

/-- The digits of an unsigned number, unless it exceeds `max`. -/
def parseDigits (max : ℕ) : ℕ → Str → Option ℕ
  | acc, [] => some acc
  | acc, c :: s =>
      if '0' ≤ c ∧ c ≤ '9' then
        let acc := acc * 10 + (c.toNat - '0'.toNat)
        if acc ≤ max then parseDigits max acc s else none
      else none

/-- `str::parse` to an unsigned integer type with the given maximum: an
optional `+` and then one or more digits. -/
def parseUnsigned (max : ℕ) (s : Str) : Option ℕ :=
  match s with
  | [] => none
  | ['+'] => none
  | '+' :: digits => parseDigits max 0 digits
  | digits => parseDigits max 0 digits

/-- `str::parse::<u16>`. -/
def parseU16 (s : Str) : Option ℕ := parseUnsigned (2 ^ 16 - 1) s

/-- `str::parse::<u32>`. -/
def parseU32 (s : Str) : Option ℕ := parseUnsigned (2 ^ 32 - 1) s

example : lines (lit "a\r\nb\n\nc\r") = [lit "a", lit "b", [], lit "c\r"] := by decide

end Rust
