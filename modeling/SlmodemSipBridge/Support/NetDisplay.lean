import SlmodemSipBridge.Support.Printed

/-!
# Addresses are read back as they are displayed

`Display` and `FromStr` of `std::net` are inverse: an IPv4 address, and an IPv6
address with its longest run of zeroes compressed, come back from the parser, and
neither is taken for the other.
-/

namespace Rust

/-! ## Numbers -/

/-- The digits of a radix are the digits of `read_number`. -/
theorem digitValue_digitChar {b d : ℕ} (hb : b = 10 ∨ b = 16) (hd : d < b) :
    digitValue b d.digitChar = some d := by
  have hten : ∀ d < 10, digitValue 10 d.digitChar = some d := by decide
  have hsixteen : ∀ d < 16, digitValue 16 d.digitChar = some d := by decide
  rcases hb with rfl | rfl
  · exact hten d hd
  · exact hsixteen d hd

theorem digitValue_of_mem_toDigits {b n : ℕ} {c : Char} (hb : b = 10 ∨ b = 16)
    (h : c ∈ Nat.toDigits b n) : (digitValue b c).isSome = true := by
  obtain ⟨d, hd, rfl⟩ := mem_toDigits (by omega) h
  rw [digitValue_digitChar hb hd]
  rfl

/-- The value that `read_number` gathers. -/
theorem foldl_toDigits {b : ℕ} (hb : b = 10 ∨ b = 16) (n : ℕ) :
    (Nat.toDigits b n).foldl (fun acc c => acc * b + (digitValue b c).getD 0) 0 = n := by
  induction n using Nat.strongRecOn with
  | ind n ih =>
      rw [Nat.toDigits_eq_if (by omega)]
      by_cases hn : n < b
      · rw [if_pos hn]
        simp [digitValue_digitChar hb hn]
      · have hpos : 0 < b := by omega
        rw [if_neg hn, List.foldl_append, ih (n / b) (Nat.div_lt_self (by omega) (by omega))]
        simp only [List.foldl_cons, List.foldl_nil,
          digitValue_digitChar hb (Nat.mod_lt n hpos), Option.getD_some]
        rw [Nat.mul_comm]
        exact Nat.div_add_mod n b

/-- A text that no number goes on with. -/
def Halts (b : ℕ) (rest : Str) : Prop := ∀ c ∈ rest.head?, digitValue b c = none

theorem halts_nil (b : ℕ) : Halts b [] := by
  intro c hc
  simp at hc

theorem halts_cons {b : ℕ} {c : Char} (h : digitValue b c = none) (rest : Str) :
    Halts b (c :: rest) := by
  intro d hd
  obtain rfl : c = d := by simpa using hd
  exact h

theorem takeWhile_of_halts {b : ℕ} {s rest : Str}
    (hs : ∀ c ∈ s, (digitValue b c).isSome = true) (hrest : Halts b rest) :
    (s ++ rest).takeWhile (fun c => (digitValue b c).isSome) = s := by
  rw [List.takeWhile_append_of_pos hs]
  cases rest with
  | nil => simp
  | cons c rest =>
      have hc : digitValue b c = none := hrest c (by simp)
      rw [List.takeWhile_cons_of_neg (by simp [hc]), List.append_nil]

/-- A number that is printed is read, whatever follows it that is no digit. -/
theorem readNumber_toDigits {b maxDigits bound n : ℕ} {allowZeroPrefix : Bool} {rest : Str}
    (hb : b = 10 ∨ b = 16) (hbound : n < bound)
    (hlength : (Nat.toDigits b n).length ≤ maxDigits)
    (hzero : allowZeroPrefix = true ∨
      ¬ ((Nat.toDigits b n).head? = some '0' ∧ 1 < (Nat.toDigits b n).length))
    (hrest : Halts b rest) :
    readNumber b maxDigits allowZeroPrefix bound (Nat.toDigits b n ++ rest) =
      some (n, rest) := by
  have hdigits : (Nat.toDigits b n ++ rest).takeWhile (fun c => (digitValue b c).isSome) =
      Nat.toDigits b n :=
    takeWhile_of_halts (fun c hc => digitValue_of_mem_toDigits hb hc) hrest
  have hne : (Nat.toDigits b n).isEmpty = false := by
    rw [List.isEmpty_eq_false_iff]
    exact Nat.toDigits_ne_nil
  simp only [readNumber, hdigits, foldl_toDigits hb, hne, Bool.false_or, List.drop_left]
  rw [if_neg (by simp; omega), if_neg]
  rcases hzero with rfl | hzero
  · simp
  · simpa [and_assoc] using fun _ => hzero

/-- Where no digit comes first, there is no number. -/
theorem readNumber_of_halts {b maxDigits bound : ℕ} {allowZeroPrefix : Bool} {s : Str}
    (h : Halts b s) : readNumber b maxDigits allowZeroPrefix bound s = none := by
  have hdigits := takeWhile_of_halts (s := []) (by simp) h
  rw [List.nil_append] at hdigits
  simp [readNumber, hdigits]

/-! ## IPv4 addresses -/

/-- An octet. -/
theorem readNumber_octet (n : UInt8) {rest : Str} (hrest : Halts 10 rest) :
    readNumber 10 3 false 256 (decimal n.toNat ++ rest) = some (n.toNat, rest) := by
  have hn : n.toNat < 256 := n.toNat_lt
  have hlengths : ∀ n < 256, (Nat.toDigits 10 n).length ≤ 3 ∧
      ¬ ((Nat.toDigits 10 n).head? = some '0' ∧ 1 < (Nat.toDigits 10 n).length) := by
    decide +kernel
  obtain ⟨hlength, hzero⟩ := hlengths n.toNat hn
  exact readNumber_toDigits (Or.inl rfl) hn hlength (Or.inr hzero) hrest

theorem halts_dot {b : ℕ} (hb : b = 10 ∨ b = 16) (rest : Str) : Halts b ('.' :: rest) := by
  refine halts_cons ?_ rest
  rcases hb with rfl | rfl <;> decide

theorem halts_colon {b : ℕ} (hb : b = 10 ∨ b = 16) (rest : Str) : Halts b (':' :: rest) := by
  refine halts_cons ?_ rest
  rcases hb with rfl | rfl <;> decide

theorem readGivenChar_cons (c : Char) (rest : Str) : readGivenChar c (c :: rest) = some rest :=
  if_pos rfl

theorem readSeparator_zero {α : Type} (sep : Char) (inner : Str → Option (α × Str)) (s : Str) :
    readSeparator sep 0 inner s = inner s := if_pos rfl

/-- A separator stands before every item but the first. -/
theorem readSeparator_succ {α : Type} (sep : Char) (i : ℕ) (inner : Str → Option (α × Str))
    (s : Str) : readSeparator sep (i + 1) inner (sep :: s) = inner s := by
  rw [readSeparator, if_neg (Nat.succ_ne_zero i), readGivenChar_cons, Option.bind_some]

/-- An IPv4 address is read back. -/
theorem readIpv4Addr_display (addr : Ipv4Addr) {rest : Str} (hrest : Halts 10 rest) :
    readIpv4Addr (addr.display ++ rest) = some (addr, rest) := by
  have hdot : ∀ rest, Halts 10 ('.' :: rest) := halts_dot (Or.inl rfl)
  obtain ⟨a, b, c, d⟩ := addr
  simp only [readIpv4Addr, Ipv4Addr.display, List.append_assoc, List.cons_append,
    List.nil_append, readSeparator_zero, readSeparator_succ '.' 0, readSeparator_succ '.' 1,
    readSeparator_succ '.' 2, readNumber_octet _ (hdot _), readNumber_octet _ hrest,
    Option.bind_eq_bind, Option.bind_some, Option.pure_def, UInt8.ofNat_toNat]

theorem drop_length_takeWhile (p : Char → Bool) (s : Str) :
    s.drop (s.takeWhile p).length = s.dropWhile p :=
  calc s.drop (s.takeWhile p).length
      = (s.takeWhile p ++ s.dropWhile p).drop (s.takeWhile p).length := by
        rw [List.takeWhile_append_dropWhile]
    _ = s.dropWhile p := List.drop_left

/-- Where the first number is not followed by a dot, there is no IPv4 address. -/
theorem readIpv4Addr_eq_none {s : Str}
    (h : (s.dropWhile fun c => (digitValue 10 c).isSome).head? ≠ some '.') :
    readIpv4Addr s = none := by
  have hfirst : ∀ value rest, readNumber 10 3 false 256 s = some (value, rest) →
      rest = s.dropWhile fun c => (digitValue 10 c).isSome := by
    intro value rest hread
    simp only [readNumber] at hread
    split at hread
    · contradiction
    · split at hread
      · contradiction
      · simp only [Option.some.injEq, Prod.mk.injEq] at hread
        rw [← hread.2]
        exact drop_length_takeWhile _ s
  have hdot : ∀ rest : Str, rest.head? ≠ some '.' → readGivenChar '.' rest = none := by
    intro rest hrest
    cases rest with
    | nil => rfl
    | cons d rest => exact if_neg (by simpa using hrest)
  simp only [readIpv4Addr, readSeparator_zero]
  cases hread : readNumber 10 3 false 256 s with
  | none => rfl
  | some read =>
      obtain ⟨value, rest⟩ := read
      have hrest := hdot rest (by rw [hfirst value rest hread]; exact h)
      simp [readSeparator, hrest]

/-! ## Groups -/

/-- Segments with a colon before each. -/
def coloned (segments : List UInt16) : Str :=
  segments.flatMap fun segment => ':' :: hex segment.toNat

theorem displaySegments_cons (segment : UInt16) (segments : List UInt16) :
    displaySegments (segment :: segments) = hex segment.toNat ++ coloned segments := by
  induction segments generalizing segment with
  | nil => simp [displaySegments, coloned, List.intercalate]
  | cons next segments ih =>
      have hcons : displaySegments (segment :: next :: segments) =
          hex segment.toNat ++ ':' :: displaySegments (next :: segments) := by
        simp [displaySegments, List.intercalate]
      rw [hcons, ih]
      simp [coloned]

/-- Groups end here: the text is at its end, or at a double colon. -/
def AtGap (rest : Str) : Prop := rest = [] ∨ ∃ t, rest = ':' :: ':' :: t

/-- A group ends here. -/
def GroupEnds (rest : Str) : Prop := rest = [] ∨ ∃ t, rest = ':' :: t

theorem AtGap.groupEnds {rest : Str} (h : AtGap rest) : GroupEnds rest := by
  rcases h with rfl | ⟨t, rfl⟩
  · exact Or.inl rfl
  · exact Or.inr ⟨_, rfl⟩

theorem groupEnds_coloned (segments : List UInt16) {rest : Str} (h : AtGap rest) :
    GroupEnds (coloned segments ++ rest) := by
  cases segments with
  | nil => exact h.groupEnds
  | cons segment segments => exact Or.inr ⟨_, rfl⟩

theorem GroupEnds.halts {b : ℕ} {rest : Str} (h : GroupEnds rest) (hb : b = 10 ∨ b = 16) :
    Halts b rest := by
  rcases h with rfl | ⟨t, rfl⟩
  · exact halts_nil b
  · exact halts_colon hb t

/-- A segment. -/
theorem readNumber_segment (n : UInt16) {rest : Str} (hrest : GroupEnds rest) :
    readNumber 16 4 true (2 ^ 16) (hex n.toNat ++ rest) = some (n.toNat, rest) := by
  have hn : n.toNat < 2 ^ 16 := n.toNat_lt
  have hlength : (Nat.toDigits 16 n.toNat).length ≤ 4 :=
    (Nat.length_toDigits_le_iff (by decide) (by decide)).mpr hn
  exact readNumber_toDigits (Or.inr rfl) hn hlength (Or.inl rfl) (hrest.halts (Or.inr rfl))

/-- No segment is taken for the beginning of an IPv4 address. -/
theorem readIpv4Addr_segment (n : UInt16) {rest : Str} (hrest : GroupEnds rest) :
    readIpv4Addr (hex n.toNat ++ rest) = none := by
  apply readIpv4Addr_eq_none
  have hdot : '.' ∉ hex n.toNat := by
    intro hmem
    obtain ⟨d, hd, heq⟩ := mem_toDigits (by decide) hmem
    have hdigits : ∀ d < 16, d.digitChar ≠ '.' := by decide
    exact hdigits d hd heq.symm
  rw [List.dropWhile_append]
  split
  · rcases hrest with rfl | ⟨t, rfl⟩
    · simp
    · rw [List.dropWhile_cons_of_neg (by decide)]
      simp
  · next hne =>
    cases hkept : (hex n.toNat).dropWhile fun c => (digitValue 10 c).isSome with
    | nil => simp [hkept] at hne
    | cons c kept =>
        have hmem : c ∈ hex n.toNat :=
          (List.dropWhile_suffix _).subset (hkept ▸ List.mem_cons_self)
        rw [List.cons_append, List.head?_cons, ne_eq, Option.some.injEq]
        rintro rfl
        exact hdot hmem

/-- Neither an address nor a group comes next. -/
theorem readGroups_stop {left i : ℕ} {s : Str}
    (hv4 : readSeparator ':' i readIpv4Addr s = none)
    (hgroup : readSeparator ':' i (readNumber 16 4 true (2 ^ 16)) s = none) :
    readGroups left i s = ([], false, s) := by
  cases left with
  | zero => rfl
  | succ left =>
      rw [readGroups, hv4, ite_self]
      simp only [hgroup]

/-- A group comes next. -/
theorem readGroups_group {left i : ℕ} {s rest : Str} {n : UInt16}
    {out : List UInt16 × Bool × Str}
    (hv4 : readSeparator ':' i readIpv4Addr s = none)
    (hgroup : readSeparator ':' i (readNumber 16 4 true (2 ^ 16)) s = some (n.toNat, rest))
    (hrest : readGroups left (i + 1) rest = out) :
    readGroups (left + 1) i s = (n :: out.1, out.2.1, out.2.2) := by
  rw [readGroups, hv4, ite_self]
  simp only [hgroup, hrest, UInt16.ofNat_toNat]

theorem readIpv4Addr_of_gap {i : ℕ} {rest : Str} (h : AtGap rest) :
    readSeparator ':' i readIpv4Addr rest = none := by
  have hcolon : ∀ t : Str, readIpv4Addr (':' :: t) = none := by
    intro t
    apply readIpv4Addr_eq_none
    rw [List.dropWhile_cons_of_neg (by decide)]
    simp
  rcases h with rfl | ⟨t, rfl⟩
  · cases i <;> rfl
  · cases i with
    | zero => rw [readSeparator_zero, hcolon]
    | succ i => rw [readSeparator_succ, hcolon]

theorem readNumber_of_gap {i : ℕ} {rest : Str} (h : AtGap rest) :
    readSeparator ':' i (readNumber 16 4 true (2 ^ 16)) rest = none := by
  rcases h with rfl | ⟨t, rfl⟩
  · cases i with
    | zero =>
        rw [readSeparator_zero]
        exact readNumber_of_halts (halts_nil 16)
    | succ i => rfl
  · cases i with
    | zero =>
        rw [readSeparator_zero]
        exact readNumber_of_halts (halts_colon (Or.inr rfl) _)
    | succ i =>
        rw [readSeparator_succ]
        exact readNumber_of_halts (halts_colon (Or.inr rfl) _)

/-- The groups behind the first. -/
theorem readGroups_coloned {left : ℕ} {segments : List UInt16} {rest : Str} (i : ℕ)
    (hlength : segments.length ≤ left) (hrest : AtGap rest) :
    readGroups left (i + 1) (coloned segments ++ rest) = (segments, false, rest) := by
  induction segments generalizing left i with
  | nil => exact readGroups_stop (readIpv4Addr_of_gap hrest) (readNumber_of_gap hrest)
  | cons segment segments ih =>
      obtain ⟨left, rfl⟩ : ∃ k, left = k + 1 := ⟨left - 1, by simp at hlength; omega⟩
      have hends := groupEnds_coloned segments hrest
      have htext : coloned (segment :: segments) ++ rest =
          ':' :: (hex segment.toNat ++ (coloned segments ++ rest)) := by
        simp [coloned]
      rw [htext, readGroups_group
        (by rw [readSeparator_succ, readIpv4Addr_segment segment hends])
        (by rw [readSeparator_succ, readNumber_segment segment hends])
        (ih (i + 1) (by simpa using hlength))]

/-- All groups of a text, from its beginning. -/
theorem readGroups_displaySegments {left : ℕ} {segments : List UInt16} {rest : Str}
    (hlength : segments.length ≤ left) (hrest : AtGap rest) :
    readGroups left 0 (displaySegments segments ++ rest) = (segments, false, rest) := by
  cases segments with
  | nil =>
      have hnil : displaySegments [] = [] := rfl
      rw [hnil, List.nil_append]
      exact readGroups_stop (readIpv4Addr_of_gap hrest) (readNumber_of_gap hrest)
  | cons segment segments =>
      obtain ⟨left, rfl⟩ : ∃ k, left = k + 1 := ⟨left - 1, by simp at hlength; omega⟩
      have hends := groupEnds_coloned segments hrest
      rw [displaySegments_cons, List.append_assoc,
        readGroups_group (by rw [readSeparator_zero, readIpv4Addr_segment segment hends])
          (by rw [readSeparator_zero, readNumber_segment segment hends])
          (readGroups_coloned 0 (by simpa using hlength) hrest)]

theorem readGroups_displaySegments_end {left : ℕ} {segments : List UInt16}
    (hlength : segments.length ≤ left) :
    readGroups left 0 (displaySegments segments) = (segments, false, []) := by
  have hgroups := readGroups_displaySegments hlength (Or.inl rfl : AtGap [])
  rwa [List.append_nil] at hgroups

/-! ## The longest run of zeroes -/

/-- A run is one of zeroes. -/
structure ZeroRun (segments : List UInt16) (run : ℕ × ℕ) : Prop where
  bound : run.1 + run.2 ≤ segments.length
  zero : ∀ k, run.1 ≤ k → k < run.1 + run.2 → segments[k]? = some 0

theorem zeroRun_empty {segments : List UInt16} {i : ℕ} (h : i ≤ segments.length) :
    ZeroRun segments (i, 0) :=
  ⟨h, fun k hlow hhigh => absurd hhigh (by simp only; omega)⟩

/-- The scan keeps to runs of zeroes, of which the current one ends where it is. -/
theorem longestZeroes_zeroRun {whole rest : List UInt16} {i : ℕ} {current longest : ℕ × ℕ}
    (hrest : rest = whole.drop i) (hcurrent : ZeroRun whole current)
    (hends : current.2 = 0 ∨ current.1 + current.2 = i) (hlongest : ZeroRun whole longest) :
    ZeroRun whole (longestZeroes rest i current longest) := by
  induction rest generalizing i current longest with
  | nil => exact hlongest
  | cons segment rest ih =>
      have hget : whole[i]? = some segment := by
        rw [← List.head?_drop, ← hrest, List.head?_cons]
      have hi : i < whole.length := (List.getElem?_eq_some_iff.mp hget).1
      have htail : rest = whole.drop (i + 1) := by
        rw [← List.drop_drop, ← hrest]
        rfl
      simp only [longestZeroes]
      by_cases hzero : segment = 0
      · rw [if_pos hzero]
        subst hzero
        -- The run that is current now ends with this segment.
        have hgrown : ZeroRun whole
              (if current.2 = 0 then (i, 1) else (current.1, current.2 + 1)) ∧
            (if current.2 = 0 then (i, 1) else (current.1, current.2 + 1)).1 +
              (if current.2 = 0 then (i, 1) else (current.1, current.2 + 1)).2 = i + 1 := by
          by_cases hnone : current.2 = 0
          · simp only [if_pos hnone]
            refine ⟨⟨by simp only; omega, ?_⟩, trivial⟩
            intro k hlow hhigh
            obtain rfl : k = i := by
              simp only at hlow hhigh
              omega
            exact hget
          · simp only [if_neg hnone]
            have hend : current.1 + current.2 = i := hends.resolve_left hnone
            refine ⟨⟨by simp only; omega, ?_⟩, by omega⟩
            intro k hlow hhigh
            simp only at hlow hhigh
            by_cases hlast : k = i
            · rw [hlast, hget]
            · exact hcurrent.zero k hlow (by omega)
        refine ih htail hgrown.1 (Or.inr hgrown.2) ?_
        by_cases hlonger : longest.2 <
            (if current.2 = 0 then (i, 1) else (current.1, current.2 + 1)).2
        · rw [if_pos hlonger]
          exact hgrown.1
        · rw [if_neg hlonger]
          exact hlongest
      · rw [if_neg hzero]
        exact ih htail (zeroRun_empty (Nat.zero_le _)) (Or.inl rfl) hlongest

/-- A run of zeroes cuts the segments in three. -/
theorem ZeroRun.eq_append {segments : List UInt16} {run : ℕ × ℕ} (h : ZeroRun segments run) :
    segments = segments.take run.1 ++ List.replicate run.2 0 ++
      segments.drop (run.1 + run.2) := by
  have hmiddle : (segments.drop run.1).take run.2 = List.replicate run.2 0 := by
    have hbound := h.bound
    rw [List.eq_replicate_iff]
    constructor
    · rw [List.length_take, List.length_drop]
      omega
    · intro segment hmem
      obtain ⟨k, hk, hget⟩ := List.mem_iff_getElem.mp hmem
      have hkrun : k < run.2 := lt_of_lt_of_le hk (by simp)
      have hzero := h.zero (run.1 + k) (Nat.le_add_right _ _) (by omega)
      rw [List.getElem_take, List.getElem_drop] at hget
      rw [List.getElem?_eq_some_iff] at hzero
      obtain ⟨hlt, hzero⟩ := hzero
      exact hget.symm.trans hzero
  calc segments = segments.take run.1 ++ segments.drop run.1 :=
        (List.take_append_drop _ _).symm
    _ = segments.take run.1 ++
          ((segments.drop run.1).take run.2 ++ (segments.drop run.1).drop run.2) :=
        congrArg (segments.take run.1 ++ ·) (List.take_append_drop run.2 _).symm
    _ = _ := by rw [hmiddle, List.drop_drop, List.append_assoc]

/-! ## IPv6 addresses -/

/-- All eight groups are displayed. -/
theorem readIpv6Addr_displaySegments (addr : Ipv6Addr) :
    readIpv6Addr (displaySegments addr.segments) = some (addr, []) := by
  have hread : readGroups 8 0 (displaySegments addr.segments) = (addr.segments, false, []) :=
    readGroups_displaySegments_end addr.length_eq.le
  simp [readIpv6Addr, hread, addr.length_eq]

/-- What stands before a double colon, and what stands behind it. -/
theorem readIpv6Addr_compressed (head : List UInt16) {tail : List UInt16} (zeroes : ℕ)
    {addr : Ipv6Addr} (hzeroes : 0 < zeroes)
    (haddr : addr.segments = head ++ List.replicate zeroes 0 ++ tail) {text : Str} {v4 : Bool}
    (htail : readGroups (8 - (head.length + 1)) 0 text = (tail, v4, [])) :
    readIpv6Addr (displaySegments head ++ (lit "::" ++ text)) = some (addr, []) := by
  obtain ⟨segments, height⟩ := addr
  obtain rfl : segments = head ++ List.replicate zeroes 0 ++ tail := haddr
  have hlength : head.length + zeroes + tail.length = 8 := by
    simpa [Nat.add_assoc] using height
  have hhead : readGroups 8 0 (displaySegments head ++ (lit "::" ++ text)) =
      (head, false, lit "::" ++ text) :=
    readGroups_displaySegments (by omega) (Or.inr ⟨text, rfl⟩)
  have hfill : 8 - head.length - tail.length = zeroes := by omega
  have hnot : head.length ≠ 8 := by omega
  have hone : readGivenChar ':' (lit "::" ++ text) = some (':' :: text) := rfl
  have htwo : readGivenChar ':' (':' :: text) = some text := rfl
  simp only [readIpv6Addr, hhead, hnot, dif_neg, not_false_iff, Bool.false_eq_true, if_false,
    hone, htwo, htail, hfill, Option.bind_eq_bind, Option.bind_some, height, dif_pos,
    Option.pure_def]

/-- The tail of an IPv4 address that is mapped into IPv6. -/
theorem readGroups_mapped (v4 : Ipv4Addr) :
    readGroups 7 0 (lit "ffff:" ++ v4.display) =
      ([0xFFFF, u16FromBeBytes v4.a v4.b, u16FromBeBytes v4.c v4.d], true, []) := by
  have hends : GroupEnds (':' :: v4.display) := Or.inr ⟨_, rfl⟩
  have htext : lit "ffff:" ++ v4.display = hex (0xFFFF : UInt16).toNat ++ ':' :: v4.display :=
    rfl
  have hread : readIpv4Addr v4.display = some (v4, []) := by
    have hdisplay := readIpv4Addr_display v4 (halts_nil 10)
    rwa [List.append_nil] at hdisplay
  have hrest : readGroups 6 (0 + 1) (':' :: v4.display) =
      ([u16FromBeBytes v4.a v4.b, u16FromBeBytes v4.c v4.d], true, []) := by
    simp only [readGroups, readSeparator_succ, hread]
    rfl
  rw [htext, readGroups_group (by rw [readSeparator_zero, readIpv4Addr_segment _ hends])
    (by rw [readSeparator_zero, readNumber_segment _ hends]) hrest]

/-- An IPv6 address is read back. -/
theorem readIpv6Addr_display (addr : Ipv6Addr) :
    readIpv6Addr addr.display = some (addr, []) := by
  obtain ⟨segments, height⟩ := addr
  unfold Ipv6Addr.display
  simp only
  split
  · next hi lo =>
    -- The octets of the last two segments are put together again.
    have hmapped := readGroups_mapped
      { a := UInt8.ofNat (hi.toNat / 2 ^ 8), b := UInt8.ofNat hi.toNat
        c := UInt8.ofNat (lo.toNat / 2 ^ 8), d := UInt8.ofNat lo.toNat }
    simp only [u16FromBeBytes_beBytes16] at hmapped
    exact readIpv6Addr_compressed [] 5 (by decide) rfl hmapped
  · have hrun : ZeroRun segments (longestZeroes segments 0 (0, 0) (0, 0)) :=
      longestZeroes_zeroRun rfl (zeroRun_empty (Nat.zero_le _)) (Or.inl rfl)
        (zeroRun_empty (Nat.zero_le _))
    generalize longestZeroes segments 0 (0, 0) (0, 0) = run at hrun
    by_cases hlong : 1 < run.2
    · rw [if_pos hlong]
      have hbound := hrun.bound
      have htail : readGroups (8 - ((segments.take run.1).length + 1)) 0
          (displaySegments (segments.drop (run.1 + run.2))) =
            (segments.drop (run.1 + run.2), false, []) := by
        apply readGroups_displaySegments_end
        rw [List.length_drop, List.length_take]
        omega
      rw [List.append_assoc]
      exact readIpv6Addr_compressed _ run.2 (by omega) hrun.eq_append htail
    · rw [if_neg hlong]
      exact readIpv6Addr_displaySegments ⟨segments, height⟩

/-! ## Either kind -/

theorem readIpv4Addr_colon (t : Str) : readIpv4Addr (':' :: t) = none := by
  apply readIpv4Addr_eq_none
  rw [List.dropWhile_cons_of_neg (by decide)]
  simp

/-- Displayed segments are not taken for an IPv4 address. -/
theorem readIpv4Addr_displaySegments (segments : List UInt16) {rest : Str} (hrest : AtGap rest) :
    readIpv4Addr (displaySegments segments ++ rest) = none := by
  cases segments with
  | nil =>
      have hseparated := readIpv4Addr_of_gap (i := 0) hrest
      rwa [readSeparator_zero] at hseparated
  | cons segment segments =>
      rw [displaySegments_cons, List.append_assoc]
      exact readIpv4Addr_segment segment (groupEnds_coloned segments hrest)

theorem readIpv4Addr_ipv6 (addr : Ipv6Addr) : readIpv4Addr addr.display = none := by
  obtain ⟨segments, height⟩ := addr
  unfold Ipv6Addr.display
  simp only
  split
  · exact readIpv4Addr_colon _
  · split
    · rw [List.append_assoc]
      exact readIpv4Addr_displaySegments _ (Or.inr ⟨_, rfl⟩)
    · have hend := readIpv4Addr_displaySegments segments (Or.inl rfl : AtGap [])
      rwa [List.append_nil] at hend

/-- Whatever address is displayed, the parser gives it back. -/
theorem parseIpAddr_display (ip : IpAddr) : parseIpAddr ip.display = some ip := by
  cases ip with
  | v4 addr =>
      have hread := readIpv4Addr_display addr (halts_nil 10)
      rw [List.append_nil] at hread
      simp [parseIpAddr, IpAddr.display, hread]
  | v6 addr =>
      simp [parseIpAddr, IpAddr.display, readIpv4Addr_ipv6, readIpv6Addr_display]

end Rust
