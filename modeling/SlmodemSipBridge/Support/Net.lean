import SlmodemSipBridge.Support.Text

/-!
# IP and socket addresses

The address types of `std::net`, their `FromStr` and their `Display`.  The
parser follows the standard library's recursive descent, including an IPv4
address embedded at the end of an IPv6 one.
-/

namespace Rust

/-- `Ipv4Addr`, by its octets. -/
structure Ipv4Addr where
  a : UInt8
  b : UInt8
  c : UInt8
  d : UInt8
  deriving DecidableEq, Repr

/-- `Ipv6Addr`, by its eight segments. -/
structure Ipv6Addr where
  segments : List UInt16
  length_eq : segments.length = 8
  deriving DecidableEq, Repr

/-- `IpAddr`. -/
inductive IpAddr where
  | v4 (addr : Ipv4Addr)
  | v6 (addr : Ipv6Addr)
  deriving DecidableEq, Repr

/-- `SocketAddr`, as `SocketAddr::new` builds it. -/
structure SocketAddr where
  ip : IpAddr
  port : UInt16
  deriving DecidableEq, Repr

/-! ## Display -/

/-- `Display` of `Ipv4Addr`. -/
def Ipv4Addr.display (addr : Ipv4Addr) : Str :=
  decimal addr.a.toNat ++ ['.'] ++ decimal addr.b.toNat ++ ['.'] ++
    decimal addr.c.toNat ++ ['.'] ++ decimal addr.d.toNat

/-- Hexadecimal segments with a colon between each two. -/
def displaySegments (segments : List UInt16) : Str :=
  List.intercalate [':'] (segments.map fun segment => hex segment.toNat)

/-- The first longest run of zero segments: its start and its length. -/
def longestZeroes : List UInt16 → ℕ → ℕ × ℕ → ℕ × ℕ → ℕ × ℕ
  | [], _, _, longest => longest
  | segment :: rest, i, current, longest =>
      if segment = 0 then
        let current := if current.2 = 0 then (i, 1) else (current.1, current.2 + 1)
        longestZeroes rest (i + 1) current
          (if longest.2 < current.2 then current else longest)
      else longestZeroes rest (i + 1) (0, 0) longest

/-- `Display` of `Ipv6Addr`. -/
def Ipv6Addr.display (addr : Ipv6Addr) : Str :=
  match addr.segments with
  | [0, 0, 0, 0, 0, 0xFFFF, hi, lo] =>
      lit "::ffff:" ++
        Ipv4Addr.display
          { a := UInt8.ofNat (hi.toNat / 2 ^ 8), b := UInt8.ofNat hi.toNat
            c := UInt8.ofNat (lo.toNat / 2 ^ 8), d := UInt8.ofNat lo.toNat }
  | segments =>
      let zeroes := longestZeroes segments 0 (0, 0) (0, 0)
      if 1 < zeroes.2 then
        displaySegments (segments.take zeroes.1) ++ lit "::" ++
          displaySegments (segments.drop (zeroes.1 + zeroes.2))
      else displaySegments segments

/-- `Display` of `IpAddr`. -/
def IpAddr.display : IpAddr → Str
  | .v4 addr => addr.display
  | .v6 addr => addr.display

/-! ## Parsing -/

/-- The value of a digit in the given radix. -/
def digitValue (radix : ℕ) (c : Char) : Option ℕ :=
  let value :=
    if '0' ≤ c ∧ c ≤ '9' then some (c.toNat - '0'.toNat)
    else if 'a' ≤ c ∧ c ≤ 'z' then some (c.toNat - 'a'.toNat + 10)
    else if 'A' ≤ c ∧ c ≤ 'Z' then some (c.toNat - 'A'.toNat + 10)
    else none
  value.filter (· < radix)

/-- `read_number`: one to `maxDigits` digits that stay below `bound`. -/
def readNumber (radix maxDigits : ℕ) (allowZeroPrefix : Bool) (bound : ℕ)
    (s : Str) : Option (ℕ × Str) :=
  let digits := s.takeWhile fun c => (digitValue radix c).isSome
  let value := digits.foldl (fun acc c => acc * radix + (digitValue radix c).getD 0) 0
  if digits.isEmpty || maxDigits < digits.length || bound ≤ value then none
  else if !allowZeroPrefix && digits.head? == some '0' && 1 < digits.length then none
  else some (value, s.drop digits.length)

/-- `read_given_char`. -/
def readGivenChar (c : Char) : Str → Option Str
  | [] => none
  | d :: s => if d = c then some s else none

/-- `read_separator`: a separator comes first, except before the first item. -/
def readSeparator {α : Type} (sep : Char) (i : ℕ) (inner : Str → Option (α × Str))
    (s : Str) : Option (α × Str) :=
  if i = 0 then inner s else (readGivenChar sep s).bind inner

/-- `read_ipv4_addr`. -/
def readIpv4Addr (s : Str) : Option (Ipv4Addr × Str) := do
  let octet := readNumber 10 3 false 256
  let (a, s) ← readSeparator '.' 0 octet s
  let (b, s) ← readSeparator '.' 1 octet s
  let (c, s) ← readSeparator '.' 2 octet s
  let (d, s) ← readSeparator '.' 3 octet s
  return ({ a := UInt8.ofNat a, b := UInt8.ofNat b
            c := UInt8.ofNat c, d := UInt8.ofNat d }, s)

/-- `read_groups` from group `i` on, with `left` groups still wanted.  The flag
tells whether an embedded IPv4 address ended the groups. -/
def readGroups : ℕ → ℕ → Str → List UInt16 × Bool × Str
  | 0, _, s => ([], false, s)
  | left + 1, i, s =>
      let embedded := if 0 < left then readSeparator ':' i readIpv4Addr s else none
      match embedded with
      | some (v4, rest) =>
          ([u16FromBeBytes v4.a v4.b, u16FromBeBytes v4.c v4.d], true, rest)
      | none =>
          match readSeparator ':' i (readNumber 16 4 true (2 ^ 16)) s with
          | none => ([], false, s)
          | some (group, rest) =>
              let (groups, v4, rest) := readGroups left (i + 1) rest
              (UInt16.ofNat group :: groups, v4, rest)

/-- `read_ipv6_addr`. -/
def readIpv6Addr (s : Str) : Option (Ipv6Addr × Str) := do
  let (head, headIpv4, s) := readGroups 8 0 s
  if h : head.length = 8 then return ({ segments := head, length_eq := h }, s)
  if headIpv4 then none
  let s ← readGivenChar ':' s
  let s ← readGivenChar ':' s
  let (tail, _, s) := readGroups (8 - (head.length + 1)) 0 s
  let segments := head ++ List.replicate (8 - head.length - tail.length) 0 ++ tail
  if h : segments.length = 8 then return ({ segments, length_eq := h }, s) else none

/-- `str::parse::<IpAddr>`. -/
def parseIpAddr (s : Str) : Option IpAddr :=
  match readIpv4Addr s with
  | some (addr, rest) => if rest.isEmpty then some (.v4 addr) else none
  | none =>
      match readIpv6Addr s with
      | some (addr, rest) => if rest.isEmpty then some (.v6 addr) else none
      | none => none

example : parseIpAddr (lit "192.168.1.100") = some (.v4 ⟨192, 168, 1, 100⟩) := by decide

example : (parseIpAddr (lit "::1")).map IpAddr.display = some (lit "::1") := by decide

end Rust
