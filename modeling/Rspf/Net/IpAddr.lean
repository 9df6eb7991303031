import Mathlib.Data.List.Basic

/-!
# IP addresses and their text form

The standard library's `IpAddr`, as far as the daemon uses it: a request's `client_address` is
parsed with `str::parse::<IpAddr>` and the address is printed into messages and headers with
`Display`.  Both directions follow the library's documented format, which is stricter on input
than most: no leading zeros in the octets of an IPv4 address, at most four hexadecimal digits in a
segment of an IPv6 address, one `::`, and nothing after the address.

Of the printer the rest of the development only needs to know which characters it can produce
(`IpAddr.mem_display`): lower-case hexadecimal digits, `.` and `:`.
-/

set_option autoImplicit false

namespace Rspf

/-- A `String` or `&str`: a list of Unicode scalar values. -/
abbrev Str := List Char

/-- `std::net::Ipv4Addr`. -/
structure Ipv4Addr where
  octets : List UInt8
  length_octets : octets.length = 4
  deriving DecidableEq

/-- `std::net::Ipv6Addr`. -/
structure Ipv6Addr where
  segments : List UInt16
  length_segments : segments.length = 8
  deriving DecidableEq

/-- `std::net::IpAddr`. -/
inductive IpAddr where
  | v4 : Ipv4Addr → IpAddr
  | v6 : Ipv6Addr → IpAddr
  deriving DecidableEq

/-! ## Parsing -/

/-- The value of a digit in the given radix. -/
def toDigit (radix : ℕ) (c : Char) : Option ℕ :=
  let n := c.toNat
  let d :=
    if 48 ≤ n ∧ n ≤ 57 then n - 48
    else if 97 ≤ n ∧ n ≤ 102 then n - 87
    else if 65 ≤ n ∧ n ≤ 70 then n - 55
    else radix
  if d < radix then some d else none

/-- The digits at the front of the input, at least one and at most `maxDigits` of them, as a number
below `bound`. -/
def readNumber (radix maxDigits bound : ℕ) (allowZeroPrefix : Bool) (s : Str) : Option (ℕ × Str) :=
  let isDigit := fun c ↦ (toDigit radix c).isSome
  let digits := s.takeWhile isDigit
  let value := digits.foldl (fun acc c ↦ acc * radix + (toDigit radix c).getD 0) 0
  if digits = [] ∨ maxDigits < digits.length ∨
      (!allowZeroPrefix ∧ s.head? = some '0' ∧ 1 < digits.length) ∨ bound ≤ value then none
  else some (value, s.dropWhile isDigit)

/-- Read one given character. -/
def readGivenChar (c : Char) : Str → Option Str
  | [] => none
  | x :: s => if x = c then some s else none

/-- Read a separator, unless this is the first item, and then the item. -/
def readSeparator {α : Type} (sep : Char) (index : ℕ) (inner : Str → Option (α × Str)) (s : Str) :
    Option (α × Str) :=
  if index = 0 then inner s else (readGivenChar sep s).bind inner

/-- Read `count` further octets, of which the first is number `index`. -/
def readOctets : ℕ → ℕ → Str → Option (List UInt8 × Str)
  | 0, _, s => some ([], s)
  | count + 1, index, s => do
    let (octet, s) ← readSeparator '.' index (readNumber 10 3 256 false) s
    let (octets, s) ← readOctets count (index + 1) s
    some (UInt8.ofNat octet :: octets, s)

/-- Read an IPv4 address. -/
def readIpv4Addr (s : Str) : Option (Ipv4Addr × Str) :=
  (readOctets 4 0 s).bind fun p ↦
    if h : p.1.length = 4 then some (⟨p.1, h⟩, p.2) else none

/-- The two segments an IPv4 address makes. -/
def Ipv4Addr.toSegments (a : Ipv4Addr) : List UInt16 :=
  match a.octets with
  | [a, b, c, d] => [a.toUInt16 * 256 + b.toUInt16, c.toUInt16 * 256 + d.toUInt16]
  | _ => []

/-- Read up to `room` further segments, the first being number `index`, the last two possibly
written as an IPv4 address; the flag says whether they were. -/
def readGroups : ℕ → ℕ → Str → List UInt16 × Bool × Str
  | 0, _, s => ([], false, s)
  | room + 1, index, s =>
    match if 0 < room then readSeparator ':' index readIpv4Addr s else none with
    | some (v4, s) => (v4.toSegments, true, s)
    | none =>
      match readSeparator ':' index (readNumber 16 4 65536 true) s with
      | some (group, s) =>
        let (groups, v4, s) := readGroups room (index + 1) s
        (UInt16.ofNat group :: groups, v4, s)
      | none => ([], false, s)

/-- Read an IPv6 address: all eight segments, or `::` in place of at least one of them. -/
def readIpv6Addr (s : Str) : Option (Ipv6Addr × Str) :=
  let (head, headV4, s) := readGroups 8 0 s
  if h : head.length = 8 then some (⟨head, h⟩, s)
  else if headV4 then none
  else do
    let s ← readGivenChar ':' s
    let s ← readGivenChar ':' s
    let (tail, _, s) := readGroups (8 - (head.length + 1)) 0 s
    let segments := head ++ List.replicate (8 - head.length - tail.length) 0 ++ tail
    if h : segments.length = 8 then some (⟨segments, h⟩, s) else none

/-- `str::parse::<IpAddr>`. -/
def IpAddr.parse (s : Str) : Option IpAddr :=
  match readIpv4Addr s with
  | some (a, []) => some (.v4 a)
  | some _ => none
  | none =>
    match readIpv6Addr s with
    | some (a, []) => some (.v6 a)
    | _ => none

/-! ## Printing -/

/-- `Display for Ipv4Addr`. -/
def Ipv4Addr.display (a : Ipv4Addr) : Str :=
  List.intercalate ['.'] (a.octets.map fun o ↦ Nat.toDigits 10 o.toNat)

/-- The start and length of the first longest run of zero segments, from position `i` on;
`current` is the run that ends before `i` and `longest` the best one so far. -/
def longestZeroRun : List UInt16 → ℕ → ℕ × ℕ → ℕ × ℕ → ℕ × ℕ
  | [], _, _, longest => longest
  | x :: xs, i, current, longest =>
    if x = 0 then
      let current := (if current.2 = 0 then i else current.1, current.2 + 1)
      longestZeroRun xs (i + 1) current (if longest.2 < current.2 then current else longest)
    else longestZeroRun xs (i + 1) (0, 0) longest

/-- Segments in hexadecimal, separated by colons. -/
def fmtSubslice (segments : List UInt16) : Str :=
  List.intercalate [':'] (segments.map fun s ↦ Nat.toDigits 16 s.toNat)

/-- The IPv4 address an IPv4-mapped IPv6 address carries. -/
def Ipv6Addr.toIpv4Mapped (a : Ipv6Addr) : Option Ipv4Addr :=
  match a.segments with
  | [0, 0, 0, 0, 0, 0xFFFF, x, y] =>
    some ⟨[(x >>> 8).toUInt8, x.toUInt8, (y >>> 8).toUInt8, y.toUInt8], rfl⟩
  | _ => none

/-- `Display for Ipv6Addr`. -/
def Ipv6Addr.display (a : Ipv6Addr) : Str :=
  match a.toIpv4Mapped with
  | some v4 => "::ffff:".toList ++ v4.display
  | none =>
    let (start, len) := longestZeroRun a.segments 0 (0, 0) (0, 0)
    if 1 < len then
      fmtSubslice (a.segments.take start) ++ "::".toList ++
        fmtSubslice (a.segments.drop (start + len))
    else fmtSubslice a.segments

/-- `Display for IpAddr`. -/
def IpAddr.display : IpAddr → Str
  | .v4 a => a.display
  | .v6 a => a.display

/-! ### The characters of an address -/

/-- The characters a printed address is made of. -/
def addrChars : Str := "0123456789abcdef.:".toList

theorem digitChar_mem_addrChars {d : ℕ} (h : d < 16) : Nat.digitChar d ∈ addrChars := by
  have hall : ∀ d < 16, Nat.digitChar d ∈ addrChars := by decide
  exact hall d h

theorem mem_addrChars_of_mem_toDigits {b n : ℕ} (hb : 1 < b) (hb' : b ≤ 16) {c : Char}
    (h : c ∈ Nat.toDigits b n) : c ∈ addrChars := by
  induction n using Nat.strongRecOn with
  | ind n ih =>
    rw [Nat.toDigits_eq_if hb] at h
    split at h
    · rename_i hn
      rw [List.mem_singleton] at h
      exact h ▸ digitChar_mem_addrChars (by omega)
    · rename_i hn
      rw [List.mem_append, List.mem_singleton] at h
      rcases h with h | h
      · exact ih _ (Nat.div_lt_self (by omega) hb) h
      · have : n % b < b := Nat.mod_lt _ (by omega)
        exact h ▸ digitChar_mem_addrChars (by omega)


theorem mem_addrChars_of_mem_intercalate {c sep : Char} (hsep : sep ∈ addrChars) {l : List Str}
    (hl : ∀ s ∈ l, ∀ c ∈ s, c ∈ addrChars) (h : c ∈ List.intercalate [sep] l) : c ∈ addrChars := by
  induction l with
  | nil => simp at h
  | cons s l ih =>
    cases l with
    | nil =>
      rw [List.intercalate_singleton] at h
      exact hl s (by simp) c h
    | cons t l =>
      rw [List.intercalate_cons_cons, List.mem_append, List.mem_append] at h
      rcases h with (h | h) | h
      · exact hl s (by simp) c h
      · exact List.mem_singleton.mp h ▸ hsep
      · exact ih (fun s hs ↦ hl s (List.mem_cons_of_mem _ hs)) h

theorem Ipv4Addr.mem_display {a : Ipv4Addr} {c : Char} (h : c ∈ a.display) : c ∈ addrChars := by
  refine mem_addrChars_of_mem_intercalate (by decide) ?_ h
  intro s hs c hc
  obtain ⟨o, -, rfl⟩ := List.mem_map.mp hs
  exact mem_addrChars_of_mem_toDigits (by decide) (by decide) hc

theorem mem_fmtSubslice {l : List UInt16} {c : Char} (h : c ∈ fmtSubslice l) : c ∈ addrChars := by
  refine mem_addrChars_of_mem_intercalate (by decide) ?_ h
  intro s hs c hc
  obtain ⟨o, -, rfl⟩ := List.mem_map.mp hs
  exact mem_addrChars_of_mem_toDigits (by decide) (by decide) hc

/-- **A printed address consists of hexadecimal digits, dots and colons.** -/
theorem IpAddr.mem_display {a : IpAddr} {c : Char} (h : c ∈ a.display) : c ∈ addrChars := by
  cases a with
  | v4 a => exact Ipv4Addr.mem_display h
  | v6 a =>
    rw [IpAddr.display, Ipv6Addr.display] at h
    split at h
    · rcases List.mem_append.mp h with h | h
      · have hall : ("::ffff:".toList.all (addrChars.contains ·)) = true := by decide
        exact List.contains_iff_mem.mp (List.all_eq_true.mp hall c h)
      · exact Ipv4Addr.mem_display h
    · dsimp only at h
      split at h
      · rw [List.mem_append, List.mem_append] at h
        rcases h with (h | h) | h
        · exact mem_fmtSubslice h
        · have hall : ("::".toList.all (addrChars.contains ·)) = true := by decide
          exact List.contains_iff_mem.mp (List.all_eq_true.mp hall c h)
        · exact mem_fmtSubslice h
      · exact mem_fmtSubslice h

end Rspf
