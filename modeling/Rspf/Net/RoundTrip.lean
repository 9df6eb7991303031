import Mathlib.Data.List.TakeWhile
import Mathlib.Tactic.Common
import Rspf.Net.IpAddr

/-!
# Addresses read back as they were printed

What `Display` prints of an address `str::parse` reads as this address again.  For IPv4 this is a
matter of digits.  For IPv6 the printer leaves out the longest run of zeros, and may write the last
two segments as an IPv4 address; and the parser tries to read an IPv4 address before each segment.

Both parsers are part of larger ones, so the lemmas say what they leave of a text that goes on, and
what the text may go on with: a number must not be followed by a further digit (`NoDigit`), and a
part of an IPv6 address ends where no digit, dot or single colon follows (`AddrEnd`).

The one place where the two notations could be confused is the beginning of a segment, where an
IPv4 address is tried first.  `readIpv4Addr_eq_none` says that a printed segment is none, since no
dot follows it.
-/

set_option autoImplicit false

namespace Rspf

/-! ## Numbers -/

/-- The text does not go on with a digit. -/
def NoDigit (radix : ℕ) (s : Str) : Prop := ∀ c, s.head? = some c → toDigit radix c = none

theorem noDigit_nil (radix : ℕ) : NoDigit radix [] := nofun

theorem noDigit_cons {radix : ℕ} {c : Char} (h : toDigit radix c = none) (s : Str) :
    NoDigit radix (c :: s) := by
  intro d hd
  rw [List.head?_cons] at hd
  exact Option.some.inj hd ▸ h

theorem toDigit_digitChar {b d : ℕ} (hb : b ≤ 16) (hd : d < b) :
    toDigit b (Nat.digitChar d) = some d := by
  have hall : ∀ d < 16, (Nat.digitChar d).toNat = if d < 10 then d + 48 else d + 87 := by decide
  rw [toDigit, hall d (hd.trans_le hb)]
  by_cases h : d < 10
  · simp [h, hd, show d ≤ 9 by omega]
  · have h₁ : ¬ d + 87 ≤ 57 := by omega
    have h₂ : 97 ≤ d + 87 ∧ d + 87 ≤ 102 := by omega
    simp [h, h₁, h₂, hd]

theorem isSome_toDigit_of_mem {b n : ℕ} (hb : 1 < b) (hb' : b ≤ 16) {c : Char}
    (h : c ∈ Nat.toDigits b n) : (toDigit b c).isSome = true := by
  induction n using Nat.strongRecOn with
  | ind n ih =>
    rw [Nat.toDigits_eq_if hb] at h
    split at h
    · rename_i hn
      rw [List.mem_singleton.mp h, toDigit_digitChar hb' hn]
      rfl
    · rcases List.mem_append.mp h with h | h
      · exact ih _ (Nat.div_lt_self (by omega) hb) h
      · rw [List.mem_singleton.mp h, toDigit_digitChar hb' (Nat.mod_lt _ (by omega))]
        rfl

/-- **The digits of a number have its value.** -/
theorem foldl_toDigits {b : ℕ} (hb : 1 < b) (hb' : b ≤ 16) (n : ℕ) :
    (Nat.toDigits b n).foldl (fun acc c ↦ acc * b + (toDigit b c).getD 0) 0 = n := by
  induction n using Nat.strongRecOn with
  | ind n ih =>
    rw [Nat.toDigits_eq_if hb]
    split
    · rename_i hn
      rw [List.foldl_cons, toDigit_digitChar hb' hn]
      simp
    · rename_i hn
      rw [List.foldl_append, ih _ (Nat.div_lt_self (by omega) hb), List.foldl_cons,
        toDigit_digitChar hb' (Nat.mod_lt _ (by omega))]
      exact Nat.div_add_mod' n b

theorem head?_toDigits_ne {b : ℕ} (hb : 1 < b) (hb' : b ≤ 16) {n : ℕ} (hn : n ≠ 0) :
    (Nat.toDigits b n).head? ≠ some '0' := by
  have hall : ∀ d < 16, d ≠ 0 → Nat.digitChar d ≠ '0' := by decide
  induction n using Nat.strongRecOn with
  | ind n ih =>
    rw [Nat.toDigits_eq_if hb]
    split
    · rename_i hlt
      rw [List.head?_cons, Ne, Option.some_inj]
      exact hall n (hlt.trans_le hb') hn
    · rename_i hle
      rw [List.head?_append_of_ne_nil _ Nat.toDigits_ne_nil]
      refine ih _ (Nat.div_lt_self (by omega) hb) ?_
      exact Nat.div_ne_zero_iff.mpr ⟨by omega, by omega⟩

theorem takeWhile_of_noDigit {b : ℕ} {s : Str} (hs : NoDigit b s) :
    s.takeWhile (fun c ↦ (toDigit b c).isSome) = [] ∧
      s.dropWhile (fun c ↦ (toDigit b c).isSome) = s := by
  cases s with
  | nil => exact ⟨rfl, rfl⟩
  | cons c s => simp [hs c rfl]

/-- Taking digits off a number and what follows it. -/
theorem takeWhile_toDigits {b : ℕ} (hb : 1 < b) (hb' : b ≤ 16) (n : ℕ) {s : Str}
    (hs : NoDigit b s) :
    (Nat.toDigits b n ++ s).takeWhile (fun c ↦ (toDigit b c).isSome) = Nat.toDigits b n ∧
      (Nat.toDigits b n ++ s).dropWhile (fun c ↦ (toDigit b c).isSome) = s := by
  have hall : ∀ c ∈ Nat.toDigits b n, (toDigit b c).isSome = true :=
    fun c hc ↦ isSome_toDigit_of_mem hb hb' hc
  obtain ⟨htake, hdrop⟩ := takeWhile_of_noDigit hs
  rw [List.takeWhile_append_of_pos hall, List.dropWhile_append_of_pos hall, htake, hdrop,
    List.append_nil]
  exact ⟨rfl, rfl⟩

/-- **A number reads back.** -/
theorem readNumber_toDigits {b maxDigits bound n : ℕ} (hb : 1 < b) (hb' : b ≤ 16)
    (hlen : (Nat.toDigits b n).length ≤ maxDigits) (hn : n < bound) (zero : Bool) {s : Str}
    (hs : NoDigit b s) :
    readNumber b maxDigits bound zero (Nat.toDigits b n ++ s) = some (n, s) := by
  obtain ⟨htake, hdrop⟩ := takeWhile_toDigits hb hb' n hs
  have hzero : ¬ ((Nat.toDigits b n ++ s).head? = some '0' ∧ 1 < (Nat.toDigits b n).length) := by
    rintro ⟨hhead, hlong⟩
    rw [List.head?_append_of_ne_nil _ Nat.toDigits_ne_nil] at hhead
    refine head?_toDigits_ne hb hb' ?_ hhead
    rintro rfl
    rw [Nat.toDigits_zero] at hlong
    exact absurd hlong (by decide)
  rw [readNumber]
  simp only [htake, hdrop, foldl_toDigits hb hb']
  rw [if_neg]
  rintro (h | h | ⟨-, h⟩ | h)
  · exact Nat.toDigits_ne_nil h
  · exact absurd h (Nat.not_lt.mpr hlen)
  · exact hzero h
  · exact absurd h (Nat.not_le.mpr hn)

theorem readNumber_eq_none {b maxDigits bound : ℕ} {zero : Bool} {s : Str} (hs : NoDigit b s) :
    readNumber b maxDigits bound zero s = none := by
  rw [readNumber]
  simp [(takeWhile_of_noDigit hs).1]

/-! ## IPv4 -/

/-- A separator and the item after it, as `readSeparator` expects them. -/
def separated (sep : Char) (index : ℕ) (s : Str) : Str := if index = 0 then s else sep :: s

theorem readSeparator_separated {α : Type} (sep : Char) (index : ℕ) (inner : Str → Option (α × Str))
    (s : Str) : readSeparator sep index inner (separated sep index s) = inner s := by
  rw [readSeparator, separated]
  split
  · rfl
  · rw [readGivenChar, if_pos rfl]
    rfl

/-- Items with a separator before each are items with separators between them. -/
theorem intercalate_cons_eq (sep : Char) (s : Str) (l : List Str) :
    [sep].intercalate (s :: l) = s ++ l.flatMap (sep :: ·) := by
  induction l generalizing s with
  | nil => simp
  | cons t l ih =>
    rw [List.intercalate_cons_cons, ih, List.flatMap_cons, List.append_assoc]
    rfl

theorem length_toDigits_octet (o : UInt8) : (Nat.toDigits 10 o.toNat).length ≤ 3 := by
  have hlt : o.toNat < 256 := o.toNat_lt
  exact (Nat.length_toDigits_le_iff (by decide) (by decide)).mpr (by omega)

/-- No digit comes before the next dot. -/
theorem noDigit_octets (l : List UInt8) {s : Str} (hs : NoDigit 10 s) :
    NoDigit 10 ((l.map fun o ↦ Nat.toDigits 10 o.toNat).flatMap ('.' :: ·) ++ s) := by
  cases l with
  | nil => exact hs
  | cons o l => exact noDigit_cons (by decide) _

/-- The rest of an IPv4 address, from the second octet on. -/
theorem readOctets_flatMap (l : List UInt8) {index : ℕ} (hindex : 0 < index) {s : Str}
    (hs : NoDigit 10 s) :
    readOctets l.length index
      ((l.map fun o ↦ Nat.toDigits 10 o.toNat).flatMap ('.' :: ·) ++ s) = some (l, s) := by
  induction l generalizing index with
  | nil => rfl
  | cons o l ih =>
    have hread := readNumber_toDigits (by decide) (by decide) (length_toDigits_octet o) o.toNat_lt
      false (noDigit_octets l hs)
    have hsep := readSeparator_separated '.' index (readNumber 10 3 256 false)
      (Nat.toDigits 10 o.toNat ++
        ((l.map fun o ↦ Nat.toDigits 10 o.toNat).flatMap ('.' :: ·) ++ s))
    rw [separated, if_neg (Nat.ne_of_gt hindex)] at hsep
    rw [List.length_cons, readOctets, List.map_cons, List.flatMap_cons, List.append_assoc,
      List.cons_append, hsep, hread]
    simp only [Option.bind_eq_bind, Option.bind_some, ih (Nat.succ_pos index), UInt8.ofNat_toNat]

/-- **An IPv4 address reads back**, and what follows it is left. -/
theorem readIpv4Addr_display (a : Ipv4Addr) {s : Str} (hs : NoDigit 10 s) :
    readIpv4Addr (a.display ++ s) = some (a, s) := by
  obtain ⟨octets, hlength⟩ := a
  obtain ⟨o, l, rfl⟩ := List.exists_cons_of_length_eq_add_one hlength
  have hl : l.length = 3 := Nat.succ.inj hlength
  have hread := readNumber_toDigits (by decide) (by decide) (length_toDigits_octet o) o.toNat_lt
    false (noDigit_octets l hs)
  have hoctets := readOctets_flatMap l (Nat.zero_lt_one) hs
  rw [hl] at hoctets
  rw [readIpv4Addr, Ipv4Addr.display, List.map_cons, intercalate_cons_eq, List.append_assoc,
    readOctets, readSeparator, if_pos rfl, hread]
  simp only [Option.bind_eq_bind, Option.bind_some, Nat.zero_add, hoctets, UInt8.ofNat_toNat,
    List.length_cons, hl, dif_pos]

theorem readGivenChar_eq_none {c : Char} {s : Str} (h : s.head? ≠ some c) :
    readGivenChar c s = none := by
  cases s with
  | nil => rfl
  | cons d s => exact if_neg fun hd ↦ h (congrArg some hd)

theorem eq_dropWhile_of_readNumber {b maxDigits bound n : ℕ} {zero : Bool} {s s' : Str}
    (h : readNumber b maxDigits bound zero s = some (n, s')) :
    s' = s.dropWhile fun c ↦ (toDigit b c).isSome := by
  rw [readNumber] at h
  split at h
  · exact absurd h nofun
  · exact (Prod.mk.inj (Option.some.inj h)).2.symm

theorem toDigit_eq_none_of_le {b b' : ℕ} (hle : b ≤ b') {c : Char} (h : toDigit b' c = none) :
    toDigit b c = none := by
  rw [toDigit] at h ⊢
  simp only [ite_eq_right_iff, reduceCtorEq, imp_false] at h ⊢
  split_ifs at h ⊢ <;> omega

/-- A segment is not the beginning of an IPv4 address: no dot follows its first digits. -/
theorem readIpv4Addr_eq_none {n : ℕ} {s : Str} (hs : NoDigit 16 s) (hdot : s.head? ≠ some '.') :
    readIpv4Addr (Nat.toDigits 16 n ++ s) = none := by
  have hhead : ((Nat.toDigits 16 n ++ s).dropWhile fun c ↦ (toDigit 10 c).isSome).head? ≠
      some '.' := by
    rw [List.dropWhile_append]
    split
    · have hs' : NoDigit 10 s := fun c hc ↦ toDigit_eq_none_of_le (by decide) (hs c hc)
      rw [(takeWhile_of_noDigit hs').2]
      exact hdot
    · rename_i hne
      rw [List.isEmpty_iff] at hne
      rw [List.head?_append_of_ne_nil _ hne]
      intro h
      have hmem : '.' ∈ Nat.toDigits 16 n :=
        (List.dropWhile_sublist _).subset (List.mem_of_head? h)
      exact absurd (isSome_toDigit_of_mem (by decide) (by decide) hmem) (by decide)
  have hoctets : readOctets 4 0 (Nat.toDigits 16 n ++ s) = none := by
    rw [readOctets, readSeparator, if_pos rfl]
    cases hnumber : readNumber 10 3 256 false (Nat.toDigits 16 n ++ s) with
    | none => rfl
    | some p =>
      obtain ⟨octet, s'⟩ := p
      rw [← eq_dropWhile_of_readNumber hnumber] at hhead
      simp only [Option.bind_eq_bind, Option.bind_some]
      rw [readOctets, readSeparator, if_neg (by decide), readGivenChar_eq_none hhead]
      rfl
  rw [readIpv4Addr, hoctets]
  rfl

/-! ## IPv6 -/

/-- No segment of an address follows, but perhaps a gap or the end. -/
structure AddrEnd (s : Str) : Prop where
  noDigit : NoDigit 16 s
  noDot : s.head? ≠ some '.'
  /-- A colon is one of two. -/
  colons : s.head? = some ':' → ∃ t, s = ':' :: ':' :: t

theorem addrEnd_nil : AddrEnd [] := ⟨noDigit_nil 16, nofun, nofun⟩

theorem addrEnd_gap (s : Str) : AddrEnd (':' :: ':' :: s) :=
  ⟨noDigit_cons (by decide) _, nofun, fun _ ↦ ⟨s, rfl⟩⟩

theorem readIpv4Addr_of_noDigit {s : Str} (hs : NoDigit 16 s) : readIpv4Addr s = none := by
  have hs' : NoDigit 10 s := fun c hc ↦ toDigit_eq_none_of_le (by decide) (hs c hc)
  rw [readIpv4Addr, readOctets, readSeparator, if_pos rfl, readNumber_eq_none hs']
  rfl

/-- Where no segment follows, none is read. -/
theorem readGroups_of_addrEnd {s : Str} (hs : AddrEnd s) (room index : ℕ) :
    readGroups room index s = ([], false, s) := by
  have hnone : ∀ {α : Type} (inner : Str → Option (α × Str)),
      (∀ t, NoDigit 16 t → inner t = none) → readSeparator ':' index inner s = none := by
    intro α inner hinner
    rw [readSeparator]
    split
    · exact hinner s hs.noDigit
    · by_cases hcolon : s.head? = some ':'
      · obtain ⟨t, rfl⟩ := hs.colons hcolon
        rw [readGivenChar, if_pos rfl]
        exact hinner _ (noDigit_cons (by decide) t)
      · rw [readGivenChar_eq_none hcolon]
        rfl
  cases room with
  | zero => rfl
  | succ room =>
    rw [readGroups, hnone _ fun t ht ↦ readIpv4Addr_of_noDigit ht,
      hnone _ fun t ht ↦ readNumber_eq_none ht]
    simp

theorem length_toDigits_segment (g : UInt16) : (Nat.toDigits 16 g.toNat).length ≤ 4 := by
  have hlt : g.toNat < 65536 := g.toNat_lt
  exact (Nat.length_toDigits_le_iff (by decide) (by decide)).mpr (by omega)

/-- **A segment reads back**: it is not taken for an IPv4 address. -/
theorem readGroups_cons (room index : ℕ) (g : UInt16) {s : Str} (hs : NoDigit 16 s)
    (hdot : s.head? ≠ some '.') :
    readGroups (room + 1) index (separated ':' index (Nat.toDigits 16 g.toNat ++ s)) =
      (g :: (readGroups room (index + 1) s).1, (readGroups room (index + 1) s).2) := by
  have hv4 : (if 0 < room then readSeparator ':' index readIpv4Addr
      (separated ':' index (Nat.toDigits 16 g.toNat ++ s)) else none) = none := by
    rw [readSeparator_separated, readIpv4Addr_eq_none hs hdot, ite_self]
  rw [readGroups, hv4, readSeparator_separated,
    readNumber_toDigits (by decide) (by decide) (length_toDigits_segment g) g.toNat_lt true hs]
  simp only [UInt16.ofNat_toNat]

/-- Further segments begin with a colon. -/
theorem more_segments (l : List UInt16) {s : Str} (hs : NoDigit 16 s) (hdot : s.head? ≠ some '.') :
    NoDigit 16 ((l.map fun g ↦ Nat.toDigits 16 g.toNat).flatMap (':' :: ·) ++ s) ∧
      ((l.map fun g ↦ Nat.toDigits 16 g.toNat).flatMap (':' :: ·) ++ s).head? ≠ some '.' := by
  cases l with
  | nil => exact ⟨hs, hdot⟩
  | cons g l => exact ⟨noDigit_cons (by decide) _, nofun⟩

/-- The segments of a part of an address, from its second one on. -/
theorem readGroups_flatMap (l : List UInt16) (room : ℕ) {index : ℕ} (hindex : 0 < index) {s : Str}
    (hs : NoDigit 16 s) (hdot : s.head? ≠ some '.') :
    readGroups (l.length + room) index
      ((l.map fun g ↦ Nat.toDigits 16 g.toNat).flatMap (':' :: ·) ++ s) =
        (l ++ (readGroups room (index + l.length) s).1,
          (readGroups room (index + l.length) s).2) := by
  induction l generalizing index with
  | nil => simp
  | cons g l ih =>
    obtain ⟨hs', hdot'⟩ := more_segments l hs hdot
    have hcons := readGroups_cons (l.length + room) index g hs' hdot'
    rw [separated, if_neg (Nat.ne_of_gt hindex), ih (Nat.succ_pos index)] at hcons
    rw [List.length_cons, Nat.add_right_comm, List.map_cons, List.flatMap_cons, List.append_assoc,
      List.cons_append, hcons, Nat.succ_add_eq_add_succ]
    rfl

/-- **A part of an address reads back.** -/
theorem readGroups_fmtSubslice (l : List UInt16) (room : ℕ) {s : Str} (hs : NoDigit 16 s)
    (hdot : s.head? ≠ some '.') :
    readGroups (l.length + room) 0 (fmtSubslice l ++ s) =
      (l ++ (readGroups room l.length s).1, (readGroups room l.length s).2) := by
  cases l with
  | nil => simp [fmtSubslice]
  | cons g l =>
    obtain ⟨hs', hdot'⟩ := more_segments l hs hdot
    have hcons := readGroups_cons (l.length + room) 0 g hs' hdot'
    rw [separated, if_pos rfl, readGroups_flatMap l room Nat.zero_lt_one hs hdot] at hcons
    rw [fmtSubslice, List.map_cons, intercalate_cons_eq, List.append_assoc, List.length_cons,
      Nat.add_right_comm, hcons]
    simp [Nat.add_comm]

/-! ### Runs of zeros -/

/-- The segments at these positions are zeros. -/
def IsZeroRun (l : List UInt16) (run : ℕ × ℕ) : Prop :=
  (l.drop run.1).take run.2 = List.replicate run.2 0

theorem isZeroRun_zero (l : List UInt16) (start : ℕ) : IsZeroRun l (start, 0) := by
  rw [IsZeroRun, List.take_zero]
  rfl

/-- A run goes on with a zero. -/
theorem IsZeroRun.succ {l : List UInt16} {start len : ℕ} (h : IsZeroRun l (start, len))
    (hnext : l[start + len]? = some 0) : IsZeroRun l (start, len + 1) := by
  rw [IsZeroRun] at h ⊢
  rw [List.take_add_one, h, List.getElem?_drop, hnext, List.replicate_succ']
  rfl

/-- **What is left out are zeros.** -/
theorem isZeroRun_longestZeroRun {l xs : List UInt16} {i : ℕ} {current longest : ℕ × ℕ}
    (hxs : l.drop i = xs) (hcurrent : IsZeroRun l current)
    (hend : current.2 = 0 ∨ current.1 + current.2 = i) (hlongest : IsZeroRun l longest) :
    IsZeroRun l (longestZeroRun xs i current longest) := by
  induction xs generalizing i current longest with
  | nil => exact hlongest
  | cons x xs ih =>
    have hget : l[i]? = some x := by
      rw [← List.head?_drop, hxs]
      rfl
    have hxs' : l.drop (i + 1) = xs := by
      rw [← List.drop_drop, hxs]
      rfl
    rw [longestZeroRun]
    split
    · rename_i hx
      subst hx
      have hrun : IsZeroRun l (if current.2 = 0 then i else current.1, current.2 + 1) := by
        split
        · rename_i hzero
          rw [hzero]
          exact (isZeroRun_zero l i).succ hget
        · rename_i hzero
          exact hcurrent.succ ((hend.resolve_left hzero) ▸ hget)
      have hend' : (if current.2 = 0 then i else current.1) + (current.2 + 1) = i + 1 := by
        split
        · omega
        · omega
      dsimp only
      refine ih hxs' hrun (.inr hend') ?_
      split
      · exact hrun
      · exact hlongest
    · exact ih hxs' (isZeroRun_zero l 0) (.inl rfl) hlongest

/-- An address is what stands before a run, the run, and what stands after it. -/
theorem IsZeroRun.eq_append {l : List UInt16} {start len : ℕ} (h : IsZeroRun l (start, len)) :
    l = l.take start ++ (List.replicate len 0 ++ l.drop (start + len)) := by
  rw [← show (l.drop start).take len = List.replicate len 0 from h, ← List.drop_drop,
    List.take_append_drop, List.take_append_drop]

/-! ### Addresses -/

theorem toSegments_mapped (x y : UInt16) (h : _) :
    Ipv4Addr.toSegments ⟨[(x >>> 8).toUInt8, x.toUInt8, (y >>> 8).toUInt8, y.toUInt8], h⟩ =
      [x, y] := by
  have hword : ∀ x : UInt16, (x >>> 8).toUInt8.toUInt16 * 256 + x.toUInt8.toUInt16 = x := by
    intro x
    rw [← UInt16.toNat_inj]
    have hlt : x.toNat < 65536 := x.toNat_lt
    simp [UInt16.toNat_add, UInt16.toNat_mul, Nat.shiftRight_eq_div_pow]
    omega
  rw [Ipv4Addr.toSegments]
  dsimp only
  rw [hword, hword]

/-- Two parts with a gap between them are an address. -/
theorem readIpv6Addr_gap {a : Ipv6Addr} {head tail : List UInt16} {text s t : Str} {n : ℕ}
    {v4 : Bool}
    (hhead : readGroups 8 0 text = (head, false, ':' :: ':' :: t)) (hlt : head.length < 8)
    (htail : readGroups (7 - head.length) 0 t = (tail, v4, s))
    (hsegments : a.segments = head ++ (List.replicate n 0 ++ tail)) :
    readIpv6Addr text = some (a, s) := by
  have hn : 8 - head.length - tail.length = n := by
    have h := a.length_segments
    rw [hsegments, List.length_append, List.length_append, List.length_replicate] at h
    omega
  have hlength : (head ++ List.replicate n 0 ++ tail).length = 8 := by
    rw [List.append_assoc, ← hsegments]
    exact a.length_segments
  rw [readIpv6Addr, hhead]
  simp only [Nat.ne_of_lt hlt, dif_neg, not_false_eq_true, Bool.false_eq_true, if_false,
    readGivenChar, if_true, Option.bind_eq_bind, Option.bind_some]
  rw [show 8 - (head.length + 1) = 7 - head.length by omega, htail]
  simp only [hn, hlength, dif_pos]
  congr 2
  cases a
  congr 1
  rw [List.append_assoc]
  exact hsegments.symm

/-- An IPv4-mapped address reads back. -/
theorem readIpv6Addr_mapped {a : Ipv6Addr} {v4 : Ipv4Addr} (ha : a.toIpv4Mapped = some v4) {s : Str}
    (hs : NoDigit 16 s) : readIpv6Addr ("::ffff:".toList ++ v4.display ++ s) = some (a, s) := by
  rw [Ipv6Addr.toIpv4Mapped] at ha
  split at ha
  · rename_i x y hsegments
    obtain rfl := Option.some.inj ha
    have hs' : NoDigit 10 s := fun c hc ↦ toDigit_eq_none_of_le (by decide) (hs c hc)
    generalize hv4 : Ipv4Addr.mk _ _ = v4
    have hread : readGroups 6 1 (':' :: (v4.display ++ s)) = (v4.toSegments, true, s) := by
      rw [readGroups, if_pos (by decide), readSeparator, if_neg (by decide), readGivenChar,
        if_pos rfl, Option.bind_some, readIpv4Addr_display v4 hs']
    have hgroup := readGroups_cons 6 0 0xFFFF (s := ':' :: (v4.display ++ s))
      (noDigit_cons (by decide) _) nofun
    rw [hread, separated, if_pos rfl] at hgroup
    have htext : "::ffff:".toList ++ v4.display ++ s =
        ':' :: ':' :: (Nat.toDigits 16 (0xFFFF : UInt16).toNat ++ ':' :: (v4.display ++ s)) := by
      have hdigits : Nat.toDigits 16 (0xFFFF : UInt16).toNat = "ffff".toList := by decide
      rw [hdigits, List.append_assoc]
      rfl
    have hsegments' : a.segments = [] ++ (List.replicate 5 0 ++ 0xFFFF :: v4.toSegments) := by
      rw [hsegments, ← hv4, toSegments_mapped]
      rfl
    rw [htext]
    exact readIpv6Addr_gap (readGroups_of_addrEnd (addrEnd_gap _) 8 0) (by decide) hgroup hsegments'
  · exact absurd ha nofun

/-- **An IPv6 address reads back**, and what follows it is left. -/
theorem readIpv6Addr_display (a : Ipv6Addr) {s : Str} (hs : AddrEnd s) :
    readIpv6Addr (a.display ++ s) = some (a, s) := by
  rw [Ipv6Addr.display]
  split
  · rename_i v4 ha
    exact readIpv6Addr_mapped ha hs.noDigit
  · have hrun : IsZeroRun a.segments (longestZeroRun a.segments 0 (0, 0) (0, 0)) :=
      isZeroRun_longestZeroRun rfl (isZeroRun_zero _ 0) (.inl rfl) (isZeroRun_zero _ 0)
    generalize longestZeroRun a.segments 0 (0, 0) (0, 0) = run at hrun
    obtain ⟨start, len⟩ := run
    dsimp only
    have hlength := a.length_segments
    split
    · rename_i hlen
      have hle : start + len ≤ 8 := by
        have h : ((a.segments.drop start).take len).length =
            (List.replicate len (0 : UInt16)).length :=
          congrArg List.length hrun
        rw [List.length_take, List.length_drop, List.length_replicate] at h
        omega
      have hhead : (a.segments.take start).length = start := by
        rw [List.length_take]
        omega
      have htail : (a.segments.drop (start + len)).length = 8 - (start + len) := by
        rw [List.length_drop, hlength]
      have hgap : AddrEnd ("::".toList ++ (fmtSubslice (a.segments.drop (start + len)) ++ s)) :=
        addrEnd_gap _
      have hbefore := readGroups_fmtSubslice (a.segments.take start) (8 - start) hgap.noDigit
        hgap.noDot
      have hafter := readGroups_fmtSubslice (a.segments.drop (start + len)) (len - 1) hs.noDigit
        hs.noDot
      rw [readGroups_of_addrEnd hgap, hhead, show start + (8 - start) = 8 by omega,
        List.append_nil] at hbefore
      rw [readGroups_of_addrEnd hs, htail, show 8 - (start + len) + (len - 1) = 7 - start by omega,
        List.append_nil] at hafter
      rw [List.append_assoc, List.append_assoc]
      have hafter' : readGroups (7 - (a.segments.take start).length) 0
          (fmtSubslice (a.segments.drop (start + len)) ++ s) =
          (a.segments.drop (start + len), false, s) := by
        rw [hhead]
        exact hafter
      exact readIpv6Addr_gap hbefore (by omega) hafter' hrun.eq_append
    · have hall := readGroups_fmtSubslice a.segments 0 hs.noDigit hs.noDot
      rw [readGroups_of_addrEnd hs, hlength, List.append_nil] at hall
      rw [readIpv6Addr, hall]
      simp only [hlength, dif_pos]

theorem readIpv4Addr_fmtSubslice (l : List UInt16) {s : Str} (hs : NoDigit 16 s)
    (hdot : s.head? ≠ some '.') : readIpv4Addr (fmtSubslice l ++ s) = none := by
  cases l with
  | nil => exact readIpv4Addr_of_noDigit hs
  | cons g l =>
    obtain ⟨hs', hdot'⟩ := more_segments l hs hdot
    rw [fmtSubslice, List.map_cons, intercalate_cons_eq, List.append_assoc]
    exact readIpv4Addr_eq_none hs' hdot'

/-- An IPv6 address is not taken for an IPv4 address. -/
theorem readIpv4Addr_display_v6 (a : Ipv6Addr) : readIpv4Addr a.display = none := by
  rw [Ipv6Addr.display]
  split
  · exact readIpv4Addr_of_noDigit (noDigit_cons (by decide) _)
  · dsimp only
    split
    · rw [List.append_assoc]
      exact readIpv4Addr_fmtSubslice _ (addrEnd_gap _).noDigit (addrEnd_gap _).noDot
    · rw [← List.append_nil (fmtSubslice a.segments)]
      exact readIpv4Addr_fmtSubslice _ (noDigit_nil 16) (Option.some_ne_none '.').symm

/-- **An address reads back.**  What `Display` prints, with the longest run of zeros left out and
IPv4-mapped addresses written as such, `parse` reads as the same address. -/
theorem IpAddr.parse_display (ip : IpAddr) : IpAddr.parse ip.display = some ip := by
  cases ip with
  | v4 a =>
    have hread := readIpv4Addr_display a (noDigit_nil 10)
    rw [List.append_nil] at hread
    rw [parse, display, hread]
  | v6 a =>
    have hread := readIpv6Addr_display a addrEnd_nil
    rw [List.append_nil] at hread
    rw [parse, display, readIpv4Addr_display_v6]
    dsimp only
    rw [hread]

end Rspf
