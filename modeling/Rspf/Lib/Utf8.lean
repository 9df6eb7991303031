import Mathlib.Data.List.GetD
import Mathlib.Data.String.Basic
import Rspf.Lib.Text

/-!
# UTF-8, with lossy decoding

A text is a list of characters and its encoding is `Utf8.encode`, the concatenation of core's
`String.utf8EncodeChar`.  Going back, `Utf8.decodeLossy` reads *any* list of bytes: where the bytes
are not UTF-8 it writes one replacement character U+FFFD for each maximal prefix of a sequence that
could still have become a character, which is the substitution the Unicode standard recommends.

The decoder looks at the bytes after the first one (`Utf8.scan`), decides on a character and on how
many of those bytes belong to it, and skips them.  What the rest of a development needs to know
about it is three facts:

* `decodeLossy_encode` — on the encoding of a text it gives the text back;
* `count_decodeLossy` — it neither invents, loses nor moves into a sequence an ASCII byte: each
  occurs in the result as often as in the input.  A separator that is ASCII can therefore be
  looked for before or after decoding;
* `count_encode` — the same for the encoder.
-/

set_option autoImplicit false

namespace Utf8

/-- The bytes of a text. -/
def encode (s : List Char) : List UInt8 := s.flatMap String.utf8EncodeChar

@[simp] theorem encode_nil : encode [] = [] := rfl

@[simp] theorem encode_cons (c : Char) (s : List Char) :
    encode (c :: s) = String.utf8EncodeChar c ++ encode s := rfl

@[simp] theorem encode_append (s t : List Char) : encode (s ++ t) = encode s ++ encode t :=
  List.flatMap_append

/-! ## Lossy decoding -/

/-- U+FFFD, which stands for what could not be decoded. -/
def replacement : Char := Char.ofNat 0xFFFD

/-- The values a continuation byte takes. -/
def IsCont (b : ℕ) : Prop := 0x80 ≤ b ∧ b ≤ 0xBF

/-- May `c` follow the first byte `b` of a three- or four-byte sequence?  The narrower ranges after
`E0`, `ED`, `F0` and `F4` keep out overlong forms, surrogates and what lies beyond U+10FFFF. -/
def IsSecond (b c : ℕ) : Prop :=
  IsCont c ∧ (b = 0xE0 → 0xA0 ≤ c) ∧ (b = 0xED → c ≤ 0x9F) ∧ (b = 0xF0 → 0x90 ≤ c) ∧
    (b = 0xF4 → c ≤ 0x8F)

instance (b : ℕ) : Decidable (IsCont b) := inferInstanceAs (Decidable (_ ∧ _))

instance (b c : ℕ) : Decidable (IsSecond b c) := inferInstanceAs (Decidable (_ ∧ _))

/-- The byte at position `i` of what follows, or `0` past its end; no sequence continues with
`0`. -/
def peek (s : List UInt8) (i : ℕ) : ℕ := (s.getD i 0).toNat

/-- The value a sequence of two bytes encodes. -/
def value₂ (b c : ℕ) : ℕ := (b - 0xC0) * 64 + (c - 0x80)

/-- The value a sequence of three bytes encodes. -/
def value₃ (b c d : ℕ) : ℕ := (b - 0xE0) * 4096 + (c - 0x80) * 64 + (d - 0x80)

/-- The value a sequence of four bytes encodes. -/
def value₄ (b c d e : ℕ) : ℕ :=
  (b - 0xF0) * 262144 + (c - 0x80) * 4096 + (d - 0x80) * 64 + (e - 0x80)

theorem value₂_eq (b c : ℕ) : value₂ b c = (b - 0xC0) * 64 + (c - 0x80) := rfl

theorem value₃_eq (b c d : ℕ) :
    value₃ b c d = (b - 0xE0) * 4096 + (c - 0x80) * 64 + (d - 0x80) := rfl

theorem value₄_eq (b c d e : ℕ) :
    value₄ b c d e = (b - 0xF0) * 262144 + (c - 0x80) * 4096 + (d - 0x80) * 64 + (e - 0x80) := rfl

/-- The character at the front of `b :: s`, and how many bytes of `s` belong to it.  An ill-formed
front gives the replacement character, together with the bytes that were still acceptable. -/
def scan (b : ℕ) (s : List UInt8) : Char × ℕ :=
  if b < 0x80 then (Char.ofNat b, 0)
  else if 0xC2 ≤ b ∧ b ≤ 0xDF then
    if IsCont (peek s 0) then (Char.ofNat (value₂ b (peek s 0)), 1) else (replacement, 0)
  else if 0xE0 ≤ b ∧ b ≤ 0xEF then
    if ¬ IsSecond b (peek s 0) then (replacement, 0)
    else if ¬ IsCont (peek s 1) then (replacement, 1)
    else (Char.ofNat (value₃ b (peek s 0) (peek s 1)), 2)
  else if 0xF0 ≤ b ∧ b ≤ 0xF4 then
    if ¬ IsSecond b (peek s 0) then (replacement, 0)
    else if ¬ IsCont (peek s 1) then (replacement, 1)
    else if ¬ IsCont (peek s 2) then (replacement, 2)
    else (Char.ofNat (value₄ b (peek s 0) (peek s 1) (peek s 2)), 3)
  else (replacement, 0)

/-- `decodeLossy`, with the number of bytes still belonging to the character last written. -/
def decodeFrom : ℕ → List UInt8 → List Char
  | _, [] => []
  | n + 1, _ :: s => decodeFrom n s
  | 0, b :: s => (scan b.toNat s).1 :: decodeFrom (scan b.toNat s).2 s

/-- Decode, with a replacement character for each maximal ill-formed piece. -/
def decodeLossy (s : List UInt8) : List Char := decodeFrom 0 s

theorem decodeFrom_eq (n : ℕ) (s : List UInt8) : decodeFrom n s = decodeLossy (s.drop n) := by
  induction s generalizing n with
  | nil => simp [decodeFrom, decodeLossy]
  | cons b s ih =>
    cases n with
    | zero => rfl
    | succ n => rw [decodeFrom, ih, List.drop_succ_cons]

@[simp] theorem decodeLossy_nil : decodeLossy [] = [] := rfl

theorem decodeLossy_cons (b : UInt8) (s : List UInt8) :
    decodeLossy (b :: s) = (scan b.toNat s).1 :: decodeLossy (s.drop (scan b.toNat s).2) := by
  rw [decodeLossy, decodeFrom, decodeFrom_eq]

/-! ### What one step reads -/

/-- Past the end there is no continuation byte, so the bytes a sequence owns are there. -/
theorem mem_take_of_peek {s : List UInt8} {n : ℕ} {x : UInt8} (hx : x ∈ s.take n) :
    ∃ i < n, peek s i = x.toNat := by
  obtain ⟨i, hi, he⟩ := List.mem_iff_getElem.mp hx
  rw [List.length_take] at hi
  refine ⟨i, by omega, ?_⟩
  rw [List.getElem_take] at he
  rw [peek, List.getD_eq_getElem _ _ (by omega), he]

theorem take_of_isCont {s : List UInt8} {n : ℕ} (h : ∀ i < n, 0x80 ≤ peek s i) :
    ∀ x ∈ s.take n, 0x80 ≤ x.toNat := by
  intro x hx
  obtain ⟨i, hi, he⟩ := mem_take_of_peek hx
  exact he ▸ h i hi

theorem take_one {s : List UInt8} (h₀ : 0x80 ≤ peek s 0) : ∀ x ∈ s.take 1, 0x80 ≤ x.toNat := by
  refine take_of_isCont fun i hi ↦ ?_
  obtain rfl : i = 0 := by omega
  exact h₀

theorem take_two {s : List UInt8} (h₀ : 0x80 ≤ peek s 0) (h₁ : 0x80 ≤ peek s 1) :
    ∀ x ∈ s.take 2, 0x80 ≤ x.toNat := by
  refine take_of_isCont fun i hi ↦ ?_
  obtain rfl | rfl : i = 0 ∨ i = 1 := by omega
  · exact h₀
  · exact h₁

theorem take_three {s : List UInt8} (h₀ : 0x80 ≤ peek s 0) (h₁ : 0x80 ≤ peek s 1)
    (h₂ : 0x80 ≤ peek s 2) : ∀ x ∈ s.take 3, 0x80 ≤ x.toNat := by
  refine take_of_isCont fun i hi ↦ ?_
  obtain rfl | rfl | rfl : i = 0 ∨ i = 1 ∨ i = 2 := by omega
  · exact h₀
  · exact h₁
  · exact h₂

/-- **What a step can do.**  Either the front is an ASCII byte, which is its own character, or the
step writes a character outside ASCII and takes with it only bytes outside ASCII. -/
theorem scan_cases (b : ℕ) (s : List UInt8) :
    (b < 0x80 ∧ scan b s = (Char.ofNat b, 0)) ∨
      (0x80 ≤ b ∧ 0x80 ≤ (scan b s).1.toNat ∧ ∀ x ∈ s.take (scan b s).2, 0x80 ≤ x.toNat) := by
  have hrep : 0x80 ≤ replacement.toNat := by decide
  rw [scan]
  split
  · rename_i hb; exact Or.inl ⟨hb, rfl⟩
  rename_i hb
  refine Or.inr ⟨by omega, ?_⟩
  split
  · split
    · rename_i h₁ h₂
      have hv : 0x80 ≤ value₂ b (peek s 0) ∧ value₂ b (peek s 0) < 0x800 := by
        rw [IsCont] at h₂
        have := value₂_eq b (peek s 0)
        omega
      exact ⟨by rw [Text.toNat_charOfNat (by omega)]; exact hv.1, take_one h₂.1⟩
    · exact ⟨hrep, by simp⟩
  split
  · split
    · exact ⟨hrep, by simp⟩
    rename_i h₁ h₂
    rw [not_not] at h₂
    split
    · exact ⟨hrep, take_one h₂.1.1⟩
    · rename_i h₃
      rw [not_not] at h₃
      have hv : 0x800 ≤ value₃ b (peek s 0) (peek s 1) ∧
          (value₃ b (peek s 0) (peek s 1) < 0xD800 ∨
            (0xDFFF < value₃ b (peek s 0) (peek s 1) ∧
              value₃ b (peek s 0) (peek s 1) < 0x110000)) := by
        rw [IsSecond, IsCont] at h₂
        rw [IsCont] at h₃
        have := value₃_eq b (peek s 0) (peek s 1)
        omega
      exact ⟨by rw [Text.toNat_charOfNat hv.2]; omega, take_two h₂.1.1 h₃.1⟩
  split
  · split
    · exact ⟨hrep, by simp⟩
    rename_i h₁ h₂
    rw [not_not] at h₂
    split
    · exact ⟨hrep, take_one h₂.1.1⟩
    rename_i h₃
    rw [not_not] at h₃
    split
    · exact ⟨hrep, take_two h₂.1.1 h₃.1⟩
    · rename_i h₄
      rw [not_not] at h₄
      have hv : 0xFFFF < value₄ b (peek s 0) (peek s 1) (peek s 2) ∧
          value₄ b (peek s 0) (peek s 1) (peek s 2) < 0x110000 := by
        rw [IsSecond, IsCont] at h₂
        rw [IsCont] at h₃ h₄
        have := value₄_eq b (peek s 0) (peek s 1) (peek s 2)
        omega
      exact ⟨by rw [Text.toNat_charOfNat (Or.inr (by omega))]; omega,
        take_three h₂.1.1 h₃.1 h₄.1⟩
  · exact ⟨hrep, by simp⟩

/-! ### ASCII bytes -/

/-- The byte of an ASCII character. -/
def byteOf (c : Char) : UInt8 := UInt8.ofNat c.toNat

theorem toNat_byteOf {c : Char} (hc : c.toNat < 0x80) : (byteOf c).toNat = c.toNat := by
  rw [byteOf, UInt8.toNat_ofNat', Nat.mod_eq_of_lt (by omega)]

theorem count_eq_zero_of_high {c : Char} (hc : c.toNat < 0x80) {s : List UInt8}
    (h : ∀ x ∈ s, 0x80 ≤ x.toNat) : s.count (byteOf c) = 0 := by
  refine List.count_eq_zero.mpr fun hm ↦ ?_
  have := h _ hm
  rw [toNat_byteOf hc] at this
  omega

/-- **Lossy decoding keeps ASCII where it is**: an ASCII character occurs in the result as often as
its byte in the input. -/
theorem count_decodeLossy {c : Char} (hc : c.toNat < 0x80) (s : List UInt8) :
    (decodeLossy s).count c = s.count (byteOf c) := by
  induction hn : s.length using Nat.strongRecOn generalizing s with
  | ind n ih =>
    cases s with
    | nil => rfl
    | cons b s =>
      have hrec := ih _ (by rw [← hn, List.length_cons, List.length_drop]; omega)
        (s.drop (scan b.toNat s).2) rfl
      rw [decodeLossy_cons, List.count_cons, List.count_cons, hrec]
      rcases scan_cases b.toNat s with ⟨hb, he⟩ | ⟨hb, hch, htake⟩
      · have hiff : Char.ofNat b.toNat = c ↔ b = byteOf c := by
          rw [← Char.toNat_inj, Text.toNat_charOfNat (by omega), ← UInt8.toNat_inj, toNat_byteOf hc]
        simp only [he, List.drop_zero, beq_iff_eq, hiff]
      · have hne : (scan b.toNat s).1 ≠ c := by rintro rfl; omega
        have hne' : b ≠ byteOf c := by
          rintro rfl; rw [toNat_byteOf hc] at hb; omega
        have hcount : s.count (byteOf c) = (s.drop (scan b.toNat s).2).count (byteOf c) := by
          conv_lhs => rw [← List.take_append_drop (scan b.toNat s).2 s, List.count_append,
            count_eq_zero_of_high hc htake, Nat.zero_add]
        simp [hne, hne', hcount]

theorem mem_decodeLossy {c : Char} (hc : c.toNat < 0x80) {s : List UInt8} :
    c ∈ decodeLossy s ↔ byteOf c ∈ s := by
  rw [← List.count_pos_iff, ← List.count_pos_iff, count_decodeLossy hc]

/-! ## The encoder -/

theorem toNat_lt (c : Char) : c.toNat < 0xD800 ∨ (0xDFFF < c.toNat ∧ c.toNat < 0x110000) := c.valid

/-- What `String.utf8EncodeChar` writes, by the size of the character. -/
theorem utf8EncodeChar_cases (c : Char) :
    (c.toNat < 0x80 ∧ String.utf8EncodeChar c = [byteOf c]) ∨
    (0x80 ≤ c.toNat ∧ c.toNat < 0x800 ∧ String.utf8EncodeChar c =
      [UInt8.ofNat (c.toNat / 64 + 0xC0), UInt8.ofNat (c.toNat % 64 + 0x80)]) ∨
    (0x800 ≤ c.toNat ∧ c.toNat < 0x10000 ∧ String.utf8EncodeChar c =
      [UInt8.ofNat (c.toNat / 4096 + 0xE0), UInt8.ofNat (c.toNat / 64 % 64 + 0x80),
        UInt8.ofNat (c.toNat % 64 + 0x80)]) ∨
    (0x10000 ≤ c.toNat ∧ String.utf8EncodeChar c =
      [UInt8.ofNat (c.toNat / 262144 + 0xF0), UInt8.ofNat (c.toNat / 4096 % 64 + 0x80),
        UInt8.ofNat (c.toNat / 64 % 64 + 0x80), UInt8.ofNat (c.toNat % 64 + 0x80)]) := by
  have hv := toNat_lt c
  have hn : c.val.toNat = c.toNat := rfl
  simp only [String.utf8EncodeChar, hn]
  split
  · exact Or.inl ⟨by omega, rfl⟩
  split
  · refine Or.inr (Or.inl ⟨by omega, by omega, ?_⟩)
    rw [Nat.mod_eq_of_lt (by omega : c.toNat / 64 < 0x20)]
  split
  · refine Or.inr (Or.inr (Or.inl ⟨by omega, by omega, ?_⟩))
    rw [Nat.mod_eq_of_lt (by omega : c.toNat / 4096 < 0x10)]
  · refine Or.inr (Or.inr (Or.inr ⟨by omega, ?_⟩))
    rw [Nat.mod_eq_of_lt (by omega : c.toNat / 262144 < 0x08)]

/-! ### Reading back a well-formed sequence -/

theorem scan_two {b : ℕ} {s : List UInt8} (hb : 0xC2 ≤ b ∧ b ≤ 0xDF) (h : IsCont (peek s 0)) :
    scan b s = (Char.ofNat (value₂ b (peek s 0)), 1) := by
  have h₁ : ¬ b < 0x80 := by omega
  rw [scan, if_neg h₁, if_pos hb, if_pos h]

theorem scan_three {b : ℕ} {s : List UInt8} (hb : 0xE0 ≤ b ∧ b ≤ 0xEF)
    (h : IsSecond b (peek s 0)) (h' : IsCont (peek s 1)) :
    scan b s = (Char.ofNat (value₃ b (peek s 0) (peek s 1)), 2) := by
  have h₁ : ¬ b < 0x80 := by omega
  have h₂ : ¬ (0xC2 ≤ b ∧ b ≤ 0xDF) := by omega
  rw [scan, if_neg h₁, if_neg h₂, if_pos hb, if_neg (not_not.mpr h), if_neg (not_not.mpr h')]

theorem scan_four {b : ℕ} {s : List UInt8} (hb : 0xF0 ≤ b ∧ b ≤ 0xF4)
    (h : IsSecond b (peek s 0)) (h' : IsCont (peek s 1)) (h'' : IsCont (peek s 2)) :
    scan b s = (Char.ofNat (value₄ b (peek s 0) (peek s 1) (peek s 2)), 3) := by
  have h₁ : ¬ b < 0x80 := by omega
  have h₂ : ¬ (0xC2 ≤ b ∧ b ≤ 0xDF) := by omega
  have h₃ : ¬ (0xE0 ≤ b ∧ b ≤ 0xEF) := by omega
  rw [scan, if_neg h₁, if_neg h₂, if_neg h₃, if_pos hb, if_neg (not_not.mpr h),
    if_neg (not_not.mpr h'), if_neg (not_not.mpr h'')]

theorem toNat_uint8_ofNat {n : ℕ} (h : n < 256) : (UInt8.ofNat n).toNat = n := by
  rw [UInt8.toNat_ofNat', Nat.mod_eq_of_lt h]

@[simp] theorem peek_cons_zero (b : UInt8) (s : List UInt8) : peek (b :: s) 0 = b.toNat := rfl

@[simp] theorem peek_cons_succ (b : UInt8) (s : List UInt8) (i : ℕ) :
    peek (b :: s) (i + 1) = peek s i := rfl

/-- Six bits make a continuation byte. -/
theorem isCont_mod (n : ℕ) : IsCont (n % 64 + 0x80) := by
  rw [IsCont]
  omega

/-- **One character round-trips**, whatever follows it. -/
theorem decodeLossy_utf8EncodeChar_append (c : Char) (s : List UInt8) :
    decodeLossy (String.utf8EncodeChar c ++ s) = c :: decodeLossy s := by
  have hv := toNat_lt c
  rcases utf8EncodeChar_cases c with ⟨h, he⟩ | ⟨h₁, h₂, he⟩ | ⟨h₁, h₂, he⟩ | ⟨h₁, he⟩
  · have hs : scan (byteOf c).toNat s = (c, 0) := by
      rw [toNat_byteOf h, scan, if_pos h, Char.ofNat_toNat]
    rw [he, List.singleton_append, decodeLossy_cons, hs, List.drop_zero]
  · rw [he, List.cons_append, List.singleton_append, decodeLossy_cons,
      toNat_uint8_ofNat (by omega), scan_two (by omega)]
    · have hval : value₂ (c.toNat / 64 + 0xC0) (c.toNat % 64 + 0x80) = c.toNat := by
        rw [value₂_eq]
        omega
      rw [peek_cons_zero, toNat_uint8_ofNat (by omega), hval, Char.ofNat_toNat, List.drop_one,
        List.tail_cons]
    · rw [peek_cons_zero, toNat_uint8_ofNat (by omega)]
      exact isCont_mod _
  · rw [he, List.cons_append, List.cons_append, List.singleton_append, decodeLossy_cons,
      toNat_uint8_ofNat (by omega), scan_three (by omega)]
    · have hval : value₃ (c.toNat / 4096 + 0xE0) (c.toNat / 64 % 64 + 0x80)
          (c.toNat % 64 + 0x80) = c.toNat := by
        rw [value₃_eq]
        omega
      rw [peek_cons_succ, peek_cons_zero, peek_cons_zero, toNat_uint8_ofNat (by omega),
        toNat_uint8_ofNat (by omega), hval, Char.ofNat_toNat, List.drop_succ_cons, List.drop_one,
        List.tail_cons]
    · rw [peek_cons_zero, toNat_uint8_ofNat (by omega), IsSecond, IsCont]
      omega
    · rw [peek_cons_succ, peek_cons_zero, toNat_uint8_ofNat (by omega)]
      exact isCont_mod _
  · rw [he, List.cons_append, List.cons_append, List.cons_append, List.singleton_append,
      decodeLossy_cons, toNat_uint8_ofNat (by omega), scan_four (by omega)]
    · have hval : value₄ (c.toNat / 262144 + 0xF0) (c.toNat / 4096 % 64 + 0x80)
          (c.toNat / 64 % 64 + 0x80) (c.toNat % 64 + 0x80) = c.toNat := by
        rw [value₄_eq]
        omega
      rw [peek_cons_succ, peek_cons_succ, peek_cons_succ, peek_cons_zero, peek_cons_zero,
        peek_cons_zero, toNat_uint8_ofNat (by omega), toNat_uint8_ofNat (by omega),
        toNat_uint8_ofNat (by omega), hval, Char.ofNat_toNat, List.drop_succ_cons,
        List.drop_succ_cons, List.drop_one, List.tail_cons]
    · rw [peek_cons_zero, toNat_uint8_ofNat (by omega), IsSecond, IsCont]
      omega
    · rw [peek_cons_succ, peek_cons_zero, toNat_uint8_ofNat (by omega)]
      exact isCont_mod _
    · rw [peek_cons_succ, peek_cons_succ, peek_cons_zero, toNat_uint8_ofNat (by omega)]
      exact isCont_mod _

/-- **The encoding of a text decodes to the text**, whatever follows it. -/
theorem decodeLossy_encode_append (t : List Char) (s : List UInt8) :
    decodeLossy (encode t ++ s) = t ++ decodeLossy s := by
  induction t with
  | nil => rfl
  | cons c t ih =>
    rw [encode_cons, List.append_assoc, decodeLossy_utf8EncodeChar_append, ih, List.cons_append]

@[simp] theorem decodeLossy_encode (t : List Char) : decodeLossy (encode t) = t := by
  have h := decodeLossy_encode_append t []
  rwa [List.append_nil, decodeLossy_nil, List.append_nil] at h

/-- **The encoder keeps ASCII where it is**, as the decoder does. -/
theorem count_encode {c : Char} (hc : c.toNat < 0x80) (s : List Char) :
    (encode s).count (byteOf c) = s.count c := by
  rw [← count_decodeLossy hc, decodeLossy_encode]

theorem mem_encode {c : Char} (hc : c.toNat < 0x80) {s : List Char} :
    byteOf c ∈ encode s ↔ c ∈ s := by
  rw [← List.count_pos_iff, count_encode hc, List.count_pos_iff]

theorem encode_eq_nil_iff {s : List Char} : encode s = [] ↔ s = [] := by
  refine ⟨?_, ?_⟩
  · intro h
    rw [← decodeLossy_encode s, h, decodeLossy_nil]
  · rintro rfl; rfl

end Utf8
