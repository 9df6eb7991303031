import Rspf.Lib.Split

/-!
# Slicing a text at byte offsets

A scanner that works in place finds byte offsets in a text and slices the text there.  A slice out
of range, or inside the encoding of a character, is a programming error: `Slice.sliceFrom` and
`Slice.sliceTo` are `none` on it.

An offset that `Slice.find` returned is always good, and slicing there is cutting at the character
found: `find_append_cons`, `sliceTo_byteLen_append` and `sliceFrom_byteLen_add_one` translate
between the two, so that a scanner can be read as a splitter.

The step past the character found is the delicate one.  It is good for characters of one byte only,
which is an assumption of `sliceFrom_byteLen_add_one`.
-/

set_option autoImplicit false

namespace Slice

/-- How many bytes a text takes. -/
def byteLen : List Char → ℕ
  | [] => 0
  | c :: s => c.utf8Size + byteLen s

/-- The offset of the first `c`. -/
def find (c : Char) : List Char → Option ℕ
  | [] => none
  | x :: s => if x = c then some 0 else (find c s).map (x.utf8Size + ·)

/-- The text from an offset on. -/
def sliceFrom : List Char → ℕ → Option (List Char)
  | s, 0 => some s
  | [], _ + 1 => none
  | c :: s, n + 1 => if n + 1 < c.utf8Size then none else sliceFrom s (n + 1 - c.utf8Size)

/-- The text up to an offset. -/
def sliceTo : List Char → ℕ → Option (List Char)
  | _, 0 => some []
  | [], _ + 1 => none
  | c :: s, n + 1 =>
    if n + 1 < c.utf8Size then none else (sliceTo s (n + 1 - c.utf8Size)).map (c :: ·)

theorem find_eq (c : Char) (s : List Char) :
    find c s = (Split.splitOnce c s).map fun p ↦ byteLen p.1 := by
  induction s with
  | nil => rfl
  | cons x s ih =>
    rw [find, Split.splitOnce, ih]
    split
    · rfl
    · rw [Option.map_map, Option.map_map]
      rfl

theorem find_append_cons {c : Char} {a : List Char} (ha : c ∉ a) (b : List Char) :
    find c (a ++ c :: b) = some (byteLen a) := by
  rw [find_eq, Split.splitOnce_append_cons ha]
  rfl

theorem find_eq_none {c : Char} {s : List Char} (h : c ∉ s) : find c s = none := by
  rw [find_eq, Split.splitOnce_eq_none_iff.mpr h]
  rfl

theorem sliceFrom_add_utf8Size (c : Char) (s : List Char) (n : ℕ) :
    sliceFrom (c :: s) (c.utf8Size + n) = sliceFrom s n := by
  obtain ⟨k, hk⟩ : ∃ k, c.utf8Size + n = k + 1 :=
    ⟨c.utf8Size + n - 1, by have := c.utf8Size_pos; omega⟩
  rw [hk, sliceFrom, ← hk, if_neg (by omega), Nat.add_sub_cancel_left]

theorem sliceTo_add_utf8Size (c : Char) (s : List Char) (n : ℕ) :
    sliceTo (c :: s) (c.utf8Size + n) = (sliceTo s n).map (c :: ·) := by
  obtain ⟨k, hk⟩ : ∃ k, c.utf8Size + n = k + 1 :=
    ⟨c.utf8Size + n - 1, by have := c.utf8Size_pos; omega⟩
  rw [hk, sliceTo, ← hk, if_neg (by omega), Nat.add_sub_cancel_left]

/-- **Slicing to the end of a beginning** gives the beginning. -/
theorem sliceTo_byteLen_append (a b : List Char) : sliceTo (a ++ b) (byteLen a) = some a := by
  induction a with
  | nil => rw [List.nil_append, byteLen, sliceTo]
  | cons c a ih => rw [List.cons_append, byteLen, sliceTo_add_utf8Size, ih]; rfl

/-- **Slicing one past the end of a beginning** leaves what follows a character of one byte. -/
theorem sliceFrom_byteLen_add_one (a : List Char) {c : Char} (hc : c.utf8Size = 1) (b : List Char) :
    sliceFrom (a ++ c :: b) (byteLen a + 1) = some b := by
  induction a with
  | nil => rw [List.nil_append, byteLen, Nat.add_comm, ← hc, sliceFrom_add_utf8Size, sliceFrom]
  | cons x a ih => rw [List.cons_append, byteLen, Nat.add_assoc, sliceFrom_add_utf8Size, ih]

theorem length_le_of_sliceFrom {s t : List Char} {n : ℕ} (h : sliceFrom s n = some t) :
    t.length ≤ s.length := by
  induction s, n using sliceFrom.induct with
  | case1 s => rw [sliceFrom, Option.some_inj] at h; exact h ▸ Nat.le_refl _
  | case2 n => exact absurd h (by simp [sliceFrom])
  | case3 c s n hn => rw [sliceFrom, if_pos hn] at h; exact absurd h (by simp)
  | case4 c s n hn ih =>
    rw [sliceFrom, if_neg hn] at h
    exact Nat.le_succ_of_le (ih h)

/-- A slice that skips something is shorter. -/
theorem length_lt_of_sliceFrom {s t : List Char} {n : ℕ} (h : sliceFrom s (n + 1) = some t) :
    t.length < s.length := by
  cases s with
  | nil => exact absurd h (by simp [sliceFrom])
  | cons c s =>
    rw [sliceFrom] at h
    split at h
    · exact absurd h (by simp)
    · exact Nat.lt_succ_of_le (length_le_of_sliceFrom h)

end Slice
