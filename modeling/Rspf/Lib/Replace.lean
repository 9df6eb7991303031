import Mathlib.Data.List.Basic

/-!
# Replacing every occurrence of a pattern

`Replace.replace pat val s` is `s` with each occurrence of `pat` replaced by `val`, the occurrences
being the non-overlapping ones found from left to right.  It is meant for a non-empty pattern.

The definition skips the elements of an occurrence one by one, so that it is structural and can be
run by `decide`; `replace_append` and `replace_cons` are the two equations to reason with, and
`replaceRec` the induction they amount to: a list is empty, starts with an occurrence, or starts
with an element at which none begins.

`StartsIn` and `occurrences` say where a pattern occurs and how often.  Of a pattern whose first
element occurs nowhere else in it every occurrence is replaced, and `length_replace` counts them.
-/

set_option autoImplicit false

namespace Replace

variable {α : Type} [DecidableEq α] {pat val : List α}

/-- `replace`, with the number of elements of the last occurrence that are still to be skipped. -/
def replaceFrom (pat val : List α) : ℕ → List α → List α
  | _, [] => []
  | n + 1, _ :: s => replaceFrom pat val n s
  | 0, x :: s =>
    if pat <+: x :: s then val ++ replaceFrom pat val (pat.length - 1) s
    else x :: replaceFrom pat val 0 s

/-- Replace every occurrence of `pat` by `val`. -/
def replace (pat val s : List α) : List α := replaceFrom pat val 0 s

theorem replaceFrom_eq (n : ℕ) (s : List α) :
    replaceFrom pat val n s = replace pat val (s.drop n) := by
  induction s generalizing n with
  | nil => cases n <;> rfl
  | cons x s ih =>
    cases n with
    | zero => rfl
    | succ n => rw [replaceFrom, ih, List.drop_succ_cons]

@[simp] theorem replace_nil : replace pat val [] = [] := rfl

/-- An occurrence at the front is replaced. -/
theorem replace_append (hpat : pat ≠ []) (s : List α) :
    replace pat val (pat ++ s) = val ++ replace pat val s := by
  cases pat with
  | nil => exact absurd rfl hpat
  | cons x pat =>
    rw [List.cons_append, replace, replaceFrom, if_pos (by simp), replaceFrom_eq]
    simp

/-- An element at which no occurrence begins is kept. -/
theorem replace_cons {x : α} {s : List α} (h : ¬ pat <+: x :: s) :
    replace pat val (x :: s) = x :: replace pat val s := by
  rw [replace, replaceFrom, if_neg h, replace]

/-- The induction `replace` goes by. -/
theorem replaceRec (hpat : pat ≠ []) {motive : List α → Prop} (nil : motive [])
    (found : ∀ s, motive s → motive (pat ++ s))
    (kept : ∀ x s, ¬ pat <+: x :: s → motive s → motive (x :: s)) (s : List α) : motive s := by
  induction hn : s.length using Nat.strongRecOn generalizing s with
  | ind n ih =>
    have hpos : 0 < pat.length := List.length_pos_iff.mpr hpat
    cases s with
    | nil => exact nil
    | cons x s =>
      by_cases h : pat <+: x :: s
      · obtain ⟨t, ht⟩ := h
        rw [← ht] at hn ⊢
        rw [List.length_append] at hn
        exact found t (ih t.length (by omega) t rfl)
      · rw [List.length_cons] at hn
        exact kept x s h (ih s.length (by omega) s rfl)

/-! ## What survives -/

/-- **An element of neither the pattern nor the replacement occurs as often as before.** -/
theorem count_replace {x : α} (hpat : pat ≠ []) (hx : x ∉ pat) (hv : x ∉ val) (s : List α) :
    (replace pat val s).count x = s.count x := by
  induction s using replaceRec hpat with
  | nil => rfl
  | found s ih =>
    rw [replace_append hpat, List.count_append, List.count_append, ih,
      List.count_eq_zero_of_not_mem hx, List.count_eq_zero_of_not_mem hv]
  | kept y s h ih => rw [replace_cons h, List.count_cons, List.count_cons, ih]

/-! ## Where occurrences start -/

/-- An occurrence of the pattern starts in `l`, which `s` follows. -/
def StartsIn (pat l s : List α) : Prop := ∃ x y, l = x ++ y ∧ y ≠ [] ∧ pat <+: y ++ s

omit [DecidableEq α] in
theorem not_startsIn_nil (s : List α) : ¬ StartsIn pat [] s := by
  rintro ⟨x, y, h, hy, -⟩
  exact hy (List.append_eq_nil_iff.mp h.symm).2

omit [DecidableEq α] in
theorem startsIn_cons_iff {x : α} {l s : List α} :
    StartsIn pat (x :: l) s ↔ pat <+: x :: (l ++ s) ∨ StartsIn pat l s := by
  refine ⟨?_, ?_⟩
  · rintro ⟨a, y, h, hy, hpre⟩
    rcases List.cons_eq_append_iff.mp h with ⟨rfl, rfl⟩ | ⟨a', rfl, rfl⟩
    · exact .inl hpre
    · exact .inr ⟨a', y, rfl, hy, hpre⟩
  · rintro (hpre | ⟨a, y, rfl, hy, hpre⟩)
    · exact ⟨[], x :: l, rfl, List.cons_ne_nil x l, hpre⟩
    · exact ⟨x :: a, y, rfl, hy, hpre⟩

omit [DecidableEq α] in
/-- It starts at the pattern's first element. -/
theorem not_startsIn_of_not_mem {x : α} {p l : List α} (hx : x ∉ l) (s : List α) :
    ¬ StartsIn (x :: p) l s := by
  rintro ⟨a, y, rfl, hy, hpre⟩
  obtain ⟨z, y, rfl⟩ := List.exists_cons_of_ne_nil hy
  rw [List.cons_append, List.cons_prefix_cons] at hpre
  exact hx (List.mem_append_right a (hpre.1 ▸ List.mem_cons_self))

/-- Text in which no occurrence starts is kept. -/
theorem replace_append_of_not_startsIn {l s : List α} (h : ¬ StartsIn pat l s) :
    replace pat val (l ++ s) = l ++ replace pat val s := by
  induction l with
  | nil => rfl
  | cons x l ih =>
    rw [startsIn_cons_iff, not_or] at h
    rw [List.cons_append, replace_cons h.1, ih h.2, List.cons_append]

/-- Where the pattern's first element does not occur there is nothing to replace. -/
theorem replace_append_of_not_mem {x : α} {p l : List α} (hp : x ∉ l) (s : List α) :
    replace (x :: p) val (l ++ s) = l ++ replace (x :: p) val s :=
  replace_append_of_not_startsIn (not_startsIn_of_not_mem hp s)

/-- A pattern replaced by itself. -/
theorem replace_self (hpat : pat ≠ []) (s : List α) : replace pat pat s = s := by
  induction s using replaceRec hpat with
  | nil => rfl
  | found s ih => rw [replace_append hpat, ih]
  | kept x s h ih => rw [replace_cons h, ih]

/-! ## How many there are -/

/-- The number of places at which the pattern occurs. -/
def occurrences (pat : List α) : List α → ℕ
  | [] => 0
  | x :: s => occurrences pat s + if pat <+: x :: s then 1 else 0

/-- **Text adds the occurrences that start in it.** -/
theorem occurrences_append (pat l s : List α) :
    occurrences pat s ≤ occurrences pat (l ++ s) ∧
      (occurrences pat (l ++ s) = occurrences pat s ↔ ¬ StartsIn pat l s) := by
  induction l with
  | nil => exact ⟨Nat.le_refl _, iff_of_true rfl (not_startsIn_nil s)⟩
  | cons x l ih =>
    obtain ⟨hle, hiff⟩ := ih
    rw [List.cons_append, occurrences, startsIn_cons_iff, not_or]
    split
    · rename_i hpre
      exact ⟨by omega, iff_of_false (by omega) fun h ↦ h.1 hpre⟩
    · rename_i hpre
      exact ⟨by omega, hiff.trans ⟨fun h ↦ ⟨hpre, h⟩, And.right⟩⟩

section Marked

variable {x : α} {p : List α}

/-- In a pattern whose first element occurs nowhere else in it, no other occurrence starts. -/
theorem occurrences_marked_append (hp : x ∉ p) (s : List α) :
    occurrences (x :: p) (x :: p ++ s) = occurrences (x :: p) s + 1 := by
  have hrest := (occurrences_append (x :: p) p s).2.mpr (not_startsIn_of_not_mem hp s)
  rw [List.cons_append, occurrences, if_pos (by simp), hrest]

/-- **Each occurrence is exchanged for the value.** -/
theorem length_replace (hp : x ∉ p) (val s : List α) :
    (replace (x :: p) val s).length + occurrences (x :: p) s * (x :: p).length =
      s.length + occurrences (x :: p) s * val.length := by
  induction s using replaceRec (List.cons_ne_nil x p) with
  | nil => simp [occurrences]
  | found s ih =>
    rw [replace_append (List.cons_ne_nil x p), occurrences_marked_append hp, List.length_append,
      List.length_append, Nat.add_mul, Nat.add_mul]
    omega
  | kept y s h ih =>
    rw [replace_cons h, occurrences, if_neg h, Nat.add_zero]
    simp only [List.length_cons] at ih ⊢
    omega

end Marked

end Replace
