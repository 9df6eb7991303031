import Mathlib.Data.List.Basic

/-!
# Cutting a list at a separator

The three ways a line-oriented parser cuts its input, for lists over any alphabet:

* `Split.splitOnce sep s` cuts at the *first* separator, `Split.rsplitOnce sep s` at the last;
* `Split.splitn sep n s` cuts at the first `n - 1` separators and leaves the rest alone.

Each comes with the statement that makes it usable without being unfolded: the pieces joined with
the separator are the input, and the piece before the cut (after it, for `rsplitOnce`) contains no
separator.  That pair of facts determines the pieces — `append_cons_inj` — which is what turns a
successful parse into a *unique* one.
-/

set_option autoImplicit false

namespace Split

variable {α : Type} [DecidableEq α] {sep : α}

/-! ## One cut -/

/-- Cut at the first separator. -/
def splitOnce (sep : α) : List α → Option (List α × List α)
  | [] => none
  | x :: s =>
    if x = sep then some ([], s) else (splitOnce sep s).map fun p ↦ (x :: p.1, p.2)

/-- Cut at the last separator. -/
def rsplitOnce (sep : α) : List α → Option (List α × List α)
  | [] => none
  | x :: s =>
    match rsplitOnce sep s with
    | some p => some (x :: p.1, p.2)
    | none => if x = sep then some ([], s) else none

omit [DecidableEq α] in
/-- A separator that the front does not have is behind it. -/
theorem exists_eq_append_left {a b p s : List α} (ha : sep ∉ a) (h : a ++ b = p ++ sep :: s) :
    ∃ d, p = a ++ d ∧ b = d ++ sep :: s := by
  rcases List.append_eq_append_iff.mp h with ⟨d, rfl, hb⟩ | ⟨d, rfl, hs⟩
  · exact ⟨d, rfl, hb⟩
  · cases d with
    | nil => exact ⟨[], by simp, hs.symm⟩
    | cons x d =>
      obtain ⟨rfl, -⟩ := List.cons.inj hs
      exact absurd (by simp) ha

omit [DecidableEq α] in
/-- A separator that the end does not have is before it. -/
theorem exists_eq_append_right {a b p s : List α} (hb : sep ∉ b) (h : a ++ b = p ++ sep :: s) :
    ∃ d, s = d ++ b ∧ a = p ++ sep :: d := by
  rcases List.append_eq_append_iff.mp h with ⟨d, -, rfl⟩ | ⟨d, rfl, hd⟩
  · exact absurd (by simp) hb
  · cases d with
    | nil =>
      rw [List.nil_append] at hd
      exact absurd (hd ▸ List.mem_cons_self) hb
    | cons x d =>
      obtain ⟨rfl, rfl⟩ := List.cons.inj hd
      exact ⟨d, rfl, rfl⟩

omit [DecidableEq α] in
/-- **A cut at the first separator can be made in one way only.** -/
theorem append_cons_inj {a b a' b' : List α} (h : a ++ sep :: b = a' ++ sep :: b')
    (ha : sep ∉ a) (ha' : sep ∉ a') : a = a' ∧ b = b' := by
  induction a generalizing a' with
  | nil =>
    cases a' with
    | nil => simpa using h
    | cons x a' =>
      rw [List.nil_append, List.cons_append, List.cons.injEq] at h
      exact absurd (h.1 ▸ List.mem_cons_self) ha'
  | cons x a ih =>
    cases a' with
    | nil =>
      rw [List.nil_append, List.cons_append, List.cons.injEq] at h
      exact absurd (h.1 ▸ List.mem_cons_self) ha
    | cons y a' =>
      rw [List.cons_append, List.cons_append, List.cons.injEq] at h
      obtain ⟨rfl, rfl⟩ := ih h.2 (fun hm ↦ ha (List.mem_cons_of_mem _ hm))
        (fun hm ↦ ha' (List.mem_cons_of_mem _ hm))
      exact ⟨by rw [h.1], rfl⟩

/-- The other half of `splitOnce_eq_some_iff`: a list that shows its first separator is cut
there. -/
theorem splitOnce_append_cons {a : List α} (ha : sep ∉ a) (b : List α) :
    splitOnce sep (a ++ sep :: b) = some (a, b) := by
  induction a with
  | nil => simp [splitOnce]
  | cons x a ih =>
    rw [List.mem_cons, not_or] at ha
    rw [List.cons_append, splitOnce, if_neg (Ne.symm ha.1), ih ha.2]
    rfl

theorem splitOnce_eq_none_iff {s : List α} : splitOnce sep s = none ↔ sep ∉ s := by
  induction s with
  | nil => simp [splitOnce]
  | cons x s ih =>
    rw [splitOnce, List.mem_cons, not_or]
    split
    · rename_i h; simp [h]
    · rename_i h; simp [ih, Ne.symm h]

theorem splitOnce_eq_some_iff {s a b : List α} :
    splitOnce sep s = some (a, b) ↔ s = a ++ sep :: b ∧ sep ∉ a := by
  refine ⟨?_, ?_⟩
  · intro h
    induction s generalizing a with
    | nil => simp [splitOnce] at h
    | cons x s ih =>
      rw [splitOnce] at h
      split at h
      · rename_i hx
        rw [Option.some_inj, Prod.mk.injEq] at h
        obtain ⟨rfl, rfl⟩ := h
        simp [hx]
      · rename_i hx
        obtain ⟨p, hp, he⟩ := Option.map_eq_some_iff.mp h
        rw [Prod.mk.injEq] at he
        obtain ⟨rfl, rfl⟩ := he
        obtain ⟨hs, hn⟩ := ih hp
        exact ⟨by rw [hs, List.cons_append], by simp [hn, Ne.symm hx]⟩
  · rintro ⟨rfl, ha⟩
    exact splitOnce_append_cons ha b

theorem rsplitOnce_eq_none_iff {s : List α} : rsplitOnce sep s = none ↔ sep ∉ s := by
  induction s with
  | nil => simp [rsplitOnce]
  | cons x s ih =>
    rw [rsplitOnce, List.mem_cons, not_or]
    cases h : rsplitOnce sep s with
    | some p =>
      have hm : ¬ sep ∉ s := fun hn ↦ by simp [ih.mpr hn] at h
      simp [hm]
    | none => by_cases hx : x = sep <;> simp [hx, ih.mp h, Ne.symm]

theorem rsplitOnce_append_cons (a : List α) {b : List α} (hb : sep ∉ b) :
    rsplitOnce sep (a ++ sep :: b) = some (a, b) := by
  induction a with
  | nil => simp [rsplitOnce, rsplitOnce_eq_none_iff.mpr hb]
  | cons x a ih => rw [List.cons_append, rsplitOnce, ih]

/-- A cut at the last separator can be made in one way only, too. -/
theorem append_cons_inj_right {a b a' b' : List α} (h : a ++ sep :: b = a' ++ sep :: b')
    (hb : sep ∉ b) (hb' : sep ∉ b') : a = a' ∧ b = b' := by
  have hcut := rsplitOnce_append_cons a hb
  rw [h, rsplitOnce_append_cons a' hb', Option.some_inj, Prod.mk.injEq] at hcut
  exact ⟨hcut.1.symm, hcut.2.symm⟩

theorem rsplitOnce_eq_some_iff {s a b : List α} :
    rsplitOnce sep s = some (a, b) ↔ s = a ++ sep :: b ∧ sep ∉ b := by
  refine ⟨?_, ?_⟩
  · intro h
    induction s generalizing a with
    | nil => simp [rsplitOnce] at h
    | cons x s ih =>
      rw [rsplitOnce] at h
      split at h
      · rename_i p hp
        rw [Option.some_inj, Prod.mk.injEq] at h
        obtain ⟨rfl, rfl⟩ := h
        obtain ⟨hs, hn⟩ := ih hp
        exact ⟨by rw [hs, List.cons_append], hn⟩
      · rename_i hn
        split at h
        · rename_i hx
          rw [Option.some_inj, Prod.mk.injEq] at h
          obtain ⟨rfl, rfl⟩ := h
          exact ⟨by rw [hx, List.nil_append], rsplitOnce_eq_none_iff.mp hn⟩
        · exact absurd h (by simp)
  · rintro ⟨rfl, hb⟩
    exact rsplitOnce_append_cons a hb

/-! ## Several cuts -/

/-- The pieces between the first `n - 1` separators, the last piece being whatever is left. -/
def splitn (sep : α) : ℕ → List α → List (List α)
  | 0, _ => []
  | 1, s => [s]
  | n + 2, s =>
    match splitOnce sep s with
    | none => [s]
    | some (a, b) => a :: splitn sep (n + 1) b

/-- **One piece at a time**: a piece with something after it was cut at the first separator, and
the pieces after it are those of what was left. -/
theorem splitn_eq_cons_cons_iff {n : ℕ} {s a b : List α} {l : List (List α)} :
    splitn sep (n + 2) s = a :: b :: l ↔
      ∃ t, s = a ++ sep :: t ∧ sep ∉ a ∧ splitn sep (n + 1) t = b :: l := by
  rw [splitn]
  refine ⟨?_, ?_⟩
  · intro h
    split at h
    · simp at h
    · rename_i a' t hs
      rw [List.cons.injEq] at h
      obtain ⟨rfl, ht⟩ := h
      obtain ⟨rfl, ha⟩ := splitOnce_eq_some_iff.mp hs
      exact ⟨t, rfl, ha, ht⟩
  · rintro ⟨t, rfl, ha, ht⟩
    rw [splitOnce_append_cons ha]
    exact congrArg (a :: ·) ht

@[simp] theorem splitn_one (s : List α) : splitn sep 1 s = [s] := rfl

/-! ## All cuts

`List.splitOn` cuts at every separator. -/

theorem not_mem_of_mem_splitOn {s l : List α} (h : l ∈ s.splitOn sep) : sep ∉ l := by
  induction s generalizing l with
  | nil => simp_all
  | cons y s ih =>
    rw [List.splitOn_cons_eq_if_modifyHead] at h
    split at h
    · rcases List.mem_cons.mp h with rfl | h
      · simp
      · exact ih h
    · rename_i hy
      obtain ⟨z, zs, hz⟩ := List.exists_cons_of_ne_nil (List.splitOn_ne_nil sep s)
      rw [hz, List.modifyHead_cons] at h
      rw [hz] at ih
      rcases List.mem_cons.mp h with rfl | h
      · rw [List.mem_cons, not_or]
        exact ⟨fun he ↦ hy (by simp [he]), ih List.mem_cons_self⟩
      · exact ih (List.mem_cons_of_mem _ h)

variable (sep) in
theorem splitOn_inj {s t : List α} : s.splitOn sep = t.splitOn sep ↔ s = t := by
  refine ⟨fun h ↦ ?_, congrArg _⟩
  calc s = [sep].intercalate (s.splitOn sep) := (List.intercalate_splitOn sep).symm
    _ = [sep].intercalate (t.splitOn sep) := by rw [h]
    _ = t := List.intercalate_splitOn sep

/-- A map that keeps the separator, and makes no others, maps each piece. -/
theorem splitOn_map {f : α → α} (hf : ∀ x, f x = sep ↔ x = sep) (s : List α) :
    (s.map f).splitOn sep = (s.splitOn sep).map (List.map f) := by
  induction s with
  | nil => rfl
  | cons x s ih =>
    rw [List.map_cons, List.splitOn_cons_eq_if_modifyHead, List.splitOn_cons_eq_if_modifyHead]
    simp only [beq_iff_eq, hf, ih]
    split
    · rfl
    · cases s.splitOn sep <;> rfl

/-- **The last pieces of a list** are those of a list that it ends with, after a separator or as a
whole. -/
theorem splitOn_isSuffix_iff {s t : List α} :
    t.splitOn sep <:+ s.splitOn sep ↔ s = t ∨ sep :: t <:+ s := by
  refine ⟨?_, ?_⟩
  · rintro ⟨pre, hpre⟩
    cases hnil : pre with
    | nil =>
      rw [hnil, List.nil_append] at hpre
      exact .inl ((splitOn_inj sep).mp hpre.symm)
    | cons l ls =>
      have hne : pre ≠ [] := hnil ▸ List.cons_ne_nil l ls
      have hfree : ∀ l ∈ pre, sep ∉ l := fun l hl ↦
        not_mem_of_mem_splitOn (hpre ▸ List.mem_append_left _ hl)
      refine .inr ⟨[sep].intercalate pre, (splitOn_inj sep).mp ?_⟩
      rw [List.splitOn_append_cons_self, List.splitOn_intercalate sep hfree hne, hpre]
  · rintro (rfl | ⟨a, rfl⟩)
    · exact List.suffix_refl _
    · rw [List.splitOn_append_cons_self]
      exact List.suffix_append _ _

/-! ## A given beginning -/

/-- What follows `pat` in a list that begins with it. -/
def stripPrefix (pat s : List α) : Option (List α) :=
  if pat <+: s then some (s.drop pat.length) else none

theorem stripPrefix_append (pat s : List α) : stripPrefix pat (pat ++ s) = some s := by
  rw [stripPrefix, if_pos (List.prefix_append pat s), List.drop_left]

theorem stripPrefix_eq_some_iff {pat s t : List α} : stripPrefix pat s = some t ↔ s = pat ++ t := by
  refine ⟨?_, ?_⟩
  · intro h
    rw [stripPrefix] at h
    split at h
    · rename_i hp
      obtain ⟨u, rfl⟩ := hp
      rw [List.drop_left, Option.some_inj] at h
      rw [h]
    · exact absurd h (by simp)
  · rintro rfl
    exact stripPrefix_append pat t

end Split
