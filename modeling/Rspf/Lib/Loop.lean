import Mathlib.Data.List.Basic

/-!
# Loops that stop at the first error

A loop over a list that may fail at each element is `List.foldlM` in `Except ε`.  Often whether and
how a turn fails only depends on the element, not on what was accumulated before it; `fault a e`
says so, that the element `a` fails with `e`.  Then the loop fails with the error of the first
element at fault (`Loop.foldlM_eq_error_iff`), and succeeds when there is none
(`Loop.exists_foldlM_eq_ok_iff`).

`Loop.foldlM_collects` is about what a loop that succeeds has accumulated: if each turn adds what
its element contributes, the loop adds what all of them do.  What "holds" means is left to the user,
as a relation between the accumulator and the things in it, so that the accumulator may be a record
of several collections.
-/

set_option autoImplicit false

namespace Loop

variable {ε α β σ : Type} {f : σ → α → Except ε σ} {fault : α → ε → Prop}

/-- The first element at fault has this error. -/
def FirstFault (fault : α → ε → Prop) (l : List α) (e : ε) : Prop :=
  ∃ (i : ℕ) (a : α), l[i]? = some a ∧
    (∀ j < i, ∀ b, l[j]? = some b → ∀ e', ¬ fault b e') ∧ fault a e

theorem not_firstFault_nil {e : ε} : ¬ FirstFault fault [] e := by
  rintro ⟨i, a, h, -⟩
  exact absurd h nofun

/-- The first element at fault is the head, or the head is not at fault and it is in the tail. -/
theorem firstFault_cons_iff {a : α} {l : List α} {e : ε} :
    FirstFault fault (a :: l) e ↔ fault a e ∨ (∀ e', ¬ fault a e') ∧ FirstFault fault l e := by
  refine ⟨?_, ?_⟩
  · rintro ⟨i, b, hb, hbefore, he⟩
    cases i with
    | zero =>
      obtain rfl := Option.some.inj hb
      exact .inl he
    | succ i =>
      refine .inr ⟨hbefore 0 (Nat.succ_pos i) a rfl, i, b, hb, fun j hj ↦ ?_, he⟩
      exact hbefore (j + 1) (Nat.succ_lt_succ hj)
  · rintro (he | ⟨hhead, i, b, hb, hbefore, he⟩)
    · exact ⟨0, a, rfl, fun j hj ↦ absurd hj (Nat.not_lt_zero j), he⟩
    · refine ⟨i + 1, b, hb, fun j hj c hc ↦ ?_, he⟩
      cases j with
      | zero => exact Option.some.inj hc ▸ hhead
      | succ j => exact hbefore j (Nat.lt_of_succ_lt_succ hj) c hc

/-- The error is that of some element. -/
theorem FirstFault.exists_mem {l : List α} {e : ε} (h : FirstFault fault l e) :
    ∃ a ∈ l, fault a e := by
  obtain ⟨i, a, ha, -, he⟩ := h
  exact ⟨a, List.mem_of_getElem? ha, he⟩

/-- If an element is at fault then there is a first one. -/
theorem exists_firstFault {l : List α} {a : α} {e : ε} (ha : a ∈ l) (h : fault a e) :
    ∃ e', FirstFault fault l e' := by
  induction l with
  | nil => exact absurd ha List.not_mem_nil
  | cons b l ih =>
    by_cases hb : ∃ e', fault b e'
    · obtain ⟨e', hb⟩ := hb
      exact ⟨e', firstFault_cons_iff.mpr (.inl hb)⟩
    · rcases List.mem_cons.mp ha with rfl | ha
      · exact absurd ⟨e, h⟩ hb
      · obtain ⟨e', he'⟩ := ih ha
        exact ⟨e', firstFault_cons_iff.mpr (.inr ⟨not_exists.mp hb, he'⟩)⟩

/-- In an enumerated list the first element at fault comes with its index. -/
theorem firstFault_zipIdx_iff {fault : α × ℕ → ε → Prop} {l : List α} {e : ε} :
    FirstFault fault l.zipIdx e ↔
      ∃ (i : ℕ) (a : α), l[i]? = some a ∧
        (∀ j < i, ∀ b, l[j]? = some b → ∀ e', ¬ fault (b, j) e') ∧ fault (a, i) e := by
  have hget : ∀ (i : ℕ) (p : α × ℕ), l.zipIdx[i]? = some p ↔ l[i]? = some p.1 ∧ p.2 = i := by
    rintro i ⟨a, k⟩
    rw [List.getElem?_zipIdx, Option.map_eq_some_iff]
    simp only [Prod.mk.injEq, Nat.zero_add]
    refine ⟨?_, ?_⟩
    · rintro ⟨b, hb, rfl, rfl⟩; exact ⟨hb, rfl⟩
    · rintro ⟨ha, rfl⟩; exact ⟨a, ha, rfl, rfl⟩
  refine ⟨?_, ?_⟩
  · rintro ⟨i, ⟨a, k⟩, ha, hbefore, he⟩
    obtain ⟨ha, rfl⟩ := (hget i _).mp ha
    exact ⟨k, a, ha, fun j hj b hb ↦ hbefore j hj (b, j) ((hget j _).mpr ⟨hb, rfl⟩), he⟩
  · rintro ⟨i, a, ha, hbefore, he⟩
    refine ⟨i, (a, i), (hget i _).mpr ⟨ha, rfl⟩, fun j hj p hp ↦ ?_, he⟩
    obtain ⟨hb, hk⟩ := (hget j p).mp hp
    obtain ⟨b, k⟩ := p
    obtain rfl : k = j := hk
    exact hbefore k hj b hb

/-! ## How a loop ends -/

/-- A loop ends with its first turn, or goes on from there. -/
theorem foldlM_cons_eq {a : α} {l : List α} {s : σ} :
    (a :: l).foldlM f s =
      match f s a with
      | .ok s' => l.foldlM f s'
      | .error e => .error e := by
  rw [List.foldlM_cons]
  cases f s a <;> rfl

/-- **A loop fails with the error of the first element at fault.** -/
theorem foldlM_eq_error_iff (hfault : ∀ s a e, f s a = .error e ↔ fault a e) {l : List α} {s : σ}
    {e : ε} : l.foldlM f s = .error e ↔ FirstFault fault l e := by
  induction l generalizing s with
  | nil => exact iff_of_false nofun not_firstFault_nil
  | cons a l ih =>
    rw [foldlM_cons_eq, firstFault_cons_iff]
    cases h : f s a with
    | ok s' =>
      have hnone : ∀ e', ¬ fault a e' := fun e' he' ↦ by
        rw [(hfault s a e').mpr he'] at h
        exact absurd h nofun
      refine (ih (s := s')).trans ⟨fun h ↦ .inr ⟨hnone, h⟩, ?_⟩
      rintro (h | h)
      · exact absurd h (hnone e)
      · exact h.2
    | error e' =>
      have he' := (hfault s a e').mp h
      refine ⟨?_, ?_⟩
      · intro heq
        exact .inl (Except.error.inj heq ▸ he')
      · rintro (h' | h')
        · exact h.symm.trans ((hfault s a e).mpr h')
        · exact absurd he' (h'.1 e')

/-- **A loop succeeds when no element is at fault.** -/
theorem exists_foldlM_eq_ok_iff (hfault : ∀ s a e, f s a = .error e ↔ fault a e) {l : List α}
    {s : σ} : (∃ s', l.foldlM f s = .ok s') ↔ ∀ a ∈ l, ∀ e, ¬ fault a e := by
  induction l generalizing s with
  | nil => exact iff_of_true ⟨s, rfl⟩ nofun
  | cons a l ih =>
    rw [foldlM_cons_eq, List.forall_mem_cons]
    cases h : f s a with
    | ok s' =>
      refine (ih (s := s')).trans ⟨fun hl ↦ ⟨fun e he ↦ ?_, hl⟩, And.right⟩
      rw [(hfault s a e).mpr he] at h
      exact absurd h nofun
    | error e =>
      exact iff_of_false (by simp) fun hall ↦ hall.1 e ((hfault s a e).mp h)

/-! ## What a loop collects -/

/-- **A loop whose turns collect things collects what its elements contribute.** -/
theorem foldlM_collects {P : σ → β → Prop} {contributes : α → β → Prop}
    (hturn : ∀ s a s', f s a = .ok s' → ∀ b, P s' b ↔ P s b ∨ contributes a b)
    {l : List α} {s s' : σ} (h : l.foldlM f s = .ok s') (b : β) :
    P s' b ↔ P s b ∨ ∃ a ∈ l, contributes a b := by
  induction l generalizing s with
  | nil =>
    obtain rfl := Except.ok.inj h
    simp
  | cons a l ih =>
    rw [foldlM_cons_eq] at h
    cases hf : f s a with
    | error e => rw [hf] at h; exact absurd h nofun
    | ok t =>
      rw [hf] at h
      rw [ih h, hturn s a t hf b, or_assoc, List.exists_mem_cons_iff]

end Loop
