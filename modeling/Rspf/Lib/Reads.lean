import Mathlib.Data.List.Basic

/-!
# Reading a cell several times

A cell is changed while somebody reads it, several times and without a lock.  If `held i` is what
the cell holds after `i` changes, then all that is known of the values `vs` that were read is
`Reads held lo hi vs`: they were held at moments between `lo` and `hi`, in this order.

This is what an interleaving leaves to be said once its steps are forgotten.  It grows at both ends,
by a further change (`Reads.mono`) and by a further read (`Reads.concat`), so an invariant that
contains it is easily kept.
-/

set_option autoImplicit false

variable {α : Type}

/-- The values are read one after the other, not before `lo` and not after `hi`, of a cell that
holds `held i` after `i` changes. -/
inductive Reads (held : ℕ → Option α) (hi : ℕ) : ℕ → List α → Prop where
  | nil {lo : ℕ} : lo ≤ hi → Reads held hi lo []
  | cons {lo i : ℕ} {v : α} {vs : List α} : lo ≤ i → held i = some v → Reads held hi i vs →
      Reads held hi lo (v :: vs)

namespace Reads

variable {held held' : ℕ → Option α} {lo hi hi' : ℕ} {u v w : α} {vs : List α}

theorem le (h : Reads held hi lo vs) : lo ≤ hi := by
  induction h with
  | nil h => exact h
  | cons hlo _ _ ih => exact Nat.le_trans hlo ih

/-- Time goes on, and what was held stays known. -/
theorem mono (hle : hi ≤ hi') (hheld : ∀ i v, held i = some v → held' i = some v)
    (h : Reads held hi lo vs) : Reads held' hi' lo vs := by
  induction h with
  | nil h => exact .nil (Nat.le_trans h hle)
  | cons hlo hv _ ih => exact .cons hlo (hheld _ _ hv) ih

/-- **What is read now comes last.** -/
theorem concat (hv : held hi = some v) (h : Reads held hi lo vs) :
    Reads held hi lo (vs ++ [v]) := by
  induction h with
  | nil h => exact .cons h hv (.nil (Nat.le_refl hi))
  | cons hlo hu _ ih => exact .cons hlo hu ih

/-- Everything that is read was held at some moment. -/
theorem exists_of_mem (h : Reads held hi lo vs) (hv : v ∈ vs) :
    ∃ i, lo ≤ i ∧ i ≤ hi ∧ held i = some v := by
  induction h with
  | nil => exact absurd hv List.not_mem_nil
  | cons hlo hu hvs ih =>
    rcases List.mem_cons.mp hv with rfl | hv
    · exact ⟨_, hlo, hvs.le, hu⟩
    · obtain ⟨i, hi, hle, hheld⟩ := ih hv
      exact ⟨i, Nat.le_trans hlo hi, hle, hheld⟩

/-- **While nothing changes, everybody reads the same.** -/
theorem eq_of_mem (h : Reads held lo lo vs) (hv : v ∈ vs) : held lo = some v := by
  obtain ⟨i, hlo, hhi, hheld⟩ := h.exists_of_mem hv
  obtain rfl := Nat.le_antisymm hhi hlo
  exact hheld

theorem three_iff : Reads held hi lo [u, v, w] ↔
    ∃ i j k, lo ≤ i ∧ i ≤ j ∧ j ≤ k ∧ k ≤ hi ∧
      held i = some u ∧ held j = some v ∧ held k = some w := by
  refine ⟨?_, ?_⟩
  · rintro (_ | ⟨hi, hu, _ | ⟨hj, hv, _ | ⟨hk, hw, _ | hle⟩⟩⟩)
    exact ⟨_, _, _, hi, hj, hk, ‹_›, hu, hv, hw⟩
  · rintro ⟨i, j, k, hi, hj, hk, hle, hu, hv, hw⟩
    exact .cons hi hu (.cons hj hv (.cons hk hw (.nil hle)))

end Reads
