import Mathlib.Data.List.Basic

/-!
# Cutting a byte stream into frames, chunk by chunk

A stream protocol delimits its messages inside the stream; the transport delivers the stream in
pieces of its own choosing.  A `Framing.Framer` is what the two have to agree on: a function `cut`
taking the first frame off a buffer, subject to two conditions.

* `cut_append` — a frame that is complete does not change when more input arrives after it;
* `length_lt` — a frame takes something with it.

From these two it follows that reading a frame from a buffer that is refilled chunk by chunk
(`Framer.pull`) is cutting the whole stream once (`Framer.pull_eq_cut`), for every way of cutting
the stream into chunks.  `Framer.frames` is the list of all the frames of a stream.

`Framing.cutAt pat` cuts at the first occurrence of a terminator `pat`, and `Framing.terminated`
is the framer it gives.
-/

set_option autoImplicit false

namespace Framing

variable {α β : Type}

/-- A way of taking the first frame off a buffer, stable under input that arrives later. -/
structure Framer (α β : Type) where
  /-- The first frame and what comes after it, once the frame is complete. -/
  cut : List α → Option (β × List α)
  /-- Later input does not change a complete frame. -/
  cut_append : ∀ {b x r}, cut b = some (x, r) → ∀ s, cut (b ++ s) = some (x, r ++ s)
  /-- A frame takes something with it. -/
  length_lt : ∀ {b x r}, cut b = some (x, r) → r.length < b.length

namespace Framer

variable (F : Framer α β)

/-- All the frames of a stream, an unfinished one at the end not counted. -/
def frames (s : List α) : List β :=
  match hs : F.cut s with
  | none => []
  | some (x, r) =>
    have : r.length < s.length := F.length_lt hs
    x :: frames r
termination_by s.length

theorem frames_of_cut_eq_none {s : List α} (h : F.cut s = none) : F.frames s = [] := by
  rw [frames]
  split
  · rfl
  · rename_i h'; exact absurd (h.symm.trans h') (by simp)

theorem frames_of_cut_eq_some {s r : List α} {x : β} (h : F.cut s = some (x, r)) :
    F.frames s = x :: F.frames r := by
  rw [frames]
  split
  · rename_i h'; exact absurd (h'.symm.trans h) (by simp)
  · rename_i y t h'
    rw [h, Option.some_inj, Prod.mk.injEq] at h'
    rw [h'.1, h'.2]

/-- Read one frame: from the buffer if it holds one, and else after appending the next chunk.
`none` means that the chunks ran out first. -/
def pull : List (List α) → List α → Option (β × List α × List (List α))
  | [], buf => (F.cut buf).map fun p ↦ (p.1, p.2, [])
  | c :: cs, buf =>
    match F.cut buf with
    | some (x, r) => some (x, r, c :: cs)
    | none => pull cs (buf ++ c)

/-- **Reading chunk by chunk is cutting the whole stream.** -/
theorem pull_eq_cut (cs : List (List α)) (buf : List α) :
    (F.pull cs buf).map (fun p ↦ (p.1, p.2.1 ++ p.2.2.flatten)) = F.cut (buf ++ cs.flatten) := by
  induction cs generalizing buf with
  | nil => cases h : F.cut buf <;> simp [pull, h]
  | cons c cs ih =>
    rw [pull]
    split
    · rename_i x r h
      rw [F.cut_append h]
      rfl
    · rw [ih, List.flatten_cons, List.append_assoc]

end Framer

/-! ## Terminated frames -/

variable [DecidableEq α] {pat : List α}

/-- What stands before the first occurrence of `pat`, and what stands after it. -/
def cutAt (pat : List α) : List α → Option (List α × List α)
  | [] => if pat = [] then some ([], []) else none
  | x :: s =>
    if pat <+: x :: s then some ([], (x :: s).drop pat.length)
    else (cutAt pat s).map fun p ↦ (x :: p.1, p.2)

theorem cutAt_of_isPrefix {s : List α} (h : pat <+: s) :
    cutAt pat s = some ([], s.drop pat.length) := by
  cases s with
  | nil =>
    obtain rfl : pat = [] := List.prefix_nil.mp h
    rfl
  | cons x s => rw [cutAt, if_pos h]

theorem cutAt_cons {x : α} {s : List α} (h : ¬ pat <+: x :: s) :
    cutAt pat (x :: s) = (cutAt pat s).map fun p ↦ (x :: p.1, p.2) := by
  rw [cutAt, if_neg h]

/-- The pieces make up the input. -/
theorem eq_of_cutAt_eq_some {s a b : List α} (h : cutAt pat s = some (a, b)) :
    s = a ++ pat ++ b := by
  induction s generalizing a with
  | nil =>
    rw [cutAt] at h
    split at h
    · rename_i hp
      rw [Option.some_inj, Prod.mk.injEq] at h
      simp [hp, ← h.1, ← h.2]
    · exact absurd h (by simp)
  | cons x s ih =>
    rw [cutAt] at h
    split at h
    · rename_i hp
      rw [Option.some_inj, Prod.mk.injEq] at h
      obtain ⟨t, ht⟩ := hp
      rw [← h.1, ← h.2, ← ht, List.nil_append, List.drop_left]
    · obtain ⟨⟨a', b'⟩, hs, he⟩ := Option.map_eq_some_iff.mp h
      rw [Prod.mk.injEq] at he
      obtain ⟨rfl, rfl⟩ := he
      rw [ih hs]
      rfl

/-- `none` means that the terminator does not occur. -/
theorem cutAt_eq_none_iff {s : List α} : cutAt pat s = none ↔ ¬ pat <:+: s := by
  induction s with
  | nil => rw [cutAt, List.infix_nil]; split <;> simp [*]
  | cons x s ih =>
    rw [List.infix_cons_iff, not_or]
    by_cases h : pat <+: x :: s
    · simp [cutAt_of_isPrefix h, h]
    · rw [cutAt_cons h, Option.map_eq_none_iff, ih]
      simp [h]

theorem cutAt_append {s a b : List α} (h : cutAt pat s = some (a, b)) (t : List α) :
    cutAt pat (s ++ t) = some (a, b ++ t) := by
  induction s generalizing a with
  | nil =>
    rw [cutAt] at h
    split at h
    · rename_i hp
      rw [Option.some_inj, Prod.mk.injEq] at h
      subst hp
      rw [cutAt_of_isPrefix (List.nil_prefix), ← h.1, ← h.2]
      rfl
    · exact absurd h (by simp)
  | cons x s ih =>
    by_cases hp : pat <+: x :: s
    · rw [cutAt_of_isPrefix hp, Option.some_inj, Prod.mk.injEq] at h
      rw [cutAt_of_isPrefix (hp.trans (List.prefix_append _ _)),
        List.drop_append_of_le_length hp.length_le, h.1, h.2]
    · rw [cutAt_cons hp] at h
      obtain ⟨⟨a', b'⟩, hs, he⟩ := Option.map_eq_some_iff.mp h
      rw [Prod.mk.injEq] at he
      obtain ⟨rfl, rfl⟩ := he
      -- an occurrence at the front of `x :: s ++ t` would fit into `x :: s`, which already has
      -- room for the one found in `s`
      have hno : ¬ pat <+: x :: (s ++ t) := by
        intro hpt
        have hlen : pat.length ≤ (x :: s).length := by
          rw [eq_of_cutAt_eq_some hs]
          simp only [List.length_cons, List.length_append]
          omega
        exact hp (List.prefix_of_prefix_length_le hpt (List.prefix_append (x :: s) t) hlen)
      rw [List.cons_append, cutAt_cons hno, ih hs]
      rfl

/-- The framer of a protocol that ends each message with `pat`. -/
def terminated (pat : List α) (hpat : pat ≠ []) : Framer α (List α) where
  cut := cutAt pat
  cut_append h s := cutAt_append h s
  length_lt h := by
    have hpos : 0 < pat.length := List.length_pos_iff.mpr hpat
    rw [eq_of_cutAt_eq_some h]
    simp only [List.length_append]
    omega

/-- A stream is its frames, each followed by the terminator, and a rest in which the terminator does
not occur. -/
theorem exists_eq_frames_append (hpat : pat ≠ []) (s : List α) :
    ∃ tail, s = ((terminated pat hpat).frames s).flatMap (· ++ pat) ++ tail ∧ ¬ pat <:+: tail := by
  match h : (terminated pat hpat).cut s with
  | none => exact ⟨s, by rw [Framer.frames_of_cut_eq_none _ h]; rfl, cutAt_eq_none_iff.mp h⟩
  | some (x, r) =>
    have hlt : r.length < s.length := (terminated pat hpat).length_lt h
    obtain ⟨tail, hr, htail⟩ := exists_eq_frames_append hpat r
    refine ⟨tail, ?_, htail⟩
    rw [Framer.frames_of_cut_eq_some _ h, List.flatMap_cons, List.append_assoc, ← hr]
    exact eq_of_cutAt_eq_some h
termination_by s.length

/-! ## Blocks of lines

A block is a list of lines, and an empty line ends it: the terminator is the line break, twice. -/

section

variable {nl : α}

theorem cutAt_append_of_not_mem {l : List α} (h : nl ∉ l) (p s : List α) :
    cutAt (nl :: p) (l ++ s) = (cutAt (nl :: p) s).map fun q ↦ (l ++ q.1, q.2) := by
  induction l with
  | nil => simp
  | cons x l ih =>
    rw [List.mem_cons, not_or] at h
    have hno : ¬ nl :: p <+: x :: (l ++ s) := by
      rw [List.cons_prefix_cons, not_and]
      intro he
      exact absurd he h.1
    rw [List.cons_append, cutAt_cons hno, ih h.2, Option.map_map]
    rfl

/-- A block of non-empty lines is cut off whole. -/
theorem cutAt_intercalate {ls : List (List α)} (hne : ls ≠ [])
    (h : ∀ l ∈ ls, l ≠ [] ∧ nl ∉ l) (s : List α) :
    cutAt [nl, nl] ([nl].intercalate ls ++ nl :: nl :: s) = some ([nl].intercalate ls, s) := by
  induction ls with
  | nil => exact absurd rfl hne
  | cons l ls ih =>
    rw [List.forall_mem_cons] at h
    cases ls with
    | nil =>
      have hend : cutAt [nl, nl] (nl :: nl :: s) = some ([], s) := cutAt_of_isPrefix ⟨s, rfl⟩
      rw [List.intercalate_singleton, cutAt_append_of_not_mem h.1.2, hend]
      simp
    | cons l' ls =>
      obtain ⟨x, t, rfl⟩ := List.exists_cons_of_ne_nil (h.2 l' (by simp)).1
      have hx : nl ≠ x := fun he ↦ (h.2 _ (List.mem_cons_self)).2 (he ▸ List.mem_cons_self)
      have ih := ih (by simp) h.2
      obtain ⟨u, hu⟩ : ∃ u, [nl].intercalate ((x :: t) :: ls) = x :: u := by
        cases ls with
        | nil => exact ⟨t, List.intercalate_singleton⟩
        | cons l'' ls => exact ⟨_, List.intercalate_cons_cons⟩
      rw [List.intercalate_cons_cons, List.append_assoc, List.append_assoc,
        cutAt_append_of_not_mem h.1.2]
      rw [hu] at ih ⊢
      have hno : ¬ [nl, nl] <+: nl :: (x :: u ++ nl :: nl :: s) := by
        simp [List.cons_prefix_cons, hx]
      rw [List.singleton_append, cutAt_cons hno, ih]
      simp

end

end Framing
