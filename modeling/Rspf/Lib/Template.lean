import Mathlib.Data.List.Induction
import Mathlib.Logic.Function.Basic
import Rspf.Lib.Replace

/-!
# Templates

A template is a list in which placeholders stand for the values of some fields.  `tokens` finds
them, from left to right, and `fill` puts a text in the place of each: with the placeholders
themselves it gives the template back (`fill_tokens`), and with the values of the fields it is what
a template is for, the substitution of all fields at once.

A template can also be filled in one field at a time, by replacing its placeholder.  This is not the
same, since a later placeholder may be found in an earlier value, or across the end of one
(`Stray`).  `replace_fill_iff` says that one replacement goes right exactly when there is no such
placeholder, and `replaceEach_fill_iff` says it of a series of replacements.

All placeholders begin with a mark, such as a brace, that occurs nowhere else in them.
-/

set_option autoImplicit false

namespace Template

variable {α ι : Type}

/-- A part of a template. -/
inductive Token (α ι : Type) where
  | lit (x : α)
  | field (i : ι)

/-- What a token becomes. -/
def Token.text (w : ι → List α) : Token α ι → List α
  | lit x => [x]
  | field i => w i

/-- Put these texts in the place of the fields. -/
def fill (w : ι → List α) (ts : List (Token α ι)) : List α := ts.flatMap (Token.text w)

variable {w : ι → List α}

@[simp] theorem fill_nil : fill w [] = [] := rfl

@[simp] theorem fill_cons (t : Token α ι) (ts : List (Token α ι)) :
    fill w (t :: ts) = t.text w ++ fill w ts := rfl

theorem fill_append (ts us : List (Token α ι)) : fill w (ts ++ us) = fill w ts ++ fill w us :=
  List.flatMap_append

theorem fill_map_lit (l : List α) : fill w (l.map .lit) = l := by
  induction l with
  | nil => rfl
  | cons x l ih => rw [List.map_cons, fill_cons, ih]; rfl

/-- Only the fields that are mentioned matter. -/
theorem fill_congr {w w' : ι → List α} {ts : List (Token α ι)}
    (h : ∀ i, .field i ∈ ts → w i = w' i) : fill w ts = fill w' ts := by
  induction ts with
  | nil => rfl
  | cons t ts ih =>
    have ht : t.text w = t.text w' := by
      cases t with
      | lit x => rfl
      | field i => exact h i List.mem_cons_self
    rw [fill_cons, fill_cons, ht, ih fun i hi ↦ h i (List.mem_cons_of_mem t hi)]

/-- What is neither in the template nor in a value is not in the text. -/
theorem not_mem_fill {x : α} {ts : List (Token α ι)} (hlit : .lit x ∉ ts)
    (hfield : ∀ i, .field i ∈ ts → x ∉ w i) : x ∉ fill w ts := by
  rw [fill, List.mem_flatMap]
  rintro ⟨t, ht, hx⟩
  cases t with
  | lit y => exact hlit (List.mem_singleton.mp hx ▸ ht)
  | field i => exact hfield i ht hx

/-! ## Finding the placeholders -/

section Tokens

variable [DecidableEq α] {placeholder : ι → List α} {fields : List ι}

/-- `tokens`, with the number of elements of the last placeholder that are still to be skipped. -/
def tokensFrom (placeholder : ι → List α) (fields : List ι) : ℕ → List α → List (Token α ι)
  | _, [] => []
  | n + 1, _ :: s => tokensFrom placeholder fields n s
  | 0, x :: s =>
    match fields.find? fun i ↦ decide (placeholder i <+: x :: s) with
    | some i => .field i :: tokensFrom placeholder fields ((placeholder i).length - 1) s
    | none => .lit x :: tokensFrom placeholder fields 0 s

/-- The tokens of a template. -/
def tokens (placeholder : ι → List α) (fields : List ι) (s : List α) : List (Token α ι) :=
  tokensFrom placeholder fields 0 s

theorem tokensFrom_eq (n : ℕ) (s : List α) :
    tokensFrom placeholder fields n s = tokens placeholder fields (s.drop n) := by
  induction s generalizing n with
  | nil => cases n <;> rfl
  | cons x s ih =>
    cases n with
    | zero => rfl
    | succ n => rw [tokensFrom, ih, List.drop_succ_cons]

/-- **With its placeholders a template is what it was.** -/
theorem fill_tokens (hne : ∀ i, placeholder i ≠ []) (s : List α) :
    fill placeholder (tokens placeholder fields s) = s := by
  induction hn : s.length using Nat.strongRecOn generalizing s with
  | ind n ih =>
    cases s with
    | nil => rfl
    | cons x s =>
      rw [List.length_cons] at hn
      rw [tokens, tokensFrom]
      split
      · rename_i i hfind
        have hpre : placeholder i <+: x :: s := by simpa using List.find?_some hfind
        obtain ⟨y, q, hq⟩ := List.exists_cons_of_ne_nil (hne i)
        rw [hq, List.cons_prefix_cons] at hpre
        obtain ⟨rfl, t, rfl⟩ := hpre
        rw [List.length_append] at hn
        rw [tokensFrom_eq, hq, List.length_cons, Nat.add_sub_cancel, List.drop_left, fill_cons,
          ih t.length (by omega) t rfl, Token.text, hq, List.cons_append]
      · rw [tokensFrom_eq, List.drop_zero, fill_cons, ih s.length (by omega) s rfl]
        rfl

/-- A placeholder at the front is found. -/
theorem tokens_placeholder {i : ι} {s : List α} (hne : placeholder i ≠ [])
    (hfind : fields.find? (fun j ↦ decide (placeholder j <+: placeholder i ++ s)) = some i) :
    tokens placeholder fields (placeholder i ++ s) =
      .field i :: tokens placeholder fields s := by
  obtain ⟨x, q, hq⟩ := List.exists_cons_of_ne_nil hne
  rw [hq, List.cons_append] at hfind
  rw [tokens, hq, List.cons_append, tokensFrom, hfind]
  dsimp only
  rw [tokensFrom_eq, hq, List.length_cons, Nat.add_sub_cancel, List.drop_left]

/-- Text in which no placeholder starts stands for itself. -/
theorem tokens_append {l s : List α}
    (h : ∀ i ∈ fields, ¬ Replace.StartsIn (placeholder i) l s) :
    tokens placeholder fields (l ++ s) = l.map .lit ++ tokens placeholder fields s := by
  induction l with
  | nil => rfl
  | cons x l ih =>
    have hnone : fields.find? (fun i ↦ decide (placeholder i <+: x :: (l ++ s))) = none := by
      rw [List.find?_eq_none]
      intro i hi
      rw [decide_eq_true_eq]
      exact fun hpre ↦ h i hi (Replace.startsIn_cons_iff.mpr (.inl hpre))
    rw [List.cons_append, tokens, tokensFrom, hnone]
    dsimp only
    rw [tokensFrom_eq, List.drop_zero, List.map_cons, List.cons_append,
      ih fun i hi hstart ↦ h i hi (Replace.startsIn_cons_iff.mpr (.inr hstart))]

end Tokens

/-! ## One field -/

section Field

variable [DecidableEq α] [DecidableEq ι] {mark : α} {q : List α} {k : ι} {v : List α}
  {ts : List (Token α ι)}

/-- A placeholder is read where the template has none: it starts in an element, or in the text of
another field. -/
def Stray (w : ι → List α) (pat : List α) (k : ι) (ts : List (Token α ι)) : Prop :=
  ∃ before t after, ts = before ++ t :: after ∧ t ≠ .field k ∧
    Replace.StartsIn pat (t.text w) (fill w after)

omit [DecidableEq α] [DecidableEq ι] in
theorem not_stray_nil {pat : List α} : ¬ Stray w pat k [] := by
  rintro ⟨before, t, after, h, -⟩
  exact absurd h (by simp)

omit [DecidableEq α] [DecidableEq ι] in
theorem stray_cons_iff {pat : List α} {t : Token α ι} :
    Stray w pat k (t :: ts) ↔
      t ≠ .field k ∧ Replace.StartsIn pat (t.text w) (fill w ts) ∨ Stray w pat k ts := by
  refine ⟨?_, ?_⟩
  · rintro ⟨before, u, after, h, hu, hstart⟩
    rcases List.cons_eq_append_iff.mp h with ⟨rfl, h⟩ | ⟨before, rfl, rfl⟩
    · obtain ⟨rfl, rfl⟩ := List.cons.inj h
      exact .inl ⟨hu, hstart⟩
    · exact .inr ⟨before, u, after, rfl, hu, hstart⟩
  · rintro (⟨ht, hstart⟩ | ⟨before, u, after, rfl, hu, hstart⟩)
    · exact ⟨[], t, ts, rfl, ht, hstart⟩
    · exact ⟨t :: before, u, after, rfl, hu, hstart⟩

/-- How often a field is mentioned. -/
def mentions (k : ι) : List (Token α ι) → ℕ
  | [] => 0
  | .lit _ :: ts => mentions k ts
  | .field i :: ts => mentions k ts + if i = k then 1 else 0

omit [DecidableEq α] in
/-- Replacing leaves the other tokens alone. -/
theorem text_update {t : Token α ι} (ht : t ≠ .field k) :
    t.text (Function.update w k v) = t.text w := by
  cases t with
  | lit x => rfl
  | field i =>
    have hik : i ≠ k := fun h ↦ ht (congrArg Token.field h)
    exact Function.update_of_ne hik v w

omit [DecidableEq α] in
theorem mentions_cons_of_ne {t : Token α ι} (ht : t ≠ .field k) :
    mentions k (t :: ts) = mentions k ts := by
  cases t with
  | lit x => rfl
  | field i => rw [mentions, if_neg fun h ↦ ht (congrArg Token.field h), Nat.add_zero]

/-- **A placeholder occurs as often as its field is mentioned just if it is not read elsewhere.** -/
theorem mentions_le_occurrences (hq : mark ∉ q) (hk : w k = mark :: q)
    (ts : List (Token α ι)) :
    mentions k ts ≤ Replace.occurrences (mark :: q) (fill w ts) ∧
      (Replace.occurrences (mark :: q) (fill w ts) = mentions k ts ↔
        ¬ Stray w (mark :: q) k ts) := by
  induction ts with
  | nil => exact ⟨Nat.le_refl 0, iff_of_true rfl not_stray_nil⟩
  | cons t ts ih =>
    obtain ⟨hle, hiff⟩ := ih
    rw [stray_cons_iff, fill_cons]
    by_cases ht : t = .field k
    · subst ht
      have hocc := Replace.occurrences_marked_append hq (fill w ts)
      rw [Token.text, hk, hocc, mentions, if_pos rfl]
      refine ⟨by omega, ?_⟩
      rw [Nat.add_right_cancel_iff, hiff]
      simp
    · obtain ⟨hle', hiff'⟩ := Replace.occurrences_append (mark :: q) (t.text w) (fill w ts)
      rw [mentions_cons_of_ne ht, not_or, ← hiff]
      refine ⟨by omega, fun h ↦ ⟨fun hstart ↦ ?_, by omega⟩, fun h ↦ ?_⟩
      · exact hiff'.mp (by omega) hstart.2
      · rw [hiff'.mpr fun hstart ↦ h.1 ⟨ht, hstart⟩, h.2]

omit [DecidableEq α] in
theorem length_fill_update (ts : List (Token α ι)) :
    (fill (Function.update w k v) ts).length + mentions k ts * (w k).length =
      (fill w ts).length + mentions k ts * v.length := by
  induction ts with
  | nil => rw [mentions, Nat.zero_mul, Nat.zero_mul, fill_nil, fill_nil]
  | cons t ts ih =>
    rw [fill_cons, fill_cons, List.length_append, List.length_append]
    by_cases ht : t = .field k
    · subst ht
      rw [Token.text, Token.text, Function.update_self, mentions, if_pos rfl, Nat.add_mul,
        Nat.add_mul]
      omega
    · rw [text_update ht, mentions_cons_of_ne ht]
      omega

omit [DecidableEq α] in
/-- The rest of a placeholder cannot reach into another one. -/
theorem isPrefix_fill_update (hk : w k = mark :: q) {r l : List α} (hr : mark ∉ r)
    (h : r <+: l ++ fill w ts) : r <+: l ++ fill (Function.update w k v) ts := by
  induction ts generalizing r l with
  | nil => exact h
  | cons t ts ih =>
    induction l generalizing r with
    | nil =>
      rw [List.nil_append, fill_cons] at h ⊢
      by_cases ht : t = .field k
      · subst ht
        rw [Token.text, hk, List.cons_append] at h
        rcases List.prefix_cons_iff.mp h with rfl | ⟨r, rfl, -⟩
        · exact List.nil_prefix
        · exact absurd List.mem_cons_self hr
      · rw [text_update ht]
        exact ih hr h
    | cons x l ihl =>
      rw [List.cons_append] at h ⊢
      rcases List.prefix_cons_iff.mp h with rfl | ⟨r, rfl, hrest⟩
      · exact List.nil_prefix
      · rw [List.cons_prefix_cons]
        exact ⟨rfl, ihl (fun hm ↦ hr (List.mem_cons_of_mem x hm)) hrest⟩

/-- A value as long as the placeholder leaves a trace where it was put wrongly. -/
theorem not_stray_of_length_eq (hq : mark ∉ q) (hk : w k = mark :: q)
    (hlen : v.length = (mark :: q).length) (hv : v ≠ mark :: q)
    (h : Replace.replace (mark :: q) v (fill w ts) = fill (Function.update w k v) ts) :
    ¬ Stray w (mark :: q) k ts := by
  induction ts with
  | nil => exact not_stray_nil
  | cons t ts ih =>
    rw [fill_cons, fill_cons] at h
    by_cases ht : t = .field k
    · subst ht
      rw [Token.text, Token.text, Function.update_self, hk,
        Replace.replace_append (List.cons_ne_nil mark q), List.append_cancel_left_eq] at h
      rw [stray_cons_iff]
      simpa using ih h
    · rw [text_update ht] at h
      have hwalk : ¬ Replace.StartsIn (mark :: q) (t.text w) (fill w ts) ∧
          Replace.replace (mark :: q) v (fill w ts) = fill (Function.update w k v) ts := by
        generalize t.text w = l at h
        induction l with
        | nil => exact ⟨Replace.not_startsIn_nil _, h⟩
        | cons x l ihl =>
          rw [List.cons_append, List.cons_append] at h
          by_cases hpre : mark :: q <+: x :: (l ++ fill w ts)
          · obtain ⟨rest, hrest⟩ := hpre
            rw [← hrest, Replace.replace_append (List.cons_ne_nil mark q)] at h
            rw [List.cons_append, List.cons.injEq] at hrest
            obtain ⟨rfl, hrest⟩ := hrest
            obtain ⟨rest', hrest'⟩ := isPrefix_fill_update (v := v) hk hq ⟨rest, hrest⟩
            rw [← hrest', ← List.cons_append] at h
            exact absurd (List.append_inj_left h hlen) hv
          · rw [Replace.replace_cons hpre, List.cons.injEq] at h
            rw [Replace.startsIn_cons_iff, not_or]
            obtain ⟨hstart, hrest⟩ := ihl h.2
            exact ⟨⟨hpre, hstart⟩, hrest⟩
      rw [stray_cons_iff, not_or]
      exact ⟨fun hstart ↦ hwalk.1 hstart.2, ih hwalk.2⟩

/-- **When a replacement goes right**: if the placeholder is read only where the template has it, or
if it is replaced by itself. -/
theorem replace_fill_iff (hq : mark ∉ q) (hk : w k = mark :: q) :
    Replace.replace (mark :: q) v (fill w ts) = fill (Function.update w k v) ts ↔
      v = mark :: q ∨ ¬ Stray w (mark :: q) k ts := by
  refine ⟨?_, ?_⟩
  · intro h
    by_contra hno
    rw [not_or, not_not] at hno
    obtain ⟨hv, hstray⟩ := hno
    have hlen : v.length ≠ (mark :: q).length :=
      fun hlen ↦ not_stray_of_length_eq hq hk hlen hv h hstray
    obtain ⟨hle, hiff⟩ := mentions_le_occurrences hq hk ts
    have hne := mt hiff.mp (not_not.mpr hstray)
    have hreplaced := Replace.length_replace hq v (fill w ts)
    have hfilled := length_fill_update (w := w) (k := k) (v := v) ts
    rw [h] at hreplaced
    rw [hk] at hfilled
    obtain ⟨n, hn⟩ := Nat.exists_eq_add_of_lt (Nat.lt_of_le_of_ne hle (Ne.symm hne))
    have hcount : (n + 1) * (mark :: q).length = (n + 1) * v.length := by
      rw [hn, Nat.add_assoc, Nat.add_mul, Nat.add_mul _ _ v.length] at hreplaced
      omega
    exact hlen (Nat.eq_of_mul_eq_mul_left (Nat.succ_pos n) hcount).symm
  · rintro (rfl | hstray)
    · rw [Replace.replace_self (List.cons_ne_nil mark q), ← hk, Function.update_eq_self]
    · induction ts with
      | nil => rfl
      | cons t ts ih =>
        rw [stray_cons_iff, not_or] at hstray
        rw [fill_cons, fill_cons, ← ih hstray.2]
        by_cases ht : t = .field k
        · subst ht
          rw [Token.text, Token.text, Function.update_self, hk,
            Replace.replace_append (List.cons_ne_nil mark q)]
        · rw [text_update ht]
          exact Replace.replace_append_of_not_startsIn fun hstart ↦ hstray.1 ⟨ht, hstart⟩

end Field

/-! ## One field after the other -/

section Fields

variable [DecidableEq ι] {placeholder value : ι → List α} {done : List ι} {k : ι}

/-- The texts of the fields when these have been filled in. -/
def partly (placeholder value : ι → List α) (done : List ι) (i : ι) : List α :=
  if done.contains i then value i else placeholder i

theorem partly_of_mem (hk : k ∈ done) : partly placeholder value done k = value k :=
  if_pos (List.contains_iff_mem.mpr hk)

theorem partly_of_not_mem (hk : k ∉ done) : partly placeholder value done k = placeholder k :=
  if_neg fun h ↦ hk (List.contains_iff_mem.mp h)

theorem partly_concat :
    partly placeholder value (done ++ [k]) =
      Function.update (partly placeholder value done) k (value k) := by
  funext i
  by_cases hik : i = k
  · subst hik
    rw [Function.update_self, partly_of_mem (by simp)]
  · rw [Function.update_of_ne hik]
    by_cases hi : i ∈ done
    · rw [partly_of_mem hi, partly_of_mem (List.mem_append_left [k] hi)]
    · rw [partly_of_not_mem hi, partly_of_not_mem (by simp [hi, hik])]

theorem partly_eq_value (hall : ∀ i, i ∈ done) : partly placeholder value done = value :=
  funext fun i ↦ partly_of_mem (hall i)

variable [DecidableEq α]

/-- Replace the placeholders of these fields, one after the other. -/
def replaceEach (placeholder value : ι → List α) (fields : List ι) (s : List α) : List α :=
  fields.foldl (fun s k ↦ Replace.replace (placeholder k) (value k) s) s

omit [DecidableEq ι] in
theorem replaceEach_concat (fields : List ι) (k : ι) (s : List α) :
    replaceEach placeholder value (fields ++ [k]) s =
      Replace.replace (placeholder k) (value k) (replaceEach placeholder value fields s) :=
  List.foldl_concat ..

variable {mark : α} {fields : List ι} {ts : List (Token α ι)}

/-- **When a series of replacements goes right**, each of them: if no placeholder is read where the
template has none when it is its turn, or if it is replaced by itself. -/
theorem replaceEach_fill_iff (hmark : ∀ i, ∃ q, placeholder i = mark :: q ∧ mark ∉ q)
    (value : ι → List α) (hnodup : fields.Nodup) (ts : List (Token α ι)) :
    (∀ done rest, fields = done ++ rest →
      replaceEach placeholder value done (fill placeholder ts) =
        fill (partly placeholder value done) ts) ↔
      ∀ done k rest, fields = done ++ k :: rest → value k = placeholder k ∨
        ¬ Stray (partly placeholder value done) (placeholder k) k ts := by
  have hstep : ∀ done k rest, fields = done ++ k :: rest →
      replaceEach placeholder value done (fill placeholder ts) =
        fill (partly placeholder value done) ts →
      (replaceEach placeholder value (done ++ [k]) (fill placeholder ts) =
          fill (partly placeholder value (done ++ [k])) ts ↔
        value k = placeholder k ∨
          ¬ Stray (partly placeholder value done) (placeholder k) k ts) := by
    rintro done k rest rfl hdone
    have hk : k ∉ done := fun h ↦ (List.nodup_append.mp hnodup).2.2 k h k List.mem_cons_self rfl
    obtain ⟨q, hplaceholder, hq⟩ := hmark k
    rw [replaceEach_concat, hdone, partly_concat, hplaceholder]
    exact replace_fill_iff hq ((partly_of_not_mem hk).trans hplaceholder)
  refine ⟨?_, ?_⟩
  · intro h done k rest hfields
    refine (hstep done k rest hfields (h done (k :: rest) hfields)).mp (h (done ++ [k]) rest ?_)
    rw [hfields, List.append_assoc]
    rfl
  · intro h done
    induction done using List.reverseRecOn with
    | nil => exact fun _ _ ↦ rfl
    | append_singleton done k ih =>
      intro rest hfields
      have hfields : fields = done ++ k :: rest := by rw [hfields, List.append_assoc]; rfl
      exact (hstep done k rest hfields (ih (k :: rest) hfields)).mpr (h done k rest hfields)

omit [DecidableEq ι] [DecidableEq α] in
/-- A placeholder that no other one begins is not read in place of another. -/
theorem not_startsIn_placeholder (hmark : ∀ i, ∃ q, placeholder i = mark :: q ∧ mark ∉ q)
    (hfree : ∀ i j s, placeholder i <+: placeholder j ++ s → i = j) {i j : ι} (hij : i ≠ j)
    (s : List α) : ¬ Replace.StartsIn (placeholder i) (placeholder j) s := by
  obtain ⟨r, hj, hr⟩ := hmark j
  obtain ⟨q, hi, -⟩ := hmark i
  rw [hj, Replace.startsIn_cons_iff, not_or, ← List.cons_append, ← hj]
  refine ⟨fun hpre ↦ hij (hfree i j s hpre), ?_⟩
  rw [hi]
  exact Replace.not_startsIn_of_not_mem hr s

end Fields

end Template
