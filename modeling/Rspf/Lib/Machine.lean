import Mathlib.Logic.Basic

/-!
# Machines and their runs

A `Machine` takes labelled steps: `step s e` is the state after the event `e`, or `none` where `e`
cannot happen in `s`.  Where several things can happen next — the steps of concurrent parties, say
— they are different events, so an interleaving is a list of events and `Machine.run` executes it.

Steps are functions, not relations.  Whatever is not determined is in the event, so a run can be
evaluated, and a statement about all runs is one about all lists of events.

## What is here

* `Machine.invariant` passes from one step to a whole run, and `Machine.invariant_of_guarded` does
  the same when a step is only known to be harmless in a run all of whose steps meet some condition
  (`Machine.Guarded`).
* `Machine.rank_add_countP_le` bounds how often certain events can happen, by a rank that they
  lower and that no other raises.
* `Machine.run_map` and `Machine.run_filter` compare runs: of two machines that do the same, and of
  one machine with some of its events left out.
* `Machine.invariant_trace` keeps account of what a run brings about.
* `Projection` — a machine may be made of smaller ones.  It says what one of these does while the
  whole takes a step, and `Projection.run` that a run of the whole is a run of it.
-/

set_option autoImplicit false

/-- A transition system with labelled, deterministic steps. -/
structure Machine (σ ε : Type) where
  /-- The state after an event, if the event is possible. -/
  step : σ → ε → Option σ

namespace Machine

variable {σ ε : Type} (M : Machine σ ε)

/-- The state after a list of events, if each of them is possible when its turn comes. -/
def run : σ → List ε → Option σ
  | s, [] => some s
  | s, e :: es => (M.step s e).bind fun s' ↦ run s' es

@[simp] theorem run_nil (s : σ) : M.run s [] = some s := rfl

theorem run_cons_eq_some {s t : σ} {e : ε} {es : List ε} :
    M.run s (e :: es) = some t ↔ ∃ s', M.step s e = some s' ∧ M.run s' es = some t :=
  Option.bind_eq_some_iff

theorem run_append_eq_some {s t : σ} {as bs : List ε} :
    M.run s (as ++ bs) = some t ↔ ∃ s', M.run s as = some s' ∧ M.run s' bs = some t := by
  induction as generalizing s with
  | nil => simp
  | cons e as ih =>
    rw [List.cons_append, run_cons_eq_some]
    simp only [ih, run_cons_eq_some]
    refine ⟨?_, ?_⟩
    · rintro ⟨u, hu, s', hs', ht⟩
      exact ⟨s', ⟨u, hu, hs'⟩, ht⟩
    · rintro ⟨s', ⟨u, hu, hs'⟩, ht⟩
      exact ⟨u, hu, s', hs', ht⟩

/-- Some run leads from `s` to `t`. -/
def Reaches (s t : σ) : Prop := ∃ es, M.run s es = some t

variable {M} in
theorem Reaches.refl (s : σ) : M.Reaches s s := ⟨[], rfl⟩

variable {M} in
theorem Reaches.trans {s t u : σ} (h : M.Reaches s t) (h' : M.Reaches t u) : M.Reaches s u := by
  obtain ⟨as, has⟩ := h
  obtain ⟨bs, hbs⟩ := h'
  exact ⟨as ++ bs, M.run_append_eq_some.mpr ⟨t, has, hbs⟩⟩

variable {M} in
theorem Reaches.single {s t : σ} {e : ε} (h : M.step s e = some t) : M.Reaches s t :=
  ⟨[e], M.run_cons_eq_some.mpr ⟨t, h, rfl⟩⟩

/-- **The invariant rule**: what holds at the start and survives every step holds throughout. -/
theorem invariant {P : σ → Prop} (hstep : ∀ s e s', P s → M.step s e = some s' → P s')
    {s t : σ} (hs : P s) {es : List ε} (h : M.run s es = some t) : P t := by
  induction es generalizing s with
  | nil => rw [run_nil, Option.some_inj] at h; exact h ▸ hs
  | cons e es ih =>
    obtain ⟨s', hs', ht⟩ := M.run_cons_eq_some.mp h
    exact ih (hstep s e s' hs hs') ht

/-! ## Runs under a condition -/

/-- Every step of the run is taken in a state that meets the condition for it. -/
def Guarded (C : σ → ε → Prop) : σ → List ε → Prop
  | _, [] => True
  | s, e :: es => C s e ∧ ∀ s', M.step s e = some s' → Guarded C s' es

/-- A state the run `es` from `s` passes through. -/
def Visits (s : σ) (es : List ε) (t : σ) : Prop := ∃ as, as <+: es ∧ M.run s as = some t

variable {M}

theorem Guarded.of_append {C : σ → ε → Prop} {s : σ} {as bs : List ε}
    (h : M.Guarded C s (as ++ bs)) : M.Guarded C s as := by
  induction as generalizing s with
  | nil => trivial
  | cons e as ih => exact ⟨h.1, fun s' hs' ↦ ih (h.2 s' hs')⟩

/-- **The invariant rule for guarded runs.** -/
theorem invariant_of_guarded {P : σ → Prop} {C : σ → ε → Prop}
    (hstep : ∀ s e s', P s → C s e → M.step s e = some s' → P s')
    {s t : σ} (hs : P s) {es : List ε} (hC : M.Guarded C s es) (h : M.run s es = some t) : P t := by
  induction es generalizing s with
  | nil => rw [run_nil, Option.some_inj] at h; exact h ▸ hs
  | cons e es ih =>
    obtain ⟨s', hs', ht⟩ := M.run_cons_eq_some.mp h
    exact ih (hstep s e s' hs hC.1 hs') (hC.2 s' hs') ht

/-- A run is guarded as soon as no step it takes from a state it passes through breaks the
condition. -/
theorem guarded_of_visits {C : σ → ε → Prop} {s : σ} {es : List ε}
    (h : ∀ as e bs u, es = as ++ e :: bs → M.run s as = some u → C u e) : M.Guarded C s es := by
  induction es generalizing s with
  | nil => trivial
  | cons e es ih =>
    refine ⟨h [] e es s rfl rfl, fun s' hs' ↦ ih fun as e' bs u he hu ↦ ?_⟩
    exact h (e :: as) e' bs u (by rw [he]; rfl) (M.run_cons_eq_some.mpr ⟨s', hs', hu⟩)

/-- A run is guarded whose events all meet a condition. -/
theorem guarded_of_forall_mem {C : ε → Prop} {s : σ} {es : List ε} (h : ∀ e ∈ es, C e) :
    M.Guarded (fun _ ↦ C) s es := by
  refine guarded_of_visits ?_
  rintro as e bs u rfl -
  exact h e (List.mem_append_right _ List.mem_cons_self)

/-- **The rank rule**: where no step makes the rank larger, and the counted ones make it smaller, a
run has no more of these than the rank allows. -/
theorem rank_add_countP_le (rank : σ → Nat) {P : σ → Prop} {C : σ → ε → Prop} {p : ε → Bool}
    (hstep : ∀ s e s', P s → C s e → M.step s e = some s' →
      P s' ∧ rank s' + (if p e then 1 else 0) ≤ rank s)
    {s t : σ} (hs : P s) {es : List ε} (hC : M.Guarded C s es) (h : M.run s es = some t) :
    P t ∧ rank t + es.countP p ≤ rank s := by
  induction es generalizing s with
  | nil =>
    rw [run_nil, Option.some_inj] at h
    exact h ▸ ⟨hs, Nat.le_refl _⟩
  | cons e es ih =>
    obtain ⟨s', hs', ht⟩ := M.run_cons_eq_some.mp h
    obtain ⟨hP, hle⟩ := hstep s e s' hs hC.1 hs'
    obtain ⟨hPt, hle'⟩ := ih hP (hC.2 s' hs') ht
    refine ⟨hPt, ?_⟩
    rw [List.countP_cons]
    omega

/-! ## Machines that do the same -/

/-- **A run, seen through a map**: where the steps of one machine are those of another, seen so, the
runs are. -/
theorem run_map {τ δ : Type} {N : Machine τ δ} (f : σ → τ) (g : ε → δ) {P : σ → Prop}
    (hkeep : ∀ s e s', P s → M.step s e = some s' → P s')
    (hstep : ∀ s e, P s → N.step (f s) (g e) = (M.step s e).map f) {s : σ} (hs : P s)
    (es : List ε) : N.run (f s) (es.map g) = (M.run s es).map f := by
  induction es generalizing s with
  | nil => rfl
  | cons e es ih =>
    rw [List.map_cons, run, run, hstep s e hs]
    cases h : M.step s e with
    | none => rfl
    | some s' =>
      rw [Option.map_some, Option.bind_some, Option.bind_some]
      exact ih (hkeep s e s' hs h)

/-- **A run, with what is not seen left out**: where some steps of one machine are those of another
and the rest change nothing, seen through a map, the former are a run. -/
theorem run_filter {τ : Type} {N : Machine τ ε} (f : σ → τ) (p : ε → Bool)
    (hstep : ∀ s e s', p e = true → M.step s e = some s' → N.step (f s) e = some (f s'))
    (hskip : ∀ s e s', p e = false → M.step s e = some s' → f s' = f s)
    {s t : σ} {es : List ε} (h : M.run s es = some t) : N.run (f s) (es.filter p) = some (f t) := by
  induction es generalizing s with
  | nil =>
    rw [run_nil, Option.some_inj] at h
    exact h ▸ rfl
  | cons e es ih =>
    obtain ⟨s', hs', ht⟩ := M.run_cons_eq_some.mp h
    cases he : p e with
    | true =>
      rw [List.filter_cons_of_pos he]
      exact N.run_cons_eq_some.mpr ⟨_, hstep s e s' he hs', ih ht⟩
    | false =>
      rw [List.filter_cons_of_neg (he ▸ Bool.false_ne_true), ← hskip s e s' he hs']
      exact ih ht

/-! ## What a run brings about -/

section Trace

variable {α : Type} (f : σ → ε → Option α)

variable (M) in
/-- What the steps of a run bring about, the latest first. -/
def trace : σ → List ε → List α
  | _, [] => []
  | s, e :: es =>
    match M.step s e with
    | none => []
    | some s' => trace s' es ++ (f s e).toList

variable {f}

theorem trace_cons {s s' : σ} {e : ε} (h : M.step s e = some s') (es : List ε) :
    M.trace f s (e :: es) = M.trace f s' es ++ (f s e).toList := by
  rw [trace, h]

/-- **The invariant rule with a trace**: a step adds what it brings about. -/
theorem invariant_trace {P : List α → σ → Prop}
    (hstep : ∀ l s e s', P l s → M.step s e = some s' → P ((f s e).toList ++ l) s')
    {l : List α} {s t : σ} (hs : P l s) {es : List ε} (h : M.run s es = some t) :
    P (M.trace f s es ++ l) t := by
  induction es generalizing l s with
  | nil => rw [run_nil, Option.some_inj] at h; exact h ▸ hs
  | cons e es ih =>
    obtain ⟨s', hs', ht⟩ := M.run_cons_eq_some.mp h
    rw [trace_cons hs', List.append_assoc]
    exact ih (hstep l s e s' hs hs') ht

end Trace

end Machine

/-! ## Parts of a machine -/

section

variable {σ ε τ δ : Type}

/-- What a part of a larger machine does in it: each step of the larger machine is some steps of the
part, one after the other, or none. -/
structure Projection (M : Machine σ ε) (N : Machine τ δ) where
  /-- The state of the part. -/
  state : σ → τ
  /-- Its steps in a step of the whole. -/
  events : σ → ε → List δ
  /-- These lead to its next state. -/
  run_events : ∀ s e s', M.step s e = some s' → N.run (state s) (events s e) = some (state s')

namespace Projection

variable {M : Machine σ ε} {N : Machine τ δ} (π : Projection M N)

/-- The steps of the part in a run of the whole. -/
def runEvents : σ → List ε → List δ
  | _, [] => []
  | s, e :: es =>
    π.events s e ++
      match M.step s e with
      | none => []
      | some s' => runEvents s' es

theorem runEvents_cons {s s' : σ} {e : ε} (h : M.step s e = some s') (es : List ε) :
    π.runEvents s (e :: es) = π.events s e ++ π.runEvents s' es := by
  rw [runEvents, h]

/-- **A run of the whole is a run of its parts.** -/
theorem run {s t : σ} {es : List ε} (h : M.run s es = some t) :
    N.run (π.state s) (π.runEvents s es) = some (π.state t) := by
  induction es generalizing s with
  | nil => rw [Machine.run_nil, Option.some_inj] at h; exact h ▸ rfl
  | cons e es ih =>
    obtain ⟨s', hs', ht⟩ := M.run_cons_eq_some.mp h
    rw [π.runEvents_cons hs']
    exact N.run_append_eq_some.mpr ⟨_, π.run_events s e s' hs', ih ht⟩

/-- What a part can reach it reaches in the whole. -/
theorem visits {s t : σ} {es : List ε} (h : M.run s es = some t) :
    N.Visits (π.state s) (π.runEvents s es) (π.state t) :=
  ⟨_, List.prefix_rfl, π.run h⟩

end Projection

end
