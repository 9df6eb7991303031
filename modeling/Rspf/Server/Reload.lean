import Rspf.Lib.Machine
import Rspf.Server.Handle

/-!
# Reloading while requests are handled

A reload stores a new whitelist and then a new configuration, and a request that is handled at the
same time reads the configuration, the whitelist, and the configuration again.  The cells are
atomic, so each store and each read is one step, and nothing else about their timing is known.
`Reloading.machine` has just these steps, for one request and one reload: a run is an interleaving
of them.

## What is here

* `answerSeeing` — what a request would answer with a version of the cells for each of its three
  reads.  With one version for all of them it is what `handleRequest` does (`answerSeeing_self`).
* `answered_iff_answerSeeing` — what a request may answer: it reads the cells at three moments, one
  after the other, and the reload may be anywhere between them.
* `answered_iff` — the same, worked out in terms of the two versions.
* `torn_reload` — a request may find an answer that it would not have found before the reload, nor
  after it: one of the versions exempts it, but the exemption is looked for in the other one.

The whole service, with any number of requests and reloads, is in `Rspf.Server.Service`.  This file
is what one needs to know to see which answers are possible, and that each of them is.
-/

set_option autoImplicit false

namespace Rspf

variable {X : Crates} {E : Type}

/-- What the two cells of the state hold. -/
structure Version (X : Crates) where
  config : Config X
  whitelist : Whitelist X

/-- The state with these cells. -/
def Version.state (v : Version X) (evaluator : E) : AppState X E where
  config := v.config
  whitelist := v.whitelist
  evaluator := evaluator

/-! ## The machine -/

/-- How far a request is. -/
inductive Progress (X : Crates) where
  /-- It is about to load the configuration in `should_skip`. -/
  | start
  /-- The configuration does not exempt it; it is about to load the whitelist. -/
  | passedConfig (s : Subject)
  /-- It is not exempt, and about to load the configuration again. -/
  | passedWhitelist (s : Subject)
  /-- It has a configuration, and is about to make the checks. -/
  | loaded (s : Subject) (config : Config X)
  /-- It is about to decide. -/
  | evaluated (s : Subject) (config : Config X) (helo mailFrom : SpfOutcome X)
  | answered (action : Action)

/-- A step of `handle_request`, which reads at most one cell. -/
def Progress.step [Checks X Id E] (evaluator : E) (now : UInt64) (req : PolicyRequest)
    (cells : Version X) : Progress X → Option (Progress X)
  | start =>
    match req.subject with
    | none => some (.answered .dunno)
    | some s =>
      match skipByConfig cells.config req s.clientIp with
      | some _ => some (.answered .dunno)
      | none => some (.passedConfig s)
  | passedConfig s =>
    match skipByWhitelist cells.whitelist req s.clientIp s.helo s.sender with
    | some _ => some (.answered .dunno)
    | none => some (.passedWhitelist s)
  | passedWhitelist s => some (.loaded s cells.config)
  | loaded s config =>
    some (.evaluated s config (Checks.checkHelo (m := Id) evaluator s.clientIp s.helo)
      (Checks.checkMailFrom (m := Id) evaluator s.clientIp
        (effectiveSender X s.sender config.srs now) s.helo))
  | evaluated s config helo mailFrom =>
    some (.answered (Engine.decide config helo mailFrom (decisionContext X config.srs now req s)))
  | answered _ => none

/-- A request and a reload. -/
structure Reloading (X : Crates) where
  cells : Version X
  /-- How many of its two stores the reload has made. -/
  stored : ℕ := 0
  progress : Progress X := .start

/-- Whose turn it is. -/
inductive Turn where
  | request
  | reload
  deriving DecidableEq

/-- One step of the request or the reload, which brings the version `new`: the whitelist first, and
then the configuration. -/
def Reloading.step [Checks X Id E] (evaluator : E) (now : UInt64) (req : PolicyRequest)
    (new : Version X) (s : Reloading X) : Turn → Option (Reloading X)
  | .request =>
    (s.progress.step evaluator now req s.cells).map fun progress ↦ { s with progress }
  | .reload =>
    match s.stored with
    | 0 => some { s with cells := { s.cells with whitelist := new.whitelist }, stored := 1 }
    | 1 => some { s with cells := { s.cells with config := new.config }, stored := 2 }
    | _ => none

/-- The request and the reload. -/
def Reloading.machine [Checks X Id E] (evaluator : E) (now : UInt64) (req : PolicyRequest)
    (new : Version X) : Machine (Reloading X) Turn :=
  ⟨Reloading.step evaluator now req new⟩

/-! ## Three moments -/

/-- The cells after so many stores. -/
def Version.after (old new : Version X) : ℕ → Version X
  | 0 => old
  | 1 => { old with whitelist := new.whitelist }
  | _ => new

/-- The answer of a request that sees these versions, one after the other. -/
def answerSeeing [Checks X Id E] (evaluator : E) (now : UInt64) (req : PolicyRequest)
    (first second third : Version X) : Action :=
  match req.subject with
  | none => .dunno
  | some s =>
    match shouldSkip (X := X) ⟨first.config, second.whitelist, evaluator⟩ req s.clientIp s.helo
      s.sender with
    | some _ => .dunno
    | none => evaluateRequest (m := Id) third.config evaluator now req s.clientIp s.helo s.sender

section

variable [Checks X Id E] {evaluator : E} {now : UInt64} {req : PolicyRequest} {s : Subject}
  {old new first second : Version X}

theorem answerSeeing_of_subject_eq_none (hs : req.subject = none) (first second third : Version X) :
    answerSeeing evaluator now req first second third = .dunno := by
  rw [answerSeeing, hs]

theorem answerSeeing_of_exempt (hs : req.subject = some s)
    (h : Exempt first.config second.whitelist req s) (third : Version X) :
    answerSeeing evaluator now req first second third = .dunno := by
  have hskip : shouldSkip (X := X) ⟨first.config, second.whitelist, evaluator⟩ req s.clientIp s.helo
      s.sender ≠ none := shouldSkip_ne_none_iff.mpr h
  obtain ⟨reason, hskip⟩ := Option.ne_none_iff_exists'.mp hskip
  rw [answerSeeing, hs]
  dsimp only
  rw [hskip]

theorem answerSeeing_of_not_exempt (hs : req.subject = some s)
    (h : ¬ Exempt first.config second.whitelist req s) (third : Version X) :
    answerSeeing evaluator now req first second third =
      evaluateRequest (m := Id) third.config evaluator now req s.clientIp s.helo s.sender := by
  have hskip : shouldSkip (X := X) ⟨first.config, second.whitelist, evaluator⟩ req s.clientIp s.helo
      s.sender = none := shouldSkip_eq_none_iff.mpr h
  rw [answerSeeing, hs]
  dsimp only
  rw [hskip]

/-- **A request that sees one version answers as `handleRequest`.** -/
theorem answerSeeing_self (v : Version X) :
    answerSeeing evaluator now req v v v =
      (handleRequest (m := Id) (v.state evaluator) now req : Action) := by
  cases hs : req.subject with
  | none =>
    rw [answerSeeing_of_subject_eq_none hs, handleRequest_of_subject_eq_none hs]
    rfl
  | some s =>
    by_cases he : Exempt v.config v.whitelist req s
    · rw [answerSeeing_of_exempt hs he, handleRequest_of_exempt hs he]
      rfl
    · rw [answerSeeing_of_not_exempt hs he, handleRequest_of_not_exempt hs he]
      rfl

/-- What a request has seen so far, where the reload has made so many stores: it has read the cells
at moments that do not come after this one, in order. -/
def Progress.Seen (evaluator : E) (now : UInt64) (req : PolicyRequest) (old new : Version X)
    (stored : ℕ) : Progress X → Prop
  | start => True
  | passedConfig s => req.subject = some s ∧
    ∃ i ≤ stored, (skipByConfig (old.after new i).config req s.clientIp).isSome = false
  | passedWhitelist s => req.subject = some s ∧
    ∃ i j, i ≤ j ∧ j ≤ stored ∧ ¬ Exempt (old.after new i).config (old.after new j).whitelist req s
  | loaded s config => ∃ i j k, i ≤ j ∧ j ≤ k ∧ k ≤ stored ∧
    answerSeeing evaluator now req (old.after new i) (old.after new j) (old.after new k) =
      evaluateRequest (m := Id) config evaluator now req s.clientIp s.helo s.sender
  | evaluated s config helo mailFrom => ∃ i j k, i ≤ j ∧ j ≤ k ∧ k ≤ stored ∧
    answerSeeing evaluator now req (old.after new i) (old.after new j) (old.after new k) =
      Engine.decide config helo mailFrom (decisionContext X config.srs now req s)
  | answered action => ∃ i j k, i ≤ j ∧ j ≤ k ∧ k ≤ stored ∧
    answerSeeing evaluator now req (old.after new i) (old.after new j) (old.after new k) = action

/-- What is true of a request and a reload at all times. -/
structure Reloading.Inv (evaluator : E) (now : UInt64) (req : PolicyRequest) (old new : Version X)
    (s : Reloading X) : Prop where
  stored_le : s.stored ≤ 2
  /-- The cells hold what was stored. -/
  cells_eq : s.cells = old.after new s.stored
  /-- The request has seen them in order. -/
  seen : s.progress.Seen evaluator now req old new s.stored

theorem Progress.Seen.mono {stored stored' : ℕ} (hle : stored ≤ stored') {p : Progress X}
    (h : p.Seen evaluator now req old new stored) : p.Seen evaluator now req old new stored' := by
  cases p with
  | start => trivial
  | passedConfig s =>
    obtain ⟨hs, i, hi, hskip⟩ := h
    exact ⟨hs, i, hi.trans hle, hskip⟩
  | passedWhitelist s =>
    obtain ⟨hs, i, j, hij, hj, hskip⟩ := h
    exact ⟨hs, i, j, hij, hj.trans hle, hskip⟩
  | loaded s config | evaluated s config helo mailFrom | answered action =>
    obtain ⟨i, j, k, hij, hjk, hk, h⟩ := h
    exact ⟨i, j, k, hij, hjk, hk.trans hle, h⟩

/-- **A step of the request adds what it reads to what it has seen.** -/
theorem Progress.Seen.step {stored : ℕ} {p p' : Progress X}
    (h : p.Seen evaluator now req old new stored)
    (hstep : p.step evaluator now req (old.after new stored) = some p') :
    p'.Seen evaluator now req old new stored := by
  have hle := Nat.le_refl stored
  cases p with
  | start =>
    rw [Progress.step] at hstep
    split at hstep
    · rename_i hs
      obtain rfl := Option.some.inj hstep
      exact ⟨_, _, _, hle, hle, hle, answerSeeing_of_subject_eq_none hs _ _ _⟩
    · rename_i s hs
      split at hstep
      · rename_i hskip
        obtain rfl := Option.some.inj hstep
        have he : Exempt (old.after new stored).config (old.after new stored).whitelist req s :=
          exempt_iff.mpr (.inl (by rw [hskip]; rfl))
        exact ⟨_, _, _, hle, hle, hle, answerSeeing_of_exempt hs he _⟩
      · rename_i hskip
        obtain rfl := Option.some.inj hstep
        exact ⟨hs, stored, hle, by rw [hskip]; rfl⟩
  | passedConfig s =>
    obtain ⟨hs, i, hi, hconfig⟩ := h
    rw [Progress.step] at hstep
    split at hstep
    · rename_i hskip
      obtain rfl := Option.some.inj hstep
      have he : Exempt (old.after new stored).config (old.after new stored).whitelist req s :=
        exempt_iff.mpr (.inr (by rw [hskip]; rfl))
      exact ⟨_, _, _, hle, hle, hle, answerSeeing_of_exempt hs he _⟩
    · rename_i hskip
      obtain rfl := Option.some.inj hstep
      refine ⟨hs, i, stored, hi, hle, ?_⟩
      rw [exempt_iff, hconfig, hskip]
      simp
  | passedWhitelist s =>
    obtain ⟨hs, i, j, hij, hj, he⟩ := h
    obtain rfl := Option.some.inj hstep
    exact ⟨i, j, stored, hij, hj, hle, answerSeeing_of_not_exempt hs he _⟩
  | loaded s config =>
    obtain rfl := Option.some.inj hstep
    exact h
  | evaluated s config helo mailFrom =>
    obtain rfl := Option.some.inj hstep
    exact h
  | answered action => exact absurd hstep nofun

/-- **A step of either keeps the invariant.** -/
theorem Reloading.Inv.step {s s' : Reloading X} {turn : Turn}
    (hs : s.Inv evaluator now req old new)
    (h : s.step evaluator now req new turn = some s') : s'.Inv evaluator now req old new := by
  cases turn with
  | request =>
    obtain ⟨p, hp, rfl⟩ := Option.map_eq_some_iff.mp h
    rw [hs.cells_eq] at hp
    exact ⟨hs.stored_le, hs.cells_eq, hs.seen.step hp⟩
  | reload =>
    have hcells := hs.cells_eq
    have hseen := hs.seen
    rw [Reloading.step] at h
    split at h
    · rename_i hstored
      obtain rfl := Option.some.inj h
      rw [hstored] at hcells hseen
      exact ⟨Nat.le_succ 1, by rw [hcells]; rfl, hseen.mono (Nat.zero_le 1)⟩
    · rename_i hstored
      obtain rfl := Option.some.inj h
      rw [hstored] at hcells hseen
      exact ⟨Nat.le_refl 2, by rw [hcells]; rfl, hseen.mono (Nat.le_succ 1)⟩
    · exact absurd h nofun

/-! ## What can be answered -/

/-- A reload that has made so many stores. -/
def Reloading.at (old new : Version X) (stored : ℕ) (progress : Progress X) : Reloading X :=
  ⟨old.after new stored, stored, progress⟩

theorem Reloading.inv_start : (Reloading.at old new 0 .start).Inv evaluator now req old new :=
  ⟨Nat.zero_le 2, rfl, trivial⟩

/-- The reload can go on at any moment. -/
theorem Reloading.reaches_reload {i j : ℕ} (hij : i ≤ j) (hj : j ≤ 2) (p : Progress X) :
    (machine evaluator now req new).Reaches (Reloading.at old new i p)
      (Reloading.at old new j p) := by
  induction j, hij using Nat.le_induction with
  | base => exact .refl _
  | succ j hij ih =>
    have hstep : (machine evaluator now req new).step (Reloading.at old new j p) .reload =
        some (Reloading.at old new (j + 1) p) := by
      rcases Nat.le_one_iff_eq_zero_or_eq_one.mp (Nat.le_of_succ_le_succ hj) with rfl | rfl <;> rfl
    exact (ih (Nat.le_of_succ_le hj)).trans (.single hstep)

/-- And so can the request. -/
theorem Reloading.reaches_request {i : ℕ} {p p' : Progress X}
    (h : p.step evaluator now req (old.after new i) = some p') :
    (machine evaluator now req new).Reaches (Reloading.at old new i p)
      (Reloading.at old new i p') := by
  have hstep : (machine evaluator now req new).step (Reloading.at old new i p) .request =
      some (Reloading.at old new i p') :=
    Option.map_eq_some_iff.mpr ⟨p', h, rfl⟩
  exact .single hstep

/-- A request can be answered as it is when it sees the versions of any three moments. -/
theorem Reloading.reaches_answered {i j k : ℕ} (hij : i ≤ j) (hjk : j ≤ k) (hk : k ≤ 2) :
    ∃ stored, (machine evaluator now req new).Reaches (Reloading.at old new 0 .start)
      (Reloading.at old new stored (.answered (answerSeeing evaluator now req (old.after new i)
        (old.after new j) (old.after new k)))) := by
  have hstart : (machine evaluator now req new).Reaches (Reloading.at old new 0 .start)
      (Reloading.at old new i .start) :=
    reaches_reload (Nat.zero_le i) (hij.trans (hjk.trans hk)) _
  have hlater : ∀ p, (machine evaluator now req new).Reaches (Reloading.at old new i p)
      (Reloading.at old new j p) := reaches_reload hij (hjk.trans hk)
  have hlatest : ∀ p, (machine evaluator now req new).Reaches (Reloading.at old new j p)
      (Reloading.at old new k p) := reaches_reload hjk hk
  cases hs : req.subject with
  | none =>
    refine ⟨i, hstart.trans (reaches_request ?_)⟩
    rw [answerSeeing_of_subject_eq_none hs, Progress.step, hs]
  | some s =>
    cases hconfig : skipByConfig (old.after new i).config req s.clientIp with
    | some reason =>
      have he : Exempt (old.after new i).config (old.after new j).whitelist req s :=
        exempt_iff.mpr (.inl (by rw [hconfig]; rfl))
      refine ⟨i, hstart.trans (reaches_request ?_)⟩
      rw [answerSeeing_of_exempt hs he, Progress.step, hs]
      dsimp only
      rw [hconfig]
    | none =>
      have hpassed : (Progress.start : Progress X).step evaluator now req (old.after new i) =
          some (.passedConfig s) := by
        rw [Progress.step, hs]
        dsimp only
        rw [hconfig]
      have hread := (hstart.trans (reaches_request hpassed)).trans (hlater _)
      cases hwhitelist :
          skipByWhitelist (old.after new j).whitelist req s.clientIp s.helo s.sender with
      | some reason =>
        have he : Exempt (old.after new i).config (old.after new j).whitelist req s :=
          exempt_iff.mpr (.inr (by rw [hwhitelist]; rfl))
        refine ⟨j, hread.trans (reaches_request ?_)⟩
        rw [answerSeeing_of_exempt hs he, Progress.step, hwhitelist]
      | none =>
        have he : ¬ Exempt (old.after new i).config (old.after new j).whitelist req s := by
          rw [exempt_iff, hconfig, hwhitelist]
          simp
        have hpassed' : (Progress.passedConfig s).step evaluator now req (old.after new j) =
            some (.passedWhitelist s) := by
          rw [Progress.step, hwhitelist]
        refine ⟨k, (hread.trans (reaches_request hpassed')).trans ((hlatest _).trans ?_)⟩
        rw [answerSeeing_of_not_exempt hs he]
        exact (reaches_request rfl).trans ((reaches_request rfl).trans (reaches_request rfl))

/-- **What a request may answer during a reload.**  It is what it would answer seeing the versions
of three moments, in order; and every three moments give a possible answer. -/
theorem Reloading.answered_iff_answerSeeing {action : Action} :
    (∃ turns s, (machine evaluator now req new).run (Reloading.at old new 0 .start) turns = some s ∧
      s.progress = .answered action) ↔
      ∃ i j k, i ≤ j ∧ j ≤ k ∧ k ≤ 2 ∧ answerSeeing evaluator now req (old.after new i)
        (old.after new j) (old.after new k) = action := by
  refine ⟨?_, ?_⟩
  · rintro ⟨turns, s, hrun, hs⟩
    have hinv : s.Inv evaluator now req old new :=
      (machine evaluator now req new).invariant (fun _ _ _ hu hstep ↦ hu.step hstep) inv_start hrun
    have hseen := hinv.seen
    rw [hs] at hseen
    obtain ⟨i, j, k, hij, hjk, hk, h⟩ := hseen
    exact ⟨i, j, k, hij, hjk, hk.trans hinv.stored_le, h⟩
  · rintro ⟨i, j, k, hij, hjk, hk, rfl⟩
    have hreaches : ∃ stored, (machine evaluator now req new).Reaches _
        (Reloading.at old new stored _) :=
      reaches_answered hij hjk hk
    obtain ⟨stored, turns, hrun⟩ := hreaches
    exact ⟨turns, _, hrun, rfl⟩

theorem Version.config_after {i : ℕ} (hi : i < 2) : (old.after new i).config = old.config := by
  rcases Nat.le_one_iff_eq_zero_or_eq_one.mp (Nat.le_of_lt_succ hi) with rfl | rfl <;> rfl

theorem Version.whitelist_after {j : ℕ} (hj : 0 < j) :
    (old.after new j).whitelist = new.whitelist := by
  match j, hj with
  | 1, _ => rfl
  | _ + 2, _ => rfl

theorem Version.after_of_ge {k : ℕ} (hk : 2 ≤ k) : old.after new k = new := by
  match k, hk with
  | _ + 2, _ => rfl

/-- What exempts a request comes from one of the two versions, and this exempts it too. -/
theorem exempt_of_after {i j : ℕ}
    (h : Exempt (old.after new i).config (old.after new j).whitelist req s) :
    Exempt old.config old.whitelist req s ∨ Exempt new.config new.whitelist req s := by
  rcases exempt_iff.mp h with h | h
  · rcases Nat.lt_or_ge i 2 with hi | hi
    · rw [Version.config_after hi] at h
      exact .inl (exempt_iff.mpr (.inl h))
    · rw [Version.after_of_ge hi] at h
      exact .inr (exempt_iff.mpr (.inl h))
  · rcases Nat.eq_zero_or_pos j with rfl | hj
    · exact .inl (exempt_iff.mpr (.inr h))
    · rw [Version.whitelist_after hj] at h
      exact .inr (exempt_iff.mpr (.inr h))

/-- A request that was not exempt when it looked, but is under the old version, has seen the new
whitelist. -/
theorem not_exempt_of_exempt_old {i j : ℕ} (hi : i < 2)
    (h : ¬ Exempt (old.after new i).config (old.after new j).whitelist req s)
    (hold : Exempt old.config old.whitelist req s) : ¬ Exempt old.config new.whitelist req s := by
  rw [Version.config_after hi] at h
  rcases Nat.eq_zero_or_pos j with rfl | hj
  · exact absurd hold h
  · rwa [Version.whitelist_after hj] at h

/-- One that is under the new version has seen the old configuration. -/
theorem not_exempt_of_exempt_new {i j : ℕ} (hij : i ≤ j)
    (h : ¬ Exempt (old.after new i).config (old.after new j).whitelist req s)
    (hnew : Exempt new.config new.whitelist req s) :
    ¬ Exempt old.config old.whitelist req s ∨ ¬ Exempt old.config new.whitelist req s := by
  rcases Nat.lt_or_ge i 2 with hi | hi
  · rw [Version.config_after hi] at h
    rcases Nat.eq_zero_or_pos j with rfl | hj
    · exact .inl h
    · rw [Version.whitelist_after hj] at h
      exact .inr h
  · rw [Version.after_of_ge hi, Version.after_of_ge (hi.trans hij)] at h
    exact absurd hnew h

end

/-- **What a request may answer during a reload**, in terms of the two versions.  It is the answer
of one of them, or else the decision of one of them for a request that this version exempts:

* the old one, if its configuration with the new whitelist does not exempt the request, or
* the new one, if the old configuration with either whitelist does not.

Each of these is the answer of some interleaving. -/
theorem Reloading.answered_iff [Checks X Id E] (evaluator : E) (now : UInt64) (req : PolicyRequest)
    (old new : Version X) (action : Action) :
    (∃ turns t, (machine evaluator now req new).run { cells := old } turns = some t ∧
      t.progress = .answered action) ↔
      action = handleRequest (m := Id) (old.state evaluator) now req ∨
      action = handleRequest (m := Id) (new.state evaluator) now req ∨
      ∃ s, req.subject = some s ∧
        (Exempt old.config old.whitelist req s ∧ ¬ Exempt old.config new.whitelist req s ∧
            action = evaluateRequest (m := Id) old.config evaluator now req s.clientIp s.helo
              s.sender ∨
          Exempt new.config new.whitelist req s ∧
            (¬ Exempt old.config old.whitelist req s ∨ ¬ Exempt old.config new.whitelist req s) ∧
            action = evaluateRequest (m := Id) new.config evaluator now req s.clientIp s.helo
              s.sender) := by
  refine answered_iff_answerSeeing.trans ⟨?_, ?_⟩
  · rintro ⟨i, j, k, hij, hjk, -, rfl⟩
    cases hs : req.subject with
    | none =>
      refine .inl ?_
      rw [answerSeeing_of_subject_eq_none hs, handleRequest_of_subject_eq_none hs]
      rfl
    | some s =>
      by_cases he : Exempt (old.after new i).config (old.after new j).whitelist req s
      · rw [answerSeeing_of_exempt hs he]
        rcases exempt_of_after he with h | h
        · exact .inl (by rw [← answerSeeing_self, answerSeeing_of_exempt hs h])
        · exact .inr (.inl (by rw [← answerSeeing_self, answerSeeing_of_exempt hs h]))
      · rw [answerSeeing_of_not_exempt hs he]
        rcases Nat.lt_or_ge k 2 with hk | hk
        · rw [Version.config_after hk]
          by_cases hold : Exempt old.config old.whitelist req s
          · have hi := (hij.trans hjk).trans_lt hk
            exact .inr (.inr ⟨s, rfl, .inl ⟨hold, not_exempt_of_exempt_old hi he hold, rfl⟩⟩)
          · exact .inl (by rw [← answerSeeing_self, answerSeeing_of_not_exempt hs hold])
        · rw [Version.after_of_ge hk]
          by_cases hnew : Exempt new.config new.whitelist req s
          · exact .inr (.inr ⟨s, rfl, .inr ⟨hnew, not_exempt_of_exempt_new hij he hnew, rfl⟩⟩)
          · exact .inr (.inl (by rw [← answerSeeing_self, answerSeeing_of_not_exempt hs hnew]))
  · rintro (rfl | rfl | ⟨s, hs, ⟨-, he, rfl⟩ | ⟨-, he | he, rfl⟩⟩)
    · exact ⟨0, 0, 0, Nat.le_refl 0, Nat.le_refl 0, Nat.zero_le 2, answerSeeing_self old⟩
    · exact ⟨2, 2, 2, Nat.le_refl 2, Nat.le_refl 2, Nat.le_refl 2, answerSeeing_self new⟩
    · exact ⟨0, 1, 1, Nat.zero_le 1, Nat.le_refl 1, Nat.le_succ 1,
        answerSeeing_of_not_exempt hs he _⟩
    · exact ⟨0, 0, 2, Nat.le_refl 0, Nat.zero_le 2, Nat.le_refl 2,
        answerSeeing_of_not_exempt hs he _⟩
    · exact ⟨0, 1, 2, Nat.zero_le 1, Nat.le_succ 1, Nat.le_refl 2,
        answerSeeing_of_not_exempt hs he _⟩

/-! ## A torn reload -/

/-- An operator who only observes: nothing is rejected for its sender. -/
def lenientVersion : Version Crates.sample where
  config := { sampleState.config with policy := { mailFromReject := .never } }
  whitelist := sampleState.whitelist

/-- The operator becomes strict, except with the relay the sample request comes from. -/
def strictVersion : Version Crates.sample where
  config := sampleState.config
  whitelist := { sampleState.whitelist with heloNames := [sampleSubject.helo] }

/-- **A reload is not atomic.**  If it takes place after the request has read the whitelist, the
mail is rejected, though the old version lets it pass and the new one has no opinion. -/
theorem torn_reload :
    ∃ t msg, (Reloading.machine sampleState.evaluator 1797120005 sampleRequest strictVersion).run
        { cells := lenientVersion }
        [.request, .request, .reload, .reload, .request, .request, .request] = some t ∧
      t.progress = .answered (.reject msg) ∧
      (∃ header, (handleRequest (lenientVersion.state sampleState.evaluator) 1797120005
        sampleRequest : Id Action) = .prepend header) ∧
      (handleRequest (strictVersion.state sampleState.evaluator) 1797120005 sampleRequest :
        Id Action) = .dunno := by
  refine ⟨_, _, rfl, rfl, ⟨_, rfl⟩, rfl⟩

end Rspf
