import Rspf.Server.Answers

/-!
# One client and the others

The daemon serves many clients at once, and they share its listeners, its state and its log.  What
one of them does should be of no concern to the others.

`Service.without j` is the service as the others see it: the connection `j` is as new, and its
requests and lines are not there.  What happens on this connection changes nothing of it
(`Service.without_of_step`), and everything else is a step of it (`Service.step_without`).  So the
rest of any run is a run, in which the others find everything as before (`Service.isolation`).
-/

set_option autoImplicit false

namespace Rspf

/-! ## Listeners and connections -/

/-- What the others see. -/
def Daemon.without (j : ℕ) (d : Daemon) : Daemon := { d with conns := d.conns.set j {} }

theorem set_concat {α : Type} (l : List α) (j : ℕ) (a : α) :
    (l ++ [a]).set j a = l.set j a ++ [a] := by
  rw [List.set_append]
  split
  · rfl
  · rename_i hj
    rw [List.set_eq_of_length_le (Nat.le_of_not_lt hj)]
    refine congrArg (l ++ ·) ?_
    cases j - l.length <;> rfl

section

variable {α : Type} {p : α → Bool} {l l' : List α}

theorem filter_append_of_forall (h : ∀ a ∈ l', p a) : (l ++ l').filter p = l.filter p ++ l' := by
  rw [List.filter_append, List.filter_eq_self.mpr h]

theorem filter_append_of_forall_not (h : ∀ a ∈ l', ¬ p a) : (l ++ l').filter p = l.filter p := by
  rw [List.filter_append, List.filter_eq_nil_iff.mpr h, List.append_nil]

end

section

variable {d d' : Daemon} {j k : ℕ} {e : Event} {ce : ConnEvent}

/-- What happens on the connection is not seen. -/
theorem Daemon.without_of_step (h : d.step (.conn j ce) = some d') :
    d'.without j = d.without j := by
  cases (did_of_step h).2
  rw [without, without]
  dsimp only
  rw [List.set_set]

/-- **Everything else is.** -/
theorem Daemon.step_without (he : ∀ ce, e ≠ .conn j ce) :
    (d.without j).step e = (d.step e).map (without j) := by
  have hresult : (d.without j).result = d.result := rfl
  have hlisteners : (d.without j).listeners = d.listeners := rfl
  rw [step.eq_def, step.eq_def, hresult]
  by_cases hended : d.result.isSome = true
  · rw [if_pos hended, if_pos hended]
    rfl
  · rw [if_neg hended, if_neg hended]
    cases e with
    | cancel => rfl
    | bind i error =>
      dsimp only
      rw [hlisteners]
      split <;> rfl
    | accept i =>
      dsimp only
      rw [hlisteners]
      split
      · rw [Option.map_some, without, without, set_concat]
      · rfl
    | acceptFails i =>
      dsimp only
      rw [hlisteners]
      split <;> rfl
    | stop i =>
      dsimp only
      rw [hlisteners, show (d.without j).cancelled = d.cancelled from rfl]
      split
      · split <;> rfl
      · rfl
    | conn k ce =>
      have hk : j ≠ k := fun hk ↦ he ce (hk ▸ rfl)
      have hconn : (d.without j).conns[k]? = d.conns[k]? := List.getElem?_set_ne hk
      dsimp only
      rw [hconn]
      cases d.conns[k]? with
      | none => rfl
      | some c =>
        dsimp only
        rw [Option.map_map]
        refine Option.map_congr fun c' _ ↦ ?_
        rw [Function.comp, without, without, List.set_comm _ _ hk]
    | join =>
      dsimp only
      rw [hlisteners, show (d.without j).joined = d.joined from rfl]
      split <;> rfl

/-- The others handle what they handle. -/
theorem Daemon.handling_without (hk : k ≠ j) : (d.without j).handling k = d.handling k := by
  rw [handling, handling, without]
  dsimp only
  rw [List.getElem?_set_ne hk.symm]

end

/-! ## The service -/

/-- Does this happen on the connection? -/
def ServiceEvent.concerns {X : Crates} (j : ℕ) : ServiceEvent X → Bool
  | .daemon (.conn k _) => k == j
  | .take k _ => k == j
  | .work k => k == j
  | .finish k => k == j
  | _ => false

/-- What the others see. -/
def Service.without {X : Crates} (j : ℕ) (s : Service X) : Service X :=
  { s with
    daemon := s.daemon.without j
    work := Function.update s.work j none
    syslog := s.syslog.filter fun p ↦ p.1 ≠ j
    journal := s.journal.filter fun a ↦ a.conn ≠ j }

theorem Service.without_eq {X : Crates} (j : ℕ) (daemon : Daemon)
    (reloader : Reloader X (Evaluator X)) (work : ℕ → Option (Work X)) (syslog : List (ℕ × Str))
    (journal : List (Handled X)) (loads : List (Version X)) (stores : ℕ) :
    without j ⟨daemon, reloader, work, syslog, journal, loads, stores⟩ =
      ⟨daemon.without j, reloader, Function.update work j none,
        syslog.filter fun p ↦ p.1 ≠ j, journal.filter fun a ↦ a.conn ≠ j, loads, stores⟩ :=
  rfl

section

variable {X : Crates} {fromStr : Str → Except X.TomlError (Config X)} {path : Str}
  {s s' : Service X} {e : ServiceEvent X} {j : ℕ}

/-- What happens on the connection is not seen. -/
theorem Service.without_of_step (he : e.concerns j = true) (h : s.step fromStr path e = some s') :
    s'.without j = s.without j := by
  cases did_of_step h with
  | @daemon e daemon hhandles hstep =>
    cases e with
    | conn k ce =>
      obtain rfl : k = j := beq_iff_eq.mp he
      rw [without, without, Daemon.without_of_step hstep]
    | cancel | bind | accept | acceptFails | stop | join => cases he
  | @take k outside daemon hstep =>
    obtain rfl : k = j := beq_iff_eq.mp he
    rw [without, without, Daemon.without_of_step hstep]
    dsimp only
    rw [Function.update_idem]
  | @work k w progress hresult hw hstep =>
    obtain rfl : k = j := beq_iff_eq.mp he
    rw [without, without]
    dsimp only
    rw [Function.update_idem, filter_append_of_forall_not (by simp)]
  | @finish k w action daemon hw hanswered hstep =>
    obtain rfl : k = j := beq_iff_eq.mp he
    rw [without, without, Daemon.without_of_step hstep]
    dsimp only
    rw [Function.update_idem, filter_append_of_forall_not (by simp)]
  | reload hresult hstep => cases he

/-- **Everything else is.** -/
theorem Service.step_without (he : e.concerns j = false) :
    (s.without j).step fromStr path e = (s.step fromStr path e).map (without j) := by
  cases e with
  | daemon e =>
    have he' : ∀ ce, e ≠ .conn j ce := fun ce h ↦ by
      subst h
      exact beq_eq_false_iff_ne.mp he rfl
    rw [step, step]
    split
    · rfl
    · rw [show (s.without j).daemon = s.daemon.without j from rfl, Daemon.step_without he',
        Option.map_map, Option.map_map]
      rfl
  | take k outside =>
    have hk : k ≠ j := beq_eq_false_iff_ne.mp he
    have he' : ∀ ce, Event.conn k .decode ≠ .conn j ce := fun ce h ↦ by
      cases h
      exact hk rfl
    rw [step, step, show (s.without j).daemon = s.daemon.without j from rfl,
      Daemon.step_without he', Option.map_map, Option.map_map]
    refine Option.map_congr fun daemon _ ↦ ?_
    dsimp only [Function.comp]
    rw [without_eq j daemon, Function.update_comm hk, Daemon.handling_without hk]
    rfl
  | work k =>
    have hk : k ≠ j := beq_eq_false_iff_ne.mp he
    have hwork : (s.without j).work k = s.work k := Function.update_of_ne hk _ _
    rw [step, step, hwork, show (s.without j).daemon.result = s.daemon.result from rfl]
    cases s.daemon.result with
    | some result => rfl
    | none =>
      cases s.work k with
      | none => rfl
      | some w =>
        dsimp only
        rw [Option.map_map]
        refine Option.map_congr fun progress _ ↦ ?_
        dsimp only [Function.comp]
        rw [without_eq j s.daemon s.reloader (Function.update s.work k _),
          Function.update_comm hk, filter_append_of_forall (by simp [hk])]
        rfl
  | finish k =>
    have hk : k ≠ j := beq_eq_false_iff_ne.mp he
    have hwork : (s.without j).work k = s.work k := Function.update_of_ne hk _ _
    have he' : ∀ action ce, Event.conn k (.finish action) ≠ .conn j ce := fun action ce h ↦ by
      cases h
      exact hk rfl
    rw [step, step, hwork]
    split
    · rw [show (s.without j).daemon = s.daemon.without j from rfl, Daemon.step_without (he' _),
        Option.map_map, Option.map_map]
      refine Option.map_congr fun daemon _ ↦ ?_
      dsimp only [Function.comp]
      rw [without_eq j daemon, Function.update_comm hk, filter_append_of_forall (by simp [hk])]
      rfl
    · rfl
  | reload e =>
    rw [step, step, show (s.without j).daemon.result = s.daemon.result from rfl]
    cases s.daemon.result with
    | some result => rfl
    | none =>
      dsimp only
      rw [Option.map_map]
      rfl

/-- In the beginning there is nothing to leave out. -/
theorem Service.without_start (state : AppState X (Evaluator X)) :
    (start state).without j = start state := by
  have hwork : Function.update (start state).work j none = (start state).work :=
    Function.update_eq_self _ _
  rw [without, hwork]
  rfl

/-- The others have done what they have done. -/
theorem Service.journalOf_without {k : ℕ} (hk : k ≠ j) :
    (s.without j).journalOf k = s.journalOf k := by
  rw [journalOf, journalOf, without]
  dsimp only
  rw [List.filter_filter]
  refine List.filter_congr fun a _ ↦ ?_
  by_cases ha : a.conn = k <;> simp [ha, hk]

/-- The others have written what they have written. -/
theorem Service.syslogOf_without {k : ℕ} (hk : k ≠ j) :
    (s.without j).syslogOf k = s.syslogOf k := by
  rw [syslogOf, syslogOf, without]
  dsimp only
  rw [List.filter_filter]
  refine congrArg (List.map Prod.snd) (List.filter_congr fun p _ ↦ ?_)
  by_cases hp : p.1 = k <;> simp [hp, hk]

/-- **A client is of no concern to the others**: if all that happens on its connection is left out
of a run, the rest is still a run.  It ends the same way and with the same state, and on every other
connection the same is received, handled, answered and logged.  After it everybody else can do just
what they can do anyway. -/
theorem Service.isolation {state : AppState X (Evaluator X)} {es : List (ServiceEvent X)}
    (h : (machine fromStr path).run (start state) es = some s) (j : ℕ) :
    ∃ t, (machine fromStr path).run (start state) (es.filter fun e ↦ !e.concerns j) = some t ∧
      t.daemon.result = s.daemon.result ∧ t.daemon.listeners = s.daemon.listeners ∧
      t.reloader = s.reloader ∧
      (∀ k, k ≠ j → t.daemon.conns[k]? = s.daemon.conns[k]? ∧ t.work k = s.work k ∧
        t.journalOf k = s.journalOf k ∧ t.syslogOf k = s.syslogOf k) ∧
      ∀ e, e.concerns j = false →
        (t.step fromStr path e).isSome = (s.step fromStr path e).isSome := by
  refine ⟨s.without j, ?_, rfl, rfl, rfl, fun k hk ↦ ⟨?_, ?_, ?_, ?_⟩, fun e he ↦ ?_⟩
  · rw [← without_start (j := j) state]
    refine Machine.run_filter (without j) _ (fun s e s' he hstep ↦ ?_) (fun s e s' he hstep ↦ ?_) h
    · have hconcerns : e.concerns j = false := Bool.not_eq_true' _ ▸ he
      exact (step_without hconcerns).trans (congrArg (Option.map (without j)) hstep)
    · exact without_of_step (Bool.not_eq_false' _ ▸ he) hstep
  · exact List.getElem?_set_ne hk.symm
  · exact Function.update_of_ne hk _ _
  · exact journalOf_without hk
  · exact syslogOf_without hk
  · rw [step_without he, Option.isSome_map]

end

/-- The first client of the sample is answered, and logged, as if there were no second one, whose
answer cannot be written. -/
theorem Service.isolation_sample :
    ∃ s t, (machine sampleFromStr "rspf.toml".toList).run (start sampleReloader.state)
        sampleService = some s ∧
      (machine sampleFromStr "rspf.toml".toList).run (start sampleReloader.state)
        (sampleService.filter fun e ↦ !e.concerns 1) = some t ∧
      s.journalOf 0 ≠ [] ∧ s.journalOf 1 ≠ [] ∧ t.journalOf 0 = s.journalOf 0 ∧
      t.syslogOf 0 = s.syslogOf 0 := by
  have hrun : (machine sampleFromStr "rspf.toml".toList).run (start sampleReloader.state)
      sampleService = some _ := run_sampleService rfl
  obtain ⟨t, ht, -, -, -, hothers, -⟩ := isolation hrun 1
  obtain ⟨-, -, hjournal, hsyslog⟩ := hothers 0 Nat.zero_ne_one
  exact ⟨_, t, hrun, ht, List.cons_ne_nil _ _, List.cons_ne_nil _ _, hjournal, hsyslog⟩

end Rspf
