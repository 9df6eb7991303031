import Rspf.Server.Answers

/-!
# Overrides and the DNS

Configured overrides are meant to be a zone of their own, in front of the DNS.  For one resolver
`AnswersAsPatched` says so.  Here it is said of the whole service: a service with overrides and one
without, which asks a DNS that has them in its zone, take the same steps in all circumstances, send
the same answers and write the same log.

The two are related step by step.  The evaluator and the DNS enter a step only through the checks
they make (`Service.step_meeting`), and these are the same for both (`Evaluator.checks_plain`),
since what a resolver with overrides answers is determined by what the one below it answers
(`AnswersAsPatched.unique`).

The overrides are those of the start.  A reload may change the section of the configuration, but not
the evaluator, so for this it makes no difference what it loads.
-/

set_option autoImplicit false

namespace Rspf

variable {X : Crates}

/-! ## Another evaluator -/

/-- The task with another evaluator in the state. -/
def Reloader.withEvaluator {E : Type} (r : Reloader X E) (evaluator : E) : Reloader X E :=
  { r with state := { r.state with evaluator } }

/-- A request that meets something else outside. -/
def Work.meeting (world : Outside X → Outside X) (w : Work X) : Work X :=
  { w with outside := world w.outside }

/-- A request that has met something else outside. -/
def Handled.meeting (world : Outside X → Outside X) (a : Handled X) : Handled X :=
  { a with outside := world a.outside }

/-- An event, where a request meets something else outside. -/
def ServiceEvent.meeting (world : Outside X → Outside X) : ServiceEvent X → ServiceEvent X
  | .take j outside => .take j (world outside)
  | e => e

/-- The service with another evaluator, whose requests meet something else outside. -/
def Service.meeting (world : Outside X → Outside X) (evaluator : Evaluator X) (s : Service X) :
    Service X :=
  { s with
    reloader := s.reloader.withEvaluator evaluator
    work := fun j ↦ (s.work j).map (Work.meeting world)
    journal := s.journal.map (Handled.meeting world) }

section

variable {fromStr : Str → Except X.TomlError (Config X)} {path : Str}

/-- A reload does not use the evaluator. -/
theorem Reloader.step_withEvaluator {E : Type} (r : Reloader X E) (evaluator : E)
    (e : ReloadEvent) :
    (r.withEvaluator evaluator).step fromStr path e =
      (r.step fromStr path e).map (withEvaluator · evaluator) := by
  rw [Reloader.step.eq_def, Reloader.step.eq_def, withEvaluator]
  dsimp only
  split
  · rfl
  · split <;> rfl
  · split <;> rfl
  · rfl
  · rfl
  · rfl

theorem map_update {α β : Type} (f : α → β) (w : ℕ → Option α) (j : ℕ) (v : Option α) :
    (fun k ↦ (Function.update w j v k).map f) =
      Function.update (fun k ↦ (w k).map f) j (v.map f) := by
  funext k
  rw [Function.update_apply, Function.update_apply]
  split <;> rfl

/-- **The service only uses the evaluator and the DNS to make the checks.** -/
theorem Service.step_meeting {world : Outside X → Outside X} {ev ev' : Evaluator X}
    (hnow : ∀ o, (world o).now = o.now) (hchecks : ∀ o, ev'.checks (world o) = ev.checks o)
    (s : Service X) (hs : s.reloader.state.evaluator = ev) (e : ServiceEvent X) :
    (s.meeting world ev').step fromStr path (e.meeting world) =
      (s.step fromStr path e).map (meeting world ev') := by
  cases e with
  | daemon e =>
    show (if e.handles then none else _) = Option.map _ (if e.handles then none else _)
    cases e.handles with
    | true => rfl
    | false =>
      rw [if_neg Bool.false_ne_true, if_neg Bool.false_ne_true, Option.map_map]
      rfl
  | take j outside =>
    show Option.map _ _ = Option.map _ (Option.map _ _)
    rw [Option.map_map]
    refine congrArg (Option.map · _) (funext fun daemon ↦ ?_)
    rw [Function.comp_apply]
    dsimp only [meeting]
    rw [map_update, Option.map_map]
    rfl
  | work j =>
    show Service.step fromStr path _ (.work j) = _
    rw [step, step]
    dsimp only [meeting]
    cases s.daemon.result with
    | some result => rfl
    | none =>
      cases hw : s.work j with
      | none => rfl
      | some w =>
        dsimp only [Option.map_some, Work.meeting]
        have hstep : w.progress.step ((s.reloader.withEvaluator ev').state.evaluator.checks
            (world w.outside)) (world w.outside).now w.req (s.reloader.withEvaluator ev').cells =
            w.progress.step (s.reloader.state.evaluator.checks w.outside) w.outside.now w.req
              s.reloader.cells := by
          rw [hs, hnow, ← hchecks]
          rfl
        rw [hstep, hnow, Option.map_map]
        refine congrArg (Option.map · _) (funext fun progress ↦ ?_)
        rw [Function.comp_apply, meeting, map_update]
        rfl
  | finish j =>
    show Service.step fromStr path _ (.finish j) = _
    rw [step, step]
    dsimp only [meeting]
    cases hw : s.work j with
    | none => rfl
    | some w =>
      obtain ⟨req, outside, taken, progress, lines⟩ := w
      dsimp only [Option.map_some, Work.meeting]
      cases progress with
      | answered action =>
        dsimp only
        rw [Option.map_map]
        refine congrArg (Option.map · _) (funext fun daemon ↦ ?_)
        rw [Function.comp_apply]
        rw [meeting, map_update, List.map_append]
        rfl
      | start | passedConfig | passedWhitelist | loaded | evaluated => rfl
  | reload e =>
    show Service.step fromStr path _ (.reload e) = _
    rw [step, step]
    dsimp only [meeting]
    cases s.daemon.result with
    | some result => rfl
    | none =>
      dsimp only
      rw [Reloader.step_withEvaluator, Option.map_map, Option.map_map]
      rfl

end

/-! ## Overrides -/

/-- A resolver that answers so is determined. -/
theorem AnswersAsPatched.unique {m : Type → Type} [Monad m] {overrides : StrMap}
    {inner lookup lookup' : X.Resolver m} (h : AnswersAsPatched overrides inner lookup)
    (h' : AnswersAsPatched overrides inner lookup') : lookup = lookup' := by
  have htxt : lookup.lookupTxt = lookup'.lookupTxt := by
    funext name
    by_cases hname : ∃ e ∈ overrides.entries, Text.lower e.1 = Text.lower (X.nameToString name)
    · obtain ⟨e, he, hkey⟩ := hname
      rw [h.overridden name e he hkey, h'.overridden name e he hkey]
    · have hother : ∀ k ∈ overrides.keys, Text.lower k ≠ Text.lower (X.nameToString name) := by
        intro k hk hkey
        obtain ⟨e, he, rfl⟩ := List.mem_map.mp hk
        exact hname ⟨e, he, hkey⟩
      rw [h.other name hother, h'.other name hother]
  have ha := h.lookupA.trans h'.lookupA.symm
  have haaaa := h.lookupAaaa.trans h'.lookupAaaa.symm
  have hmx := h.lookupMx.trans h'.lookupMx.symm
  have hptr := h.lookupPtr.trans h'.lookupPtr.symm
  cases lookup
  cases lookup'
  cases ha
  cases haaaa
  cases hmx
  cases hptr
  cases htxt
  rfl

/-- The evaluator without its overrides. -/
def Evaluator.plain (ev : Evaluator X) : Evaluator X :=
  { ev with lookup := { ev.lookup with overrides := ∅ } }

/-- What is outside, with the overrides in the DNS. -/
structure Outside.Patched (overrides : StrMap) (outside patched : Outside X) : Prop where
  now : patched.now = outside.now
  helo : ∀ resolver,
    AnswersAsPatched overrides (outside.heloDns resolver) (patched.heloDns resolver)
  mailFrom : ∀ resolver,
    AnswersAsPatched overrides (outside.mailFromDns resolver) (patched.mailFromDns resolver)

/-- Where overrides work, the checks find what they find in a DNS that has them. -/
theorem Evaluator.checks_plain {ev : Evaluator X} {outside patched : Outside X}
    (hlower : QueryableKeysLower X ev.lookup.overrides)
    (h : outside.Patched ev.lookup.overrides patched) :
    ev.plain.checks patched = ev.checks outside := by
  have hpatched : ∀ {dns zone : X.Resolver Id}, AnswersAsPatched ev.lookup.overrides dns zone →
      OverrideLookup.toLookup ⟨dns, ev.lookup.overrides⟩ = zone := by
    intro dns zone hzone
    let l : OverrideLookup X Id := ⟨dns, ev.lookup.overrides⟩
    have hl : AnswersAsPatched ev.lookup.overrides dns l.toLookup :=
      OverrideLookup.answersAsPatched (l := l) hlower
    exact hl.unique hzone
  let inner := ev.lookup.inner
  show PureChecks.mk _ _ = PureChecks.mk _ _
  congr 1
  · show SpfEvaluator.checkHelo ⟨patched.heloDns inner, ev.config⟩ =
      SpfEvaluator.checkHelo
        ⟨OverrideLookup.toLookup ⟨outside.heloDns inner, ev.lookup.overrides⟩, ev.config⟩
    rw [hpatched (h.helo inner)]
  · show SpfEvaluator.checkMailFrom ⟨patched.mailFromDns inner, ev.config⟩ =
      SpfEvaluator.checkMailFrom
        ⟨OverrideLookup.toLookup ⟨outside.mailFromDns inner, ev.lookup.overrides⟩, ev.config⟩
    rw [hpatched (h.mailFrom inner)]

/-- **Overrides are a zone.**  If their keys are in lower case, a service with overrides does in all
circumstances what the same service does without them, when it asks a DNS that has them in its zone:

* whatever can happen next can happen to the other one;
* what is received, taken, answered and written is the same;
* so are the log and the versions in the cells, whatever is reloaded. -/
theorem Service.overrides_as_zone {fromStr : Str → Except X.TomlError (Config X)} {path : Str}
    {fs fs' : FileSystem} {fromSystemConf : Except X.ResolveError (X.Resolver Id)} {cfg : Config X}
    {state : AppState X (Evaluator X)} {patch : Outside X → Outside X}
    (hload : Config.load fs fromStr path = pure cfg)
    (hnew : AppState.new fromSystemConf fs' cfg = .ok state)
    (hlower : QueryableKeysLower X cfg.overrides)
    (hpatch : ∀ outside : Outside X, outside.Patched cfg.overrides (patch outside))
    (es : List (ServiceEvent X)) :
    (∀ s, (machine fromStr path).run (start state) es = some s →
      ∃ t, (machine fromStr path).run (start { state with evaluator := state.evaluator.plain })
          (es.map (.meeting patch)) = some t ∧
        t.daemon = s.daemon ∧ t.syslog = s.syslog ∧ t.reloader.cells = s.reloader.cells ∧
        t.journal.map Handled.reply = s.journal.map Handled.reply) ∧
    ((machine fromStr path).run (start state) es = none →
      (machine fromStr path).run (start { state with evaluator := state.evaluator.plain })
        (es.map (.meeting patch)) = none) := by
  have hoverrides : state.evaluator.lookup.overrides = cfg.overrides := by
    obtain ⟨_, _, -, -, rfl⟩ := AppState.new_eq_ok_iff.mp hnew
    rfl
  rw [← hoverrides] at hlower hpatch
  have hrun : (machine fromStr path).run (start { state with evaluator := state.evaluator.plain })
      (es.map (.meeting patch)) =
        ((machine fromStr path).run (start state) es).map (meeting patch state.evaluator.plain) :=
    Machine.run_map (meeting patch state.evaluator.plain) (ServiceEvent.meeting patch)
      (P := fun s ↦ s.Inv fromStr path state.evaluator) (fun _ _ _ hs h ↦ hs.step h)
      (fun s e hs ↦ step_meeting (fun o ↦ (hpatch o).now)
        (fun o ↦ Evaluator.checks_plain hlower (hpatch o)) s hs.reloader.evaluator_eq e)
      (inv_start hload hnew) es
  refine ⟨fun s hs ↦ ?_, fun hnone ↦ ?_⟩
  · rw [hs] at hrun
    refine ⟨_, hrun, rfl, rfl, rfl, ?_⟩
    show (s.journal.map (Handled.meeting patch)).map Handled.reply = _
    rw [List.map_map]
    rfl
  · rw [hrun, hnone]
    rfl

/-- The sample, without its override, in front of a DNS that has the record: the first request asks
for it when its sender is checked. -/
theorem Service.overrides_as_zone_sample :
    let zone (dns : Crates.sample.Resolver Id) : Crates.sample.Resolver Id :=
      OverrideLookup.toLookup ⟨dns, (overrideConfig "example.com".toList).overrides⟩
    let patch (o : Outside Crates.sample) : Outside Crates.sample :=
      ⟨o.now, fun resolver ↦ zone (o.heloDns resolver),
        fun resolver ↦ zone (o.mailFromDns resolver)⟩
    let asks (o : Outside Crates.sample) : Except Unit (List Str) :=
      (o.mailFromDns (emptyLookup Crates.sample)).lookupTxt "example.com".toList
    let plain : Evaluator Crates.sample := Evaluator.plain sampleReloader.state.evaluator
    asks sampleOutside = .ok [] ∧ asks (patch sampleOutside) = .ok ["v=spf1 +all".toList] ∧
    ∃ s t, (machine sampleFromStr "rspf.toml".toList).run (start sampleReloader.state)
        sampleService = some s ∧
      (machine sampleFromStr "rspf.toml".toList).run
        (start { sampleReloader.state with evaluator := plain })
        (sampleService.map (.meeting patch)) = some t ∧
      t.syslog = s.syslog ∧ s.syslogOf 0 ≠ [] := by
  intro zone patch asks plain
  have hlower : QueryableKeysLower Crates.sample
      (overrideConfig "example.com".toList).overrides := by
    intro k hk name _
    obtain rfl := List.mem_singleton.mp hk
    decide
  have hzone : ∀ dns, AnswersAsPatched (overrideConfig "example.com".toList).overrides dns
      (zone dns) := fun dns ↦ OverrideLookup.answersAsPatched (l := ⟨dns, _⟩) hlower
  have hpatch : ∀ o, Outside.Patched (overrideConfig "example.com".toList).overrides o (patch o) :=
    fun _ ↦ ⟨rfl, fun _ ↦ hzone _, fun _ ↦ hzone _⟩
  have hrun : (machine sampleFromStr "rspf.toml".toList).run (start sampleReloader.state)
      sampleService = some _ := run_sampleService rfl
  obtain ⟨hsome, -⟩ := overrides_as_zone load_sampleFiles_old new_sampleReloader hlower hpatch
    sampleService
  obtain ⟨t, ht, -, hsyslog, -⟩ := hsome _ hrun
  exact ⟨rfl, rfl, _, t, hrun, ht, hsyslog, List.cons_ne_nil _ _⟩

end Rspf
