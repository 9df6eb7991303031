import Rspf.Server.Reload
import Rspf.Server.State

/-!
# Reloading on a signal

`spawn_reload_on_sighup` waits for a signal, loads the configuration and then the whitelist it
describes, and stores them in the opposite order.  Loading can go wrong in many places: the file
system may fail, the text may not parse or not pass validation, and any file of the whitelist may
be missing or at fault.  And the files may be different whenever they are read, since whoever sends
the signal may still be writing them.

`Reloader.machine` has an event for each signal, with the files that are there when the
configuration is loaded, one for the whitelist, with the files then, and one for each store.  So an
event carries all that the outside decides, and the steps are functions.

* `Reloader.Did` is what a step can do, once and for all; everything else is derived from it.
* `Reloader.Inv` is what holds at all times: the cells hold what was loaded, and the task is about
  to store what it has loaded.
* `Reloader.reload_spec` reads off it what an operator wants to know: the cells hold what one load
  gave, except between the two stores, when the whitelist is that of the next load already; and a
  failed reload changes nothing.
-/

set_option autoImplicit false

namespace Rspf

variable {X : Crates} {m : Type → Type} {E : Type}

/-! ## The machine -/

/-- How far the task of `spawn_reload_on_sighup` is. -/
inductive ReloadTask (X : Crates) where
  | waiting
  /-- It has a configuration, and is about to load the whitelist. -/
  | loadedConfig (newConfig : Config X)
  /-- It has both, and is about to store the whitelist. -/
  | loaded (newConfig : Config X) (newWhitelist : Whitelist X)
  /-- It has stored the whitelist, and is about to store the configuration. -/
  | storedWhitelist (newConfig : Config X)
  | returned

/-- The task, and the state it changes. -/
structure Reloader (X : Crates) (E : Type) where
  state : AppState X E
  task : ReloadTask X := .waiting

/-- What the task can do next. -/
inductive ReloadEvent where
  /-- There is a signal, and the configuration is loaded from these files. -/
  | sighup (fs : FileSystem)
  | loadWhitelist (fs : FileSystem)
  | storeWhitelist
  | storeConfig
  /-- There will be no more signals. -/
  | closed

/-- One step of the task.  A panic would end it. -/
def Reloader.step (fromStr : Str → Except X.TomlError (Config X)) (path : Str) (s : Reloader X E)
    (e : ReloadEvent) : Option (Reloader X E) :=
  match s.task, e with
  | .waiting, .closed => some { s with task := .returned }
  | .waiting, .sighup fs =>
    match (Config.load fs fromStr path).run with
    | some (.ok newConfig) => some { s with task := .loadedConfig newConfig }
    | some (.error _) => some s
    | none => some { s with task := .returned }
  | .loadedConfig newConfig, .loadWhitelist fs =>
    match Whitelist.load fs newConfig.whitelist with
    | .ok newWhitelist => some { s with task := .loaded newConfig newWhitelist }
    | .error _ => some { s with task := .waiting }
  | .loaded newConfig newWhitelist, .storeWhitelist =>
    some ⟨{ s.state with whitelist := newWhitelist }, .storedWhitelist newConfig⟩
  | .storedWhitelist newConfig, .storeConfig =>
    some ⟨{ s.state with config := newConfig }, .waiting⟩
  | _, _ => none

/-- The task. -/
def Reloader.machine (E : Type) (fromStr : Str → Except X.TomlError (Config X)) (path : Str) :
    Machine (Reloader X E) ReloadEvent :=
  ⟨Reloader.step fromStr path⟩

/-- What the cells hold. -/
def Reloader.cells (s : Reloader X E) : Version X := ⟨s.state.config, s.state.whitelist⟩

/-- The version that a step completes the loading of, if it does. -/
def Reloader.completed (s : Reloader X E) (e : ReloadEvent) : Option (Version X) :=
  match s.task, e with
  | .loadedConfig newConfig, .loadWhitelist fs =>
    match Whitelist.load fs newConfig.whitelist with
    | .ok newWhitelist => some ⟨newConfig, newWhitelist⟩
    | .error _ => none
  | _, _ => none

/-! ## What a step does -/

section

variable {fromStr : Str → Except X.TomlError (Config X)} {path : Str}

/-- What a step does, and the version it completes the loading of. -/
inductive Reloader.Did (fromStr : Str → Except X.TomlError (Config X)) (path : Str)
    (s : Reloader X E) : ReloadEvent → Option (Version X) → Reloader X E → Prop where
  | closed : s.task = .waiting → s.Did fromStr path .closed none { s with task := .returned }
  | noConfig {fs : FileSystem} {source : ConfigError X} : s.task = .waiting →
      Config.load fs fromStr path = throw source → s.Did fromStr path (.sighup fs) none s
  | config {fs : FileSystem} {newConfig : Config X} : s.task = .waiting →
      Config.load fs fromStr path = pure newConfig →
      s.Did fromStr path (.sighup fs) none { s with task := .loadedConfig newConfig }
  | noWhitelist {fs : FileSystem} {newConfig : Config X} {source : WhitelistError X} :
      s.task = .loadedConfig newConfig → Whitelist.load fs newConfig.whitelist = .error source →
      s.Did fromStr path (.loadWhitelist fs) none { s with task := .waiting }
  | whitelist {fs : FileSystem} {newConfig : Config X} {newWhitelist : Whitelist X} :
      s.task = .loadedConfig newConfig → Whitelist.load fs newConfig.whitelist = .ok newWhitelist →
      s.Did fromStr path (.loadWhitelist fs) (some ⟨newConfig, newWhitelist⟩)
        { s with task := .loaded newConfig newWhitelist }
  | storeWhitelist {newConfig : Config X} {newWhitelist : Whitelist X} :
      s.task = .loaded newConfig newWhitelist →
      s.Did fromStr path .storeWhitelist none
        ⟨{ s.state with whitelist := newWhitelist }, .storedWhitelist newConfig⟩
  | storeConfig {newConfig : Config X} : s.task = .storedWhitelist newConfig →
      s.Did fromStr path .storeConfig none ⟨{ s.state with config := newConfig }, .waiting⟩

/-- **What a step does.**  In particular it never panics. -/
theorem Reloader.did_of_step {s s' : Reloader X E} {e : ReloadEvent}
    (h : s.step fromStr path e = some s') : s.Did fromStr path e (s.completed e) s' := by
  rw [Reloader.step.eq_def] at h
  rw [Reloader.completed.eq_def]
  split at h
  · rename_i htask
    obtain rfl := Option.some.inj h
    rw [htask]
    exact .closed htask
  · rename_i fs htask
    rw [htask]
    split at h
    · rename_i newConfig hload
      obtain rfl := Option.some.inj h
      exact .config htask hload
    · rename_i source hload
      obtain rfl := Option.some.inj h
      exact .noConfig htask hload
    · rename_i hload
      exact absurd hload (Config.load_ne_panicked fs fromStr path)
  · rename_i newConfig fs htask
    rw [htask]
    split at h
    · rename_i newWhitelist hload
      obtain rfl := Option.some.inj h
      dsimp only
      rw [hload]
      exact .whitelist htask hload
    · rename_i source hload
      obtain rfl := Option.some.inj h
      dsimp only
      rw [hload]
      exact .noWhitelist htask hload
  · rename_i htask
    obtain rfl := Option.some.inj h
    rw [htask]
    exact .storeWhitelist htask
  · rename_i htask
    obtain rfl := Option.some.inj h
    rw [htask]
    exact .storeConfig htask
  · exact absurd h nofun

/-! ## What the cells hold -/

/-- A version that was loaded, from the configuration file and the files this one lists. -/
structure Version.Loaded (fromStr : Str → Except X.TomlError (Config X)) (path : Str)
    (v : Version X) : Prop where
  /-- The configuration was loaded from its file. -/
  config : ∃ fs, Config.load fs fromStr path = pure v.config
  /-- The whitelist is what its section loads to, and all of it. -/
  whitelist : ∃ fs, Whitelist.load fs v.config.whitelist = .ok v.whitelist

/-- What was loaded passed validation. -/
theorem Version.Loaded.validate {v : Version X} (h : v.Loaded fromStr path) :
    v.config.validate = pure () := by
  obtain ⟨fs, hload⟩ := h.config
  obtain ⟨-, -, -, hvalid⟩ := Config.load_eq_pure_iff.mp hload
  exact hvalid

/-- What the cells hold at each stage, where these versions were loaded, the latest first. -/
def ReloadTask.Agrees (fromStr : Str → Except X.TomlError (Config X)) (path : Str)
    (loads : List (Version X)) (cells : Version X) : ReloadTask X → Prop
  | waiting => loads.head? = some cells
  | loadedConfig newConfig =>
    loads.head? = some cells ∧ ∃ fs, Config.load fs fromStr path = pure newConfig
  | loaded newConfig newWhitelist =>
    ∃ earlier, loads = ⟨newConfig, newWhitelist⟩ :: cells :: earlier
  | storedWhitelist newConfig =>
    ∃ new old earlier, loads = new :: old :: earlier ∧ new.config = newConfig ∧
      cells = old.after new 1
  | returned => loads.head? = some cells

/-- What is true of the task at all times. -/
structure Reloader.Inv (fromStr : Str → Except X.TomlError (Config X)) (path : Str) (evaluator : E)
    (loads : List (Version X)) (s : Reloader X E) : Prop where
  /-- What was loaded was loaded completely. -/
  loaded : ∀ v ∈ loads, v.Loaded fromStr path
  agrees : s.task.Agrees fromStr path loads s.cells
  evaluator_eq : s.state.evaluator = evaluator

/-- **A step keeps the invariant.** -/
theorem Reloader.Inv.step {evaluator : E} {loads : List (Version X)} {s s' : Reloader X E}
    {e : ReloadEvent} (hs : s.Inv fromStr path evaluator loads)
    (h : s.step fromStr path e = some s') :
    s'.Inv fromStr path evaluator ((s.completed e).toList ++ loads) := by
  have hagrees := hs.agrees
  have hdid := did_of_step h
  generalize s.completed e = done at hdid ⊢
  cases hdid with
  | closed htask =>
    rw [htask] at hagrees
    exact ⟨hs.loaded, hagrees, hs.evaluator_eq⟩
  | noConfig htask hload => exact hs
  | config htask hload =>
    rw [htask] at hagrees
    exact ⟨hs.loaded, ⟨hagrees, _, hload⟩, hs.evaluator_eq⟩
  | noWhitelist htask hload =>
    rw [htask] at hagrees
    exact ⟨hs.loaded, hagrees.1, hs.evaluator_eq⟩
  | whitelist htask hload =>
    rw [htask] at hagrees
    obtain ⟨hhead, hconfig⟩ := hagrees
    obtain ⟨earlier, rfl⟩ := List.head?_eq_some_iff.mp hhead
    refine ⟨fun v hv ↦ ?_, ⟨earlier, rfl⟩, hs.evaluator_eq⟩
    rcases List.mem_cons.mp hv with rfl | hv
    · exact ⟨hconfig, _, hload⟩
    · exact hs.loaded v hv
  | storeWhitelist htask =>
    rw [htask] at hagrees
    obtain ⟨earlier, rfl⟩ := hagrees
    exact ⟨hs.loaded, ⟨_, s.cells, earlier, rfl, rfl, rfl⟩, hs.evaluator_eq⟩
  | storeConfig htask =>
    rw [htask] at hagrees
    obtain ⟨new, old, earlier, rfl, rfl, hcells⟩ := hagrees
    refine ⟨hs.loaded, ?_, hs.evaluator_eq⟩
    show some new = some ⟨new.config, s.cells.whitelist⟩
    rw [hcells]
    rfl

/-- Between reloads the versions loaded before may be forgotten. -/
theorem Reloader.Inv.restart {evaluator : E} {loads : List (Version X)} {s : Reloader X E}
    (hs : s.Inv fromStr path evaluator loads) (hwaiting : s.task = .waiting) :
    s.Inv fromStr path evaluator [s.cells] := by
  have hagrees := hs.agrees
  rw [hwaiting] at hagrees
  refine ⟨fun v hv ↦ ?_, by rw [hwaiting]; rfl, hs.evaluator_eq⟩
  rw [List.mem_singleton.mp hv]
  exact hs.loaded _ (List.mem_of_head? hagrees)

variable {loads : List (Version X)} {cells : Version X} {task : ReloadTask X}

/-- The whitelist is at most one load ahead of the configuration. -/
theorem ReloadTask.Agrees.head_or_ahead (h : task.Agrees fromStr path loads cells) :
    loads.head? = some cells ∨
      ∃ new old earlier, loads = new :: old :: earlier ∧
        (cells = old ∨ cells = old.after new 1) := by
  cases task with
  | waiting | returned => exact .inl h
  | loadedConfig newConfig => exact .inl h.1
  | loaded newConfig newWhitelist =>
    obtain ⟨earlier, rfl⟩ := h
    exact .inr ⟨_, _, earlier, rfl, .inl rfl⟩
  | storedWhitelist newConfig =>
    obtain ⟨new, old, earlier, rfl, -, rfl⟩ := h
    exact .inr ⟨new, old, earlier, rfl, .inr rfl⟩

/-- Each of the cells holds a part of something that was loaded. -/
theorem ReloadTask.Agrees.exists_mem (h : task.Agrees fromStr path loads cells) :
    (∃ v ∈ loads, v.config = cells.config) ∧ ∃ v ∈ loads, v.whitelist = cells.whitelist := by
  rcases h.head_or_ahead with h | ⟨new, old, earlier, rfl, rfl | rfl⟩
  · have hmem := List.mem_of_head? h
    exact ⟨⟨cells, hmem, rfl⟩, cells, hmem, rfl⟩
  · exact ⟨⟨cells, by simp, rfl⟩, cells, by simp, rfl⟩
  · exact ⟨⟨old, by simp, rfl⟩, new, by simp, rfl⟩

/-- Where only one version was ever loaded, the cells hold it. -/
theorem ReloadTask.Agrees.eq_of_singleton {v : Version X}
    (h : task.Agrees fromStr path [v] cells) : cells = v := by
  rcases h.head_or_ahead with h | ⟨new, old, earlier, h, -⟩
  · exact (Option.some.inj h).symm
  · exact absurd h (by simp)

end

/-! ## Runs -/

/-- The versions that were loaded in a run, the latest first: those of its reloads, and the one it
started with. -/
def Reloader.loads (fromStr : Str → Except X.TomlError (Config X)) (path : Str)
    (start : Reloader X E) (es : List ReloadEvent) : List (Version X) :=
  (machine E fromStr path).trace completed start es ++ [start.cells]

section

variable {fromStr : Str → Except X.TomlError (Config X)} {path : Str} {evaluator : E}
  {s t : Reloader X E} {es : List ReloadEvent}

/-- **All states of all runs meet the invariant.** -/
theorem Reloader.Inv.run (hs : s.Inv fromStr path evaluator [s.cells])
    (hrun : (machine E fromStr path).run s es = some t) :
    t.Inv fromStr path evaluator (loads fromStr path s es) :=
  Machine.invariant_trace (P := fun loads s ↦ s.Inv fromStr path evaluator loads)
    (fun _ _ _ _ hs hstep ↦ hs.step hstep) hs hrun

/-- **A failed reload changes nothing**: the cells stay the same until something is loaded
completely. -/
theorem Reloader.cells_eq_of_trace_eq_nil {loads : List (Version X)}
    (hs : s.Inv fromStr path evaluator loads) (hwaiting : s.task = .waiting)
    (hrun : (machine E fromStr path).run s es = some t)
    (hfailed : (machine E fromStr path).trace completed s es = []) : t.cells = s.cells := by
  have hinv := (hs.restart hwaiting).run hrun
  rw [Reloader.loads, hfailed, List.nil_append] at hinv
  exact hinv.agrees.eq_of_singleton

/-- A configuration that loads is taken. -/
theorem Reloader.step_sighup {fs : FileSystem} {newConfig : Config X} (hwaiting : s.task = .waiting)
    (hload : Config.load fs fromStr path = pure newConfig) :
    (machine E fromStr path).step s (.sighup fs) =
      some { s with task := .loadedConfig newConfig } := by
  show Reloader.step fromStr path s (.sighup fs) = _
  rw [Reloader.step.eq_def, hwaiting]
  dsimp only
  rw [hload]
  rfl

end

/-- The daemon as it starts meets the invariant. -/
theorem Reloader.inv_start {fs fs' : FileSystem} {fromStr : Str → Except X.TomlError (Config X)}
    {path : Str} {fromSystemConf : Except X.ResolveError (X.Resolver m)} {cfg : Config X}
    {state : AppState X (SpfEvaluator (OverrideLookup X m))}
    (hload : Config.load fs fromStr path = pure cfg)
    (hnew : AppState.new fromSystemConf fs' cfg = .ok state) :
    (⟨state, .waiting⟩ : Reloader X _).Inv fromStr path state.evaluator
      [⟨state.config, state.whitelist⟩] := by
  obtain ⟨inner, whitelist, -, hwhitelist, rfl⟩ := AppState.new_eq_ok_iff.mp hnew
  refine ⟨fun v hv ↦ ?_, rfl, rfl⟩
  rw [List.mem_singleton.mp hv]
  exact ⟨⟨fs, hload⟩, fs', hwhitelist⟩

/-- **Reloads.**  Whatever the files are whenever they are read, at all times

* everything that counts as loaded was loaded completely;
* the configuration passed validation;
* the whitelist is all of what the section of such a configuration loads to;
* between reloads the cells hold what was loaded last;
* during a reload the whitelist is at most one load ahead of the configuration;
* the cells are as they were before the reloads that have failed since;
* the evaluator is the one of the start, with the overrides and the limits of that time. -/
theorem Reloader.reload_spec {fs fs' : FileSystem} {fromStr : Str → Except X.TomlError (Config X)}
    {path : Str} {fromSystemConf : Except X.ResolveError (X.Resolver m)} {cfg : Config X}
    {state : AppState X (SpfEvaluator (OverrideLookup X m))}
    (hload : Config.load fs fromStr path = pure cfg)
    (hnew : AppState.new fromSystemConf fs' cfg = .ok state)
    {es : List ReloadEvent} {t : Reloader X (SpfEvaluator (OverrideLookup X m))}
    (hrun : (machine _ fromStr path).run ⟨state, .waiting⟩ es = some t) :
    (∀ v ∈ loads fromStr path ⟨state, .waiting⟩ es, v.Loaded fromStr path) ∧
    t.state.config.validate = pure () ∧
    (∃ v ∈ loads fromStr path ⟨state, .waiting⟩ es, v.config.validate = pure () ∧
      ∃ files, Whitelist.load files v.config.whitelist = .ok t.state.whitelist) ∧
    (t.task = .waiting ∨ t.task = .returned →
      (loads fromStr path ⟨state, .waiting⟩ es).head? = some t.cells) ∧
    ((loads fromStr path ⟨state, .waiting⟩ es).head? = some t.cells ∨
      ∃ new old earlier, loads fromStr path ⟨state, .waiting⟩ es = new :: old :: earlier ∧
        (t.cells = old ∨ t.cells = old.after new 1)) ∧
    (∀ as bs u, es = as ++ bs → (machine _ fromStr path).run ⟨state, .waiting⟩ as = some u →
      u.task = .waiting → (machine _ fromStr path).trace completed u bs = [] →
      t.cells = u.cells) ∧
    t.state.evaluator = state.evaluator ∧
    t.state.evaluator.lookup.overrides = cfg.overrides ∧
    t.state.evaluator.config =
      ⟨cfg.spf.maxLookups, cfg.spf.voidLimit, cfg.spf.lookupTimeoutSecs⟩ := by
  have hstart := inv_start hload hnew
  have hinv : t.Inv fromStr path state.evaluator (loads fromStr path ⟨state, .waiting⟩ es) :=
    hstart.run hrun
  obtain ⟨⟨v, hv, hconfig⟩, w, hw, hwhitelist⟩ := hinv.agrees.exists_mem
  have heval := hinv.evaluator_eq
  obtain ⟨inner, whitelist, -, -, hstate⟩ := AppState.new_eq_ok_iff.mp hnew
  refine ⟨hinv.loaded, ?_, ?_, fun hidle ↦ ?_, hinv.agrees.head_or_ahead, ?_, heval, ?_, ?_⟩
  · rw [show t.state.config = v.config from hconfig.symm]
    exact (hinv.loaded v hv).validate
  · obtain ⟨files, hfiles⟩ := (hinv.loaded w hw).whitelist
    rw [show t.state.whitelist = w.whitelist from hwhitelist.symm]
    exact ⟨w, hw, (hinv.loaded w hw).validate, files, hfiles⟩
  · have hagrees := hinv.agrees
    rcases hidle with htask | htask <;> rw [htask] at hagrees <;> exact hagrees
  · rintro as bs u rfl has hwaiting hfailed
    obtain ⟨u', hu', hbs⟩ := (Machine.run_append_eq_some _).mp hrun
    obtain rfl := Option.some.inj (has.symm.trans hu')
    have hu : u.Inv fromStr path state.evaluator (loads fromStr path ⟨state, .waiting⟩ as) :=
      hstart.run has
    exact cells_eq_of_trace_eq_nil hu hwaiting hbs hfailed
  · rw [heval, hstate]
    rfl
  · rw [heval, hstate]
    rfl

/-- A configuration that also lists a file. -/
def listingConfig : Config Crates.sample :=
  { overrideConfig "example.net".toList with whitelist := { files := ["list".toList] } }

/-- There are two configurations to be loaded. -/
def sampleFromStr (raw : Str) : Except Crates.sample.TomlError (Config Crates.sample) :=
  if raw = "old".toList then .ok (overrideConfig "example.com".toList)
  else if raw = "new".toList then .ok listingConfig
  else .error ()

/-- Files with these contents. -/
def sampleFiles (rspfToml list : String) : FileSystem := fun path ↦
  .ok (if path = "list".toList then list.toList else rspfToml.toList)

/-- The daemon with the first of them. -/
def sampleReloader : Reloader Crates.sample (SpfEvaluator (OverrideLookup Crates.sample Id)) where
  state :=
    { config := overrideConfig "example.com".toList
      whitelist := ⟨⟨[]⟩, [], [], []⟩
      evaluator := SpfEvaluator.new
        ⟨emptyLookup Crates.sample, (overrideConfig "example.com".toList).overrides⟩ {} }

/-- Two reloads that fail, and one that has come as far as storing the whitelist. -/
def sampleReloads : List ReloadEvent :=
  [.sighup (sampleFiles "broken" ""), .sighup (sampleFiles "new" ""),
    .loadWhitelist (sampleFiles "new" "gibberish"), .sighup (sampleFiles "new" ""),
    .loadWhitelist (sampleFiles "new" "helo:mx.example.net"), .storeWhitelist]

/-- Between its stores the whitelist is new already. -/
theorem Reloader.reload_spec_sample :
    ∃ t, (machine _ sampleFromStr "rspf.toml".toList).run sampleReloader sampleReloads = some t ∧
      t.state.whitelist.heloNames = ["mx.example.net".toList] ∧
      t.state.config.validate = pure () ∧
      t.state.evaluator.lookup.overrides = (overrideConfig "example.com".toList).overrides := by
  have hold : Config.load (sampleFiles "old" "") sampleFromStr "rspf.toml".toList =
      pure (overrideConfig "example.com".toList) :=
    Config.load_eq_pure_iff.mpr ⟨_, rfl, rfl, validate_overrideConfig _⟩
  have hlisting : Config.load (sampleFiles "new" "") sampleFromStr "rspf.toml".toList =
      pure listingConfig := by
    refine Config.load_eq_pure_iff.mpr ⟨_, rfl, rfl, ?_⟩
    exact Config.validate_eq_ok_iff.mpr (Config.validate_eq_ok_iff.mp (validate_overrideConfig _))
  have hsighup := step_sighup (E := SpfEvaluator (OverrideLookup Crates.sample Id))
    (s := sampleReloader) rfl hlisting
  let stored : Reloader Crates.sample (SpfEvaluator (OverrideLookup Crates.sample Id)) :=
    ⟨{ sampleReloader.state with whitelist := ⟨⟨[]⟩, ["mx.example.net".toList], [], []⟩ },
      .storedWhitelist listingConfig⟩
  have hrun : (machine _ sampleFromStr "rspf.toml".toList).run sampleReloader sampleReloads =
      some stored := by
    refine (Machine.run_cons_eq_some _).mpr ⟨sampleReloader, rfl, ?_⟩
    refine (Machine.run_cons_eq_some _).mpr ⟨_, hsighup, ?_⟩
    refine (Machine.run_cons_eq_some _).mpr ⟨sampleReloader, rfl, ?_⟩
    exact (Machine.run_cons_eq_some _).mpr ⟨_, hsighup, rfl⟩
  have hnew : AppState.new (.ok (emptyLookup Crates.sample)) noFiles
      (overrideConfig "example.com".toList) = .ok sampleReloader.state := rfl
  have hspec := reload_spec hold hnew hrun
  exact ⟨stored, hrun, rfl, hspec.2.1, hspec.2.2.2.2.2.2.2.1⟩

end Rspf
