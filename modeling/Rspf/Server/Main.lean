import Rspf.Config.Faults
import Rspf.Server.Answers

/-!
# Starting and reloading

`main` either prints something and ends, or loads the configuration and the whitelist and serves.
A signal later makes the running service load both again.  That code is not shared with the start,
and an operator who has changed the files may do either.

`Service.reload_as_restart` compares the two.  A reload takes just the files that a start would
take, and afterwards requests are answered as by a service that was started with them, but for the
evaluator, which the running service keeps.  It is made from `[overrides]`, `[spf]` and a resolver,
which is set up from the system's resolver configuration when the service is started and is not
looked at again.  So an operator who has changed one of these three has to restart.
-/

set_option autoImplicit false

namespace Rspf

variable {X : Crates}

/-! ## `main` -/

/-- `Args`. -/
structure Args where
  config : Str := "/etc/rspf/rspf.toml".toList
  /-- Load the configuration, then end. -/
  checkConfig : Bool := false
  /-- Print an example, then end. -/
  dumpExampleConfig : Bool := false

/-- What the start of the daemon meets outside of it. -/
structure Startup (X : Crates) where
  /-- The files, when the configuration is loaded. -/
  configFiles : FileSystem
  /-- The files, when the whitelist is loaded. -/
  whitelistFiles : FileSystem
  fromSystemConf : Except X.ResolveError (X.Resolver Id)

/-- Why there is no service. -/
inductive MainError (X : Crates) where
  /-- `loading {path}: {source}`. -/
  | config (path : Str) (source : ConfigError X)
  | state (source : AppStateError X)

/-- What `main` comes to. -/
inductive MainOutcome (X : Crates) where
  | printed (text : Str)
  | serving (state : AppState X (Evaluator X))

/-- `load_config`. -/
def loadConfig (fs : FileSystem) (fromStr : Str → Except X.TomlError (Config X)) (path : Str) :
    MayPanic (MainError X) (Config X) :=
  (Config.load fs fromStr path).adapt (.config path)

/-- What `--check-config` prints. -/
def configOk (config : Config X) : Str :=
  "config OK: ".toList ++ (Nat.repr config.server.listen.length).toList ++
    " listener(s) configured\n".toList

/-- `main`, up to where the listeners are bound. -/
def main (exampleToml : Str) (fromStr : Str → Except X.TomlError (Config X)) (startup : Startup X)
    (args : Args) : MayPanic (MainError X) (MainOutcome X) :=
  if args.dumpExampleConfig then
    pure (.printed exampleToml)
  else do
    let config ← loadConfig startup.configFiles fromStr args.config
    if args.checkConfig then
      pure (.printed (configOk config))
    else
      match AppState.new startup.fromSystemConf startup.whitelistFiles config with
      | .error source => throw (.state source)
      | .ok state => pure (.serving state)

section

variable {exampleToml : Str} {fromStr : Str → Except X.TomlError (Config X)} {path : Str}
  {startup : Startup X} {args : Args}

variable (exampleToml fromStr startup args) in
/-- What `main` does, and what it comes to. -/
inductive MainDid : Option (Except (MainError X) (MainOutcome X)) → Prop where
  | dumped : args.dumpExampleConfig = true → MainDid (some (.ok (.printed exampleToml)))
  | noConfig {source : ConfigError X} : args.dumpExampleConfig = false →
      Config.load startup.configFiles fromStr args.config = throw source →
      MainDid (some (.error (.config args.config source)))
  /-- The configuration is in order, and that was all that was asked for. -/
  | checked {config : Config X} : args.dumpExampleConfig = false →
      Config.load startup.configFiles fromStr args.config = pure config →
      args.checkConfig = true → MainDid (some (.ok (.printed (configOk config))))
  | noState {config : Config X} {source : AppStateError X} : args.dumpExampleConfig = false →
      Config.load startup.configFiles fromStr args.config = pure config →
      args.checkConfig = false →
      AppState.new startup.fromSystemConf startup.whitelistFiles config = .error source →
      MainDid (some (.error (.state source)))
  | serving {config : Config X} {state : AppState X (Evaluator X)} :
      args.dumpExampleConfig = false →
      Config.load startup.configFiles fromStr args.config = pure config →
      args.checkConfig = false →
      AppState.new startup.fromSystemConf startup.whitelistFiles config = .ok state →
      MainDid (some (.ok (.serving state)))

/-- **What `main` does.** -/
theorem main_did {outcome : MayPanic (MainError X) (MainOutcome X)}
    (h : main exampleToml fromStr startup args = outcome) :
    MainDid exampleToml fromStr startup args outcome.run := by
  rw [← h, main]
  cases hdump : args.dumpExampleConfig with
  | true => exact .dumped hdump
  | false =>
    rw [if_neg Bool.false_ne_true, loadConfig]
    rcases eq_pure_or_throw (Config.load_ne_panicked startup.configFiles fromStr args.config) with
      ⟨config, hload⟩ | ⟨source, hload⟩
    · rw [hload]
      show MainDid exampleToml fromStr startup args
        (ExceptT.run (if args.checkConfig then _ else _))
      cases hcheck : args.checkConfig with
      | true => exact .checked hdump hload hcheck
      | false =>
        rw [if_neg Bool.false_ne_true]
        cases hnew : AppState.new startup.fromSystemConf startup.whitelistFiles config with
        | error source => exact .noState hdump hload hcheck hnew
        | ok state => exact .serving hdump hload hcheck hnew
    · rw [hload]
      exact .noConfig hdump hload

/-- `--check-config` accepts what loads. -/
theorem main_checkConfig (hdump : args.dumpExampleConfig = false) {config : Config X}
    (hload : Config.load startup.configFiles fromStr args.config = pure config) :
    main exampleToml fromStr startup { args with checkConfig := true } =
      pure (.printed (configOk config)) := by
  rw [main, hdump, if_neg Bool.false_ne_true, loadConfig, hload]
  rfl

/-- What loads, with its whitelist, is served. -/
theorem main_serving (hdump : args.dumpExampleConfig = false) (hcheck : args.checkConfig = false)
    {config : Config X} (hload : Config.load startup.configFiles fromStr args.config = pure config)
    {state : AppState X (Evaluator X)}
    (hnew : AppState.new startup.fromSystemConf startup.whitelistFiles config = .ok state) :
    main exampleToml fromStr startup args = pure (.serving state) := by
  rw [main, hdump, if_neg Bool.false_ne_true, loadConfig, hload]
  show (if args.checkConfig then _ else _) = _
  rw [hcheck, if_neg Bool.false_ne_true, hnew]

end

/-! ## Reloading while the service runs -/

section

variable {fromStr : Str → Except X.TomlError (Config X)} {path : Str} {s : Service X}

/-- How many stores the reload task makes in these steps. -/
def storesOf : List ReloadEvent → ℕ
  | [] => 0
  | e :: es => e.stores + storesOf es

/-- The reload task can always take its next steps. -/
theorem Service.run_reload (hresult : s.daemon.result = none) {es : List ReloadEvent}
    {r : Reloader X (Evaluator X)}
    (hrun : (Reloader.machine (Evaluator X) fromStr path).run s.reloader es = some r) :
    (machine fromStr path).run s (es.map .reload) = some
      { s with
        reloader := r
        loads := (Reloader.machine _ fromStr path).trace Reloader.completed s.reloader es ++ s.loads
        stores := s.stores + storesOf es } := by
  induction es generalizing s with
  | nil =>
    rw [Machine.run_nil, Option.some_inj] at hrun
    subst hrun
    rfl
  | cons e es ih =>
    obtain ⟨r', hstep, hrun⟩ := Machine.run_cons_eq_some _ |>.mp hrun
    let s' : Service X :=
      { s with
        reloader := r'
        loads := (s.reloader.completed e).toList ++ s.loads
        stores := s.stores + e.stores }
    have hstep' : (machine fromStr path).step s (.reload e) = some s' := by
      show Service.step fromStr path s (.reload e) = some s'
      have hstep : s.reloader.step fromStr path e = some r' := hstep
      rw [Service.step, hresult]
      dsimp only
      rw [hstep]
      rfl
    refine (Machine.run_cons_eq_some _).mpr ⟨s', hstep', ?_⟩
    rw [ih (s := s') hresult hrun, Machine.trace_cons hstep, List.append_assoc, storesOf,
      ← Nat.add_assoc]

/-- Where it ends as it began, and has loaded nothing, the service is the same. -/
theorem Service.run_reload_failed (hresult : s.daemon.result = none) {es : List ReloadEvent}
    (hrun : (Reloader.machine (Evaluator X) fromStr path).run s.reloader es = some s.reloader)
    (htrace : (Reloader.machine _ fromStr path).trace Reloader.completed s.reloader es = [])
    (hstores : storesOf es = 0) :
    (machine fromStr path).run s (es.map .reload) = some s := by
  rw [run_reload hresult hrun, htrace, hstores]
  rfl

/-- What the reload task does after a signal, if nothing goes wrong. -/
def Startup.reload (startup : Startup X) : List ReloadEvent :=
  [.sighup startup.configFiles, .loadWhitelist startup.whitelistFiles, .storeWhitelist,
    .storeConfig]

section

variable {E : Type} {r : Reloader X E} {startup : Startup X} {config : Config X}

theorem Reloader.completed_sighup (hwaiting : r.task = .waiting) (fs : FileSystem) :
    r.completed (.sighup fs) = none := by
  rw [completed.eq_def, hwaiting]

/-- Where the configuration cannot be loaded, nothing changes. -/
theorem Reloader.run_noConfig (hwaiting : r.task = .waiting) {source : ConfigError X}
    (hload : Config.load startup.configFiles fromStr path = throw source) :
    (machine E fromStr path).run r [.sighup startup.configFiles] = some r ∧
    (machine E fromStr path).trace completed r [.sighup startup.configFiles] = [] := by
  have hsighup : (machine E fromStr path).step r (.sighup startup.configFiles) = some r := by
    show Reloader.step fromStr path r (.sighup startup.configFiles) = some r
    rw [Reloader.step.eq_def, hwaiting]
    dsimp only
    rw [hload]
    rfl
  refine ⟨(Machine.run_cons_eq_some _).mpr ⟨r, hsighup, rfl⟩, ?_⟩
  rw [Machine.trace_cons hsighup, completed_sighup hwaiting]
  rfl

/-- The whitelist is loaded where the configuration lists it. -/
theorem Reloader.step_loadWhitelist (htask : r.task = .loadedConfig config)
    {whitelist : Whitelist X}
    (hwhitelist : Whitelist.load startup.whitelistFiles config.whitelist = .ok whitelist) :
    (machine E fromStr path).step r (.loadWhitelist startup.whitelistFiles) =
      some { r with task := .loaded config whitelist } := by
  show Reloader.step fromStr path r (.loadWhitelist startup.whitelistFiles) = _
  rw [Reloader.step.eq_def, htask]
  dsimp only
  rw [hwhitelist]

/-- Where the whitelist cannot be loaded, nothing changes. -/
theorem Reloader.run_noWhitelist (hwaiting : r.task = .waiting)
    (hload : Config.load startup.configFiles fromStr path = pure config)
    {source : WhitelistError X}
    (hwhitelist : Whitelist.load startup.whitelistFiles config.whitelist = .error source) :
    (machine E fromStr path).run r
      [.sighup startup.configFiles, .loadWhitelist startup.whitelistFiles] = some r ∧
    (machine E fromStr path).trace completed r
      [.sighup startup.configFiles, .loadWhitelist startup.whitelistFiles] = [] := by
  let r' : Reloader X E := { r with task := .loadedConfig config }
  have hsighup : (machine E fromStr path).step r (.sighup startup.configFiles) = some r' :=
    step_sighup hwaiting hload
  have hfailed : (machine E fromStr path).step r' (.loadWhitelist startup.whitelistFiles) =
      some r := by
    show Reloader.step fromStr path r' (.loadWhitelist startup.whitelistFiles) = some r
    rw [Reloader.step.eq_def]
    dsimp only [r']
    rw [hwhitelist, ← hwaiting]
  have hcompleted : r'.completed (.loadWhitelist startup.whitelistFiles) = none := by
    rw [completed.eq_def]
    dsimp only [r']
    rw [hwhitelist]
  refine ⟨?_, ?_⟩
  · refine (Machine.run_cons_eq_some _).mpr ⟨r', hsighup, ?_⟩
    exact (Machine.run_cons_eq_some _).mpr ⟨r, hfailed, rfl⟩
  · rw [Machine.trace_cons hsighup, Machine.trace_cons hfailed, completed_sighup hwaiting,
      hcompleted]
    rfl

/-- **A reload that goes through.** -/
theorem Reloader.run_reload (hwaiting : r.task = .waiting)
    (hload : Config.load startup.configFiles fromStr path = pure config) {whitelist : Whitelist X}
    (hwhitelist : Whitelist.load startup.whitelistFiles config.whitelist = .ok whitelist) :
    (machine E fromStr path).run r startup.reload =
      some ⟨⟨config, whitelist, r.state.evaluator⟩, .waiting⟩ ∧
    (machine E fromStr path).trace completed r startup.reload = [⟨config, whitelist⟩] := by
  have hsighup := step_sighup (E := E) hwaiting hload
  have hloaded : (machine E fromStr path).step { r with task := .loadedConfig config }
      (.loadWhitelist startup.whitelistFiles) =
        some { r with task := .loaded config whitelist } :=
    step_loadWhitelist rfl hwhitelist
  refine ⟨?_, ?_⟩
  · refine (Machine.run_cons_eq_some _).mpr ⟨_, hsighup, ?_⟩
    exact (Machine.run_cons_eq_some _).mpr ⟨_, hloaded, rfl⟩
  · have hcompleted : completed { r with task := .loadedConfig config }
        (.loadWhitelist startup.whitelistFiles) = some ⟨config, whitelist⟩ := by
      rw [completed.eq_def]
      dsimp only
      rw [hwhitelist]
    rw [Startup.reload, Machine.trace_cons hsighup, Machine.trace_cons hloaded,
      completed_sighup hwaiting, hcompleted]
    rfl

end

/-- **Between two stores all requests are answered alike**: by `handleRequest`, with what the cells
hold. -/
theorem Service.Inv.answered_since {ev : Evaluator X} {t : Service X} {es : List (ServiceEvent X)}
    (hs : s.Inv fromStr path ev) (hrun : (machine fromStr path).run s es = some t)
    (hstores : t.stores = s.stores) {a : Handled X} (ha : a ∈ t.journal)
    (htaken : s.stores ≤ a.taken) :
    handleRequest (m := Logged) (s.reloader.cells.state (ev.checks a.outside)) a.outside.now a.req
      [] = (a.action, a.lines) := by
  have ht : t.Inv fromStr path ev :=
    (machine fromStr path).invariant (fun _ _ _ hs hstep ↦ hs.step hstep) hs hrun
  have hheld : heldAfter t.loads s.stores = some s.reloader.cells :=
    loads_eq hrun ▸ heldAfter_append hs.cells _
  obtain ⟨hanswered, u, v, w, hreads, htranscript⟩ := ht.justified a ha
  -- Nothing was stored between the moment when it was taken and the answer.
  have hle := hreads.le
  rw [show a.answered = s.stores by omega, show a.taken = s.stores by omega] at hreads
  have hall : ∀ x ∈ [u, v, w], x = s.reloader.cells := fun x hx ↦
    Option.some.inj ((hreads.eq_of_mem hx).symm.trans hheld)
  obtain rfl := hall u (by simp)
  obtain rfl := hall v (by simp)
  obtain rfl := hall w (by simp)
  rw [transcript, handleSeeing_self] at htranscript
  exact htranscript

end

/-- The evaluator of a start depends on the resolver, and the configured overrides and limits. -/
theorem AppState.evaluator_eq {fromSystemConf : Except X.ResolveError (X.Resolver Id)}
    {fs fs' : FileSystem} {config config' : Config X} {state state' : AppState X (Evaluator X)}
    (hnew : AppState.new fromSystemConf fs config = .ok state)
    (hnew' : AppState.new fromSystemConf fs' config' = .ok state')
    (hoverrides : config'.overrides = config.overrides) (hspf : config'.spf = config.spf) :
    state.evaluator = state'.evaluator := by
  obtain ⟨inner, whitelist, hinner, -, rfl⟩ := AppState.new_eq_ok_iff.mp hnew
  obtain ⟨inner', whitelist', hinner', -, rfl⟩ := AppState.new_eq_ok_iff.mp hnew'
  obtain rfl := Except.ok.inj (hinner.symm.trans hinner')
  dsimp only
  rw [hoverrides, hspf]

/-- There is no state where the whitelist cannot be loaded. -/
theorem AppState.load_eq_error_of_new_eq_error {m : Type → Type}
    {fromSystemConf : Except X.ResolveError (X.Resolver m)} {fs : FileSystem} {config : Config X}
    {source : WhitelistError X}
    (h : AppState.new fromSystemConf fs config = .error (.whitelist source)) :
    Whitelist.load fs config.whitelist = .error source := by
  rw [AppState.new.eq_def] at h
  split at h
  · cases h
  · dsimp only at h
    split at h
    · rename_i hload
      cases h
      exact hload
    · cases h

/-! ## A reload and a restart -/

/-- **A reload is a restart.**  A service was started, has run, and is not reloading at the moment.
The files have changed, and there is a signal.

* What `main` would not start with, for the configuration or for the whitelist, the service does
  not take: it is the same as before.
* What `main` would start with it takes.  It holds what a new service would hold, but for the
  evaluator, and connections, requests and the log are as before.
* Until the next store, all requests that are taken from then on are answered, and logged, as the
  new service would do it with the evaluator of the old one.  Where the system gives the resolver
  that it gave before, and overrides and limits have not changed, there is no difference.
* Everything that was ever loaded `--check-config` would have accepted. -/
theorem Service.reload_as_restart {exampleToml : Str}
    {fromStr : Str → Except X.TomlError (Config X)} {startup now : Startup X} {args : Args}
    {state : AppState X (Evaluator X)} {es : List (ServiceEvent X)} {s : Service X}
    (hstart : main exampleToml fromStr startup args = pure (.serving state))
    (hrun : (machine fromStr args.config).run (start state) es = some s)
    (hwaiting : s.reloader.task = .waiting) (hresult : s.daemon.result = none) :
    (∀ source, main exampleToml fromStr now args = throw (.config args.config source) →
      (machine fromStr args.config).run s [.reload (.sighup now.configFiles)] = some s) ∧
    (∀ source, main exampleToml fromStr now args = throw (.state (.whitelist source)) →
      (machine fromStr args.config).run s
        [.reload (.sighup now.configFiles), .reload (.loadWhitelist now.whitelistFiles)] =
          some s) ∧
    (∀ state', main exampleToml fromStr now args = pure (.serving state') → ∃ s',
      (machine fromStr args.config).run s (now.reload.map .reload) = some s' ∧
      s'.reloader = ⟨{ state' with evaluator := state.evaluator }, .waiting⟩ ∧
      s'.daemon = s.daemon ∧ s'.work = s.work ∧ s'.journal = s.journal ∧ s'.syslog = s.syslog ∧
      ∀ es' t, (machine fromStr args.config).run s' es' = some t → t.stores = s'.stores →
        ∀ a ∈ t.journal, s'.stores ≤ a.taken →
          handleRequest (m := Logged)
            ⟨state'.config, state'.whitelist, state.evaluator.checks a.outside⟩ a.outside.now a.req
            [] = (a.action, a.lines) ∧
          (now.fromSystemConf = startup.fromSystemConf →
            state'.config.overrides = state.config.overrides →
            state'.config.spf = state.config.spf →
            handleRequest (m := Logged)
              ⟨state'.config, state'.whitelist, state'.evaluator.checks a.outside⟩ a.outside.now
              a.req [] = (a.action, a.lines))) ∧
    ∀ v ∈ s.loads, ∃ checked, main exampleToml fromStr checked { args with checkConfig := true } =
      pure (.printed (configOk v.config)) := by
  have hdid : MainDid exampleToml fromStr startup args (some (.ok (.serving state))) :=
    main_did hstart
  cases hdid with
  | @serving config _ hdump hload hcheck hnew =>
  have hinv := inv_of_run hload hnew hrun
  refine ⟨fun source hmain ↦ ?_, fun source hmain ↦ ?_, fun state' hmain ↦ ?_, fun v hv ↦ ?_⟩
  · have hdid : MainDid exampleToml fromStr now args
        (some (.error (.config args.config source))) := main_did hmain
    cases hdid with
    | noConfig _ hload' =>
      obtain ⟨hreload, htrace⟩ := Reloader.run_noConfig hwaiting hload'
      exact run_reload_failed hresult hreload htrace rfl
  · have hdid : MainDid exampleToml fromStr now args
        (some (.error (.state (.whitelist source)))) := main_did hmain
    cases hdid with
    | noState _ hload' _ hnew' =>
      have hwhitelist := AppState.load_eq_error_of_new_eq_error hnew'
      obtain ⟨hreload, htrace⟩ := Reloader.run_noWhitelist hwaiting hload' hwhitelist
      exact run_reload_failed hresult hreload htrace rfl
  · have hdid : MainDid exampleToml fromStr now args (some (.ok (.serving state'))) :=
      main_did hmain
    cases hdid with
    | @serving config' _ _ hload' _ hnew' =>
      have hevaluator (hconf : now.fromSystemConf = startup.fromSystemConf) :=
        AppState.evaluator_eq hnew (hconf ▸ hnew')
      obtain ⟨inner, whitelist, -, hwhitelist, rfl⟩ := AppState.new_eq_ok_iff.mp hnew
      obtain ⟨inner', whitelist', -, hwhitelist', rfl⟩ := AppState.new_eq_ok_iff.mp hnew'
      obtain ⟨hreload, hloads⟩ := Reloader.run_reload hwaiting hload' hwhitelist'
      have hrun' := run_reload hresult hreload
      rw [hinv.reloader.evaluator_eq] at hrun'
      refine ⟨_, hrun', rfl, rfl, rfl, rfl, rfl, fun es' t ht hstores a ha htaken ↦ ?_⟩
      have hinv' := inv_of_run hload hnew (Machine.run_append_eq_some _ |>.mpr ⟨s, hrun, hrun'⟩)
      have hanswer := hinv'.answered_since ht hstores ha htaken
      refine ⟨hanswer, fun hconf hoverrides hspf ↦ ?_⟩
      rw [← hevaluator hconf hoverrides hspf]
      exact hanswer
  · obtain ⟨fs, hconfig⟩ := (hinv.reloader.loaded v hv).config
    refine ⟨{ startup with configFiles := fs }, ?_⟩
    exact main_checkConfig hdump hconfig

/-- Two starts of the sample, before and after the files have changed. -/
def sampleStartup (rspfToml list : String) : Startup Crates.sample where
  configFiles := sampleFiles rspfToml list
  whitelistFiles := sampleFiles rspfToml list
  fromSystemConf := .ok (emptyLookup Crates.sample)

/-- The service that was started before takes what a service that is started afterwards has. -/
theorem Service.reload_as_restart_sample :
    ∃ state state', main [] sampleFromStr (sampleStartup "old" "")
        { config := "rspf.toml".toList } = pure (.serving state) ∧
      main [] sampleFromStr (sampleStartup "new" "helo:mx.example.net")
        { config := "rspf.toml".toList } = pure (.serving state') ∧
      state.whitelist.heloNames = [] ∧ state'.whitelist.heloNames = ["mx.example.net".toList] ∧
      ∃ s, (machine sampleFromStr "rspf.toml".toList).run (start state)
        ((sampleStartup "new" "helo:mx.example.net").reload.map .reload) = some s ∧
      s.reloader.state.whitelist.heloNames = ["mx.example.net".toList] := by
  have hlisting : Config.load (sampleFiles "new" "helo:mx.example.net") sampleFromStr
      "rspf.toml".toList = pure listingConfig :=
    Config.load_eq_pure_iff.mpr ⟨_, rfl, rfl,
      Config.validate_eq_ok_iff.mpr (Config.validate_eq_ok_iff.mp (validate_overrideConfig _))⟩
  have hold : main [] sampleFromStr (sampleStartup "old" "") { config := "rspf.toml".toList } =
      pure (.serving sampleReloader.state) :=
    main_serving rfl rfl load_sampleFiles_old rfl
  have hnew : main [] sampleFromStr (sampleStartup "new" "helo:mx.example.net")
      { config := "rspf.toml".toList } = pure (.serving _) :=
    main_serving rfl rfl hlisting rfl
  have hstarted : (machine sampleFromStr "rspf.toml".toList).run (start sampleReloader.state) [] =
      some (start sampleReloader.state) := rfl
  obtain ⟨-, -, hreload, -⟩ := reload_as_restart hold hstarted rfl rfl
  obtain ⟨s, hrun, hreloader, -⟩ := hreload _ hnew
  refine ⟨_, _, hold, hnew, rfl, rfl, s, hrun, ?_⟩
  rw [hreloader]
  rfl

end Rspf
