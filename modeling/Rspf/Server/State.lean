import Rspf.Config.Load
import Rspf.Spf.Evaluator
import Rspf.Whitelist

/-!
# The state of the daemon

`AppState` is what the handlers of all requests share: the configuration and the whitelist, which a
reload replaces, and the evaluator, which it does not.  `AppState.new` builds it at startup, and
hands the configured overrides to the resolver the evaluator uses.

That hand-over is where overrides go wrong.  The resolver looks names up in lower case and relies on
the keys being in lower case too, as its documentation says; neither the parser, nor
`Config.validate`, nor `AppState.new` makes them so.  `appState_answersAsPatched_iff` is the exact
condition under which the configured overrides work, and `appState_ignores_override` an accepted
configuration under which one does not.

The condition is on the keys that some name spells.  A key that is no name is never asked for, so
its case makes no difference.
-/

set_option autoImplicit false

namespace Rspf

variable {X : Crates} {m : Type → Type}

/-- `AppStateError`. -/
inductive AppStateError (X : Crates) where
  | resolver (source : X.ResolveError)
  | whitelist (source : WhitelistError X)

/-- `AppState`, with the contents of its two cells. -/
structure AppState (X : Crates) (E : Type) where
  config : Config X
  whitelist : Whitelist X
  evaluator : E

/-- `AppState::new`.  The first argument is what the system's resolver configuration gives. -/
def AppState.new (fromSystemConf : Except X.ResolveError (X.Resolver m)) (fs : FileSystem)
    (config : Config X) :
    Except (AppStateError X) (AppState X (SpfEvaluator (OverrideLookup X m))) :=
  match fromSystemConf with
  | .error source => .error (.resolver source)
  | .ok lookup =>
    let lookup : OverrideLookup X m := { inner := lookup, overrides := config.overrides }
    let evaluator := SpfEvaluator.new lookup config.spf
    match Whitelist.load fs config.whitelist with
    | .error source => .error (.whitelist source)
    | .ok whitelist => .ok { config, whitelist, evaluator }

/-- What the state is at startup. -/
theorem AppState.new_eq_ok_iff {fromSystemConf : Except X.ResolveError (X.Resolver m)}
    {fs : FileSystem} {cfg : Config X} {state : AppState X (SpfEvaluator (OverrideLookup X m))} :
    AppState.new fromSystemConf fs cfg = .ok state ↔
      ∃ inner whitelist, fromSystemConf = .ok inner ∧
        Whitelist.load fs cfg.whitelist = .ok whitelist ∧
        state = ⟨cfg, whitelist, SpfEvaluator.new ⟨inner, cfg.overrides⟩ cfg.spf⟩ := by
  rw [AppState.new.eq_def]
  cases fromSystemConf with
  | error source => exact iff_of_false nofun fun ⟨_, _, h, _⟩ ↦ absurd h nofun
  | ok inner =>
    dsimp only
    cases hload : Whitelist.load fs cfg.whitelist with
    | error source => exact iff_of_false nofun fun ⟨_, _, _, h, _⟩ ↦ absurd h nofun
    | ok whitelist =>
      refine ⟨?_, ?_⟩
      · intro h
        exact ⟨inner, whitelist, rfl, rfl, (Except.ok.inj h).symm⟩
      · rintro ⟨inner', whitelist', hinner, hwhitelist, rfl⟩
        obtain rfl := Except.ok.inj hinner
        obtain rfl := Except.ok.inj hwhitelist
        rfl

/-! ## Overrides -/

/-- **When overrides work.**  The state that `AppState.new` builds resolves every query as the
resolver below would with the overrides in its zone, for every such resolver, just when every key
that some name spells is written in lower case. -/
theorem appState_answersAsPatched_iff {cfg : Config X} {fs : FileSystem} {whitelist : Whitelist X}
    (hdistinct : DistinctIgnoringCase cfg.overrides)
    (hwhitelist : Whitelist.load fs cfg.whitelist = .ok whitelist) :
    (∀ (m : Type → Type) [Monad m] (inner : X.Resolver m)
      (state : AppState X (SpfEvaluator (OverrideLookup X m))),
      AppState.new (.ok inner) fs cfg = .ok state →
        AnswersAsPatched cfg.overrides inner state.evaluator.lookup.toLookup) ↔
      QueryableKeysLower X cfg.overrides := by
  refine ⟨?_, ?_⟩
  · intro h
    refine OverrideLookup.queryableKeysLower hdistinct ?_
    exact h Id (emptyLookup X)
      ⟨cfg, whitelist, SpfEvaluator.new ⟨emptyLookup X, cfg.overrides⟩ cfg.spf⟩
      (by rw [AppState.new, hwhitelist])
  · intro hlower m _ inner state hnew
    rw [AppState.new, hwhitelist] at hnew
    obtain rfl := Except.ok.inj hnew
    exact OverrideLookup.answersAsPatched (l := ⟨inner, cfg.overrides⟩) hlower

/-- A file system without files. -/
def noFiles : FileSystem := fun _ ↦ .error ⟨"No such file or directory".toList⟩

/-- A configuration with one override, under this key. -/
def overrideConfig (key : Str) : Config Crates.sample where
  server := { listen := [.unix "/run/rspf/policy.sock".toList] }
  overrides := AList.singleton key "v=spf1 +all".toList

theorem validate_overrideConfig (key : Str) : (overrideConfig key).validate = pure () := by
  refine Config.validate_eq_ok_iff.mpr ⟨?_, ?_, ?_, MessageTemplates.templateOk_default⟩
  · exact List.cons_ne_nil _ _
  · exact fun h ↦ nomatch h
  · intro e he
    obtain rfl := List.mem_singleton.mp he
    exact ⟨(), rfl⟩

/-- An override for `example.com` is found, in whatever case the name is written. -/
theorem appState_answersAsPatched_iff_sample :
    ∃ state, AppState.new (.ok (emptyLookup Crates.sample)) noFiles
        (overrideConfig "example.com".toList) = .ok state ∧
      state.evaluator.lookup.toLookup.lookupTxt "Example.COM".toList =
        .ok ["v=spf1 +all".toList] := by
  have hlower : QueryableKeysLower Crates.sample
      (overrideConfig "example.com".toList).overrides := by
    intro k hk name _
    obtain rfl := List.mem_singleton.mp hk
    decide
  have h := (appState_answersAsPatched_iff (by decide)
    (rfl : Whitelist.load noFiles _ = _)).mpr hlower Id (emptyLookup Crates.sample) _ rfl
  refine ⟨_, rfl, ?_⟩
  exact h.overridden "Example.COM".toList ⟨"example.com".toList, "v=spf1 +all".toList⟩
    (List.mem_singleton.mpr rfl) (by decide)

/-- One for `Example.com` does not: the configuration is valid, and a query for `example.com` is
passed on to a resolver that knows no records. -/
theorem appState_ignores_override :
    let cfg := overrideConfig "Example.com".toList
    cfg.validate = pure () ∧ DistinctIgnoringCase cfg.overrides ∧
      ∃ state, AppState.new (.ok (emptyLookup Crates.sample)) noFiles cfg = .ok state ∧
        state.evaluator.lookup.toLookup.lookupTxt "example.com".toList = .ok [] ∧
        ¬ AnswersAsPatched cfg.overrides (emptyLookup Crates.sample)
          state.evaluator.lookup.toLookup := by
  refine ⟨validate_overrideConfig _, by decide, _, rfl, rfl, ?_⟩
  intro h
  have htxt := h.overridden "example.com".toList ⟨"Example.com".toList, "v=spf1 +all".toList⟩
    (List.mem_singleton.mpr rfl) (by decide)
  exact absurd (Except.ok.inj htxt) (by simp)

end Rspf
