import Rspf.Server.Answers

/-!
# When the daemon ends

`run` waits for one listener after the other, and a listener serves until the token is cancelled.
So the daemon should end when it is told to, and not before; and clients that keep talking, slow
DNS servers and reloads should not keep it from ending.

Each listener binds its address once and returns once, and `run` looks at each of them once more.
`Daemon.stepsLeft` counts what is left of this, and whatever else happens does not make it larger.
That nothing can stand in the way is a second fact, `Daemon.exists_ends`: after the token was
cancelled one of these steps is always possible.  As `run` does not wait for connections, nothing
about them enters either of the two.

* `Daemon.Untold` is what holds until the daemon is told to end, and `Daemon.Without` until binding
  an address gives a certain error: in neither case has `run` returned with it.
* `Service.ends_when_told` puts the four together, for the whole service.

The price of ending like this is in `Rspf.Server.Shutdown`: requests that are being handled get no
answer.
-/

set_option autoImplicit false

namespace Rspf

/-! ## What is left to do -/

/-- It has not bound its address. -/
def Listener.isStarting : Listener → Bool
  | starting => true
  | _ => false

/-- It has not returned. -/
def Listener.isRunning : Listener → Bool
  | returned _ => false
  | _ => true

/-- Does this bring `run` nearer to its end? -/
def Event.ends : Event → Bool
  | .bind _ _ => true
  | .stop _ => true
  | .join => true
  | _ => false

/-- How many such steps there may still be. -/
def Daemon.stepsLeft (d : Daemon) : ℕ :=
  if d.result.isSome then 0
  else
    d.listeners.countP Listener.isStarting + d.listeners.countP Listener.isRunning +
      (d.listeners.length - d.joined) + 1

/-- What a list counts when an entry is replaced. -/
theorem countP_set_add {α : Type} {p : α → Bool} {l : List α} {i : ℕ} {old : α}
    (h : l[i]? = some old) (new : α) :
    (l.set i new).countP p + (p old).toNat = l.countP p + (p new).toNat := by
  obtain ⟨hi, rfl⟩ := List.getElem?_eq_some_iff.mp h
  have hpos : p l[i] = true → 0 < l.countP p := fun hp ↦
    List.countP_pos_iff.mpr ⟨_, List.getElem_mem hi, hp⟩
  rw [List.countP_set hi]
  cases hold : p l[i] with
  | true =>
    have := hpos hold
    cases p new <;> simp <;> omega
  | false => cases p new <;> simp

section

variable {d d' : Daemon} {e : Event}

theorem Daemon.stepsLeft_eq (h : d.result = none) :
    d.stepsLeft = d.listeners.countP Listener.isStarting +
      d.listeners.countP Listener.isRunning + (d.listeners.length - d.joined) + 1 := by
  rw [stepsLeft, h]
  rfl

/-- A listener has less to do. -/
theorem Daemon.stepsLeft_setListener (hresult : d.result = none) {i : ℕ} {old new : Listener}
    (hold : d.listeners[i]? = some old)
    (hless : new.isStarting.toNat + new.isRunning.toNat <
      old.isStarting.toNat + old.isRunning.toNat) :
    Daemon.stepsLeft { d with listeners := d.listeners.set i new } + 1 ≤ d.stepsLeft := by
  have hstarting := countP_set_add (p := Listener.isStarting) hold new
  have hrunning := countP_set_add (p := Listener.isRunning) hold new
  rw [stepsLeft_eq hresult, stepsLeft_eq (by exact hresult)]
  dsimp only
  rw [List.length_set]
  omega

/-- **A step leaves at most as much to do**, and less if it is one of those that count. -/
theorem Daemon.stepsLeft_of_step (h : d.step e = some d') :
    d'.stepsLeft + (if e.ends then 1 else 0) ≤ d.stepsLeft := by
  obtain ⟨hresult, hdid⟩ := did_of_step h
  cases hdid with
  | cancel | accept | acceptFails | conn => exact Nat.le_refl _
  | @bind i error hold =>
    refine stepsLeft_setListener hresult hold ?_
    cases error with
    | none => exact Nat.lt_succ_self 1
    | some _ => exact Nat.zero_lt_two
  | stop hold hcancelled => exact stepsLeft_setListener hresult hold Nat.zero_lt_one
  | done | failed =>
    rw [stepsLeft_eq hresult, stepsLeft]
    exact Nat.succ_le_succ (Nat.zero_le _)
  | joined hok =>
    have hlt : d.joined < d.listeners.length := (List.getElem?_eq_some_iff.mp hok).1
    rw [stepsLeft_eq hresult, stepsLeft_eq (by exact hresult)]
    dsimp only
    rw [Event.ends, if_pos rfl]
    omega

/-- Once the token is cancelled, `run` waits for nobody but its listeners. -/
theorem Daemon.exists_ends (hresult : d.result = none) (hcancelled : d.cancelled = true) :
    ∃ e, e.ends = true ∧ (d.step e).isSome = true := by
  have hrunning : d.result.isSome = false := by
    rw [hresult]
    rfl
  cases hnext : d.listeners[d.joined]? with
  | none =>
    refine ⟨.join, rfl, ?_⟩
    rw [step, hrunning, hnext]
    rfl
  | some listener =>
    cases listener with
    | starting =>
      refine ⟨.bind d.joined none, rfl, ?_⟩
      rw [step, hrunning, hnext]
      rfl
    | accepting =>
      refine ⟨.stop d.joined, rfl, ?_⟩
      rw [step, hrunning, hnext, hcancelled]
      rfl
    | returned result =>
      refine ⟨.join, rfl, ?_⟩
      rw [step, hrunning, hnext]
      cases result <;> rfl

/-- At the start each listener has to bind, to return and to be looked at. -/
theorem Daemon.stepsLeft_init (n : ℕ) : (init n).stepsLeft = 3 * n + 1 := by
  rw [stepsLeft_eq rfl, init, List.countP_replicate, List.countP_replicate, List.length_replicate]
  show n + n + (n - 0) + 1 = 3 * n + 1
  omega

/-! ## What has happened -/

/-- The token is cancelled by a signal. -/
theorem Daemon.cancelled_of_step (he : e ≠ .cancel) (h : d.step e = some d') :
    d'.cancelled = d.cancelled := by
  cases (did_of_step h).2 with
  | cancel => exact absurd rfl he
  | bind | accept | acceptFails | stop | conn | done | joined | failed => rfl

/-- It stays so. -/
theorem Daemon.cancelled_mono (hd : d.cancelled = true) (h : d.step e = some d') :
    d'.cancelled = true := by
  by_cases he : e = .cancel
  · subst he
    cases (did_of_step h).2
    rfl
  · exact (cancelled_of_step he h).trans hd

/-- Nobody has told `run` to return, and it has not. -/
structure Daemon.Untold (d : Daemon) : Prop where
  inv : d.Inv
  listeners : d.listeners ≠ []
  cancelled : d.cancelled = false
  /-- It has not returned, or has failed. -/
  result : d.result ≠ some (.ok ())

/-- **Until it is told to, `run` does not return**: the first listener is still to do so. -/
theorem Daemon.Untold.step (hd : d.Untold) (he : e ≠ .cancel) (h : d.step e = some d') :
    d'.Untold := by
  refine ⟨hd.inv.step h, ?_, (cancelled_of_step he h).trans hd.cancelled, fun hok ↦ ?_⟩
  · cases (did_of_step h).2 with
    | cancel | accept | acceptFails | conn | done | joined | failed => exact hd.listeners
    | bind | stop => exact fun hnil ↦ hd.listeners ((List.set_eq_nil_iff ..).mp hnil)
  · obtain ⟨-, -, hjoined, -⟩ := join_of_step h hok
    have hpos : 0 < d.listeners.length := List.length_pos_iff.mpr hd.listeners
    have hcancelled := hd.inv.cancelled 0 (hd.inv.joined 0 (hpos.trans_le hjoined))
    exact Bool.false_ne_true (hd.cancelled.symm.trans hcancelled)

/-- Nothing has failed with this error. -/
structure Daemon.Without (error : IoError) (d : Daemon) : Prop where
  listeners : .returned (.error error) ∉ d.listeners
  result : d.result ≠ some (.error error)

/-- An error is that of a bind. -/
theorem Daemon.Without.step {error : IoError} (hd : d.Without error)
    (he : ∀ i, e ≠ .bind i (some error)) (h : d.step e = some d') : d'.Without error := by
  have hset : ∀ {i : ℕ} {new : Listener}, new ≠ .returned (.error error) →
      .returned (.error error) ∉ d.listeners.set i new := by
    intro i new hnew hmem
    rcases List.mem_or_eq_of_mem_set hmem with hmem | rfl
    · exact hd.listeners hmem
    · exact hnew rfl
  obtain ⟨hresult, hdid⟩ := did_of_step h
  cases hdid with
  | cancel | accept | acceptFails | conn | joined => exact ⟨hd.listeners, hd.result⟩
  | @bind i error' hold =>
    refine ⟨hset ?_, hd.result⟩
    rintro hnew
    cases error' with
    | none => cases hnew
    | some error' =>
      cases hnew
      exact he i rfl
  | stop => exact ⟨hset fun h ↦ (by cases h), hd.result⟩
  | done => exact ⟨hd.listeners, fun h ↦ by cases h⟩
  | failed hfailed =>
    refine ⟨hd.listeners, fun h ↦ ?_⟩
    cases h
    exact hd.listeners (List.mem_of_getElem? hfailed)

end

/-! ## The service -/

/-- Does this bring `run` nearer to its end? -/
def ServiceEvent.ends {X : Crates} : ServiceEvent X → Bool
  | .daemon e => e.ends
  | _ => false

section

variable {X : Crates} {fromStr : Str → Except X.TomlError (Config X)} {path : Str}
  {s s' : Service X} {e : ServiceEvent X}

/-- What a step of the service does to the listeners and connections. -/
theorem Service.daemon_of_step (h : s.step fromStr path e = some s') :
    (∃ e', e = .daemon e' ∧ s.daemon.step e' = some s'.daemon) ∨
    (e.ends = false ∧ ∃ j ce, s.daemon.step (.conn j ce) = some s'.daemon) ∨
    e.ends = false ∧ s'.daemon = s.daemon := by
  cases did_of_step h with
  | daemon he hstep => exact .inl ⟨_, rfl, hstep⟩
  | take hstep | finish hw hanswered hstep => exact .inr (.inl ⟨rfl, _, _, hstep⟩)
  | work | reload => exact .inr (.inr ⟨rfl, rfl⟩)

/-- Nothing that happens in the service leaves `run` more to do. -/
theorem Service.stepsLeft_of_step (h : s.step fromStr path e = some s') :
    s'.daemon.stepsLeft + (if e.ends then 1 else 0) ≤ s.daemon.stepsLeft := by
  rcases daemon_of_step h with ⟨e', rfl, hstep⟩ | ⟨he, j, ce, hstep⟩ | ⟨he, hsame⟩
  · exact Daemon.stepsLeft_of_step hstep
  · rw [he]
    exact Daemon.stepsLeft_of_step hstep
  · rw [he, hsame]
    exact Nat.le_refl _

/-- What an event of the listeners keeps, the service keeps until this event. -/
theorem Service.keeps_until {P : Daemon → Prop} (bad : Event → Prop)
    (hbad : ∀ j ce, ¬ bad (.conn j ce))
    (hstep : ∀ d e d', P d → ¬ bad e → d.step e = some d' → P d')
    {es : List (ServiceEvent X)} (hes : ∀ e, .daemon e ∈ es → ¬ bad e)
    (hs : P s.daemon) {t : Service X} (hrun : (machine fromStr path).run s es = some t) :
    P t.daemon := by
  have hguarded : (machine fromStr path).Guarded (fun _ e ↦ ∀ e', e = .daemon e' → ¬ bad e') s es :=
    Machine.guarded_of_forall_mem fun _ he e' h ↦ hes e' (h ▸ he)
  refine Machine.invariant_of_guarded (P := fun s : Service X ↦ P s.daemon) ?_ hs hguarded hrun
  intro u e u' hu he h
  rcases daemon_of_step h with ⟨e', rfl, hdaemon⟩ | ⟨-, j, ce, hdaemon⟩ | ⟨-, hsame⟩
  · exact hstep _ _ _ hu (he e' rfl) hdaemon
  · exact hstep _ _ _ hu (hbad j ce) hdaemon
  · exact hsame ▸ hu

/-- **The daemon ends when it is told to.**  Whatever clients send, whatever the DNS answers and
whenever the configuration is reloaded:

* it only ends without an error after a signal to end;
* it only ends with an error that binding an address has given;
* in a whole run the listeners bind and return, and `run` looks at them, at most three times as
  often as there are listeners, and once more;
* after a signal to end, one of these steps is possible until it ends. -/
theorem Service.ends_when_told {fs fs' : FileSystem}
    {fromSystemConf : Except X.ResolveError (X.Resolver Id)} {cfg : Config X}
    {state : AppState X (Evaluator X)} {es : List (ServiceEvent X)}
    (hload : Config.load fs fromStr path = pure cfg)
    (hnew : AppState.new fromSystemConf fs' cfg = .ok state)
    (hrun : (machine fromStr path).run (start state) es = some s) :
    (s.daemon.result = some (.ok ()) → .daemon .cancel ∈ es) ∧
    (∀ error, s.daemon.result = some (.error error) → ∃ i, .daemon (.bind i (some error)) ∈ es) ∧
    es.countP ServiceEvent.ends ≤ 3 * state.config.server.listen.length + 1 ∧
    (.daemon .cancel ∈ es → s.daemon.result = none →
      ∃ e, e.ends = true ∧ (s.step fromStr path e).isSome = true) := by
  obtain ⟨-, -, -, hvalid⟩ := Config.load_eq_pure_iff.mp hload
  obtain ⟨_, _, -, -, rfl⟩ := AppState.new_eq_ok_iff.mp hnew
  have hlisten : cfg.server.listen ≠ [] := (Config.validate_eq_ok_iff.mp hvalid).1
  have hsome : (Daemon.init cfg.server.listen.length).listeners ≠ [] := fun hnil ↦
    hlisten (List.length_eq_zero_iff.mp (List.replicate_eq_nil_iff _ |>.mp hnil))
  refine ⟨fun hok ↦ ?_, fun error herror ↦ ?_, ?_, fun hcancel hresult ↦ ?_⟩
  · by_contra hcancel
    have huntold : s.daemon.Untold := by
      refine keeps_until (· = .cancel) (fun _ _ h ↦ (by cases h))
        (fun _ _ _ hd he h ↦ hd.step he h) (fun e he h ↦ hcancel (h ▸ he)) ?_ hrun
      exact ⟨Daemon.inv_init _, hsome, rfl, fun h ↦ (by cases h)⟩
    exact huntold.result hok
  · by_contra hbind
    have hwithout : s.daemon.Without error := by
      refine keeps_until (fun e ↦ ∃ i, e = .bind i (some error)) ?_
        (fun _ _ _ hd he h ↦ hd.step (fun i hi ↦ he ⟨i, hi⟩) h) ?_ ⟨fun hmem ↦ ?_, ?_⟩ hrun
      · rintro j ce ⟨i, h⟩
        cases h
      · rintro e he ⟨i, rfl⟩
        exact hbind ⟨i, he⟩
      · cases List.eq_of_mem_replicate hmem
      · intro h
        cases h
    exact hwithout.result herror
  · have hle : s.daemon.stepsLeft + es.countP ServiceEvent.ends ≤
        (Daemon.init cfg.server.listen.length).stepsLeft :=
      (Machine.rank_add_countP_le (fun s : Service X ↦ s.daemon.stepsLeft) (P := fun _ ↦ True)
        (fun _ _ _ _ _ h ↦ ⟨trivial, stepsLeft_of_step h⟩) trivial
        (Machine.guarded_of_forall_mem (C := fun _ ↦ True) fun _ _ ↦ trivial) hrun).2
    rw [Daemon.stepsLeft_init] at hle
    exact (Nat.le_add_left _ _).trans hle
  · have hcancelled : s.daemon.cancelled = true := by
      obtain ⟨as, bs, rfl⟩ := List.append_of_mem hcancel
      obtain ⟨u, -, hrun⟩ := (Machine.run_append_eq_some _).mp hrun
      obtain ⟨u', hstep, hrun⟩ := (Machine.run_cons_eq_some _).mp hrun
      refine keeps_until (fun _ ↦ False) (P := fun d ↦ d.cancelled = true) (fun _ _ ↦ id)
        (fun _ _ _ hd _ h ↦ Daemon.cancelled_mono hd h) (fun _ _ ↦ id) ?_ hrun
      have hstep : u.step fromStr path (.daemon .cancel) = some u' := hstep
      cases did_of_step hstep with
      | daemon _ hdaemon =>
        cases (Daemon.did_of_step hdaemon).2
        rfl
    obtain ⟨e, he, hstep⟩ := Daemon.exists_ends hresult hcancelled
    refine ⟨.daemon e, he, ?_⟩
    have hhandles : e.handles = false := by
      cases e <;> first | rfl | cases he
    show (if e.handles then none else _).isSome = true
    rw [hhandles, if_neg Bool.false_ne_true, Option.isSome_map]
    exact hstep

/-- The sample is told to end while a request is being handled. -/
theorem Service.ends_when_told_sample :
    ∃ s, (machine sampleFromStr "rspf.toml".toList).run (start sampleReloader.state)
        (sampleAsked ++ [.daemon .cancel]) = some s ∧
      ∃ e, ServiceEvent.ends e = true ∧
        (s.step sampleFromStr "rspf.toml".toList e).isSome = true := by
  have hrun : (machine sampleFromStr "rspf.toml".toList).run (start sampleReloader.state)
      (sampleAsked ++ [.daemon .cancel]) = some _ := rfl
  obtain ⟨-, -, -, hends⟩ := ends_when_told load_sampleFiles_old new_sampleReloader hrun
  exact ⟨_, hrun, hends (List.mem_append_right _ List.mem_cons_self) rfl⟩

end

end Rspf
