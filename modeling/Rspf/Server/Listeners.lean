import Rspf.Server.Shutdown

/-!
# Listeners that cannot start

A listener that cannot bind its address returns an error, and `run` is to return it.  But `run`
waits for the listeners in the order of the configuration, and one that serves does not return
before the shutdown: until then `run` never comes to a listener that stands behind it.

`failure_reported_iff` is what this means for a daemon whose binds end in a given way: a failure is
reported in all circumstances just when the first listener is among those that fail.  So it depends
on the order of the listeners (`late_failure_not_reported`).

Reporting takes time, so a failure only counts as unreported when `run` is stuck: nothing that may
still happen before the shutdown makes it move (`Daemon.RunStuck`).

The two directions are of different kinds.  If the first listener serves then `run` waits for it in
all runs, which is an invariant (`Daemon.WaitsForFirst`).  If it fails then wherever `run` has not
returned there are events by which it returns this error (`Daemon.exists_run_to_error`), so it is
not stuck there.
-/

set_option autoImplicit false

namespace Rspf

/-! ## Runs with given failures -/

/-- Each bind ends as it is given for the position of the listener. -/
def Follows (fails : ℕ → Option IoError) (es : List Event) : Prop :=
  ∀ i error, Event.bind i error ∈ es → error = fails i

/-- Whatever happens short of a shutdown, `run` does not move any more: it has returned, or waits
for a listener that goes on serving. -/
def Daemon.RunStuck (fails : ℕ → Option IoError) (d : Daemon) : Prop :=
  ∀ es d', Follows fails es → Event.cancel ∉ es → machine.run d es = some d' →
    d'.joined = d.joined ∧ d'.result = d.result

/-- `run` has returned an error. -/
def Daemon.Reports (d : Daemon) : Prop := ∃ e, d.result = some (.error e)

/-- Some listener has failed. -/
def Daemon.HasFailed (d : Daemon) : Prop :=
  ∃ (i : ℕ) (e : IoError), d.listeners[i]? = some (.returned (.error e))

/-! ## What is known of the listeners -/

variable {n : ℕ} {fails : ℕ → Option IoError} {d d' : Daemon} {e : Event} {es : List Event}

/-- What is true at all times of a daemon with `n` listeners whose binds end as given. -/
structure Daemon.BindInv (n : ℕ) (fails : ℕ → Option IoError) (d : Daemon) : Prop where
  length : d.listeners.length = n
  accepting : ∀ i : ℕ, d.listeners[i]? = some .accepting → fails i = none
  failed : ∀ (i : ℕ) (error : IoError), d.listeners[i]? = some (.returned (.error error)) →
    fails i = some error
  /-- `run` returns the error of the listener it has come to. -/
  error : ∀ error, d.result = some (.error error) →
    d.listeners[d.joined]? = some (.returned (.error error))
  ok : d.result = some (.ok ()) → n ≤ d.joined

theorem Daemon.bindInv_init (n : ℕ) (fails : ℕ → Option IoError) : (init n).BindInv n fails := by
  have hstart : ∀ (i : ℕ) (l : Listener), (init n).listeners[i]? = some l → l = .starting := by
    intro i l hl
    exact List.eq_of_mem_replicate (List.mem_of_getElem? hl)
  refine ⟨List.length_replicate, fun i hi ↦ ?_, fun i error hi ↦ ?_, nofun, nofun⟩
  · exact absurd (hstart i _ hi) nofun
  · exact absurd (hstart i _ hi) nofun

/-- A listener goes on while `run` has not returned. -/
theorem Daemon.BindInv.setListener (hd : d.BindInv n fails) (hresult : d.result = none) {i : ℕ}
    {new : Listener} (haccepting : new = .accepting → fails i = none)
    (hfailed : ∀ error, new = .returned (.error error) → fails i = some error) :
    Daemon.BindInv n fails { d with listeners := d.listeners.set i new } := by
  refine ⟨?_, fun k hk ↦ ?_, fun k error hk ↦ ?_, fun error h ↦ ?_, fun h ↦ ?_⟩
  · rw [List.length_set]
    exact hd.length
  · rcases getElem?_set_cases hk with ⟨rfl, hnew⟩ | hk
    · exact haccepting hnew
    · exact hd.accepting k hk
  · rcases getElem?_set_cases hk with ⟨rfl, hnew⟩ | hk
    · exact hfailed error hnew
    · exact hd.failed k error hk
  · exact absurd (hresult.symm.trans h) nofun
  · exact absurd (hresult.symm.trans h) nofun

/-- **A step keeps what is known of the listeners.** -/
theorem Daemon.BindInv.step (hd : d.BindInv n fails)
    (hbind : ∀ i error, e = .bind i error → error = fails i) (h : d.step e = some d') :
    d'.BindInv n fails := by
  obtain ⟨hresult, hdid⟩ := did_of_step h
  cases hdid with
  | cancel | accept | conn => exact ⟨hd.length, hd.accepting, hd.failed, hd.error, hd.ok⟩
  | acceptFails => exact hd
  | @bind i error hold =>
    obtain rfl := hbind i error rfl
    refine hd.setListener hresult (fun hnew ↦ ?_) fun error hnew ↦ ?_
    · cases hf : fails i with
      | none => rfl
      | some error => rw [hf] at hnew; exact absurd hnew nofun
    · cases hf : fails i with
      | none => rw [hf] at hnew; exact absurd hnew nofun
      | some error' => rw [hf] at hnew; cases hnew; rfl
  | stop hold hcancelled => exact hd.setListener hresult nofun nofun
  | done hend =>
    refine ⟨hd.length, hd.accepting, hd.failed, nofun, fun _ ↦ ?_⟩
    exact hd.length ▸ List.getElem?_eq_none_iff.mp hend
  | joined hok =>
    refine ⟨hd.length, hd.accepting, hd.failed, fun error herror ↦ ?_, fun hok ↦ ?_⟩
    · exact absurd (hresult.symm.trans herror) nofun
    · exact absurd (hresult.symm.trans hok) nofun
  | failed herror =>
    refine ⟨hd.length, hd.accepting, hd.failed, fun error' h' ↦ ?_, nofun⟩
    rw [Option.some.injEq, Except.error.injEq] at h'
    exact h' ▸ herror

/-- In all states of a run with the given failures this is so. -/
theorem Daemon.inv_of_follows (hes : Follows fails es) (h : machine.run (init n) es = some d) :
    d.Inv ∧ d.BindInv n fails := by
  let C (_ : Daemon) (e : Event) : Prop := ∀ i error, e = .bind i error → error = fails i
  have hguarded : machine.Guarded C (init n) es := by
    refine Machine.guarded_of_visits ?_
    rintro as e bs u rfl - i error rfl
    exact hes i error (List.mem_append_right _ List.mem_cons_self)
  have hkeep : ∀ u e u', (u.Inv ∧ u.BindInv n fails) → C u e → machine.step u e = some u' →
      u'.Inv ∧ u'.BindInv n fails := fun u e u' hu hC hstep ↦
    ⟨hu.1.step hstep, hu.2.step hC hstep⟩
  exact Machine.invariant_of_guarded hkeep ⟨inv_init n, bindInv_init n fails⟩ hguarded h

/-! ## Behind a healthy listener -/

/-- `run` waits for the first listener, which accepts connections. -/
structure Daemon.WaitsForFirst (d : Daemon) : Prop where
  cancelled : d.cancelled = false
  result : d.result = none
  /-- It has not come past the first listener. -/
  joined : d.joined = 0
  accepting : d.listeners[0]? = some .accepting

/-- **Until the shutdown `run` goes on waiting.** -/
theorem Daemon.WaitsForFirst.step (hd : d.WaitsForFirst) (he : e ≠ .cancel)
    (h : d.step e = some d') : d'.WaitsForFirst := by
  have hfirst := hd.accepting
  have hnext : d.listeners[d.joined]? = some .accepting := hd.joined ▸ hfirst
  cases (did_of_step h).2 with
  | cancel => exact absurd rfl he
  | @bind i error hold =>
    have hi : i ≠ 0 := by
      rintro rfl
      exact absurd (hfirst.symm.trans hold) nofun
    refine ⟨hd.cancelled, hd.result, hd.joined, ?_⟩
    show (d.listeners.set i _)[0]? = _
    rw [List.getElem?_set_ne hi]
    exact hfirst
  | accept | conn => exact ⟨hd.cancelled, hd.result, hd.joined, hfirst⟩
  | acceptFails => exact hd
  | stop hold hcancelled => exact absurd (hd.cancelled.symm.trans hcancelled) nofun
  | done hend => exact absurd (hnext.symm.trans hend) nofun
  | joined hok => exact absurd (hnext.symm.trans hok) nofun
  | failed herror => exact absurd (hnext.symm.trans herror) nofun

theorem Daemon.WaitsForFirst.runStuck (hd : d.WaitsForFirst) : d.RunStuck fails := by
  intro es d' hes hcancel hrun
  have hguarded : machine.Guarded (fun _ e ↦ e ≠ .cancel) d es := by
    refine Machine.guarded_of_visits ?_
    rintro as e bs u rfl - rfl
    exact hcancel (List.mem_append_right _ List.mem_cons_self)
  have hd' : d'.WaitsForFirst :=
    Machine.invariant_of_guarded (fun u e u' hu hne hstep ↦ hu.step hne hstep) hd hguarded hrun
  exact ⟨hd'.joined.trans hd.joined.symm, hd'.result.trans hd.result.symm⟩

/-! ## What is reported -/

/-- `run` can return the error of the listener it has come to. -/
theorem Daemon.step_join_of_error {error : IoError} (hresult : d.result = none)
    (h : d.listeners[d.joined]? = some (.returned (.error error))) :
    machine.step d .join = some { d with result := some (.error error) } := by
  show d.step .join = _
  rw [Daemon.step, hresult, h]
  rfl

/-- Once it has returned, `run` does not move. -/
theorem Daemon.Reports.runStuck (hd : d.Reports) : d.RunStuck fails := by
  obtain ⟨error, hresult⟩ := hd
  intro es d' _ _ hrun
  cases es with
  | nil =>
    obtain rfl := Option.some.inj hrun
    exact ⟨rfl, rfl⟩
  | cons e es =>
    obtain ⟨u, hstep, -⟩ := machine.run_cons_eq_some.mp hrun
    exact absurd ((did_of_step hstep).1.symm.trans hresult) nofun

/-- The first listener binds its address, and then another one fails to. -/
theorem Daemon.exists_waitsForFirst {k : ℕ} (hk : k < n) (hk0 : k ≠ 0) (error : IoError) :
    ∃ d, machine.run (init n) [.bind 0 none, .bind k (some error)] = some d ∧ d.WaitsForFirst ∧
      d.listeners[k]? = some (.returned (.error error)) := by
  have hfirst : (init n).listeners[0]? = some .starting := by
    rw [init, List.getElem?_replicate, if_pos (by omega)]
  have hother : ((init n).listeners.set 0 .accepting)[k]? = some .starting := by
    rw [List.getElem?_set_ne hk0.symm, init, List.getElem?_replicate, if_pos hk]
  have hlength : ((init n).listeners.set 0 .accepting).length = n := by
    rw [List.length_set, init, List.length_replicate]
  let d : Daemon := { init n with
    listeners := ((init n).listeners.set 0 .accepting).set k (.returned (.error error)) }
  refine ⟨d, machine.run_cons_eq_some.mpr ⟨_, step_bind rfl hfirst none, ?_⟩, ?_⟩
  · exact machine.run_cons_eq_some.mpr ⟨_, step_bind rfl hother (some error), rfl⟩
  · refine ⟨⟨rfl, rfl, rfl, ?_⟩, ?_⟩
    · show (((init n).listeners.set 0 .accepting).set k _)[0]? = _
      rw [List.getElem?_set_ne hk0,
        List.getElem?_set_self (by rw [init, List.length_replicate]; omega)]
    · exact List.getElem?_set_self (by rw [hlength]; exact hk)

/-- Where the first listener fails and `run` still waits for it, there are events by which `run`
gets to its error. -/
theorem Daemon.exists_run_to_error (hbinds : d.BindInv n fails) (hresult : d.result = none)
    (hjoined : d.joined = 0) (hreturned : d.listeners[0]? ≠ some (.returned (.ok ())))
    (hn : 0 < n) {error : IoError} (hfails : fails 0 = some error) :
    ∃ es d', Follows fails es ∧ Event.cancel ∉ es ∧ machine.run d es = some d' ∧
      d'.result = some (.error error) := by
  cases hfirst : d.listeners[0]? with
  | none =>
    rw [List.getElem?_eq_none_iff, hbinds.length] at hfirst
    exact absurd hn (Nat.not_lt.mpr hfirst)
  | some listener =>
    cases listener with
    | starting =>
      -- it can fail, and then `run` can return its error
      have hbind := step_bind hresult hfirst (some error)
      have hnext : (d.listeners.set 0 (.returned (.error error)))[d.joined]? =
          some (.returned (.error error)) := by
        rw [hjoined]
        exact List.getElem?_set_self (hbinds.length ▸ hn)
      have hjoin := step_join_of_error
        (d := { d with listeners := d.listeners.set 0 (.returned (.error error)) }) hresult hnext
      refine ⟨[.bind 0 (some error), .join], _, ?_, by simp,
        machine.run_cons_eq_some.mpr ⟨_, hbind, machine.run_cons_eq_some.mpr ⟨_, hjoin, rfl⟩⟩, rfl⟩
      intro i error' hmem
      simp only [List.mem_cons, Event.bind.injEq, reduceCtorEq, List.not_mem_nil,
        or_false] at hmem
      obtain ⟨rfl, rfl⟩ := hmem
      exact hfails.symm
    | accepting => exact absurd (hfails.symm.trans (hbinds.accepting 0 hfirst)) nofun
    | returned result =>
      cases result with
      | ok _ => exact absurd hfirst hreturned
      | error error' =>
        obtain rfl := Option.some.inj (hfails.symm.trans (hbinds.failed 0 error' hfirst))
        have hjoin := step_join_of_error hresult (hjoined.symm ▸ hfirst)
        refine ⟨[.join], _, ?_, by simp, machine.run_cons_eq_some.mpr ⟨_, hjoin, rfl⟩, rfl⟩
        intro i error' hmem
        exact absurd (List.mem_singleton.mp hmem) nofun

/-- A first listener that fails is reported: while `run` has not returned it can still come to
it. -/
theorem Daemon.reports_of_first_fails (hinv : d.Inv) (hbinds : d.BindInv n fails)
    (hcancelled : d.cancelled = false) (hstuck : d.RunStuck fails) (hn : 0 < n) {error : IoError}
    (hfails : fails 0 = some error) : d.Reports := by
  have hreturned : d.listeners[0]? ≠ some (.returned (.ok ())) := fun h ↦
    absurd (hcancelled.symm.trans (hinv.cancelled 0 h)) nofun
  cases hresult : d.result with
  | some result =>
    cases result with
    | error error => exact ⟨error, hresult⟩
    | ok _ => exact absurd (hinv.joined 0 (hn.trans_le (hbinds.ok hresult))) hreturned
  | none =>
    have hjoined : d.joined = 0 :=
      Nat.eq_zero_of_not_pos fun hpos ↦ hreturned (hinv.joined 0 hpos)
    obtain ⟨es, d', hes, hcancel, hrun, hresult'⟩ :=
      exists_run_to_error hbinds hresult hjoined hreturned hn hfails
    exact absurd (hresult.symm.trans ((hstuck es d' hes hcancel hrun).2.symm.trans hresult')) nofun

/-- **When a listener that cannot start is reported.**  In every state before a shutdown in which
`run` is stuck, it has returned an error just if some listener has failed: this holds in all runs
with the given failures if and only if no listener fails, or the first one does. -/
theorem failure_reported_iff (n : ℕ) (fails : ℕ → Option IoError) :
    (∀ es d, Follows fails es → Daemon.machine.run (Daemon.init n) es = some d →
      d.cancelled = false → d.RunStuck fails → (d.Reports ↔ d.HasFailed)) ↔
      (∀ i < n, fails i = none) ∨ fails 0 ≠ none := by
  refine ⟨?_, ?_⟩
  · intro h
    by_contra hno
    rw [not_or, Decidable.not_not] at hno
    obtain ⟨hsome, hfirst⟩ := hno
    push Not at hsome
    obtain ⟨k, hk, hfails⟩ := hsome
    obtain ⟨error, hfails⟩ := Option.ne_none_iff_exists'.mp hfails
    have hk0 : k ≠ 0 := by
      rintro rfl
      exact absurd (hfirst.symm.trans hfails) nofun
    obtain ⟨d, hrun, hwaits, hk'⟩ := Daemon.exists_waitsForFirst hk hk0 error
    have hfollows : Follows fails [.bind 0 none, .bind k (some error)] := by
      intro i error' hmem
      simp only [List.mem_cons, Event.bind.injEq, List.not_mem_nil, or_false] at hmem
      rcases hmem with ⟨rfl, rfl⟩ | ⟨rfl, rfl⟩
      · exact hfirst.symm
      · exact hfails.symm
    obtain ⟨error', hresult⟩ :=
      (h _ d hfollows hrun hwaits.cancelled hwaits.runStuck).mpr ⟨k, error, hk'⟩
    exact absurd (hwaits.result.symm.trans hresult) nofun
  · intro hcond es d hes hrun hcancelled hstuck
    obtain ⟨hinv, hbinds⟩ := Daemon.inv_of_follows hes hrun
    refine ⟨?_, ?_⟩
    · rintro ⟨error, hresult⟩
      exact ⟨d.joined, error, hbinds.error error hresult⟩
    · rintro ⟨i, error, hi⟩
      have hlt : i < n := by
        rw [← hbinds.length]
        exact (List.getElem?_eq_some_iff.mp hi).1
      have hfails := hbinds.failed i error hi
      have hfirst : fails 0 ≠ none := hcond.resolve_left fun hnone ↦
        absurd ((hnone i hlt).symm.trans hfails) nofun
      obtain ⟨error', hfails'⟩ := Option.ne_none_iff_exists'.mp hfirst
      exact Daemon.reports_of_first_fails hinv hbinds hcancelled hstuck
        (Nat.zero_lt_of_lt hlt) hfails'

/-- The error for an address that another process listens on. -/
def addressInUse : IoError := ⟨"Address already in use (os error 98)".toList⟩

/-- **A failure behind a healthy listener is not reported**, and it is when the two listeners change
places. -/
theorem late_failure_not_reported :
    (∃ d, Daemon.machine.run (Daemon.init 2) [.bind 0 none, .bind 1 (some addressInUse)] = some d ∧
      d.cancelled = false ∧ d.RunStuck (fun i ↦ if i = 1 then some addressInUse else none) ∧
      d.HasFailed ∧ ¬ d.Reports) ∧
    ∃ d, Daemon.machine.run (Daemon.init 2)
        [.bind 1 none, .bind 0 (some addressInUse), .join] = some d ∧
      d.cancelled = false ∧ d.RunStuck (fun i ↦ if i = 0 then some addressInUse else none) ∧
      d.HasFailed ∧ d.Reports := by
  refine ⟨?_, ?_⟩
  · obtain ⟨d, hrun, hwaits, hfailed⟩ :=
      Daemon.exists_waitsForFirst (n := 2) (k := 1) (by decide) (by decide) addressInUse
    refine ⟨d, hrun, hwaits.cancelled, hwaits.runStuck, ⟨1, _, hfailed⟩, ?_⟩
    rintro ⟨error, hresult⟩
    exact absurd (hwaits.result.symm.trans hresult) nofun
  · refine ⟨_, rfl, rfl, Daemon.Reports.runStuck ?_, ⟨0, addressInUse, rfl⟩, ?_⟩
    · exact ⟨addressInUse, rfl⟩
    · exact ⟨addressInUse, rfl⟩

end Rspf
