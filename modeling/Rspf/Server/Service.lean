import Mathlib.Logic.Function.Basic
import Rspf.Lib.Reads
import Rspf.Server.Shutdown
import Rspf.Server.Sighup

/-!
# The whole service

The daemon is several loops at once: listeners accept connections, each connection takes one request
after the other and handles it, signals reload the configuration, and another signal ends it all.
`Service.machine` puts them together.  It has the state of the listeners and connections
(`Daemon`), that of the reload task with the two cells (`Reloader`), and for each connection how far
the handling of its request is (`Progress`).  Each of its steps is a step of one of these, and a
handler reads the cells as they are when it takes its step.

What comes from outside is in the events: the bytes that arrive and the writes that fail, the files
whenever they are read, the time and what the DNS answers (`Outside`).  The DNS may answer the two
checks of a request differently, and it may answer by the resolver that asks, so the resolver that
was set up at the start stays part of the state.

`Service.toDaemon` and `Service.toReloader` are the two parts it is made of, so what holds of their
runs holds here.  What is new is what the parts do to each other: `Service.Inv` follows each request
from when it is taken to its answer, and `Service.inv_of_run` says that it holds at all times.

A journal of what was handled, and a list of the versions that were loaded, are kept in the state.
The program has neither, and no step looks at them; they are there to be spoken of.
-/

set_option autoImplicit false

namespace Rspf

variable {X : Crates} {m : Type → Type} {E : Type}

/-! ## Handling a request -/

variable (X) in
/-- `Evaluator`: what the daemon evaluates with. -/
abbrev Evaluator : Type := SpfEvaluator (OverrideLookup X Id)

variable (X) in
/-- What the handling of a request meets outside of the daemon.  The DNS may answer differently each
time it is asked, and the two checks of a request ask it separately; what a resolver finds also
depends on how it was configured when it was made. -/
structure Outside where
  /-- The time when the sender is unwrapped. -/
  now : UInt64
  /-- What a resolver finds while HELO is checked. -/
  heloDns : X.Resolver Id → X.Resolver Id
  /-- What a resolver finds while MAIL FROM is checked. -/
  mailFromDns : X.Resolver Id → X.Resolver Id

/-- The evaluator while its resolver finds this.  The overrides stay in front of it. -/
def Evaluator.asking (ev : Evaluator X) (dns : X.Resolver Id → X.Resolver Id) : Evaluator X :=
  { ev with lookup := { ev.lookup with inner := dns ev.lookup.inner } }

/-- What the evaluator finds. -/
def Evaluator.checks (ev : Evaluator X) (outside : Outside X) : PureChecks X where
  checkHelo := Checks.checkHelo (m := Id) (ev.asking outside.heloDns)
  checkMailFrom := Checks.checkMailFrom (m := Id) (ev.asking outside.mailFromDns)

/-- Actions that keep what is written to the log. -/
abbrev Logged : Type → Type := StateM (List Str)

instance : Syslog Logged := ⟨fun msg lines ↦ ((), lines ++ [msg])⟩

instance : Checks X Logged (PureChecks X) where
  checkHelo ev ip helo := pure (ev.checkHelo ip helo)
  checkMailFrom ev ip sender helo := pure (ev.checkMailFrom ip sender helo)

/-- What a step of a request writes to the log. -/
def Progress.logs (now : UInt64) (req : PolicyRequest) : Progress X → Logged Unit
  | .evaluated s config helo mailFrom =>
    let ctx := decisionContext X config.srs now req s
    logEvaluatedSpf X s.clientIp req.reverseClientName s.helo ctx.sender helo.result
      mailFrom.result (Engine.decide config helo mailFrom ctx)
  | _ => pure ()

/-- `handle_request`, if the cells hold these versions at the moments when it reads the
configuration, the whitelist, and the configuration again. -/
def handleSeeing [Monad m] [Checks X m E] [Syslog m] (evaluator : E) (now : UInt64)
    (req : PolicyRequest) (first second third : Version X) : m Action :=
  match req.subject with
  | none => pure .dunno
  | some s =>
    match shouldSkip (X := X) ⟨first.config, second.whitelist, evaluator⟩ req s.clientIp s.helo
      s.sender with
    | some _ => pure .dunno
    | none => evaluateRequest third.config evaluator now req s.clientIp s.helo s.sender

section

variable [Monad m] [Checks X m E] [Syslog m] {evaluator : E} {now : UInt64} {req : PolicyRequest}
  {s : Subject} {first second : Version X}

theorem handleSeeing_of_subject_eq_none (hs : req.subject = none) (first second third : Version X) :
    (handleSeeing evaluator now req first second third : m Action) = pure .dunno := by
  rw [handleSeeing, hs]

theorem handleSeeing_of_exempt (hs : req.subject = some s)
    (h : Exempt first.config second.whitelist req s) (third : Version X) :
    (handleSeeing evaluator now req first second third : m Action) = pure .dunno := by
  have hskip : shouldSkip (X := X) ⟨first.config, second.whitelist, evaluator⟩ req s.clientIp s.helo
      s.sender ≠ none := shouldSkip_ne_none_iff.mpr h
  obtain ⟨reason, hskip⟩ := Option.ne_none_iff_exists'.mp hskip
  rw [handleSeeing, hs]
  dsimp only
  rw [hskip]

theorem handleSeeing_of_not_exempt (hs : req.subject = some s)
    (h : ¬ Exempt first.config second.whitelist req s) (third : Version X) :
    (handleSeeing evaluator now req first second third : m Action) =
      evaluateRequest third.config evaluator now req s.clientIp s.helo s.sender := by
  have hskip : shouldSkip (X := X) ⟨first.config, second.whitelist, evaluator⟩ req s.clientIp s.helo
      s.sender = none := shouldSkip_eq_none_iff.mpr h
  rw [handleSeeing, hs]
  dsimp only
  rw [hskip]

/-- **A request that sees one version is handled by `handleRequest`.** -/
theorem handleSeeing_self (v : Version X) :
    (handleSeeing evaluator now req v v v : m Action) =
      handleRequest (v.state evaluator) now req := by
  cases hs : req.subject with
  | none => rw [handleSeeing_of_subject_eq_none hs, handleRequest_of_subject_eq_none hs]
  | some s =>
    by_cases he : Exempt v.config v.whitelist req s
    · rw [handleSeeing_of_exempt hs he, handleRequest_of_exempt hs he]
    · rw [handleSeeing_of_not_exempt hs he, handleRequest_of_not_exempt hs he]
      rfl

end

/-! ## The machine -/

/-- A request that is being handled. -/
structure Work (X : Crates) where
  req : PolicyRequest
  outside : Outside X
  /-- How many stores the reload task had made when it was taken. -/
  taken : ℕ
  progress : Progress X := .start
  lines : List Str := []

/-- A request that was handled. -/
structure Handled (X : Crates) where
  conn : ℕ
  req : PolicyRequest
  outside : Outside X
  /-- How many stores the reload task had made when it was taken. -/
  taken : ℕ
  /-- How many it had made when it was answered. -/
  answered : ℕ
  action : Action
  lines : List Str

/-- The service, and its history. -/
structure Service (X : Crates) where
  daemon : Daemon
  reloader : Reloader X (Evaluator X)
  work : ℕ → Option (Work X) := fun _ ↦ none
  /-- The log, with the connection that each line is from. -/
  syslog : List (ℕ × Str) := []
  journal : List (Handled X) := []
  /-- The versions that were loaded, the latest first. -/
  loads : List (Version X)
  /-- How many stores the reload task has made. -/
  stores : ℕ := 0

/-- A daemon that has just been started. -/
def Service.start (state : AppState X (Evaluator X)) : Service X where
  daemon := Daemon.init state.config.server.listen.length
  reloader := { state }
  loads := [⟨state.config, state.whitelist⟩]

/-- What can happen next. -/
inductive ServiceEvent (X : Crates) where
  /-- A listener or a connection does something other than handling a request. -/
  | daemon (e : Event)
  /-- A connection takes what comes next of its stream. -/
  | take (j : ℕ) (outside : Outside X)
  /-- The request of a connection is handled a step further. -/
  | work (j : ℕ)
  /-- The request of a connection is answered. -/
  | finish (j : ℕ)
  /-- The reload task does something. -/
  | reload (e : ReloadEvent)

/-- Does the handling of a request begin or end here? -/
def Event.handles : Event → Bool
  | .conn _ .decode => true
  | .conn _ (.finish _) => true
  | _ => false

/-- How many stores the reload task makes here. -/
def ReloadEvent.stores : ReloadEvent → ℕ
  | .storeWhitelist => 1
  | .storeConfig => 1
  | _ => 0

/-- The request that is being handled. -/
def Phase.handled : Phase → Option PolicyRequest
  | .evaluating req => some req
  | _ => none

/-- The request that a connection is handling. -/
def Daemon.handling (d : Daemon) (j : ℕ) : Option PolicyRequest :=
  d.conns[j]?.bind fun c ↦ c.phase.handled

/-- One step of the service. -/
def Service.step (fromStr : Str → Except X.TomlError (Config X)) (path : Str) (s : Service X) :
    ServiceEvent X → Option (Service X)
  | .daemon e =>
    if e.handles then none else (s.daemon.step e).map fun daemon ↦ { s with daemon }
  | .take j outside =>
    (s.daemon.step (.conn j .decode)).map fun daemon ↦
      let work := (daemon.handling j).map fun req ↦ { req, outside, taken := s.stores }
      { s with daemon, work := Function.update s.work j work }
  | .work j =>
    match s.daemon.result, s.work j with
    | none, some w =>
      let checks := s.reloader.state.evaluator.checks w.outside
      (w.progress.step checks w.outside.now w.req s.reloader.cells).map fun progress ↦
        let lines := (w.progress.logs w.outside.now w.req []).2
        let work := { w with progress, lines := w.lines ++ lines }
        { s with
          work := Function.update s.work j (some work)
          syslog := s.syslog ++ lines.map fun line ↦ (j, line) }
    | _, _ => none
  | .finish j =>
    match s.work j with
    | some ⟨req, outside, taken, .answered action, lines⟩ =>
      (s.daemon.step (.conn j (.finish action))).map fun daemon ↦
        { s with
          daemon
          work := Function.update s.work j none
          journal := s.journal ++ [⟨j, req, outside, taken, s.stores, action, lines⟩] }
    | _ => none
  | .reload e =>
    match s.daemon.result with
    | none =>
      (s.reloader.step fromStr path e).map fun reloader ↦
        { s with
          reloader
          loads := (s.reloader.completed e).toList ++ s.loads
          stores := s.stores + e.stores }
    | some _ => none

/-- The service. -/
def Service.machine (fromStr : Str → Except X.TomlError (Config X)) (path : Str) :
    Machine (Service X) (ServiceEvent X) :=
  ⟨Service.step fromStr path⟩

section

variable {fromStr : Str → Except X.TomlError (Config X)} {path : Str}

/-- What a step does. -/
inductive Service.Did (fromStr : Str → Except X.TomlError (Config X)) (path : Str)
    (s : Service X) : ServiceEvent X → Service X → Prop where
  | daemon {e : Event} {daemon : Daemon} : e.handles = false → s.daemon.step e = some daemon →
      s.Did fromStr path (.daemon e) { s with daemon }
  | take {j : ℕ} {outside : Outside X} {daemon : Daemon} :
      s.daemon.step (.conn j .decode) = some daemon →
      s.Did fromStr path (.take j outside)
        { s with
          daemon
          work := Function.update s.work j
            ((daemon.handling j).map fun req ↦ { req, outside, taken := s.stores }) }
  | work {j : ℕ} {w : Work X} {progress : Progress X} : s.daemon.result = none →
      s.work j = some w →
      w.progress.step (s.reloader.state.evaluator.checks w.outside) w.outside.now w.req
        s.reloader.cells = some progress →
      s.Did fromStr path (.work j)
        { s with
          work := Function.update s.work j
            (some { w with
              progress
              lines := w.lines ++ (w.progress.logs w.outside.now w.req []).2 })
          syslog := s.syslog ++
            (w.progress.logs w.outside.now w.req []).2.map fun line ↦ (j, line) }
  | finish {j : ℕ} {w : Work X} {action : Action} {daemon : Daemon} : s.work j = some w →
      w.progress = .answered action → s.daemon.step (.conn j (.finish action)) = some daemon →
      s.Did fromStr path (.finish j)
        { s with
          daemon
          work := Function.update s.work j none
          journal := s.journal ++
            [⟨j, w.req, w.outside, w.taken, s.stores, action, w.lines⟩] }
  | reload {e : ReloadEvent} {reloader : Reloader X (Evaluator X)} : s.daemon.result = none →
      s.reloader.step fromStr path e = some reloader →
      s.Did fromStr path (.reload e)
        { s with
          reloader
          loads := (s.reloader.completed e).toList ++ s.loads
          stores := s.stores + e.stores }

/-- **What a step does.** -/
theorem Service.did_of_step {s s' : Service X} {e : ServiceEvent X}
    (h : s.step fromStr path e = some s') : s.Did fromStr path e s' := by
  rw [Service.step.eq_def] at h
  split at h
  · split at h
    · exact absurd h nofun
    · rename_i he
      obtain ⟨daemon, hstep, rfl⟩ := Option.map_eq_some_iff.mp h
      exact .daemon (Bool.not_eq_true _ ▸ he) hstep
  · obtain ⟨daemon, hstep, rfl⟩ := Option.map_eq_some_iff.mp h
    exact .take hstep
  · split at h
    · rename_i hresult hw
      obtain ⟨progress, hstep, rfl⟩ := Option.map_eq_some_iff.mp h
      exact .work hresult hw hstep
    · exact absurd h nofun
  · split at h
    · rename_i hw
      obtain ⟨daemon, hstep, rfl⟩ := Option.map_eq_some_iff.mp h
      exact .finish hw rfl hstep
    · exact absurd h nofun
  · split at h
    · rename_i hresult
      obtain ⟨reloader, hstep, rfl⟩ := Option.map_eq_some_iff.mp h
      exact .reload hresult hstep
    · exact absurd h nofun

/-! ## Its parts -/

/-- The steps of the listeners and connections. -/
def Service.daemonEvents (s : Service X) : ServiceEvent X → List Event
  | .daemon e => [e]
  | .take j _ => [.conn j .decode]
  | .finish j =>
    match (s.work j).map Work.progress with
    | some (.answered action) => [.conn j (.finish action)]
    | _ => []
  | _ => []

/-- The steps of the reload task. -/
def Service.reloadEvents : ServiceEvent X → List ReloadEvent
  | .reload e => [e]
  | _ => []

variable (fromStr path) in
/-- **The listeners and connections are a part of the service.** -/
def Service.toDaemon : Projection (machine fromStr path) Daemon.machine where
  state := Service.daemon
  events := Service.daemonEvents
  run_events s e s' h := by
    have hrun : ∀ {d : Daemon} {e : Event}, s.daemon.step e = some d →
        Daemon.machine.run s.daemon [e] = some d :=
      fun h ↦ Daemon.machine.run_cons_eq_some.mpr ⟨_, h, rfl⟩
    cases did_of_step h with
    | daemon he hstep | take hstep => exact hrun hstep
    | work | reload => rfl
    | finish hw hanswered hstep =>
      rw [Service.daemonEvents, hw, Option.map_some, hanswered]
      exact hrun hstep

variable (fromStr path) in
/-- **The reload task is a part of the service.** -/
def Service.toReloader :
    Projection (machine fromStr path) (Reloader.machine (Evaluator X) fromStr path) where
  state := Service.reloader
  events _ := Service.reloadEvents
  run_events s e s' h := by
    cases did_of_step h with
    | daemon | take | work | finish => rfl
    | reload hresult hstep =>
      exact (Reloader.machine (Evaluator X) fromStr path).run_cons_eq_some.mpr ⟨_, hstep, rfl⟩

/-- **What was loaded is what the reload task has loaded.** -/
theorem Service.loads_eq {s t : Service X} {es : List (ServiceEvent X)}
    (hrun : (machine fromStr path).run s es = some t) :
    t.loads = (Reloader.machine (Evaluator X) fromStr path).trace Reloader.completed s.reloader
      ((toReloader fromStr path).runEvents s es) ++ s.loads := by
  induction es generalizing s with
  | nil =>
    rw [Machine.run_nil, Option.some_inj] at hrun
    exact hrun ▸ rfl
  | cons e es ih =>
    obtain ⟨s', hs', ht⟩ := (machine fromStr path).run_cons_eq_some.mp hrun
    rw [(toReloader fromStr path).runEvents_cons hs', ih ht]
    cases did_of_step hs' with
    | daemon | take | work | finish => rfl
    | @reload e reloader hresult hstep =>
      rw [show (toReloader fromStr path).events s (.reload e) = [e] from rfl, List.singleton_append,
        Machine.trace_cons hstep, List.append_assoc]

end

end Rspf
