import Rspf.Lib.Machine
import Rspf.Server.Connection

/-!
# Running and shutting down

`run` spawns a task for each listener and waits for these tasks, one after the other; each listener
spawns a task for each connection it accepts, and nobody waits for those.  The shutdown is a token
that is cancelled once.  A listener looks at it whenever it waits for a connection, and a connection
whenever it waits for a request, but not while it answers one.  When `run` returns, so does `main`,
and the process ends with whatever its tasks were doing.

`Daemon.machine` is all of this as a machine.  Which task goes next is an event, and so is
everything that comes from outside: bytes that arrive, binds and writes that fail, the signal.  So a
run is one order in which these things may happen, and what is proved of all runs holds in every
order.

* `Conn.step` is a turn of `handle_connection`, cut where other tasks may go on.  A write that
  succeeds is one step.  It may fail after any number of bytes, and then the connection is at its
  end (`Phase.broken`); a write that the end of the process cuts short is seen as one of these.  A
  read that fails is like the end of the stream.
* `Conn.Inv` is what a connection keeps to: what it has taken are the first requests of what it has
  received, and what it has written are the answers, with a part of one more if a write has failed.
  `Daemon.written_eq_handleConnection` says the same by `handleConnection`, which has no events.
* `answersTaken_iff` is about the shutdown.  It may cut off a request that was taken and not
  answered, and this does not depend on what the client sends: with any listener at all there is a
  run in which it does (`Daemon.exists_dropping_run`).
-/

set_option autoImplicit false

namespace Rspf

/-! ## Connections -/

/-- Where the task of a connection is in its loop. -/
inductive Phase where
  /-- At the `select!`, waiting for a request or the shutdown. -/
  | idle
  /-- In `handle_request`. -/
  | evaluating (req : PolicyRequest)
  | sending (req : PolicyRequest) (action : Action)
  /-- At its end, since this answer could not be written but for so many bytes. -/
  | broken (req : PolicyRequest) (action : Action) (sent : ℕ)
  /-- At its end. -/
  | closed

/-- The request that was taken and is not answered. -/
def Phase.inFlight : Phase → List PolicyRequest
  | idle => []
  | evaluating req => [req]
  | sending req _ => [req]
  | broken req _ _ => [req]
  | closed => []

/-- The answer that is being sent, or could not be. -/
def Phase.reply : Phase → List (PolicyRequest × Action)
  | sending req action => [(req, action)]
  | broken req action _ => [(req, action)]
  | _ => []

/-- What was written of an answer that could not be written whole. -/
def Phase.torn : Phase → List UInt8
  | broken _ action sent => (Utf8.encode action.toWire).take sent
  | _ => []

/-- The loop goes on. -/
def Phase.isOpen : Phase → Bool
  | broken _ _ _ => false
  | closed => false
  | _ => true

/-- The task of a connection, and its history. -/
structure Conn where
  phase : Phase := .idle
  buffer : List UInt8 := []
  received : List UInt8 := []
  decoded : List PolicyRequest := []
  answered : List (PolicyRequest × Action) := []
  written : List UInt8 := []

/-- The answers of a connection, with the one that is being sent. -/
def Conn.replies (c : Conn) : List (PolicyRequest × Action) := c.answered ++ c.phase.reply

/-- What a connection can do next. -/
inductive ConnEvent where
  /-- The buffer holds no complete request, and a chunk arrives. -/
  | receive (chunk : List UInt8)
  /-- `framed.next()` decodes a block. -/
  | decode
  /-- `framed.next()` comes to the end of the stream, or cannot read on. -/
  | eof
  /-- The token is cancelled. -/
  | shutdown
  /-- `handle_request` is done. -/
  | finish (action : Action)
  /-- `framed.send` has written the answer. -/
  | send
  /-- `framed.send` fails after so many bytes, or gets no further before the process ends. -/
  | sendFails (sent : ℕ)

/-- One step of `handle_connection`. -/
def Conn.step (cancelled : Bool) (c : Conn) (e : ConnEvent) : Option Conn :=
  match c.phase, e with
  | .idle, .receive chunk =>
    match PolicyRequestCodec.decode c.buffer with
    | some (.ok none, buffer) =>
      some { c with buffer := buffer ++ chunk, received := c.received ++ chunk }
    | _ => none
  | .idle, .decode =>
    match PolicyRequestCodec.decode c.buffer with
    | some (.ok (some req), buffer) =>
      some { c with phase := .evaluating req, buffer, decoded := c.decoded ++ [req] }
    | some (.error _, buffer) => some { c with phase := .closed, buffer }
    | _ => none
  | .idle, .eof =>
    match PolicyRequestCodec.decode c.buffer with
    | some (.ok none, buffer) => some { c with phase := .closed, buffer }
    | _ => none
  | .idle, .shutdown => if cancelled then some { c with phase := .closed } else none
  | .evaluating req, .finish action => some { c with phase := .sending req action }
  | .sending req action, .send =>
    some { c with
      phase := .idle
      answered := c.answered ++ [(req, action)]
      written := PolicyRequestCodec.encode action c.written }
  | .sending req action, .sendFails sent =>
    some { c with
      phase := .broken req action sent
      written := c.written ++ (PolicyRequestCodec.encode action []).take sent }
  | _, _ => none

/-! ## The daemon -/

/-- The task of a listener. -/
inductive Listener where
  | starting
  | accepting
  | returned (result : Except IoError Unit)

/-- The tasks of the daemon. -/
structure Daemon where
  cancelled : Bool := false
  /-- The listeners, in the order of the configuration. -/
  listeners : List Listener
  conns : List Conn := []
  /-- How many listeners `run` has seen return. -/
  joined : ℕ := 0
  /-- What `run` has returned. -/
  result : Option (Except IoError Unit) := none

/-- A daemon that has spawned its listeners. -/
def Daemon.init (n : ℕ) : Daemon where
  listeners := List.replicate n .starting

/-- What can happen next. -/
inductive Event where
  | cancel
  /-- A listener binds its address, or fails to. -/
  | bind (i : ℕ) (error : Option IoError)
  /-- A listener accepts a connection. -/
  | accept (i : ℕ)
  /-- A listener fails to, and goes on. -/
  | acceptFails (i : ℕ)
  /-- A listener sees that the token is cancelled. -/
  | stop (i : ℕ)
  | conn (j : ℕ) (e : ConnEvent)
  /-- `run` looks at the next listener, or finds that there is none. -/
  | join

/-- One step of the daemon. -/
def Daemon.step (d : Daemon) (e : Event) : Option Daemon :=
  if d.result.isSome then none
  else
    match e with
    | .cancel => some { d with cancelled := true }
    | .bind i error =>
      match d.listeners[i]? with
      | some .starting =>
        let listener : Listener :=
          match error with
          | none => .accepting
          | some e => .returned (.error e)
        some { d with listeners := d.listeners.set i listener }
      | _ => none
    | .accept i =>
      match d.listeners[i]? with
      | some .accepting => some { d with conns := d.conns ++ [{}] }
      | _ => none
    | .acceptFails i =>
      match d.listeners[i]? with
      | some .accepting => some d
      | _ => none
    | .stop i =>
      match d.listeners[i]? with
      | some .accepting =>
        if d.cancelled then some { d with listeners := d.listeners.set i (.returned (.ok ())) }
        else none
      | _ => none
    | .conn j e =>
      match d.conns[j]? with
      | some c => (c.step d.cancelled e).map fun c' ↦ { d with conns := d.conns.set j c' }
      | none => none
    | .join =>
      match d.listeners[d.joined]? with
      | none => some { d with result := some (.ok ()) }
      | some (.returned (.ok ())) => some { d with joined := d.joined + 1 }
      | some (.returned (.error e)) => some { d with result := some (.error e) }
      | some _ => none

/-- The daemon. -/
def Daemon.machine : Machine Daemon Event := ⟨Daemon.step⟩

/-- A listener that has come back from binding its address. -/
def Listener.bound : Option IoError → Listener
  | none => accepting
  | some e => returned (.error e)

/-- What a step does, kind by kind. -/
inductive Daemon.Did (d : Daemon) : Event → Daemon → Prop where
  | cancel : d.Did .cancel { d with cancelled := true }
  | bind {i : ℕ} {error : Option IoError} : d.listeners[i]? = some .starting →
      d.Did (.bind i error) { d with listeners := d.listeners.set i (.bound error) }
  | accept {i : ℕ} : d.listeners[i]? = some .accepting →
      d.Did (.accept i) { d with conns := d.conns ++ [{}] }
  | acceptFails {i : ℕ} : d.listeners[i]? = some .accepting → d.Did (.acceptFails i) d
  | stop {i : ℕ} : d.listeners[i]? = some .accepting → d.cancelled = true →
      d.Did (.stop i) { d with listeners := d.listeners.set i (.returned (.ok ())) }
  | conn {j : ℕ} {e : ConnEvent} {c c' : Conn} : d.conns[j]? = some c →
      c.step d.cancelled e = some c' → d.Did (.conn j e) { d with conns := d.conns.set j c' }
  /-- `run` has found that there are no more listeners. -/
  | done : d.listeners[d.joined]? = none → d.Did .join { d with result := some (.ok ()) }
  /-- `run` has found that the next listener has returned. -/
  | joined : d.listeners[d.joined]? = some (.returned (.ok ())) →
      d.Did .join { d with joined := d.joined + 1 }
  /-- `run` has found that the next listener has failed. -/
  | failed {e : IoError} : d.listeners[d.joined]? = some (.returned (.error e)) →
      d.Did .join { d with result := some (.error e) }

/-- **What a step does.**  After `run` has returned there is none. -/
theorem Daemon.did_of_step {d d' : Daemon} {e : Event} (h : d.step e = some d') :
    d.result = none ∧ d.Did e d' := by
  rw [Daemon.step.eq_def] at h
  split at h
  · exact absurd h nofun
  · rename_i hrunning
    refine ⟨Option.not_isSome_iff_eq_none.mp hrunning, ?_⟩
    split at h
    · obtain rfl := Option.some.inj h
      exact .cancel
    · rename_i i error
      split at h
      · rename_i hold
        obtain rfl := Option.some.inj h
        cases error <;> exact .bind hold
      · exact absurd h nofun
    · split at h
      · rename_i hold
        obtain rfl := Option.some.inj h
        exact .accept hold
      · exact absurd h nofun
    · split at h
      · rename_i hold
        obtain rfl := Option.some.inj h
        exact .acceptFails hold
      · exact absurd h nofun
    · split at h
      · rename_i hold
        split at h
        · rename_i hcancelled
          obtain rfl := Option.some.inj h
          exact .stop hold hcancelled
        · exact absurd h nofun
      · exact absurd h nofun
    · split at h
      · rename_i c hc
        obtain ⟨c', hstep, rfl⟩ := Option.map_eq_some_iff.mp h
        exact .conn hc hstep
      · exact absurd h nofun
    · split at h
      · rename_i hnone
        obtain rfl := Option.some.inj h
        exact .done hnone
      · rename_i hok
        obtain rfl := Option.some.inj h
        exact .joined hok
      · rename_i herror
        obtain rfl := Option.some.inj h
        exact .failed herror
      · exact absurd h nofun

/-! ## What a connection does -/

/-- What is true of a connection at all times. -/
structure Conn.Inv (c : Conn) : Prop where
  decoded_eq : c.decoded = c.answered.map Prod.fst ++ c.phase.inFlight
  written_eq : c.written = (c.answered.flatMap fun p ↦ Utf8.encode p.2.toWire) ++ c.phase.torn
  /-- What was taken are the first requests of the stream. -/
  decoded_isPrefix : ∀ later, c.decoded <+: requestsOf (c.received ++ later)
  /-- The others are still to be decoded, as long as the loop goes on. -/
  requests_eq : c.phase ≠ .closed →
    ∀ later, requestsOf (c.received ++ later) = c.decoded ++ requestsOf (c.buffer ++ later)

theorem Conn.inv_new : Conn.Inv {} :=
  ⟨rfl, rfl, fun _ ↦ List.nil_prefix, fun _ _ ↦ rfl⟩

/-- The invariant of a connection that has reached its end. -/
theorem Conn.Inv.close {c : Conn} (hc : c.Inv) (hidle : c.phase = .idle) (buffer : List UInt8) :
    Conn.Inv { c with phase := .closed, buffer } := by
  have hdecoded := hc.decoded_eq
  have hwritten := hc.written_eq
  rw [hidle] at hdecoded hwritten
  exact ⟨hdecoded, hwritten, hc.decoded_isPrefix, fun h ↦ absurd rfl h⟩

/-- **A step of a connection keeps its invariant.** -/
theorem Conn.Inv.step {c c' : Conn} {cancelled : Bool} {e : ConnEvent} (hc : c.Inv)
    (h : c.step cancelled e = some c') : c'.Inv := by
  have hdecoded := hc.decoded_eq
  have hwritten := hc.written_eq
  have hrequests := hc.requests_eq
  rw [Conn.step.eq_def] at h
  split at h
  · rename_i chunk hphase
    split at h
    · rename_i buffer hdecode
      obtain ⟨-, rfl⟩ := cut_of_decode_eq_none hdecode
      obtain rfl := Option.some.inj h
      refine ⟨hc.decoded_eq, hc.written_eq, fun later ↦ ?_, fun hopen later ↦ ?_⟩
      · rw [List.append_assoc]
        exact hc.decoded_isPrefix _
      · rw [List.append_assoc, List.append_assoc]
        exact hrequests hopen _
    · exact absurd h nofun
  · rename_i hphase
    split at h
    · rename_i req buffer hdecode
      obtain ⟨block, hcut, hparse⟩ := cut_of_decode_eq_some hdecode
      obtain rfl := Option.some.inj h
      rw [hphase] at hdecoded hwritten hrequests
      have hrequests' : ∀ later, requestsOf (c.received ++ later) =
          (c.decoded ++ [req]) ++ requestsOf (buffer ++ later) := by
        intro later
        rw [hrequests nofun, requestsOf_of_ok (requestFramer.cut_append hcut later) hparse,
          List.append_assoc]
        rfl
      refine ⟨?_, hwritten, fun later ↦ ⟨_, (hrequests' later).symm⟩, fun _ ↦ hrequests'⟩
      rw [hdecoded, List.append_assoc]
      rfl
    · rename_i buffer hdecode
      obtain rfl := Option.some.inj h
      exact hc.close hphase buffer
    · exact absurd h nofun
  · rename_i hphase
    split at h
    · rename_i buffer hdecode
      obtain rfl := Option.some.inj h
      exact hc.close hphase buffer
    · exact absurd h nofun
  · rename_i hphase
    split at h
    · obtain rfl := Option.some.inj h
      exact hc.close hphase c.buffer
    · exact absurd h nofun
  · rename_i req action hphase
    obtain rfl := Option.some.inj h
    rw [hphase] at hdecoded hwritten hrequests
    exact ⟨hdecoded, hwritten, hc.decoded_isPrefix, fun _ ↦ hrequests nofun⟩
  · rename_i req action hphase
    obtain rfl := Option.some.inj h
    rw [hphase] at hdecoded hwritten hrequests
    refine ⟨?_, ?_, hc.decoded_isPrefix, fun _ ↦ hrequests nofun⟩
    · rw [hdecoded, List.map_append]
      simp [Phase.inFlight]
    · rw [PolicyRequestCodec.encode, hwritten, List.flatMap_append]
      simp [Phase.torn]
  · rename_i req action sent hphase
    obtain rfl := Option.some.inj h
    rw [hphase] at hdecoded hwritten hrequests
    refine ⟨hdecoded, ?_, hc.decoded_isPrefix, fun _ ↦ hrequests nofun⟩
    rw [PolicyRequestCodec.encode, hwritten]
    simp [Phase.torn]
  · exact absurd h nofun

/-- What was answered are the first requests of what was received. -/
theorem Conn.Inv.answered_isPrefix {c : Conn} (hc : c.Inv) :
    c.answered.map Prod.fst <+: requestsOf c.received := by
  have hdecoded := hc.decoded_isPrefix []
  rw [hc.decoded_eq, List.append_nil] at hdecoded
  exact (List.prefix_append _ _).trans hdecoded

/-! ## What the daemon does -/

/-- What is true of the daemon at all times. -/
structure Daemon.Inv (d : Daemon) : Prop where
  conns : ∀ c ∈ d.conns, c.Inv
  /-- A listener only returns without an error after a shutdown. -/
  cancelled : ∀ i : ℕ, d.listeners[i]? = some (.returned (.ok ())) → d.cancelled = true
  /-- `run` has waited for the listeners it has gone past. -/
  joined : ∀ i < d.joined, d.listeners[i]? = some (.returned (.ok ()))
  /-- Connections come from listeners. -/
  listeners_ne_nil : d.conns ≠ [] → d.listeners ≠ []

theorem Daemon.inv_init (n : ℕ) : (init n).Inv := by
  refine ⟨fun c hc ↦ absurd hc List.not_mem_nil, fun i hi ↦ ?_, fun i hi ↦ ?_,
    fun h ↦ absurd rfl h⟩
  · rw [init, List.getElem?_replicate] at hi
    split at hi <;> exact absurd hi nofun
  · exact absurd hi (Nat.not_lt_zero i)

/-- An entry of a list with one entry replaced is the new one, or an old one. -/
theorem getElem?_set_cases {α : Type} {l : List α} {i k : ℕ} {a b : α}
    (h : (l.set i a)[k]? = some b) : (i = k ∧ a = b) ∨ l[k]? = some b := by
  rw [List.getElem?_set] at h
  split at h
  · rename_i hik
    split at h
    · exact .inl ⟨hik, Option.some.inj h⟩
    · exact absurd h nofun
  · exact .inr h

/-- A listener that has not returned moves on. -/
theorem Daemon.Inv.setListener {d : Daemon} (hd : d.Inv) {i : ℕ} {old new : Listener}
    (hold : d.listeners[i]? = some old) (hrunning : old ≠ .returned (.ok ()))
    (hnew : new = .returned (.ok ()) → d.cancelled = true) :
    Daemon.Inv { d with listeners := d.listeners.set i new } := by
  refine ⟨hd.conns, fun k hk ↦ ?_, fun k hk ↦ ?_, fun h ↦ ?_⟩
  · rcases getElem?_set_cases hk with ⟨-, hk⟩ | hk
    · exact hnew hk
    · exact hd.cancelled k hk
  · have hreturned := hd.joined k hk
    have hki : i ≠ k := by
      rintro rfl
      exact hrunning (Option.some.inj (hold.symm.trans hreturned))
    rw [List.getElem?_set_ne hki]
    exact hreturned
  · rw [Ne, List.set_eq_nil_iff]
    exact hd.listeners_ne_nil h

/-- **A step of the daemon keeps its invariant.** -/
theorem Daemon.Inv.step {d d' : Daemon} {e : Event} (hd : d.Inv) (h : d.step e = some d') :
    d'.Inv := by
  cases (did_of_step h).2 with
  | cancel => exact ⟨hd.conns, fun _ _ ↦ rfl, hd.joined, hd.listeners_ne_nil⟩
  | @bind i error hold =>
    refine hd.setListener hold nofun fun hnew ↦ ?_
    cases error <;> exact absurd hnew nofun
  | accept hold =>
    refine ⟨?_, hd.cancelled, hd.joined, fun _ hnil ↦ ?_⟩
    · rw [List.forall_mem_append]
      exact ⟨hd.conns, List.forall_mem_singleton.mpr Conn.inv_new⟩
    · rw [show d.listeners = [] from hnil] at hold
      exact absurd hold nofun
  | acceptFails => exact hd
  | stop hold hcancelled => exact hd.setListener hold nofun fun _ ↦ hcancelled
  | @conn j e c c' hc hstep =>
    have hmem : c ∈ d.conns := List.mem_of_getElem? hc
    refine ⟨fun x hx ↦ ?_, hd.cancelled, hd.joined, fun _ ↦ ?_⟩
    · rcases List.mem_or_eq_of_mem_set hx with hx | rfl
      · exact hd.conns x hx
      · exact (hd.conns c hmem).step hstep
    · exact hd.listeners_ne_nil (List.ne_nil_of_mem hmem)
  | done | failed => exact ⟨hd.conns, hd.cancelled, hd.joined, hd.listeners_ne_nil⟩
  | joined hok =>
    refine ⟨hd.conns, hd.cancelled, fun i hi ↦ ?_, hd.listeners_ne_nil⟩
    rcases Nat.lt_succ_iff_lt_or_eq.mp hi with hi | rfl
    · exact hd.joined i hi
    · exact hok

/-- **When `run` returns without an error**: it has gone past all listeners. -/
theorem Daemon.join_of_step {d d' : Daemon} {e : Event} (h : d.step e = some d')
    (hok : d'.result = some (.ok ())) :
    e = .join ∧ d.result = none ∧ d.listeners.length ≤ d.joined ∧
      d' = { d with result := some (.ok ()) } := by
  obtain ⟨hnone, hdid⟩ := did_of_step h
  cases hdid with
  | done hend => exact ⟨rfl, hnone, List.getElem?_eq_none_iff.mp hend, rfl⟩
  | failed => exact absurd hok (by simp)
  | cancel | bind | accept | acceptFails | stop | conn | joined =>
    exact absurd (hnone.symm.trans hok) nofun

/-- In all states a run passes through, the invariant holds. -/
theorem Daemon.inv_of_visits {n : ℕ} {es : List Event} {d : Daemon}
    (h : machine.Visits (init n) es d) : d.Inv := by
  obtain ⟨as, -, hrun⟩ := h
  exact machine.invariant (fun _ _ _ hd hstep ↦ hd.step hstep) (inv_init n) hrun

/-- The transport of a connection that has come so far: it was told to stop after its answers, or
could not write one more. -/
def Conn.transport (c : Conn) : Transport :=
  match c.phase with
  | .broken _ _ sent =>
    ⟨fun _ ↦ false, fun turn ↦ if turn = c.answered.length then some sent else none⟩
  | _ => ⟨fun turn ↦ turn == c.answered.length, fun _ ↦ none⟩

/-- **The machine serves connections as `handleConnection` does.**  What a connection has written is
what `handleConnection` writes over its transport, whatever the chunks. -/
theorem Daemon.written_eq_handleConnection {n : ℕ} {es : List Event} {d : Daemon}
    (h : machine.Visits (init n) es d) {c : Conn} (hc : c ∈ d.conns)
    {handler : PolicyRequest → Action} (hhandler : ∀ p ∈ c.replies, p.2 = handler p.1)
    {chunks : List (List UInt8)} (hchunks : chunks.flatten = c.received) :
    handleConnection handler c.transport chunks = some c.written := by
  have hinv := (inv_of_visits h).conns c hc
  have hserve : handleConnection handler c.transport chunks =
      some (c.transport.written 0 ((requestsOf c.received).map (response handler))) := by
    have hbytes : Framed.bytes ⟨[], chunks⟩ = c.received := hchunks
    rw [← hbytes]
    exact Framed.serve_eq handler c.transport 0 ⟨[], chunks⟩
  obtain ⟨later, hlater⟩ := hinv.decoded_isPrefix []
  rw [hinv.decoded_eq, List.append_nil, List.append_assoc] at hlater
  have hbefore : ∀ i < c.answered.length,
      c.transport.cancelled i = false ∧ c.transport.failsAfter i = none := by
    intro i hi
    rw [Conn.transport]
    split
    · exact ⟨rfl, if_neg (Nat.ne_of_lt hi)⟩
    · exact ⟨beq_eq_false_iff_ne.mpr (Nat.ne_of_lt hi), rfl⟩
  have hanswers : (c.answered.map Prod.fst).map (response handler) =
      c.answered.map fun p ↦ Utf8.encode p.2.toWire := by
    rw [List.map_map]
    refine List.map_congr_left fun p hp ↦ ?_
    rw [hhandler p (List.mem_append_left _ hp)]
    rfl
  rw [hserve, ← hlater, List.map_append, hanswers,
    Transport.written_append (by simpa using hbefore), hinv.written_eq, List.flatMap_def]
  refine congrArg (fun torn ↦ some (_ ++ torn)) ?_
  rw [Nat.zero_add, List.length_map, List.map_append]
  cases hphase : c.phase with
  | broken req action sent =>
    have hreply : action = handler req :=
      hhandler (req, action) (List.mem_append_right _ (by rw [hphase]; exact List.mem_cons_self))
    subst hreply
    have hfails : c.transport = ⟨fun _ ↦ false, fun turn ↦
        if turn = c.answered.length then some sent else none⟩ := by
      rw [Conn.transport, hphase]
    rw [Phase.inFlight, List.map_singleton, List.singleton_append, Transport.written_cons, hfails]
    simp only [Bool.false_eq_true, if_false, if_true]
    rfl
  | idle | evaluating | sending | closed =>
    refine Transport.written_of_cancelled ?_ _
    rw [Conn.transport, hphase]
    exact beq_self_eq_true _

/-! ## Requests that are taken -/

/-- No connection holds a request that it has taken and not answered. -/
def Daemon.AnswersTaken (d : Daemon) : Prop :=
  ∀ c ∈ d.conns, c.decoded = c.answered.map Prod.fst

/-- No listener is added or removed. -/
theorem Daemon.length_listeners_of_step {d d' : Daemon} {e : Event} (h : d.step e = some d') :
    d'.listeners.length = d.listeners.length := by
  cases (did_of_step h).2 with
  | bind | stop => exact List.length_set
  | cancel | accept | acceptFails | conn | done | joined | failed => rfl

/-- A daemon without listeners has no connections. -/
theorem Daemon.conns_of_init_zero {es : List Event} {d : Daemon}
    (h : machine.Visits (init 0) es d) : d.conns = [] := by
  have hinv := inv_of_visits h
  obtain ⟨as, -, hrun⟩ := h
  have hlength : d.listeners.length = 0 :=
    machine.invariant (P := fun d ↦ d.listeners.length = 0)
      (fun _ _ _ hd hstep ↦ (length_listeners_of_step hstep).trans hd) rfl hrun
  by_contra hconns
  exact hinv.listeners_ne_nil hconns (List.length_eq_zero_iff.mp hlength)

/-! ### A shutdown that is not graceful -/

section

variable {d : Daemon}

/-- A listener that is starting can come back from binding its address. -/
theorem Daemon.step_bind {i : ℕ} (hresult : d.result = none)
    (h : d.listeners[i]? = some .starting) (error : Option IoError) :
    machine.step d (.bind i error) =
      some { d with listeners := d.listeners.set i (.bound error) } := by
  show d.step (.bind i error) = _
  rw [Daemon.step.eq_def, hresult]
  dsimp only
  rw [h]
  cases error <;> rfl

/-- A listener that accepts connections can do so. -/
theorem Daemon.step_accept {i : ℕ} (hresult : d.result = none)
    (h : d.listeners[i]? = some .accepting) :
    machine.step d (.accept i) = some { d with conns := d.conns ++ [{}] } := by
  show d.step (.accept i) = _
  rw [Daemon.step.eq_def, hresult]
  dsimp only
  rw [h]
  rfl

/-- A connection can do what its task does next. -/
theorem Daemon.step_conn {j : ℕ} {c c' : Conn} {e : ConnEvent} (hresult : d.result = none)
    (hc : d.conns[j]? = some c) (hstep : c.step d.cancelled e = some c') :
    machine.step d (.conn j e) = some { d with conns := d.conns.set j c' } := by
  show d.step (.conn j e) = _
  rw [Daemon.step.eq_def, hresult]
  dsimp only
  rw [hc]
  dsimp only
  rw [hstep]
  rfl

/-- A listener that accepts connections can return once the token is cancelled. -/
theorem Daemon.step_stop {i : ℕ} (hresult : d.result = none)
    (h : d.listeners[i]? = some .accepting) (hcancelled : d.cancelled = true) :
    machine.step d (.stop i) =
      some { d with listeners := d.listeners.set i (.returned (.ok ())) } := by
  show d.step (.stop i) = _
  rw [Daemon.step.eq_def, hresult]
  dsimp only
  rw [h, hcancelled]
  rfl

/-- If each listener can make such a step, all of them can, one after the other. -/
theorem Daemon.run_listeners {e : ℕ → Event} {old new : Listener}
    (hstep : ∀ (i : ℕ) (ls : List Listener), ls[i]? = some old →
      machine.step { d with listeners := ls } (e i) = some { d with listeners := ls.set i new })
    (k m : ℕ) :
    machine.run { d with listeners := List.replicate k new ++ List.replicate m old }
        ((List.range' k m).map e) =
      some { d with listeners := List.replicate (k + m) new } := by
  induction m generalizing k with
  | zero => simp [Machine.run_nil]
  | succ m ih =>
    have hold : (List.replicate k new ++ List.replicate (m + 1) old)[k]? = some old := by
      rw [List.getElem?_append_right (by simp)]
      simp
    have hset : (List.replicate k new ++ List.replicate (m + 1) old).set k new =
        List.replicate (k + 1) new ++ List.replicate m old := by
      rw [List.set_append_right k new (by simp), List.length_replicate, Nat.sub_self,
        List.replicate_succ, List.set_cons_zero, List.replicate_succ', List.append_assoc,
        List.singleton_append]
    rw [List.range'_succ, List.map_cons, machine.run_cons_eq_some]
    refine ⟨_, hstep k _ hold, ?_⟩
    rw [hset, ih (k + 1), Nat.add_right_comm, Nat.add_assoc]

/-- `run` goes past listeners that have returned, and returns. -/
theorem Daemon.run_join (hresult : d.result = none) {n : ℕ}
    (hlisteners : d.listeners = List.replicate n (.returned (.ok ()))) (m k : ℕ) (h : k + m = n) :
    machine.run { d with joined := k } (List.replicate (m + 1) .join) =
      some { d with joined := n, result := some (.ok ()) } := by
  induction m generalizing k with
  | zero =>
    have hend : d.listeners[k]? = none := by
      rw [hlisteners, List.getElem?_eq_none_iff, List.length_replicate]
      omega
    rw [List.replicate_succ, List.replicate_zero, machine.run_cons_eq_some]
    refine ⟨{ d with joined := n, result := some (.ok ()) }, ?_, rfl⟩
    show step { d with joined := k } .join = _
    obtain rfl : k = n := h
    rw [step, hresult, hend]
    rfl
  | succ m ih =>
    have hnext : d.listeners[k]? = some (.returned (.ok ())) := by
      rw [hlisteners, List.getElem?_replicate, if_pos (by omega)]
    rw [List.replicate_succ, machine.run_cons_eq_some]
    refine ⟨{ d with joined := k + 1 }, ?_, ih (k + 1) (by omega)⟩
    show step { d with joined := k } .join = _
    rw [step, hresult, hnext]
    rfl

end

/-- The listeners bind their addresses, and the first accepts a connection, which takes a request;
then the shutdown comes, and the listeners return while the request is evaluated. -/
def hastyShutdown (n : ℕ) (chunk : List UInt8) : List Event :=
  (List.range' 0 n).map (.bind · none) ++
    ([.accept 0, .conn 0 (.receive chunk), .conn 0 .decode, .cancel] ++
      ((List.range' 0 n).map .stop ++ List.replicate (n + 1) .join))

/-- **A shutdown can drop any request**, with any number of listeners. -/
theorem Daemon.exists_dropping_run {n : ℕ} (hn : 0 < n) {chunk rest : List UInt8}
    {req : PolicyRequest}
    (hdecode : PolicyRequestCodec.decode chunk = some (.ok (some req), rest)) :
    ∃ d, machine.run (init n) (hastyShutdown n chunk) = some d ∧ d.result = some (.ok ()) ∧
      d.cancelled = true ∧ d.conns = [⟨.evaluating req, rest, chunk, [req], [], []⟩] := by
  let bound : Daemon := { init n with listeners := List.replicate n .accepting }
  let taken : Daemon :=
    { bound with conns := [⟨.evaluating req, rest, chunk, [req], [], []⟩], cancelled := true }
  let stopped : Daemon := { taken with listeners := List.replicate n (.returned (.ok ())) }
  have hbind : machine.run (init n) ((List.range' 0 n).map (.bind · none)) = some bound := by
    have hrun := run_listeners (d := init n) (e := (.bind · none))
      (fun i ls hls ↦ step_bind (d := { init n with listeners := ls }) rfl hls none) 0 n
    rwa [Nat.zero_add] at hrun
  have htake : machine.run bound [.accept 0, .conn 0 (.receive chunk), .conn 0 .decode, .cancel] =
      some taken := by
    have hfirst : bound.listeners[0]? = some .accepting := by
      rw [List.getElem?_replicate, if_pos hn]
    have hempty : PolicyRequestCodec.decode [] = some (.ok none, []) := by decide
    have haccept : machine.step bound (.accept 0) = some { bound with conns := [{}] } :=
      step_accept rfl hfirst
    have hreceive : machine.step { bound with conns := [{}] } (.conn 0 (.receive chunk)) =
        some { bound with conns := [{ buffer := chunk, received := chunk }] } := by
      have hstep : Conn.step false {} (.receive chunk) =
          some { buffer := chunk, received := chunk } := by
        rw [Conn.step.eq_def]
        dsimp only
        rw [hempty]
        rfl
      exact step_conn rfl rfl hstep
    have htaken : machine.step { bound with conns := [{ buffer := chunk, received := chunk }] }
        (.conn 0 .decode) = some { taken with cancelled := false } := by
      have hstep : Conn.step false { buffer := chunk, received := chunk } .decode =
          some ⟨.evaluating req, rest, chunk, [req], [], []⟩ := by
        rw [Conn.step.eq_def]
        dsimp only
        rw [hdecode]
        rfl
      exact step_conn rfl rfl hstep
    refine machine.run_cons_eq_some.mpr ⟨_, haccept, machine.run_cons_eq_some.mpr ⟨_, hreceive, ?_⟩⟩
    exact machine.run_cons_eq_some.mpr ⟨_, htaken, rfl⟩
  have hstop : machine.run taken ((List.range' 0 n).map .stop) = some stopped := by
    have hrun := run_listeners (d := taken) (e := .stop)
      (fun i ls hls ↦ step_stop (d := { taken with listeners := ls }) rfl hls rfl) 0 n
    rwa [Nat.zero_add] at hrun
  have hjoin := run_join (d := stopped) rfl rfl n 0 (Nat.zero_add n)
  refine ⟨{ stopped with joined := n, result := some (.ok ()) }, ?_, rfl, rfl, rfl⟩
  refine machine.run_append_eq_some.mpr ⟨_, hbind, machine.run_append_eq_some.mpr ⟨_, htake, ?_⟩⟩
  exact machine.run_append_eq_some.mpr ⟨_, hstop, hjoin⟩

/-- What a mail server sends about a client, of which a HELO name, a sender and an address are
checked against the DNS. -/
def hastyPairs : List (Str × Str) :=
  [("helo_name".toList, "mx.example.com".toList), ("sender".toList, "user@example.com".toList),
    ("client_address".toList, "192.0.2.1".toList)]

/-- This is a request. -/
theorem decode_hastyPairs : PolicyRequestCodec.decode (writeRequest hastyPairs) =
    some (.ok (some (PolicyRequest.assignAll {} hastyPairs)), []) := by
  have hdecode := decode_writeRequest_append (by decide : Writable hastyPairs) []
  rwa [List.append_nil] at hdecode

/-- No write fails. -/
def WritesAll (es : List Event) : Prop := ∀ j sent, .conn j (.sendFails sent) ∉ es

theorem writesAll_hastyShutdown (n : ℕ) (chunk : List UInt8) :
    WritesAll (hastyShutdown n chunk) := by
  intro j sent h
  simp [hastyShutdown] at h

/-- **When the shutdown is graceful.**  If no write fails, each request that was taken is answered
when `run` has returned without an error after a shutdown: for a daemon with so many listeners this
is so in all states of all runs if and only if there are no listeners. -/
theorem answersTaken_iff (n : ℕ) :
    (∀ es d, WritesAll es → Daemon.machine.Visits (Daemon.init n) es d →
      d.result = some (.ok ()) → d.cancelled = true → d.AnswersTaken) ↔ n = 0 := by
  refine ⟨fun h ↦ ?_, ?_⟩
  · by_contra hn
    obtain ⟨d, hrun, hresult, hcancelled, hconns⟩ :=
      Daemon.exists_dropping_run (Nat.pos_of_ne_zero hn) decode_hastyPairs
    have hanswers := h _ d (writesAll_hastyShutdown n _) ⟨_, List.prefix_rfl, hrun⟩ hresult
      hcancelled
    have htaken := hanswers _ (hconns ▸ List.mem_cons_self)
    exact absurd htaken (List.cons_ne_nil _ _)
  · rintro rfl es d - hvisits - - c hc
    rw [Daemon.conns_of_init_zero hvisits] at hc
    exact absurd hc List.not_mem_nil

/-- **A shutdown can drop a request that was taken**: with one listener, one that waits for the
DNS. -/
theorem shutdown_drops_request :
    ∃ d c req, Daemon.machine.run (Daemon.init 1) (hastyShutdown 1 (writeRequest hastyPairs)) =
        some d ∧
      d.result = some (.ok ()) ∧ d.cancelled = true ∧ c ∈ d.conns ∧ c.phase = .evaluating req ∧
      req.heloName = some "mx.example.com".toList ∧ req.sender = some "user@example.com".toList ∧
      req.clientAddress = some "192.0.2.1".toList ∧ ¬ d.AnswersTaken := by
  obtain ⟨d, hrun, hresult, hcancelled, hconns⟩ :=
    Daemon.exists_dropping_run Nat.zero_lt_one decode_hastyPairs
  have hmem : _ ∈ d.conns := hconns ▸ List.mem_cons_self
  refine ⟨d, _, _, hrun, hresult, hcancelled, hmem, rfl, rfl, rfl, rfl, fun h ↦ ?_⟩
  exact absurd (h _ hmem) (List.cons_ne_nil _ _)

end Rspf
