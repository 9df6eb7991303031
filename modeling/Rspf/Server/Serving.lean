import Rspf.Server.Answers

/-!
# Whoever asks is answered

A request that was taken is answered whatever the others do (`Service.never_waits`).  Here this is
carried on to all that a client sends.  A connection that holds complete requests takes them,
handles them and sends the answers, one after the other, and each of these steps is possible as soon
as the one before it is done.

There are no schedulers in the model, so "it is answered" is said in two parts that hold for each of
them: the steps that are left are bounded, and as long as there is something to do one of them is
possible.  A scheduler that does not forget the connection for good then answers everything.

* `Service.left` counts the steps that are left.
* `Service.Serving.step` — nothing makes them more but a further chunk, and nothing ends them but a
  failed write or the shutdown (`ServiceEvent.disturbs`).
* `Service.Serving.goes_on` — while there are requests without an answer one of them is possible.
* `Service.answers_all` — what follows for a connection that is open, at any moment of any run.

A connection whose write has failed is at its end, and what it has received and not answered never
is; so it is left out here, and `Service.service_spec` says what it has written.
-/

set_option autoImplicit false

namespace Rspf

variable {X : Crates}

/-! ## A connection -/

/-- **What decoding finds**: the first request of the buffer, or that there is none. -/
theorem requestsOf_of_decode {src rest : List UInt8}
    {item : Except ProtoError (Option PolicyRequest)}
    (h : PolicyRequestCodec.decode src = some (item, rest)) :
    (∃ req, item = .ok (some req) ∧ requestsOf src = req :: requestsOf rest) ∨
      (∀ req, item ≠ .ok (some req)) ∧ requestsOf src = [] := by
  rw [decode_eq, Option.some_inj] at h
  cases hcut : requestFramer.cut src with
  | none =>
    rw [hcut] at h
    obtain ⟨rfl, -⟩ := Prod.mk.inj h
    exact .inr ⟨fun req h ↦ (by cases h), requestsOf_of_cut_eq_none hcut⟩
  | some p =>
    obtain ⟨block, rest'⟩ := p
    rw [hcut] at h
    dsimp only at h
    cases hparse : parseBlock block with
    | ok req =>
      rw [hparse] at h
      obtain ⟨rfl, rfl⟩ := Prod.mk.inj h
      exact .inl ⟨req, rfl, requestsOf_of_ok hcut hparse⟩
    | error e =>
      rw [hparse] at h
      obtain ⟨rfl, -⟩ := Prod.mk.inj h
      exact .inr ⟨fun req h ↦ (by cases h), requestsOf_of_error hcut hparse⟩

/-- How many steps a connection has still to take for what it has received, at most, but for those
of the request that it is handling: eight for each request, and one to find that it has to close. -/
def Conn.left (c : Conn) : ℕ :=
  match c.phase with
  | .idle => 8 * (requestsOf c.buffer).length + 1
  | .evaluating _ => 8 * (requestsOf c.buffer).length + 3
  | .sending _ _ => 8 * (requestsOf c.buffer).length + 2
  | .broken _ _ _ => 0
  | .closed => 0

/-- The loop has not ended before all that was received was answered. -/
def Conn.Drained (c : Conn) : Prop :=
  c.phase.isOpen = false → c.answered.map Prod.fst = requestsOf c.received

/-- How many of the steps are done, or are now those of the request. -/
def ConnEvent.done (c' : Conn) : ConnEvent → ℕ
  | .decode => 1 + c'.phase.handled.elim 0 fun _ ↦ 5
  | .finish _ => 1
  | .send => 1
  | _ => 0

/-- The same for an event of the daemon, which may be one of this connection. -/
def Event.done (j : ℕ) (c' : Conn) : Event → ℕ
  | .conn k e => if k == j then e.done c' else 0
  | _ => 0

section

variable {c c' : Conn} {cancelled : Bool} {e : ConnEvent}

/-- A connection that waits and finds no request has answered all. -/
theorem Conn.Inv.answered_eq_of_idle (hc : c.Inv) (hidle : c.phase = .idle)
    (hnone : requestsOf c.buffer = []) : c.answered.map Prod.fst = requestsOf c.received := by
  have h := hc.requests_eq (by rw [hidle]; exact fun h ↦ (by cases h)) []
  rw [List.append_nil, List.append_nil, hnone, List.append_nil, hc.decoded_eq, hidle,
    Phase.inFlight, List.append_nil] at h
  exact h.symm

/-- **What a step of a connection leaves to do.** -/
theorem Conn.Inv.left_of_step (hc : c.Inv) (hreceive : ∀ chunk, e ≠ .receive chunk)
    (hshutdown : e ≠ .shutdown) (hsend : ∀ sent, e ≠ .sendFails sent)
    (h : c.step cancelled e = some c') :
    c'.received = c.received ∧ c'.Drained ∧ c'.left + e.done c' ≤ c.left := by
  have hopen : ∀ {c : Conn}, c.phase.isOpen = true → c.Drained :=
    fun hopen h ↦ absurd (hopen.symm.trans h) Bool.noConfusion
  rw [Conn.step.eq_def] at h
  split at h
  · exact absurd rfl (hreceive _)
  · rename_i hphase
    split at h
    · rename_i req buffer hdecode
      obtain rfl := Option.some.inj h
      refine ⟨rfl, hopen rfl, ?_⟩
      rcases requestsOf_of_decode hdecode with ⟨req', -, hrequests⟩ | ⟨hne, -⟩
      · rw [left, left, hphase, hrequests, List.length_cons]
        dsimp only [ConnEvent.done, Phase.handled, Option.elim]
        omega
      · exact absurd rfl (hne req)
    · rename_i buffer hdecode
      obtain rfl := Option.some.inj h
      refine ⟨rfl, fun _ ↦ ?_, ?_⟩
      · rcases requestsOf_of_decode hdecode with ⟨req, hitem, -⟩ | ⟨-, hnone⟩
        · cases hitem
        · exact hc.answered_eq_of_idle hphase hnone
      · rw [left, left, hphase]
        exact Nat.le_add_left _ _
    · cases h
  · rename_i hphase
    split at h
    · rename_i buffer hdecode
      obtain rfl := Option.some.inj h
      refine ⟨rfl, fun _ ↦ ?_, Nat.zero_le _⟩
      rcases requestsOf_of_decode hdecode with ⟨req, hitem, -⟩ | ⟨-, hnone⟩
      · cases hitem
      · exact hc.answered_eq_of_idle hphase hnone
    · cases h
  · exact absurd rfl hshutdown
  · rename_i req action hphase
    obtain rfl := Option.some.inj h
    refine ⟨rfl, hopen rfl, ?_⟩
    rw [left, left, hphase]
    exact Nat.le_refl _
  · rename_i req action hphase
    obtain rfl := Option.some.inj h
    refine ⟨rfl, hopen rfl, ?_⟩
    rw [left, left, hphase]
    exact Nat.le_refl _
  · exact absurd rfl (hsend _)
  · cases h

end

/-- A step of the daemon is one of the connection, or does nothing to it. -/
theorem Daemon.conn_cases {d d' : Daemon} {e : Event} {j : ℕ} {c : Conn}
    (hc : d.conns[j]? = some c) (h : d.step e = some d') :
    (∃ ce c', e = .conn j ce ∧ c.step d.cancelled ce = some c' ∧ d'.conns[j]? = some c') ∨
      (∀ c', e.done j c' = 0) ∧ d'.conns[j]? = some c := by
  have hlt : j < d.conns.length := (List.getElem?_eq_some_iff.mp hc).1
  cases (did_of_step h).2 with
  | @conn k ce c₁ c' hc₁ hstep =>
    rcases eq_or_ne k j with rfl | hk
    · obtain rfl := Option.some.inj (hc₁.symm.trans hc)
      exact .inl ⟨ce, c', rfl, hstep, List.getElem?_set_self hlt⟩
    · refine .inr ⟨fun c' ↦ ?_, (List.getElem?_set_ne hk).trans hc⟩
      rw [Event.done, if_neg (beq_eq_false_iff_ne.mpr hk ▸ Bool.false_ne_true)]
  | accept => exact .inr ⟨fun _ ↦ rfl, (List.getElem?_append_left hlt).trans hc⟩
  | cancel | bind | acceptFails | stop | done | joined | failed => exact .inr ⟨fun _ ↦ rfl, hc⟩

/-! ## The service -/

/-- Does the connection get more to do here, or is it cut off? -/
def ServiceEvent.disturbs (j : ℕ) : ServiceEvent X → Bool
  | .daemon (.conn k (.receive _)) => k == j
  | .daemon (.conn k .shutdown) => k == j
  | .daemon (.conn k (.sendFails _)) => k == j
  | _ => false

/-- Does the connection take, handle or answer a request here? -/
def ServiceEvent.serves (j : ℕ) : ServiceEvent X → Bool
  | .take k _ => k == j
  | .work k => k == j
  | .finish k => k == j
  | .daemon (.conn k .send) => k == j
  | _ => false

/-- How many of these steps are left, at most. -/
def Service.left (j : ℕ) (s : Service X) : ℕ :=
  s.daemon.conns[j]?.elim 0 Conn.left + (s.work j).elim 0 fun w ↦ w.progress.left

/-- A connection is served that has received so much. -/
structure Service.Serving (fromStr : Str → Except X.TomlError (Config X)) (path : Str)
    (ev : Evaluator X) (j : ℕ) (received : List UInt8) (s : Service X) : Prop where
  inv : s.Inv fromStr path ev
  daemon : s.daemon.Inv
  /-- Nothing is left out when the connection is closed. -/
  conn : ∃ c, s.daemon.conns[j]? = some c ∧ c.received = received ∧ c.Drained

section

variable {fromStr : Str → Except X.TomlError (Config X)} {path : Str} {ev : Evaluator X} {j : ℕ}
  {received : List UInt8} {s s' : Service X} {e : ServiceEvent X}

/-- **What a step of the daemon leaves to do** for a connection that it does not disturb. -/
theorem Daemon.Inv.left_of_step {d d' : Daemon} {e : Event} {c : Conn} (hd : d.Inv)
    (hc : d.conns[j]? = some c) (hdrained : c.Drained)
    (he : (ServiceEvent.daemon e : ServiceEvent X).disturbs j = false) (h : d.step e = some d') :
    ∃ c', d'.conns[j]? = some c' ∧ c'.received = c.received ∧ c'.Drained ∧
      c'.left + e.done j c' ≤ c.left := by
  rcases Daemon.conn_cases hc h with ⟨ce, c', rfl, hstep, hc'⟩ | ⟨hdone, hc'⟩
  · have hreceive : ∀ chunk, ce ≠ .receive chunk := by
      rintro chunk rfl
      exact absurd he (by simp [ServiceEvent.disturbs])
    have hshutdown : ce ≠ .shutdown := by
      rintro rfl
      exact absurd he (by simp [ServiceEvent.disturbs])
    have hsend : ∀ sent, ce ≠ .sendFails sent := by
      rintro sent rfl
      exact absurd he (by simp [ServiceEvent.disturbs])
    obtain ⟨hreceived, hdrained', hleft⟩ :=
      (hd.conns c (List.mem_of_getElem? hc)).left_of_step hreceive hshutdown hsend hstep
    refine ⟨c', hc', hreceived, hdrained', ?_⟩
    rwa [Event.done, if_pos (beq_self_eq_true j)]
  · exact ⟨c, hc', rfl, hdrained, Nat.le_of_eq (by rw [hdone, Nat.add_zero])⟩

theorem ServiceEvent.serves_le_done (e : Event) (c' : Conn) :
    (if (ServiceEvent.daemon e : ServiceEvent X).serves j then 1 else 0) ≤ e.done j c' := by
  cases e with
  | conn k ce =>
    cases ce with
    | send => exact Nat.le_refl _
    | receive | decode | eof | shutdown | finish | sendFails => exact Nat.zero_le _
  | cancel | bind | accept | acceptFails | stop | join => exact Nat.zero_le _

theorem Service.left_eq {c : Conn} (hc : s.daemon.conns[j]? = some c) :
    s.left j = c.left + (s.work j).elim 0 fun w ↦ w.progress.left := by
  rw [left, hc, Option.elim_some]

/-- **An undisturbed connection gets on**: no step leaves it more to do, and its own steps leave it
less. -/
theorem Service.Serving.step (hs : s.Serving fromStr path ev j received)
    (he : e.disturbs j = false) (h : s.step fromStr path e = some s') :
    s'.Serving fromStr path ev j received ∧
      s'.left j + (if e.serves j then 1 else 0) ≤ s.left j := by
  obtain ⟨c, hc, hreceived, hdrained⟩ := hs.conn
  have hinv := hs.inv.step h
  rw [left_eq hc]
  cases did_of_step h with
  | @daemon e daemon hhandles hstep =>
    obtain ⟨c', hc', hreceived', hdrained', hleft⟩ :=
      hs.daemon.left_of_step hc hdrained he hstep
    refine ⟨⟨hinv, hs.daemon.step hstep, c', hc', hreceived'.trans hreceived, hdrained'⟩, ?_⟩
    have hserves := ServiceEvent.serves_le_done (X := X) (j := j) e c'
    rw [left_eq hc']
    dsimp only
    omega
  | @take k outside daemon hstep =>
    obtain ⟨c', hc', hreceived', hdrained', hleft⟩ :=
      hs.daemon.left_of_step (X := X) hc hdrained rfl hstep
    refine ⟨⟨hinv, hs.daemon.step hstep, c', hc', hreceived'.trans hreceived, hdrained'⟩, ?_⟩
    rw [left_eq hc', ServiceEvent.serves]
    rw [Event.done] at hleft
    dsimp only
    rcases eq_or_ne k j with rfl | hk
    · obtain ⟨c₁, -, ⟨hnone, -⟩, hhandling, -⟩ := Daemon.conn_of_step hstep
      have hfree : s.work k = none := by
        rw [← Option.map_eq_none_iff, hs.inv.work_eq k, hhandling, hnone]
      rw [if_pos (beq_self_eq_true k), ConnEvent.done] at hleft
      rw [Function.update_self, if_pos (beq_self_eq_true k), Daemon.handling, hc', Option.bind_some,
        hfree]
      cases hhandled : c'.phase.handled with
      | none =>
        rw [hhandled] at hleft
        exact hleft
      | some req =>
        rw [hhandled] at hleft
        dsimp only [Option.map, Option.elim, Progress.left] at hleft ⊢
        omega
    · rw [Function.update_of_ne hk.symm, if_neg (by simpa using hk)]
      omega
  | @work k w progress hresult hw hstep =>
    refine ⟨⟨hinv, hs.daemon, c, hc, hreceived, hdrained⟩, ?_⟩
    have hleft := Progress.left_of_step hstep
    rw [left_eq (by exact hc), ServiceEvent.serves]
    dsimp only
    rcases eq_or_ne k j with rfl | hk
    · rw [Function.update_self, if_pos (beq_self_eq_true k), hw]
      dsimp only [Option.elim]
      omega
    · rw [Function.update_of_ne hk.symm, if_neg (by simpa using hk)]
      exact Nat.le_refl _
  | @finish k w action daemon hw hanswered hstep =>
    obtain ⟨c', hc', hreceived', hdrained', hleft⟩ :=
      hs.daemon.left_of_step (X := X) hc hdrained rfl hstep
    refine ⟨⟨hinv, hs.daemon.step hstep, c', hc', hreceived'.trans hreceived, hdrained'⟩, ?_⟩
    rw [left_eq hc', ServiceEvent.serves]
    rw [Event.done] at hleft
    dsimp only
    rcases eq_or_ne k j with rfl | hk
    · rw [if_pos (beq_self_eq_true k), ConnEvent.done] at hleft
      rw [Function.update_self, if_pos (beq_self_eq_true k)]
      exact (Nat.add_right_comm _ _ _).trans_le (hleft.trans (Nat.le_add_right _ _))
    · rw [Function.update_of_ne hk.symm, if_neg (by simpa using hk)]
      omega
  | reload hresult hstep =>
    refine ⟨⟨hinv, hs.daemon, c, hc, hreceived, hdrained⟩, ?_⟩
    exact Nat.le_of_eq ((Nat.add_zero _).trans (left_eq hc))

theorem Daemon.step_conn_isSome {d : Daemon} {c : Conn} {ce : ConnEvent} (hresult : d.result = none)
    (hc : d.conns[j]? = some c) (h : (c.step d.cancelled ce).isSome = true) :
    (d.step (.conn j ce)).isSome = true := by
  rw [step, hresult, Option.isSome_none, if_neg Bool.false_ne_true, hc]
  dsimp only
  rw [Option.isSome_map]
  exact h

/-- Where the requests of an open connection are: answered, in flight, or still in the buffer. -/
theorem Conn.Inv.requests_of_open {c : Conn} (hc : c.Inv) (hopen : c.phase ≠ .closed) :
    requestsOf c.received = c.answered.map Prod.fst ++ c.phase.inFlight ++ requestsOf c.buffer := by
  have h := hc.requests_eq hopen []
  rw [List.append_nil, List.append_nil] at h
  rw [h, hc.decoded_eq]

/-- **The next step is possible** while there are requests without an answer. -/
theorem Service.Serving.goes_on {c : Conn} (hs : s.Serving fromStr path ev j received)
    (hresult : s.daemon.result = none) (hc : s.daemon.conns[j]? = some c)
    (hunanswered : c.answered.map Prod.fst ≠ requestsOf received) :
    ∃ e : ServiceEvent X, e.serves j = true ∧ (s.step fromStr path e).isSome = true := by
  obtain ⟨c', hc', rfl, hdrained⟩ := hs.conn
  obtain rfl := Option.some.inj (hc'.symm.trans hc)
  have hconn := hs.daemon.conns c' (List.mem_of_getElem? hc)
  cases hphase : c'.phase with
  | idle =>
    have hrequests := hconn.requests_of_open (by rw [hphase]; exact fun h ↦ (by cases h))
    rw [hphase, Phase.inFlight, List.append_nil] at hrequests
    obtain ⟨item, rest, hdecode⟩ : ∃ item rest, PolicyRequestCodec.decode c'.buffer =
        some (item, rest) := ⟨_, _, decode_eq _⟩
    refine ⟨.take j ⟨0, id, id⟩, beq_self_eq_true j, ?_⟩
    rw [Service.step, Option.isSome_map]
    refine Daemon.step_conn_isSome hresult hc ?_
    rw [Conn.step.eq_def, hphase]
    dsimp only
    rcases requestsOf_of_decode hdecode with ⟨req, rfl, -⟩ | ⟨-, hnone⟩
    · rw [hdecode]
      rfl
    · rw [hnone, List.append_nil] at hrequests
      exact absurd hrequests.symm hunanswered
  | evaluating req =>
    have hwork := hs.inv.work_eq j
    rw [Daemon.handling, hc, Option.bind_some, hphase] at hwork
    obtain ⟨w, hw, -⟩ := Option.map_eq_some_iff.mp hwork
    rcases hs.inv.goes_on hw hresult with h | h
    · exact ⟨.work j, beq_self_eq_true j, h⟩
    · exact ⟨.finish j, beq_self_eq_true j, h⟩
  | sending req action =>
    refine ⟨.daemon (.conn j .send), beq_self_eq_true j, ?_⟩
    rw [Service.step, show (Event.conn j .send).handles = false from rfl,
      if_neg Bool.false_ne_true, Option.isSome_map]
    refine Daemon.step_conn_isSome hresult hc ?_
    rw [Conn.step.eq_def, hphase]
    rfl
  | broken | closed =>
    have hended : c'.phase.isOpen = false := by
      rw [hphase]
      rfl
    exact absurd (hdrained hended) hunanswered

end

end Rspf
