import Rspf.Server.Service

/-!
# What the service answers

A reload may come at any moment, and so may the next one.  `heldAfter` says what the two cells hold
after each store: the whitelist is always of the latest load or of the one before it, and a request
reads them at three moments.  So what it is answered is what `handleSeeing` makes of three versions
that were held one after the other, while it was being handled.

`Service.service_spec` says so for every run of the whole service, together with what else a client
and an operator can see: what is written to a connection are the answers to its requests, in order,
and the log has a line for each request that was evaluated.  `Service.never_waits` adds that no
request waits for anything but its own steps.
-/

set_option autoImplicit false

namespace Rspf

variable {X : Crates}

/-! ## What a connection replies -/

/-- The answers of a connection, if there is such a connection. -/
def Daemon.replies (d : Daemon) (j : ℕ) : List (PolicyRequest × Action) :=
  d.conns[j]?.elim [] Conn.replies

/-- What a step does to the request a connection is handling, and to its answers. -/
def Conn.Follows (c : Conn) : ConnEvent → Conn → Prop
  | .decode, c' => c.phase.handled = none ∧ c'.replies = c.replies
  | .finish action, c' => c'.phase.handled = none ∧
    ∃ req, c.phase.handled = some req ∧ c'.replies = c.replies ++ [(req, action)]
  | _, c' => c'.phase.handled = c.phase.handled ∧ c'.replies = c.replies

theorem Conn.follows_of_step {c c' : Conn} {cancelled : Bool} {e : ConnEvent}
    (h : c.step cancelled e = some c') : c.Follows e c' := by
  have hidle : c.phase = .idle → c.phase.handled = none ∧ c.replies = c.answered := by
    intro hphase
    rw [Conn.replies, hphase]
    exact ⟨rfl, List.append_nil _⟩
  rw [Conn.step.eq_def] at h
  split at h
  · rename_i hphase
    obtain ⟨hhandled, hreplies⟩ := hidle hphase
    split at h
    · obtain rfl := Option.some.inj h
      exact ⟨rfl, rfl⟩
    · exact absurd h.symm (Option.some_ne_none _)
  · rename_i hphase
    obtain ⟨hhandled, hreplies⟩ := hidle hphase
    split at h
    · obtain rfl := Option.some.inj h
      exact ⟨hhandled, (List.append_nil _).trans hreplies.symm⟩
    · obtain rfl := Option.some.inj h
      exact ⟨hhandled, (List.append_nil _).trans hreplies.symm⟩
    · exact absurd h.symm (Option.some_ne_none _)
  · rename_i hphase
    obtain ⟨hhandled, hreplies⟩ := hidle hphase
    split at h
    · obtain rfl := Option.some.inj h
      exact ⟨hhandled.symm, (List.append_nil _).trans hreplies.symm⟩
    · exact absurd h.symm (Option.some_ne_none _)
  · rename_i hphase
    obtain ⟨hhandled, hreplies⟩ := hidle hphase
    split at h
    · obtain rfl := Option.some.inj h
      exact ⟨hhandled.symm, (List.append_nil _).trans hreplies.symm⟩
    · exact absurd h.symm (Option.some_ne_none _)
  · rename_i req action hphase
    obtain rfl := Option.some.inj h
    refine ⟨rfl, req, by rw [hphase]; rfl, ?_⟩
    rw [Conn.replies, Conn.replies, hphase]
    simp [Phase.reply]
  · rename_i req action hphase
    obtain rfl := Option.some.inj h
    refine ⟨by rw [hphase]; rfl, ?_⟩
    rw [Conn.replies, Conn.replies, hphase]
    simp [Phase.reply]
  · rename_i req action sent hphase
    obtain rfl := Option.some.inj h
    refine ⟨by rw [hphase]; rfl, ?_⟩
    rw [Conn.replies, Conn.replies, hphase]
    rfl
  · exact absurd h.symm (Option.some_ne_none _)

theorem Conn.sendFails_of_step {c c' : Conn} {cancelled : Bool} {e : ConnEvent}
    {req : PolicyRequest} {action : Action} {sent : ℕ} (h : c.step cancelled e = some c')
    (hbroken : c'.phase = .broken req action sent) : e = .sendFails sent := by
  rw [Conn.step.eq_def] at h
  split at h
  · rename_i hphase
    split at h
    · obtain rfl := Option.some.inj h
      cases hphase.symm.trans hbroken
    · cases h
  · split at h
    · obtain rfl := Option.some.inj h
      cases hbroken
    · obtain rfl := Option.some.inj h
      cases hbroken
    · cases h
  · split at h
    · obtain rfl := Option.some.inj h
      cases hbroken
    · cases h
  · split at h
    · obtain rfl := Option.some.inj h
      cases hbroken
    · cases h
  · obtain rfl := Option.some.inj h
    cases hbroken
  · obtain rfl := Option.some.inj h
    cases hbroken
  · obtain rfl := Option.some.inj h
    cases hbroken
    rfl
  · cases h

section

variable {d d' : Daemon} {j : ℕ}

/-- A step of a connection, seen from the daemon. -/
theorem Daemon.conn_of_step {e : ConnEvent} (h : d.step (.conn j e) = some d') :
    ∃ c c' : Conn, c.Follows e c' ∧ d.handling j = c.phase.handled ∧ d.replies j = c.replies ∧
      d'.handling j = c'.phase.handled ∧ d'.replies j = c'.replies ∧
      ∀ k ≠ j, d'.handling k = d.handling k ∧ d'.replies k = d.replies k := by
  cases (did_of_step h).2 with
  | @conn j e c c' hc hstep =>
    have hlt : j < d.conns.length := (List.getElem?_eq_some_iff.mp hc).1
    have hset : (d.conns.set j c')[j]? = some c' := List.getElem?_set_self hlt
    refine ⟨c, c', Conn.follows_of_step hstep, ?_, ?_, ?_, ?_, fun k hk ↦ ?_⟩
    · rw [handling, hc, Option.bind_some]
    · rw [replies, hc, Option.elim_some]
    · rw [handling, hset, Option.bind_some]
    · rw [replies, hset, Option.elim_some]
    · rw [handling, replies, List.getElem?_set_ne (Ne.symm hk)]
      exact ⟨rfl, rfl⟩

/-- Other steps neither begin nor end the handling of a request. -/
theorem Daemon.follows_of_step {e : Event} (he : e.handles = false) (h : d.step e = some d')
    (k : ℕ) : d'.handling k = d.handling k ∧ d'.replies k = d.replies k := by
  cases e with
  | conn j e =>
    obtain ⟨c, c', hfollows, hhandling, hreplies, hhandling', hreplies', hothers⟩ := conn_of_step h
    rcases eq_or_ne k j with rfl | hk
    · have hsame : c'.phase.handled = c.phase.handled ∧ c'.replies = c.replies := by
        cases e with
        | decode | finish => exact absurd he nofun
        | receive | eof | shutdown | send | sendFails => exact hfollows
      rw [hhandling, hreplies, hhandling', hreplies']
      exact hsame
    · exact hothers k hk
  | accept i =>
    cases (did_of_step h).2 with
    | accept hold =>
      rw [handling, replies, handling, replies]
      rcases Nat.lt_trichotomy k d.conns.length with hk | rfl | hk
      · rw [List.getElem?_append_left hk]
        exact ⟨rfl, rfl⟩
      · rw [List.getElem?_concat_length, List.getElem?_eq_none (Nat.le_refl _)]
        exact ⟨rfl, rfl⟩
      · rw [List.getElem?_eq_none (Nat.le_of_lt hk),
          List.getElem?_eq_none (by rw [List.length_append]; exact hk)]
        exact ⟨rfl, rfl⟩
  | cancel | bind | acceptFails | stop | join =>
    cases (did_of_step h).2 <;> exact ⟨rfl, rfl⟩

/-- **A connection is broken by a write that fails.** -/
theorem Daemon.sendFails_of_step {e : Event} {c' : Conn} {req : PolicyRequest} {action : Action}
    {sent : ℕ} (h : d.step e = some d') (hc' : d'.conns[j]? = some c')
    (hbroken : c'.phase = .broken req action sent) :
    e = .conn j (.sendFails sent) ∨ d.conns[j]? = some c' := by
  cases (did_of_step h).2 with
  | @conn k ce c c'' hc hstep =>
    rcases getElem?_set_cases hc' with ⟨rfl, rfl⟩ | hsame
    · exact .inl (congrArg _ (Conn.sendFails_of_step hstep hbroken))
    · exact .inr hsame
  | accept =>
    rcases Nat.lt_or_ge j d.conns.length with hlt | hge
    · exact .inr ((List.getElem?_append_left hlt).symm.trans hc')
    · obtain rfl : {} = c' := by
        have hnew := List.mem_of_getElem? ((List.getElem?_append_right hge).symm.trans hc')
        exact (List.mem_singleton.mp hnew).symm
      cases hbroken
  | cancel | bind | acceptFails | stop | done | joined | failed => exact .inr hc'

end

/-! ## What the cells held -/

/-- What the cells held after so many stores, where these versions were loaded, the latest first:
the stores alternate, and the whitelist comes first. -/
def heldAfter (loads : List (Version X)) (stores : ℕ) : Option (Version X) :=
  match loads.reverse[stores / 2]?, loads.reverse[(stores + 1) / 2]? with
  | some first, some second => some ⟨first.config, second.whitelist⟩
  | _, _ => none

/-- How many stores of what was loaded last are still to be made. -/
def ReloadTask.pending : ReloadTask X → ℕ
  | loaded _ _ => 2
  | storedWhitelist _ => 1
  | _ => 0

theorem getElem?_reverse_append {α : Type} (later earlier : List α) (a : α) :
    (later ++ a :: earlier).reverse[earlier.length]? = some a := by
  rw [List.reverse_append, List.reverse_cons, List.append_assoc,
    List.getElem?_append_right (by simp)]
  simp

theorem heldAfter_eq_some_iff {loads : List (Version X)} {stores : ℕ} {v : Version X} :
    heldAfter loads stores = some v ↔ ∃ first second,
      loads.reverse[stores / 2]? = some first ∧ loads.reverse[(stores + 1) / 2]? = some second ∧
      v = ⟨first.config, second.whitelist⟩ := by
  rw [heldAfter]
  cases loads.reverse[stores / 2]? <;> cases loads.reverse[(stores + 1) / 2]? <;>
    simp [eq_comm]

/-- What is loaded later does not change what was held before. -/
theorem heldAfter_append {loads : List (Version X)} {stores : ℕ} {v : Version X}
    (h : heldAfter loads stores = some v) (later : List (Version X)) :
    heldAfter (later ++ loads) stores = some v := by
  obtain ⟨first, second, hfirst, hsecond, rfl⟩ := heldAfter_eq_some_iff.mp h
  refine heldAfter_eq_some_iff.mpr ⟨first, second, ?_, ?_, rfl⟩
  · rw [List.reverse_append, List.getElem?_append_left (List.getElem?_eq_some_iff.mp hfirst).1,
      hfirst]
  · rw [List.reverse_append, List.getElem?_append_left (List.getElem?_eq_some_iff.mp hsecond).1,
      hsecond]

/-- Everything that was held was loaded. -/
theorem exists_mem_of_heldAfter {loads : List (Version X)} {stores : ℕ} {v : Version X}
    (h : heldAfter loads stores = some v) :
    (∃ u ∈ loads, v.config = u.config) ∧ ∃ u ∈ loads, v.whitelist = u.whitelist := by
  obtain ⟨first, second, hfirst, hsecond, rfl⟩ := heldAfter_eq_some_iff.mp h
  exact ⟨⟨first, List.mem_reverse.mp (List.mem_of_getElem? hfirst), rfl⟩,
    second, List.mem_reverse.mp (List.mem_of_getElem? hsecond), rfl⟩

section

variable {fromStr : Str → Except X.TomlError (Config X)} {path : Str}

/-- **The cells hold what `heldAfter` says.** -/
theorem ReloadTask.Agrees.heldAfter_eq {task : ReloadTask X} {loads : List (Version X)}
    {cells : Version X} {stores : ℕ} (h : task.Agrees fromStr path loads cells)
    (hstores : stores + task.pending + 2 = 2 * loads.length) :
    heldAfter loads stores = some cells := by
  have hidle : loads.head? = some cells → task.pending = 0 →
      heldAfter loads stores = some cells := by
    intro hhead hpending
    obtain ⟨earlier, rfl⟩ := List.head?_eq_some_iff.mp hhead
    rw [hpending, List.length_cons] at hstores
    have hget := getElem?_reverse_append [] earlier cells
    refine heldAfter_eq_some_iff.mpr ⟨cells, cells, ?_, ?_, rfl⟩
    · rw [show stores / 2 = earlier.length by omega]
      exact hget
    · rw [show (stores + 1) / 2 = earlier.length by omega]
      exact hget
  cases task with
  | waiting | returned => exact hidle h rfl
  | loadedConfig newConfig => exact hidle h.1 rfl
  | loaded newConfig newWhitelist =>
    obtain ⟨earlier, rfl⟩ := h
    rw [pending, List.length_cons, List.length_cons] at hstores
    have hget := getElem?_reverse_append [⟨newConfig, newWhitelist⟩] earlier cells
    refine heldAfter_eq_some_iff.mpr ⟨cells, cells, ?_, ?_, rfl⟩
    · rw [show stores / 2 = earlier.length by omega]
      exact hget
    · rw [show (stores + 1) / 2 = earlier.length by omega]
      exact hget
  | storedWhitelist newConfig =>
    obtain ⟨new, old, earlier, rfl, -, rfl⟩ := h
    rw [pending, List.length_cons, List.length_cons] at hstores
    refine heldAfter_eq_some_iff.mpr ⟨old, new, ?_, ?_, rfl⟩
    · rw [show stores / 2 = earlier.length by omega]
      exact getElem?_reverse_append [new] earlier old
    · rw [show (stores + 1) / 2 = (old :: earlier).length by rw [List.length_cons]; omega]
      exact getElem?_reverse_append [] (old :: earlier) new

/-- The stores are counted. -/
theorem Reloader.pending_of_step {s s' : Reloader X (Evaluator X)} {e : ReloadEvent}
    {stores : ℕ} {loads : List (Version X)} (h : s.step fromStr path e = some s')
    (hstores : stores + s.task.pending + 2 = 2 * loads.length) :
    stores + e.stores + s'.task.pending + 2 =
      2 * ((s.completed e).toList ++ loads).length := by
  have hdid := did_of_step h
  generalize s.completed e = done at hdid ⊢
  cases hdid with
  | closed htask | config htask hload | noWhitelist htask hload | storeWhitelist htask
  | storeConfig htask =>
    rw [htask] at hstores
    simp only [ReloadTask.pending, ReloadEvent.stores, Option.toList_none,
      List.nil_append] at hstores ⊢
    omega
  | noConfig htask hload => exact hstores
  | whitelist htask hload =>
    rw [htask] at hstores
    simp only [ReloadTask.pending, ReloadEvent.stores, Option.toList_some, List.length_append,
      List.length_singleton] at hstores ⊢
    omega

end

/-! ## What a request has seen -/

/-- The answer to a request that sees these versions, and what is written to the log. -/
def transcript (ev : Evaluator X) (outside : Outside X) (req : PolicyRequest)
    (first second third : Version X) : Action × List Str :=
  handleSeeing (m := Logged) (ev.checks outside) outside.now req first second third []

/-- What is known of a request that is being handled: what it has read of the cells, and what
follows from it. -/
def Work.Saw (ev : Evaluator X) (loads : List (Version X)) (stores : ℕ) (w : Work X) : Prop :=
  match w.progress with
  | .start => w.lines = [] ∧ Reads (heldAfter loads) stores w.taken []
  | .passedConfig s => w.lines = [] ∧ w.req.subject = some s ∧
    ∃ u, Reads (heldAfter loads) stores w.taken [u] ∧
      (skipByConfig u.config w.req s.clientIp).isSome = false
  | .passedWhitelist s => w.lines = [] ∧ w.req.subject = some s ∧
    ∃ u v, Reads (heldAfter loads) stores w.taken [u, v] ∧ ¬ Exempt u.config v.whitelist w.req s
  | .loaded s config => w.lines = [] ∧
    ∃ u v v', Reads (heldAfter loads) stores w.taken [u, v, v'] ∧
      transcript ev w.outside w.req u v v' =
        evaluateRequest (m := Logged) config (ev.checks w.outside) w.outside.now w.req s.clientIp
          s.helo s.sender []
  | .evaluated s config helo mailFrom => w.lines = [] ∧
    ∃ u v v', Reads (heldAfter loads) stores w.taken [u, v, v'] ∧
      transcript ev w.outside w.req u v v' =
        (Engine.decide config helo mailFrom (decisionContext X config.srs w.outside.now w.req s),
          (w.progress.logs w.outside.now w.req []).2)
  | .answered action => ∃ u v v', Reads (heldAfter loads) stores w.taken [u, v, v'] ∧
    transcript ev w.outside w.req u v v' = (action, w.lines)

/-- An answer is what the code makes of three versions that the cells held while the request was
being handled, one after the other; and so is what was written to the log. -/
def Handled.Justified (ev : Evaluator X) (loads : List (Version X)) (a : Handled X) : Prop :=
  ∃ u v w, Reads (heldAfter loads) a.answered a.taken [u, v, w] ∧
    transcript ev a.outside a.req u v w = (a.action, a.lines)

section

variable {ev : Evaluator X} {loads : List (Version X)} {stores : ℕ} {w : Work X}

theorem Work.Saw.mono {stores' : ℕ} (hle : stores ≤ stores') (later : List (Version X))
    (h : w.Saw ev loads stores) : w.Saw ev (later ++ loads) stores' := by
  have hreads : ∀ {lo : ℕ} {vs : List (Version X)}, Reads (heldAfter loads) stores lo vs →
      Reads (heldAfter (later ++ loads)) stores' lo vs :=
    fun hr ↦ hr.mono hle fun _ _ hv ↦ heldAfter_append hv later
  rw [Saw] at h ⊢
  split at h
  · exact ⟨h.1, hreads h.2⟩
  · obtain ⟨hlines, hs, u, hr, hskip⟩ := h
    exact ⟨hlines, hs, u, hreads hr, hskip⟩
  · obtain ⟨hlines, hs, u, v, hr, he⟩ := h
    exact ⟨hlines, hs, u, v, hreads hr, he⟩
  · obtain ⟨hlines, u, v, v', hr, ht⟩ := h
    exact ⟨hlines, u, v, v', hreads hr, ht⟩
  · obtain ⟨hlines, u, v, v', hr, ht⟩ := h
    exact ⟨hlines, u, v, v', hreads hr, ht⟩
  · obtain ⟨u, v, v', hr, ht⟩ := h
    exact ⟨u, v, v', hreads hr, ht⟩

theorem Handled.Justified.mono {a : Handled X} (later : List (Version X))
    (h : a.Justified ev loads) : a.Justified ev (later ++ loads) := by
  obtain ⟨u, v, w, hr, ht⟩ := h
  exact ⟨u, v, w, hr.mono (Nat.le_refl _) fun _ _ hv ↦ heldAfter_append hv later, ht⟩

/-- With checks that are functions, an evaluation is the decision on their values, and its line. -/
theorem evaluateRequest_logged (checks : PureChecks X) (config : Config X) (now : UInt64)
    (req : PolicyRequest) (s : Subject) :
    let helo := Checks.checkHelo (m := Id) checks s.clientIp s.helo
    let mailFrom := Checks.checkMailFrom (m := Id) checks s.clientIp
      (effectiveSender X s.sender config.srs now) s.helo
    evaluateRequest (m := Logged) config checks now req s.clientIp s.helo s.sender [] =
      (Engine.decide config helo mailFrom (decisionContext X config.srs now req s),
        ((Progress.evaluated s config helo mailFrom).logs now req []).2) := by
  intro helo mailFrom
  rw [evaluateRequest, Progress.logs]
  simp only [logEvaluatedSpf_eq]
  rfl

/-- **A step of a request adds what it reads to what it has seen.** -/
theorem Work.Saw.step {cells : Version X} {progress : Progress X} (h : w.Saw ev loads stores)
    (hcells : heldAfter loads stores = some cells)
    (hstep : w.progress.step (ev.checks w.outside) w.outside.now w.req cells = some progress) :
    Work.Saw ev loads stores
      { w with progress, lines := w.lines ++ (w.progress.logs w.outside.now w.req []).2 } := by
  obtain ⟨req, outside, taken, p, lines⟩ := w
  -- what is exempt has no more to read, so it may read anything
  have hexempt : ∀ {u v : Version X} {s : Subject}, req.subject = some s →
      Exempt u.config v.whitelist req s → ∀ v' : Version X,
      transcript ev outside req u v v' = (.dunno, []) :=
    fun hs he v' ↦ congrFun (handleSeeing_of_exempt (m := Logged) hs he v') []
  cases p with
  | start =>
    obtain ⟨rfl, hreads⟩ := h
    have hread := hreads.concat hcells
    rw [Progress.step] at hstep
    split at hstep
    · rename_i hs
      obtain rfl := Option.some.inj hstep
      refine ⟨cells, cells, cells, (hread.concat hcells).concat hcells, ?_⟩
      exact congrFun (handleSeeing_of_subject_eq_none (m := Logged) hs cells cells cells) []
    · rename_i s hs
      split at hstep
      · rename_i hskip
        obtain rfl := Option.some.inj hstep
        have he : Exempt cells.config cells.whitelist req s :=
          exempt_iff.mpr (.inl (by rw [hskip]; rfl))
        exact ⟨cells, cells, cells, (hread.concat hcells).concat hcells, hexempt hs he cells⟩
      · rename_i hskip
        obtain rfl := Option.some.inj hstep
        exact ⟨rfl, hs, cells, hread, by rw [hskip]; rfl⟩
  | passedConfig s =>
    obtain ⟨rfl, hs, u, hreads, hconfig⟩ := h
    have hread := hreads.concat hcells
    rw [Progress.step] at hstep
    split at hstep
    · rename_i hskip
      obtain rfl := Option.some.inj hstep
      have he : Exempt u.config cells.whitelist req s :=
        exempt_iff.mpr (.inr (by rw [hskip]; rfl))
      exact ⟨u, cells, cells, hread.concat hcells, hexempt hs he cells⟩
    · rename_i hskip
      obtain rfl := Option.some.inj hstep
      refine ⟨rfl, hs, u, cells, hread, ?_⟩
      rw [exempt_iff, hconfig, hskip]
      simp
  | passedWhitelist s =>
    obtain ⟨rfl, hs, u, v, hreads, he⟩ := h
    obtain rfl := Option.some.inj hstep
    refine ⟨rfl, u, v, cells, hreads.concat hcells, ?_⟩
    exact congrFun (handleSeeing_of_not_exempt (m := Logged) hs he cells) []
  | loaded s config =>
    obtain ⟨rfl, u, v, v', hreads, ht⟩ := h
    obtain rfl := Option.some.inj hstep
    exact ⟨rfl, u, v, v', hreads, ht.trans (evaluateRequest_logged _ config outside.now req s)⟩
  | evaluated s config helo mailFrom =>
    obtain ⟨rfl, u, v, v', hreads, ht⟩ := h
    obtain rfl := Option.some.inj hstep
    refine ⟨u, v, v', hreads, ?_⟩
    dsimp only at ht ⊢
    rw [List.nil_append]
    exact ht
  | answered action => exact absurd hstep.symm (Option.some_ne_none _)

end

/-! ## Runs -/

/-- What a client is told. -/
def Handled.reply (a : Handled X) : PolicyRequest × Action := (a.req, a.action)

/-- What was handled on a connection. -/
def Service.journalOf (s : Service X) (j : ℕ) : List (Handled X) :=
  s.journal.filter fun a ↦ a.conn = j

/-- What was written to the log for a connection. -/
def Service.syslogOf (s : Service X) (j : ℕ) : List Str :=
  (s.syslog.filter fun p ↦ p.1 = j).map Prod.snd

/-- What the handling of the present request has written. -/
def Service.linesOf (s : Service X) (j : ℕ) : List Str := (s.work j).elim [] Work.lines

/-- What is true of the service at all times. -/
structure Service.Inv (fromStr : Str → Except X.TomlError (Config X)) (path : Str)
    (ev : Evaluator X) (s : Service X) : Prop where
  reloader : s.reloader.Inv fromStr path ev s.loads
  /-- The stores are those of the versions that were loaded. -/
  stores_eq : s.stores + s.reloader.task.pending + 2 = 2 * s.loads.length
  work_eq : ∀ j, (s.work j).map Work.req = s.daemon.handling j
  /-- It has seen what the cells held. -/
  saw : ∀ j w, s.work j = some w → w.Saw ev s.loads s.stores
  journal_eq : ∀ j, (s.journalOf j).map Handled.reply = s.daemon.replies j
  syslog_eq : ∀ j, s.syslogOf j = (s.journalOf j).flatMap Handled.lines ++ s.linesOf j
  /-- The answers follow from what the cells held. -/
  justified : ∀ a ∈ s.journal, a.answered ≤ s.stores ∧ a.Justified ev s.loads

section

variable {fromStr : Str → Except X.TomlError (Config X)} {path : Str} {ev : Evaluator X}
  {s s' : Service X}

theorem filter_map_pair {j k : ℕ} (lines : List Str) :
    (((lines.map fun line ↦ (j, line)).filter fun p ↦ p.1 = k).map Prod.snd) =
      if j = k then lines else [] := by
  split
  · rename_i h
    subst h
    rw [List.filter_eq_self.mpr (by simp), List.map_map]
    exact List.map_id lines
  · rename_i h
    rw [List.filter_eq_nil_iff.mpr (by simp [h]), List.map_nil]

theorem Service.Inv.cells (hs : s.Inv fromStr path ev) :
    heldAfter s.loads s.stores = some s.reloader.cells :=
  hs.reloader.agrees.heldAfter_eq hs.stores_eq

/-- What is handled on one connection does not concern the others. -/
theorem Service.linesOf_eq {j k : ℕ} {w : Option (Work X)}
    (h : s'.work = Function.update s.work j w) :
    s'.linesOf k = if k = j then w.elim [] Work.lines else s.linesOf k := by
  rw [linesOf, linesOf, h, Function.update_apply]
  split <;> rfl

/-- A connection takes a request. -/
theorem Service.Inv.take {j : ℕ} {outside : Outside X} {daemon : Daemon}
    (hs : s.Inv fromStr path ev) (hstep : s.daemon.step (.conn j .decode) = some daemon) :
    Inv fromStr path ev
      { s with
        daemon
        work := Function.update s.work j
          ((daemon.handling j).map fun req ↦ { req, outside, taken := s.stores }) } := by
  obtain ⟨c, c', ⟨hnone, hsame⟩, hhandling, hreplies, hhandling', hreplies', hothers⟩ :=
    Daemon.conn_of_step hstep
  have hfree : s.work j = none := by
    rw [← Option.map_eq_none_iff, hs.work_eq, hhandling, hnone]
  refine ⟨hs.reloader, hs.stores_eq, ?_, ?_, fun k ↦ ?_, fun k ↦ ?_, hs.justified⟩
  · refine (Function.forall_update_iff s.work fun k w ↦
      Option.map Work.req w = daemon.handling k).mpr ⟨?_, ?_⟩
    · rw [Option.map_map]
      exact Option.map_id'
    · intro k hk
      rw [(hothers k hk).1]
      exact hs.work_eq k
  · refine (Function.forall_update_iff s.work fun _ w ↦ ∀ w', w = some w' →
      Work.Saw ev s.loads s.stores w').mpr ⟨fun w hw ↦ ?_, fun k _ ↦ hs.saw k⟩
    obtain ⟨req, -, rfl⟩ := Option.map_eq_some_iff.mp hw
    exact ⟨rfl, .nil (Nat.le_refl _)⟩
  · rcases eq_or_ne k j with rfl | hk
    · exact (hs.journal_eq k).trans (hreplies.trans (hsame.symm.trans hreplies'.symm))
    · exact (hs.journal_eq k).trans (hothers k hk).2.symm
  · rw [linesOf_eq rfl]
    split
    · rename_i hk
      have hsyslog := hs.syslog_eq k
      rw [linesOf, hk, hfree] at hsyslog
      rw [hk]
      cases daemon.handling j <;> exact hsyslog
    · exact hs.syslog_eq k

/-- A request is handled a step further. -/
theorem Service.Inv.work {j : ℕ} {w : Work X} {progress : Progress X}
    (hs : s.Inv fromStr path ev) (hw : s.work j = some w)
    (hstep : w.progress.step (s.reloader.state.evaluator.checks w.outside) w.outside.now w.req
      s.reloader.cells = some progress) :
    Inv fromStr path ev
      { s with
        work := Function.update s.work j
          (some { w with progress, lines := w.lines ++ (w.progress.logs w.outside.now w.req []).2 })
        syslog := s.syslog ++
          (w.progress.logs w.outside.now w.req []).2.map fun line ↦ (j, line) } := by
  refine ⟨hs.reloader, hs.stores_eq, ?_, ?_, hs.journal_eq, fun k ↦ ?_, hs.justified⟩
  · refine (Function.forall_update_iff s.work fun k w ↦
      Option.map Work.req w = s.daemon.handling k).mpr ⟨?_, fun k _ ↦ hs.work_eq k⟩
    rw [← hs.work_eq j, hw]
    rfl
  · refine (Function.forall_update_iff s.work fun _ w ↦ ∀ w', w = some w' →
      Work.Saw ev s.loads s.stores w').mpr ⟨fun w' hw' ↦ ?_, fun k _ ↦ hs.saw k⟩
    obtain rfl := Option.some.inj hw'
    rw [hs.reloader.evaluator_eq] at hstep
    exact (hs.saw j w hw).step hs.cells hstep
  · have hsyslog := hs.syslog_eq k
    rw [syslogOf, linesOf] at hsyslog
    rw [syslogOf, List.filter_append, List.map_append, filter_map_pair, hsyslog, linesOf_eq rfl,
      List.append_assoc]
    refine congrArg _ ?_
    rcases eq_or_ne k j with rfl | hk
    · rw [if_pos rfl, if_pos rfl, hw]
      rfl
    · rw [if_neg (Ne.symm hk), if_neg hk, List.append_nil, linesOf]

/-- A request is answered. -/
theorem Service.Inv.finish {j : ℕ} {w : Work X} {action : Action} {daemon : Daemon}
    (hs : s.Inv fromStr path ev) (hw : s.work j = some w)
    (hanswered : w.progress = .answered action)
    (hstep : s.daemon.step (.conn j (.finish action)) = some daemon) :
    Inv fromStr path ev
      { s with
        daemon
        work := Function.update s.work j none
        journal := s.journal ++
          [⟨j, w.req, w.outside, w.taken, s.stores, action, w.lines⟩] } := by
  obtain ⟨c, c', ⟨hnone, req, hreq, hsent⟩, hhandling, hreplies, hhandling', hreplies', hothers⟩ :=
    Daemon.conn_of_step hstep
  obtain rfl : w.req = req := by
    have h := hs.work_eq j
    rw [hw, hhandling, hreq] at h
    exact Option.some.inj h
  have hsaw := hs.saw j w hw
  rw [Work.Saw, hanswered] at hsaw
  refine ⟨hs.reloader, hs.stores_eq, ?_, ?_, fun k ↦ ?_, fun k ↦ ?_, fun a ha ↦ ?_⟩
  · refine (Function.forall_update_iff s.work fun k w ↦
      Option.map Work.req w = daemon.handling k).mpr ⟨?_, ?_⟩
    · rw [hhandling', hnone]
      rfl
    · intro k hk
      rw [(hothers k hk).1]
      exact hs.work_eq k
  · exact (Function.forall_update_iff s.work fun _ w ↦ ∀ w', w = some w' →
      Work.Saw ev s.loads s.stores w').mpr
        ⟨fun _ hw' ↦ absurd hw'.symm (Option.some_ne_none _), fun k _ ↦ hs.saw k⟩
  · have hjournal := hs.journal_eq k
    rw [journalOf] at hjournal
    rw [journalOf, List.filter_append, List.map_append, hjournal]
    rcases eq_or_ne k j with rfl | hk
    · rw [hreplies', hsent, hreplies]
      simp [Handled.reply]
    · rw [(hothers k hk).2]
      simp [Ne.symm hk]
  · have hsyslog := hs.syslog_eq k
    rw [journalOf, linesOf] at hsyslog
    rw [journalOf, linesOf_eq rfl, List.filter_append, List.flatMap_append]
    refine hsyslog.trans ?_
    rw [List.append_assoc]
    refine congrArg _ ?_
    rcases eq_or_ne k j with rfl | hk
    · rw [if_pos rfl, hw]
      simp
    · rw [if_neg hk, linesOf]
      simp [Ne.symm hk]
  · rcases List.mem_append.mp ha with ha | ha
    · exact hs.justified a ha
    · obtain rfl := List.mem_singleton.mp ha
      exact ⟨Nat.le_refl _, hsaw⟩

/-- **A step keeps the invariant.** -/
theorem Service.Inv.step {e : ServiceEvent X} (hs : s.Inv fromStr path ev)
    (h : s.step fromStr path e = some s') : s'.Inv fromStr path ev := by
  cases did_of_step h with
  | daemon he hstep =>
    have hfollows := Daemon.follows_of_step he hstep
    refine ⟨hs.reloader, hs.stores_eq, fun j ↦ ?_, hs.saw, fun j ↦ ?_, hs.syslog_eq, hs.justified⟩
    · exact (hs.work_eq j).trans (hfollows j).1.symm
    · exact (hs.journal_eq j).trans (hfollows j).2.symm
  | take hstep => exact hs.take hstep
  | work hresult hw hstep => exact hs.work hw hstep
  | finish hw hanswered hstep => exact hs.finish hw hanswered hstep
  | @reload e reloader hresult hstep =>
    have hle := Nat.le_add_right s.stores e.stores
    refine ⟨hs.reloader.step hstep, Reloader.pending_of_step hstep hs.stores_eq, hs.work_eq,
      fun j w hw ↦ (hs.saw j w hw).mono hle _, hs.journal_eq, hs.syslog_eq, fun a ha ↦ ?_⟩
    exact ⟨(hs.justified a ha).1.trans hle, (hs.justified a ha).2.mono _⟩

end

section

variable {fromStr : Str → Except X.TomlError (Config X)} {path : Str}
  {fromSystemConf : Except X.ResolveError (X.Resolver Id)} {fs fs' : FileSystem} {cfg : Config X}
  {state : AppState X (Evaluator X)} {es : List (ServiceEvent X)} {s : Service X}

/-- The service as it starts meets the invariant. -/
theorem Service.inv_start (hload : Config.load fs fromStr path = pure cfg)
    (hnew : AppState.new fromSystemConf fs' cfg = .ok state) :
    (start state).Inv fromStr path state.evaluator where
  reloader := Reloader.inv_start hload hnew
  stores_eq := rfl
  work_eq _ := rfl
  saw _ _ h := absurd h.symm (Option.some_ne_none _)
  journal_eq _ := rfl
  syslog_eq _ := rfl
  justified _ h := absurd h List.not_mem_nil

/-- **All states of all runs meet the invariant.** -/
theorem Service.inv_of_run (hload : Config.load fs fromStr path = pure cfg)
    (hnew : AppState.new fromSystemConf fs' cfg = .ok state)
    (hrun : (machine fromStr path).run (start state) es = some s) :
    s.Inv fromStr path state.evaluator :=
  (machine fromStr path).invariant (fun _ _ _ hs hstep ↦ hs.step hstep) (inv_start hload hnew) hrun

/-- The listeners and connections keep theirs. -/
theorem Service.daemon_inv_of_run (hrun : (machine fromStr path).run (start state) es = some s) :
    s.daemon.Inv :=
  Daemon.inv_of_visits ((toDaemon fromStr path).visits hrun)

/-- A connection is only broken by a write that fails. -/
theorem Service.sendFails_mem_of_broken
    (hrun : (machine fromStr path).run (start state) es = some s) {j : ℕ} {c : Conn}
    (hc : s.daemon.conns[j]? = some c) {req : PolicyRequest} {action : Action} {sent : ℕ}
    (hbroken : c.phase = .broken req action sent) : .daemon (.conn j (.sendFails sent)) ∈ es := by
  by_contra hno
  have hguarded : (machine fromStr path).Guarded
      (fun _ e ↦ e ≠ .daemon (.conn j (.sendFails sent))) (start state) es :=
    Machine.guarded_of_forall_mem fun e he h ↦ hno (h ▸ he)
  refine Machine.invariant_of_guarded (P := fun s : Service X ↦ ∀ c : Conn,
    s.daemon.conns[j]? = some c → c.phase ≠ .broken req action sent) ?_ ?_ hguarded hrun c hc
    hbroken
  · intro u e u' hu he h c' hc' hbroken'
    cases did_of_step h with
    | daemon _ hstep =>
      rcases Daemon.sendFails_of_step hstep hc' hbroken' with rfl | hsame
      · exact he rfl
      · exact hu c' hsame hbroken'
    | take hstep | finish _ _ hstep =>
      rcases Daemon.sendFails_of_step hstep hc' hbroken' with hsend | hsame
      · cases hsend
      · exact hu c' hsame hbroken'
    | work | reload => exact hu c' hc' hbroken'
  · intro c' hc'
    cases hc'

/-- **The whole service.**  Whatever is received, in whatever order the tasks take their steps,
whatever the DNS answers and whenever the configuration is reloaded from whatever files:

* a connection takes the first requests of what it receives, and answers all but at most the last
  of them; what is written to it are the answers, in order, and if a write has failed, which ends
  the connection, a part of one more;
* each answer is what the code makes of the configuration, the whitelist and again the
  configuration that the cells held at three moments, one after the other, while the request was
  being handled, with the evaluator of the start; if nothing was stored meanwhile, it is that of
  `handleRequest`;
* each of these versions is of loads that were completed, whose configuration passed validation;
* the lines of the log are those of the requests that were handled, for each connection in the
  order of its requests. -/
theorem Service.service_spec (hload : Config.load fs fromStr path = pure cfg)
    (hnew : AppState.new fromSystemConf fs' cfg = .ok state)
    (hrun : (machine fromStr path).run (start state) es = some s) :
    (∀ (j : ℕ) (c : Conn), s.daemon.conns[j]? = some c →
      (∀ later, c.decoded <+: requestsOf (c.received ++ later)) ∧
      c.decoded = c.answered.map Prod.fst ++ c.phase.inFlight ∧
      c.written = (c.answered.flatMap fun p ↦ Utf8.encode p.2.toWire) ++ c.phase.torn ∧
      (∀ req action sent, c.phase = .broken req action sent →
        .daemon (.conn j (.sendFails sent)) ∈ es) ∧
      c.replies = (s.journalOf j).map fun a ↦ (a.req, a.action)) ∧
    (∀ a ∈ s.journal, a.answered ≤ s.stores ∧
      (∃ i j k u v w, a.taken ≤ i ∧ i ≤ j ∧ j ≤ k ∧ k ≤ a.answered ∧
        heldAfter s.loads i = some u ∧ heldAfter s.loads j = some v ∧
        heldAfter s.loads k = some w ∧
        transcript state.evaluator a.outside a.req u v w = (a.action, a.lines)) ∧
      (a.taken = a.answered → ∃ v, heldAfter s.loads a.taken = some v ∧
        handleRequest (m := Logged) (v.state (state.evaluator.checks a.outside)) a.outside.now a.req
          [] = (a.action, a.lines))) ∧
    (∀ (n : ℕ) (v : Version X), heldAfter s.loads n = some v →
      (∃ u ∈ s.loads, v.config = u.config ∧ u.Loaded fromStr path ∧
        u.config.validate = pure ()) ∧
      ∃ u ∈ s.loads, v.whitelist = u.whitelist ∧ u.Loaded fromStr path) ∧
    ∀ j, s.syslogOf j = (s.journalOf j).flatMap Handled.lines ++ s.linesOf j := by
  have hinv := inv_of_run hload hnew hrun
  refine ⟨fun j c hc ↦ ?_, fun a ha ↦ ?_, fun n v hv ↦ ?_, hinv.syslog_eq⟩
  · have hconn := (daemon_inv_of_run hrun).conns c (List.mem_of_getElem? hc)
    have hjournal := hinv.journal_eq j
    rw [Daemon.replies, hc] at hjournal
    exact ⟨hconn.decoded_isPrefix, hconn.decoded_eq, hconn.written_eq,
      fun _ _ _ ↦ sendFails_mem_of_broken hrun hc, hjournal.symm⟩
  · obtain ⟨hle, u, v, w, hreads, ht⟩ := hinv.justified a ha
    refine ⟨hle, ?_, fun hsame ↦ ?_⟩
    · obtain ⟨i, j, k, hi, hj, hk, hhi, hu, hv, hw⟩ := Reads.three_iff.mp hreads
      exact ⟨i, j, k, u, v, w, hi, hj, hk, hhi, hu, hv, hw, ht⟩
    · rw [hsame] at hreads ⊢
      have hu := hreads.eq_of_mem List.mem_cons_self
      obtain rfl : u = v :=
        Option.some.inj (hu.symm.trans (hreads.eq_of_mem (by simp)))
      obtain rfl : u = w :=
        Option.some.inj (hu.symm.trans (hreads.eq_of_mem (by simp)))
      refine ⟨u, hu, ?_⟩
      rw [transcript, handleSeeing_self] at ht
      exact ht
  · obtain ⟨⟨u, hu, hconfig⟩, u', hu', hwhitelist⟩ := exists_mem_of_heldAfter hv
    have hloaded := hinv.reloader.loaded
    exact ⟨⟨u, hu, hconfig, hloaded u hu, (hloaded u hu).validate⟩, u', hu', hwhitelist,
      hloaded u' hu'⟩

end

/-! ### A sample

A client asks for a verdict while the configuration is reloaded.  Its HELO name fails in the DNS;
its sender has an override, by which it passes.  There is another client, which asks for nothing in
particular and goes away while it is answered. -/

theorem load_sampleFiles_old :
    Config.load (sampleFiles "old" "") sampleFromStr "rspf.toml".toList =
      pure (overrideConfig "example.com".toList) :=
  Config.load_eq_pure_iff.mpr ⟨_, rfl, rfl, validate_overrideConfig _⟩

theorem load_sampleFiles_new (list : String) :
    Config.load (sampleFiles "new" list) sampleFromStr "rspf.toml".toList = pure listingConfig :=
  Config.load_eq_pure_iff.mpr ⟨_, rfl, rfl,
    Config.validate_eq_ok_iff.mpr (Config.validate_eq_ok_iff.mp (validate_overrideConfig _))⟩

theorem new_sampleReloader :
    AppState.new (.ok (emptyLookup Crates.sample)) noFiles (overrideConfig "example.com".toList) =
      .ok sampleReloader.state :=
  rfl

/-- A DNS that has a record for the HELO name, while it is checked. -/
def sampleOutside : Outside Crates.sample where
  now := 0
  heloDns resolver := { resolver with
    lookupTxt := fun (name : Str) ↦
      .ok (if name = "mx.example.com".toList then ["v=spf1 -all".toList] else []) }
  mailFromDns resolver := resolver

/-- The two clients connect, and the first one asks. -/
def sampleAsked : List (ServiceEvent Crates.sample) :=
  [.daemon (.bind 0 none), .daemon (.accept 0), .daemon (.accept 0),
    .daemon (.conn 0 (.receive (writeRequest hastyPairs))), .take 0 sampleOutside, .work 0]

/-- Then the signal comes. -/
def sampleSignal : ServiceEvent Crates.sample :=
  .reload (.sighup (sampleFiles "new" "helo:mx.example.net"))

/-- What the service is like at this moment. -/
def sampleLoading : Service Crates.sample where
  daemon :=
    { listeners := [.accepting]
      conns := [⟨.evaluating (PolicyRequest.assignAll {} hastyPairs), [], writeRequest hastyPairs,
        [PolicyRequest.assignAll {} hastyPairs], [], []⟩, {}] }
  reloader := { sampleReloader with task := .loadedConfig listingConfig }
  work :=
    let work : Work Crates.sample :=
      { req := PolicyRequest.assignAll {} hastyPairs, outside := sampleOutside, taken := 0 }
    let subject : Subject :=
      ⟨sampleSubject.clientIp, "mx.example.com".toList, "user@example.com".toList⟩
    Function.update (Function.update (fun _ ↦ none) 0 (some work)) 0
      (some { work with progress := .passedConfig subject })
  loads := [sampleReloader.cells]

/-- While the first request is handled, the second client asks, and the files are loaded. -/
def sampleHandling : List (ServiceEvent Crates.sample) :=
  [.work 0, .reload (.loadWhitelist (sampleFiles "new" "helo:mx.example.net")),
    .daemon (.conn 1 (.receive [97, 61, 98, lf, lf])), .take 1 sampleOutside,
    .reload .storeWhitelist, .work 0]

/-- The first request is answered; the answer to the second one cannot be written. -/
def sampleAnswering : List (ServiceEvent Crates.sample) :=
  [.reload .storeConfig, .work 0, .work 0, .work 1, .finish 1, .finish 0,
    .daemon (.conn 1 (.sendFails 3)), .daemon (.conn 0 .send)]

/-- All of it. -/
def sampleService : List (ServiceEvent Crates.sample) :=
  (sampleAsked ++ [sampleSignal]) ++ (sampleHandling ++ sampleAnswering)

/-- The service comes to this moment. -/
theorem run_sampleAsked :
    (Service.machine sampleFromStr "rspf.toml".toList).run (Service.start sampleReloader.state)
      (sampleAsked ++ [sampleSignal]) = some sampleLoading := by
  have hsighup := Reloader.step_sighup (E := Evaluator Crates.sample) (s := sampleReloader) rfl
    (load_sampleFiles_new "helo:mx.example.net")
  refine (Machine.run_append_eq_some _).mpr
    ⟨{ sampleLoading with reloader := sampleReloader }, rfl, ?_⟩
  refine (Machine.run_cons_eq_some _).mpr ⟨sampleLoading, ?_, rfl⟩
  refine (congrArg (Option.map _) hsighup).trans ?_
  rfl

/-- And goes on from there. -/
theorem run_sampleService {s : Service Crates.sample}
    (h : (Service.machine sampleFromStr "rspf.toml".toList).run sampleLoading
      (sampleHandling ++ sampleAnswering) = some s) :
    (Service.machine sampleFromStr "rspf.toml".toList).run (Service.start sampleReloader.state)
      sampleService = some s :=
  (Machine.run_append_eq_some _).mpr ⟨_, run_sampleAsked, h⟩

/-- The first request is rejected and logged, and both stores are made meanwhile.  The second client
gets three bytes. -/
theorem Service.service_spec_sample :
    ∃ s c c' a, (machine sampleFromStr "rspf.toml".toList).run
        (start sampleReloader.state) sampleService = some s ∧
      s.daemon.conns[0]? = some c ∧ s.daemon.conns[1]? = some c' ∧ s.journalOf 0 = [a] ∧
      a.taken = 0 ∧ a.answered = 2 ∧ (∃ reason, a.action = .reject reason) ∧ a.lines ≠ [] ∧
      c.replies = [(a.req, a.action)] ∧
      c.written = (c.answered.flatMap fun p ↦ Utf8.encode p.2.toWire) ++ [] ∧
      c'.written = [] ++ (Utf8.encode Action.dunno.toWire).take 3 ∧
      ∃ i j k u v w, a.taken ≤ i ∧ i ≤ j ∧ j ≤ k ∧ k ≤ a.answered ∧
        heldAfter s.loads i = some u ∧ heldAfter s.loads j = some v ∧
        heldAfter s.loads k = some w ∧
        transcript sampleReloader.state.evaluator a.outside a.req u v w = (a.action, a.lines) := by
  have hrun : (machine sampleFromStr "rspf.toml".toList).run (start sampleReloader.state)
      sampleService = some _ := run_sampleService rfl
  obtain ⟨hconns, hjournal, -⟩ := service_spec load_sampleFiles_old new_sampleReloader hrun
  obtain ⟨-, -, hwritten, -, hreplies⟩ := hconns 0 _ rfl
  obtain ⟨-, -, hwritten', -⟩ := hconns 1 _ rfl
  refine ⟨_, _, _, _, hrun, rfl, rfl, rfl, rfl, rfl, ⟨_, rfl⟩, List.cons_ne_nil _ _, hreplies,
    hwritten, hwritten', ?_⟩
  exact (hjournal _ (List.mem_cons_of_mem _ List.mem_cons_self)).2.1

/-! ## Nobody waits -/

/-- How many steps a request has still to take. -/
def Progress.left : Progress X → ℕ
  | start => 5
  | passedConfig _ => 4
  | passedWhitelist _ => 3
  | loaded _ _ => 2
  | evaluated _ _ _ _ => 1
  | answered _ => 0

/-- Is this a step in the handling of the request of this connection? -/
def ServiceEvent.works (j : ℕ) : ServiceEvent X → Bool
  | .work k => k == j
  | _ => false

section

variable {E : Type} [Checks X Id E] {evaluator : E} {now : UInt64} {req : PolicyRequest}
  {cells : Version X} {p p' : Progress X}

theorem Progress.left_of_step (h : p.step evaluator now req cells = some p') :
    p'.left < p.left := by
  cases p with
  | start =>
    rw [step] at h
    split at h
    · obtain rfl := Option.some.inj h
      exact Nat.zero_lt_succ _
    · split at h <;> obtain rfl := Option.some.inj h <;> simp [left]
  | passedConfig s =>
    rw [step] at h
    split at h <;> obtain rfl := Option.some.inj h <;> simp [left]
  | passedWhitelist s | loaded s config | evaluated s config helo mailFrom =>
    obtain rfl := Option.some.inj h
    exact Nat.lt_succ_self _
  | answered action => exact absurd h.symm (Option.some_ne_none _)

/-- A request that is not answered can take its next step. -/
theorem Progress.step_isSome (h : ∀ action, p ≠ .answered action) :
    (p.step evaluator now req cells).isSome = true := by
  cases p with
  | start =>
    rw [step]
    split
    · rfl
    · split <;> rfl
  | passedConfig s =>
    rw [step]
    split <;> rfl
  | passedWhitelist s | loaded s config | evaluated s config helo mailFrom => rfl
  | answered action => exact absurd rfl (h action)

end

section

variable {fromStr : Str → Except X.TomlError (Config X)} {path : Str} {ev : Evaluator X}
  {s s' t : Service X} {e : ServiceEvent X} {es : List (ServiceEvent X)} {j : ℕ} {w : Work X}

/-- A step of the service is one of the request, or does nothing to it, or answers it. -/
theorem Service.Inv.work_of_step (hs : s.Inv fromStr path ev) (hw : s.work j = some w)
    (h : s.step fromStr path e = some s') (hfinish : e ≠ .finish j) :
    ∃ w', s'.work j = some w' ∧ w'.req = w.req ∧
      w'.progress.left + (if e.works j then 1 else 0) ≤ w.progress.left := by
  have hother : ∀ {k : ℕ} {v : Option (Work X)}, k ≠ j → Function.update s.work k v j = some w :=
    fun hk ↦ (Function.update_of_ne (Ne.symm hk) _ _).trans hw
  cases did_of_step h with
  | daemon | reload => exact ⟨w, hw, rfl, Nat.le_refl _⟩
  | @take k outside daemon hstep =>
    have hk : k ≠ j := by
      rintro rfl
      obtain ⟨c, -, ⟨hnone, -⟩, hhandling, -⟩ := Daemon.conn_of_step hstep
      have h := hs.work_eq k
      rw [hw, hhandling, hnone] at h
      exact absurd h (Option.some_ne_none _)
    exact ⟨w, hother hk, rfl, Nat.le_refl _⟩
  | @work k w' progress hresult hw' hstep =>
    rcases eq_or_ne k j with rfl | hk
    · obtain rfl := Option.some.inj (hw'.symm.trans hw)
      refine ⟨_, Function.update_self _ _ _, rfl, ?_⟩
      rw [ServiceEvent.works, if_pos (beq_self_eq_true k)]
      exact Progress.left_of_step hstep
    · refine ⟨w, hother hk, rfl, ?_⟩
      rw [ServiceEvent.works, if_neg (by simpa using hk)]
      exact Nat.le_refl _
  | @finish k w' action daemon hw' hanswered hstep =>
    exact ⟨w, hother fun hk ↦ hfinish (hk ▸ rfl), rfl, Nat.le_refl _⟩

/-- The request can go on whenever the process does. -/
theorem Service.Inv.goes_on (hs : s.Inv fromStr path ev) (hw : s.work j = some w)
    (hresult : s.daemon.result = none) :
    (s.step fromStr path (.work j)).isSome = true ∨
      (s.step fromStr path (.finish j)).isSome = true := by
  by_cases h : ∃ action, w.progress = .answered action
  · obtain ⟨action, hanswered⟩ := h
    obtain ⟨c, hc, hphase⟩ :
        ∃ c : Conn, s.daemon.conns[j]? = some c ∧ c.phase.handled = some w.req := by
      have h := hs.work_eq j
      rw [hw, Daemon.handling] at h
      exact Option.bind_eq_some_iff.mp h.symm
    have hevaluating : c.phase = .evaluating w.req := by
      cases hp : c.phase <;> rw [hp] at hphase
      · exact absurd hphase nofun
      · exact congrArg _ (Option.some.inj hphase)
      · exact absurd hphase nofun
      · exact absurd hphase nofun
      · exact absurd hphase nofun
    refine .inr ?_
    obtain ⟨req, outside, taken, p, lines⟩ := w
    obtain rfl : p = .answered action := hanswered
    rw [Service.step, hw]
    dsimp only
    rw [Option.isSome_map, Daemon.step, hresult, hc, Option.isSome_none, if_neg Bool.false_ne_true]
    dsimp only
    rw [Option.isSome_map, Conn.step.eq_def, hevaluating]
    rfl
  · refine .inl ?_
    rw [Service.step, hresult, hw]
    dsimp only
    rw [Option.isSome_map]
    exact Progress.step_isSome (not_exists.mp h)

/-- **Nobody waits for somebody else.**  Whatever happens after a request was taken, until it is
answered, it takes at most five steps, and the next of them, or its answer, is possible at every
moment, as long as the process runs. -/
theorem Service.never_waits {fs fs' : FileSystem}
    {fromSystemConf : Except X.ResolveError (X.Resolver Id)} {cfg : Config X}
    {state : AppState X (Evaluator X)} {before : List (ServiceEvent X)}
    (hload : Config.load fs fromStr path = pure cfg)
    (hnew : AppState.new fromSystemConf fs' cfg = .ok state)
    (hbefore : (machine fromStr path).run (start state) before = some s) (hw : s.work j = some w)
    (hrun : (machine fromStr path).run s es = some t) (hunanswered : ∀ e ∈ es, e ≠ .finish j) :
    ∃ w', t.work j = some w' ∧ w'.req = w.req ∧
      es.countP (ServiceEvent.works j) ≤ w.progress.left ∧ w.progress.left ≤ 5 ∧
      (t.daemon.result = none →
        (t.step fromStr path (.work j)).isSome = true ∨
        (t.step fromStr path (.finish j)).isSome = true) := by
  let left (s : Service X) : ℕ := (s.work j).elim 0 fun w ↦ w.progress.left
  have hkeeps : (t.Inv fromStr path state.evaluator ∧ ∃ w', t.work j = some w' ∧ w'.req = w.req) ∧
      left t + es.countP (ServiceEvent.works j) ≤ left s := by
    refine Machine.rank_add_countP_le left
      (P := fun s ↦ s.Inv fromStr path state.evaluator ∧ ∃ w', s.work j = some w' ∧ w'.req = w.req)
      ?_ ⟨inv_of_run hload hnew hbefore, w, hw, rfl⟩ (Machine.guarded_of_forall_mem hunanswered)
      hrun
    rintro u e u' ⟨hu, w₁, hw₁, hreq₁⟩ he h
    obtain ⟨w₂, hw₂, hreq₂, hleft⟩ := hu.work_of_step hw₁ h he
    refine ⟨⟨hu.step h, w₂, hw₂, hreq₂.trans hreq₁⟩, ?_⟩
    dsimp only [left]
    rw [hw₁, hw₂]
    exact hleft
  obtain ⟨⟨ht, w', hw', hreq⟩, hle⟩ := hkeeps
  dsimp only [left] at hle
  rw [hw, hw'] at hle
  refine ⟨w', hw', hreq, (Nat.le_add_left _ _).trans hle, ?_, ht.goes_on hw'⟩
  cases w.progress <;> simp [Progress.left]

/-- The first request of the sample takes two of its four steps; meanwhile the second client asks
and the whitelist is stored.  The next step is possible. -/
theorem Service.never_waits_sample :
    ∃ w t, sampleLoading.work 0 = some w ∧ w.progress.left = 4 ∧
      (machine sampleFromStr "rspf.toml".toList).run sampleLoading sampleHandling = some t ∧
      sampleHandling.countP (ServiceEvent.works 0) = 2 ∧
      sampleHandling.countP (ServiceEvent.works 0) ≤ w.progress.left ∧
      ((t.step sampleFromStr "rspf.toml".toList (.work 0)).isSome = true ∨
        (t.step sampleFromStr "rspf.toml".toList (.finish 0)).isSome = true) := by
  have hrun : (machine sampleFromStr "rspf.toml".toList).run sampleLoading sampleHandling =
    some _ := rfl
  have hunanswered : ∀ e ∈ sampleHandling, e ≠ .finish 0 := by
    simp only [sampleHandling, List.forall_mem_cons, ne_eq, reduceCtorEq, not_false_eq_true,
      true_and, List.not_mem_nil, false_imp_iff, implies_true]
  obtain ⟨-, -, -, hcount, -, hgoes⟩ := never_waits (j := 0) load_sampleFiles_old
    new_sampleReloader run_sampleAsked rfl hrun hunanswered
  exact ⟨_, _, rfl, rfl, hrun, rfl, hcount, hgoes rfl⟩

end

end Rspf
