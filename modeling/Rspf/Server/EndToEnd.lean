import Rspf.Server.Client
import Rspf.Server.Influence
import Rspf.Server.Main
import Rspf.Server.Serving

/-!
# From request to reply

A mail server writes its requests, one after the other, and reads the replies.  Between the two are
the codec, the connection, the handling of requests while others are handled and the configuration
is reloaded, and the codec again.  `Service.serves_client` goes all the way: the replies it reads
are as many as its requests, in their order, and each is what was decided for its request.

There are fewer in two cases.  The service may end first, and it does not wait for answers (see
`shutdown_drops_request`).  Or a write has failed: then the connection is at its end, and what it
has received and not answered never is.
-/

set_option autoImplicit false

namespace Rspf

variable {X : Crates} {fromStr : Str → Except X.TomlError (Config X)} {path : Str}
  {fromSystemConf : Except X.ResolveError (X.Resolver Id)} {fs fs' : FileSystem} {cfg : Config X}
  {state : AppState X (Evaluator X)} {es : List (ServiceEvent X)} {s : Service X} {j : ℕ}
  {c : Conn}

/-- What was answered on a connection is in the journal, at the same place. -/
theorem Service.Inv.journalOf_getElem? {ev : Evaluator X} (hs : s.Inv fromStr path ev)
    (hc : s.daemon.conns[j]? = some c) {i : ℕ} {p : PolicyRequest × Action}
    (hp : c.answered[i]? = some p) : ∃ a, (s.journalOf j)[i]? = some a ∧ a.reply = p := by
  have hjournal := hs.journal_eq j
  rw [Daemon.replies, hc, Option.elim_some, Conn.replies] at hjournal
  have hlt : i < c.answered.length := (List.getElem?_eq_some_iff.mp hp).1
  have h : ((s.journalOf j).map Handled.reply)[i]? = some p := by
    rw [hjournal, List.getElem?_append_left hlt, hp]
  rw [List.getElem?_map] at h
  exact Option.map_eq_some_iff.mp h

/-- **A connection that cannot go on has answered everything.** -/
theorem Service.answered_of_stuck (hload : Config.load fs fromStr path = pure cfg)
    (hnew : AppState.new fromSystemConf fs' cfg = .ok state)
    (hrun : (machine fromStr path).run (start state) es = some s)
    (hc : s.daemon.conns[j]? = some c) (hopen : c.phase.isOpen = true)
    (hresult : s.daemon.result = none)
    (hstuck : ∀ e : ServiceEvent X, e.serves j = true → s.step fromStr path e = none) :
    c.answered.map Prod.fst = requestsOf c.received := by
  by_contra hunanswered
  have hserving : s.Serving fromStr path state.evaluator j c.received :=
    ⟨inv_of_run hload hnew hrun, daemon_inv_of_run hrun, c, hc, rfl,
      fun h ↦ absurd (hopen.symm.trans h) Bool.noConfusion⟩
  obtain ⟨e, he, hsome⟩ := hserving.goes_on hresult hc hunanswered
  rw [hstuck e he] at hsome
  cases hsome

/-- **From request to reply.**  A mail server writes requests to a connection, which may get them in
any pieces, while others do whatever they do and the configuration is reloaded at any time from
files that are well worded.

* What the mail server has read are replies to its first requests, one line for each, in order.
  Nothing is left over, unless a write has failed.
* Each reply is the action for the request at its place, decided on the versions that the cells held
  while it was handled; without a reload it is that of `handleRequest` with the configuration and
  whitelist of the start.
* When the connection is open, and there is nothing more that it can do, there are as many replies
  as requests. -/
theorem Service.serves_client (hX : X.PrintsNoNewline)
    (hload : Config.load fs fromStr path = pure cfg)
    (hnew : AppState.new fromSystemConf fs' cfg = .ok state)
    (hrun : (machine fromStr path).run (start state) es = some s)
    (hworded : ∀ v ∈ s.loads, v.config.WellWorded) (hc : s.daemon.conns[j]? = some c)
    {reqs : List (List (Str × Str))} (hreqs : ∀ pairs ∈ reqs, Writable pairs)
    (hreceived : c.received = reqs.flatMap writeRequest) :
    (∃ rest, readReplies c.answered.length (Utf8.decodeLossy c.written) =
        some (c.answered.map fun p ↦ [some ("action".toList, p.2.reply)], rest) ∧
      ((∀ sent, .daemon (.conn j (.sendFails sent)) ∉ es) → rest = [])) ∧
    c.answered.length ≤ reqs.length ∧
    (∀ (i : ℕ) (p : PolicyRequest × Action), c.answered[i]? = some p → ∃ pairs a,
      reqs[i]? = some pairs ∧ (s.journalOf j)[i]? = some a ∧ a.Justified state.evaluator s.loads ∧
      a.req = PolicyRequest.assignAll {} pairs ∧ a.action = p.2 ∧
      (s.stores = 0 → handleRequest (m := Logged)
        ⟨state.config, state.whitelist, state.evaluator.checks a.outside⟩ a.outside.now a.req [] =
          (a.action, a.lines))) ∧
    (s.daemon.result = none → c.phase.isOpen = true →
      (∀ e : ServiceEvent X, e.serves j = true → s.step fromStr path e = none) →
      c.answered.length = reqs.length) := by
  have hinv := inv_of_run hload hnew hrun
  have hconn := (daemon_inv_of_run hrun).conns c (List.mem_of_getElem? hc)
  have hreads := reads_replies hX hload hnew hrun hworded hc
  have hrequests : requestsOf c.received = reqs.map (PolicyRequest.assignAll {}) := by
    have hnone : requestsOf [] = [] := requestsOf_of_cut_eq_none rfl
    have h := requestsOf_writeRequests hreqs []
    rwa [List.append_nil, ← hreceived, hnone, List.append_nil] at h
  have hanswered : c.answered.map Prod.fst <+: reqs.map (PolicyRequest.assignAll {}) :=
    hrequests ▸ hconn.answered_isPrefix
  refine ⟨⟨_, hconn.readReplies_written fun p hp ↦ (hreads p hp).1, fun hwhole ↦ ?_⟩, ?_,
    fun i p hp ↦ ?_, fun hresult hopen hstuck ↦ ?_⟩
  · cases hphase : c.phase with
    | broken req action sent => exact absurd (sendFails_mem_of_broken hrun hc hphase) (hwhole sent)
    | idle | evaluating | sending | closed => rfl
  · simpa using hanswered.length_le
  · obtain ⟨later, hlater⟩ := hanswered
    have hlt : i < (c.answered.map Prod.fst).length := by
      rw [List.length_map]
      exact (List.getElem?_eq_some_iff.mp hp).1
    have hreq : (reqs.map (PolicyRequest.assignAll {}))[i]? = some p.1 := by
      rw [← hlater, List.getElem?_append_left hlt, List.getElem?_map, hp, Option.map_some]
    rw [List.getElem?_map] at hreq
    obtain ⟨pairs, hpairs, hassign⟩ := Option.map_eq_some_iff.mp hreq
    obtain ⟨a, ha, rfl⟩ := hinv.journalOf_getElem? hc hp
    have hmem : a ∈ s.journal := (List.mem_filter.mp (List.mem_of_getElem? ha)).1
    refine ⟨pairs, a, hpairs, ha, (hinv.justified a hmem).2, hassign.symm, rfl, fun hstores ↦ ?_⟩
    exact (inv_start hload hnew).answered_since hrun hstores hmem (Nat.zero_le _)
  · have hall := answered_of_stuck hload hnew hrun hc hopen hresult hstuck
    rw [hrequests] at hall
    simpa using congrArg List.length hall

/-- The first client of the sample reads the reply to its request: it was rejected. -/
theorem Service.serves_client_sample :
    ∃ s c reason, (machine sampleFromStr "rspf.toml".toList).run (start sampleReloader.state)
        sampleService = some s ∧ s.daemon.conns[0]? = some c ∧
      c.received = [hastyPairs].flatMap writeRequest ∧
      c.answered = [(PolicyRequest.assignAll {} hastyPairs, .reject reason)] ∧
      readReplies 1 (Utf8.decodeLossy c.written) =
        some ([[some ("action".toList, (Action.reject reason).reply)]], []) := by
  have hrun : (machine sampleFromStr "rspf.toml".toList).run (start sampleReloader.state)
      sampleService = some _ := run_sampleService rfl
  have hwritable : ∀ pairs ∈ [hastyPairs], Writable pairs := by decide
  have hwhole : ∀ sent, .daemon (.conn 0 (.sendFails sent)) ∉ sampleService := by
    simp [sampleService, sampleAsked, sampleSignal, sampleHandling, sampleAnswering]
  obtain ⟨⟨rest, hread, hrest⟩, -⟩ := serves_client (j := 0) Crates.sample_printsNoNewline
    load_sampleFiles_old new_sampleReloader hrun wellWorded_sampleLoads rfl hwritable rfl
  rw [hrest hwhole] at hread
  exact ⟨_, _, _, hrun, rfl, rfl, rfl, hread⟩

end Rspf
