import Rspf.MailLog.Reading
import Rspf.Server.Answers
import Rspf.Server.Wire

/-!
# What clients and operators read

`Service.service_spec` says what is written.  Here it is read again: by the mail server, which waits
for one reply to each of its requests, and by an operator, who looks at the log.

A mail server that splits what it gets into replies gets one for each request that was answered, in
order, and takes each for what was decided (`Service.replies_spec`).  This needs configured text of
the form the example configuration asks for (`Config.WellWorded`), in every version that was loaded.
An answer that could not be written whole leaves its first bytes at the end, and the mail server
waits for the rest of it: it is not taken for a reply (`readReply_take_toWire`).
In the log there is one line for each request that was evaluated (`Service.log_spec`).  Its status
is that of the answer whatever anybody put into the line, and its results are those of the checks
whatever the client put into it; only the domains that were checked can forge these, by the
explanation of a failure.
-/

set_option autoImplicit false

namespace Rspf

variable {X : Crates}

/-! ## Transcripts -/

/-- **Two kinds of requests**: those for which nothing is done, and those that are evaluated and
logged. -/
theorem transcript_cases (ev : Evaluator X) (outside : Outside X) (req : PolicyRequest)
    (u v w : Version X) :
    (transcript ev outside req u v w = (.dunno, []) ∧
      ∀ s, req.subject = some s → Exempt u.config v.whitelist req s) ∨
    ∃ s, req.subject = some s ∧ ¬ Exempt u.config v.whitelist req s ∧
      let helo := (ev.checks outside).checkHelo s.clientIp s.helo
      let ctx := decisionContext X w.config.srs outside.now req s
      let mailFrom := (ev.checks outside).checkMailFrom s.clientIp ctx.sender s.helo
      let action := Engine.decide w.config helo mailFrom ctx
      transcript ev outside req u v w = (action, [sanitize (logLine X s.clientIp
        req.reverseClientName s.helo ctx.sender helo.result mailFrom.result action)]) := by
  cases hs : req.subject with
  | none =>
    refine .inl ⟨?_, nofun⟩
    rw [transcript, handleSeeing_of_subject_eq_none hs]
    rfl
  | some s =>
    by_cases he : Exempt u.config v.whitelist req s
    · refine .inl ⟨?_, fun s' hs' ↦ Option.some.inj hs' ▸ he⟩
      rw [transcript, handleSeeing_of_exempt hs he]
      rfl
    · refine .inr ⟨s, rfl, he, ?_⟩
      rw [transcript, handleSeeing_of_not_exempt hs he, evaluateRequest_logged, Progress.logs,
        logEvaluatedSpf_eq]
      rfl

/-! ## Replies -/

/-- The configured text is what the example configuration asks for: it has no line feeds, and the
templates for results that are rejected begin with a reply code. -/
structure Config.WellWorded (cfg : Config X) : Prop where
  noNewline : cfg.NoNewline
  replyCode : ∀ identity (result : X.Result), cfg.policy.Rejects identity result →
    isReplyCode (firstWord (messageTemplate cfg.messages result)) = true

/-- The default templates are well worded, whatever the policy: a temporary error is never
rejected. -/
theorem Config.wellWorded_of_default {cfg : Config X} (hmessages : cfg.messages = {})
    (hid : ∀ id, cfg.header.authservId = some id → '\n' ∉ id) : cfg.WellWorded := by
  have hnamed : ∀ t ∈ ({} : MessageTemplates).named, '\n' ∉ t.2 := by decide +kernel
  refine ⟨⟨by rwa [hmessages], hid⟩, fun identity result hrejects ↦ ?_⟩
  rw [hmessages]
  cases result with
  | temperror =>
    obtain ⟨-, ⟨h, -⟩ | ⟨-, h, -⟩⟩ := hrejects
    · exact absurd h nofun
    · exact absurd rfl h
  | none => exact (by decide : isReplyCode (firstWord ({} : MessageTemplates).none) = true)
  | neutral => exact (by decide : isReplyCode (firstWord ({} : MessageTemplates).neutral) = true)
  | pass => exact (by decide : isReplyCode (firstWord "550 5.7.1 SPF check failed".toList) = true)
  | fail e => exact (by decide : isReplyCode (firstWord ({} : MessageTemplates).fail) = true)
  | softfail => exact (by decide : isReplyCode (firstWord ({} : MessageTemplates).softfail) = true)
  | permerror =>
    exact (by decide : isReplyCode (firstWord ({} : MessageTemplates).permerror) = true)

/-- What a client reads that expects so many replies. -/
def readReplies : ℕ → Str → Option (List (List (Option (Str × Str))) × Str)
  | 0, wire => some ([], wire)
  | n + 1, wire =>
    (readReply wire).bind fun p ↦ (readReplies n p.2).map fun q ↦ (p.1 :: q.1, q.2)

/-- **Replies are read one after the other.** -/
theorem readReplies_flatMap {actions : List Action} (h : ∀ action ∈ actions, '\n' ∉ action.reply)
    (rest : Str) :
    readReplies actions.length (actions.flatMap Action.toWire ++ rest) =
      some (actions.map fun action ↦ [some ("action".toList, action.reply)], rest) := by
  induction actions with
  | nil => rfl
  | cons action actions ih =>
    rw [List.forall_mem_cons] at h
    rw [List.length_cons, List.flatMap_cons, readReplies, List.append_assoc,
      readReply_toWire_append h.1, Option.bind_some, ih h.2]
    rfl

/-- A reply ends with a line feed after a line feed. -/
theorem readLines_eq_none {line s : Str} (hline : line ≠ []) (hs : s.count '\n' ≤ 1) :
    readLines line s = none := by
  have hnone : ∀ {s line : Str}, '\n' ∉ s → readLines line s = none := by
    intro s
    induction s with
    | nil => exact fun _ ↦ rfl
    | cons c s ih =>
      intro line h
      rw [List.mem_cons, not_or] at h
      rw [readLines, if_neg (Ne.symm h.1), ih h.2]
  induction s generalizing line with
  | nil => rfl
  | cons c s ih =>
    by_cases hc : c = '\n'
    · rw [hc, List.count_cons_self] at hs
      rw [readLines, if_pos hc, if_neg hline, hnone (List.count_eq_zero.mp (by omega)),
        Option.map_none]
    · rw [List.count_cons_of_ne hc] at hs
      rw [readLines, if_neg hc, ih (List.cons_ne_nil _ _) hs]

/-- **A part of a reply is none.** -/
theorem readReply_take_toWire {action : Action} (h : '\n' ∉ action.reply) {sent : ℕ}
    (hsent : sent < (Utf8.encode action.toWire).length) :
    readReply (Utf8.decodeLossy ((Utf8.encode action.toWire).take sent)) = none := by
  let line : Str := "ction=".toList ++ action.reply
  have hwire : Utf8.encode action.toWire = 97 :: (Utf8.encode (line ++ ['\n']) ++ [lf]) := by
    rw [show action.toWire = ['a'] ++ ((line ++ ['\n']) ++ ['\n']) by
      rw [Action.toWire_eq, List.append_assoc, List.append_assoc]; rfl, Utf8.encode_append,
      Utf8.encode_append]
    rfl
  rw [hwire] at hsent ⊢
  cases sent with
  | zero => rfl
  | succ n =>
    rw [List.length_cons, List.length_append, List.length_singleton] at hsent
    rw [List.take_succ_cons, List.take_append_of_le_length (by omega)]
    have hdecode := Utf8.decodeLossy_encode_append ['a'] ((Utf8.encode (line ++ ['\n'])).take n)
    have hline : '\n' ∉ line := by
      intro hm
      rcases List.mem_append.mp hm with hm | hm
      · exact absurd hm (by decide)
      · exact h hm
    have hcount : ((Utf8.encode (line ++ ['\n'])).take n).count (Utf8.byteOf '\n') ≤ 1 := by
      refine ((List.take_sublist _ _).count_le _).trans ?_
      rw [Utf8.count_encode (by decide), List.count_append, List.count_eq_zero.mpr hline]
      exact le_refl _
    rw [← Utf8.count_decodeLossy (by decide)] at hcount
    rw [readReply, show 97 :: (Utf8.encode (line ++ ['\n'])).take n =
      Utf8.encode ['a'] ++ (Utf8.encode (line ++ ['\n'])).take n from rfl, hdecode,
      List.singleton_append, readLines, if_neg (by decide),
      readLines_eq_none (List.cons_ne_nil _ _) hcount, Option.map_none]

theorem noNewline_of_mem_requestsOf {stream : List UInt8} {req : PolicyRequest}
    (h : req ∈ requestsOf stream) : req.NoNewline := by
  obtain ⟨block, -, hreq⟩ := List.mem_filterMap.mp h
  cases hparse : parseBlock block with
  | error e =>
    rw [hparse] at hreq
    exact absurd hreq nofun
  | ok req' =>
    rw [hparse] at hreq
    exact Option.some.inj hreq ▸ noNewline_of_parseBlock hparse

/-- The template of a rejection is that of a result which is rejected. -/
theorem rejects_responsible {cfg : Config X} {helo mailFrom : SpfOutcome X} {ctx : DecisionContext}
    {reason : Str} (h : Engine.decide cfg helo mailFrom ctx = .reject reason) :
    ∃ identity, cfg.policy.Rejects identity (responsible cfg.policy helo mailFrom).result := by
  rw [Engine.decide_eq] at h
  split at h
  · rename_i hmailFrom
    refine ⟨.mailFrom, PolicyConfig.severity_eq_reject_iff.mp ?_⟩
    rw [responsible, hmailFrom, if_neg]
    · exact hmailFrom
    · cases cfg.policy.severity .helo helo.result <;> decide
  · rename_i hhelo hmailFrom
    by_cases hlt : (cfg.policy.severity .mailFrom mailFrom.result).rank < Severity.reject.rank
    · refine ⟨.helo, PolicyConfig.severity_eq_reject_iff.mp ?_⟩
      rw [responsible, hhelo, if_pos hlt]
      exact hhelo
    · refine ⟨.mailFrom, PolicyConfig.severity_eq_reject_iff.mp ?_⟩
      rw [responsible, hhelo, if_neg hlt]
      cases hs : cfg.policy.severity .mailFrom mailFrom.result
      · exact absurd (hs ▸ by decide) hlt
      · exact absurd (hs ▸ by decide) hlt
      · rfl
  · cases h
  · cases h
  · exact absurd h (accept_ne reason).1

/-- A decision is read as what it is. -/
theorem reads_decide (hX : X.PrintsNoNewline) {cfg : Config X} (hcfg : cfg.WellWorded)
    {ctx : DecisionContext} (hctx : ctx.NoNewline) (helo mailFrom : SpfOutcome X) :
    '\n' ∉ (Engine.decide cfg helo mailFrom ctx).reply ∧
      kindOfWord (firstWord (Engine.decide cfg helo mailFrom ctx).reply) =
        some (Engine.decide cfg helo mailFrom ctx).kind := by
  have hcount : (Engine.decide cfg helo mailFrom ctx).display.count '\n' = _ :=
    Engine.count_decide hX hctx
  have hused := newline_not_mem_usedText hcfg.noNewline helo mailFrom
    (Engine.decide cfg helo mailFrom ctx)
  refine ⟨?_, ?_⟩
  · rw [← Action.newline_mem_display_iff, ← List.count_eq_zero, hcount, List.count_eq_zero]
    exact hused
  · by_cases hkind : (Engine.decide cfg helo mailFrom ctx).kind = .reject
    · obtain ⟨reason, haction⟩ := Action.eq_reject_of_kind hkind
      obtain ⟨identity, hrejects⟩ := rejects_responsible haction
      rw [haction]
      exact kindOfWord_reply_of_reject haction (hcfg.replyCode identity _ hrejects)
    · exact kindOfWord_reply hkind

/-- **A transcript is read as what was decided.** -/
theorem reads_transcript (hX : X.PrintsNoNewline) {ev : Evaluator X} {outside : Outside X}
    {req : PolicyRequest} {u v w : Version X} {action : Action} {lines : List Str}
    (hreq : req.NoNewline) (hw : w.config.WellWorded)
    (h : transcript ev outside req u v w = (action, lines)) :
    '\n' ∉ action.reply ∧ kindOfWord (firstWord action.reply) = some action.kind := by
  rcases transcript_cases ev outside req u v w with ⟨ht, -⟩ | ⟨s, hs, -, ht⟩
  · obtain ⟨rfl, -⟩ := Prod.mk.inj (h.symm.trans ht)
    decide
  · obtain ⟨rfl, -⟩ := Prod.mk.inj (h.symm.trans ht)
    exact reads_decide hX hw (hreq.decisionContext hs w.config.srs outside.now) _ _

section

variable {fromStr : Str → Except X.TomlError (Config X)} {path : Str}
  {fromSystemConf : Except X.ResolveError (X.Resolver Id)} {fs fs' : FileSystem} {cfg : Config X}
  {state : AppState X (Evaluator X)} {es : List (ServiceEvent X)} {s : Service X} {j : ℕ} {c : Conn}

/-- Whatever is answered was received. -/
theorem Conn.Inv.mem_requestsOf {c : Conn} (hc : c.Inv) {p : PolicyRequest × Action}
    (hp : p ∈ c.replies) : p.1 ∈ requestsOf c.received := by
  have hdecoded := hc.decoded_isPrefix []
  rw [List.append_nil] at hdecoded
  refine hdecoded.subset ?_
  rw [hc.decoded_eq]
  rcases List.mem_append.mp hp with hp | hp
  · exact List.mem_append_left _ (List.mem_map_of_mem hp)
  · refine List.mem_append_right _ ?_
    cases hphase : c.phase with
    | sending req action | broken req action sent =>
      rw [hphase] at hp
      obtain rfl := List.mem_singleton.mp hp
      exact List.mem_singleton_self _
    | idle | evaluating | closed =>
      rw [hphase] at hp
      exact absurd hp List.not_mem_nil

/-- Each reply is one line, which says what was decided. -/
theorem Service.reads_replies (hX : X.PrintsNoNewline)
    (hload : Config.load fs fromStr path = pure cfg)
    (hnew : AppState.new fromSystemConf fs' cfg = .ok state)
    (hrun : (machine fromStr path).run (start state) es = some s)
    (hworded : ∀ v ∈ s.loads, v.config.WellWorded) (hc : s.daemon.conns[j]? = some c) :
    ∀ p ∈ c.replies, '\n' ∉ p.2.reply ∧ kindOfWord (firstWord p.2.reply) = some p.2.kind := by
  have hinv := inv_of_run hload hnew hrun
  have hconn := (daemon_inv_of_run hrun).conns c (List.mem_of_getElem? hc)
  intro p hp
  have hreq := hconn.mem_requestsOf hp
  have hjournal := hinv.journal_eq j
  rw [Daemon.replies, hc, Option.elim_some] at hjournal
  rw [← hjournal] at hp
  obtain ⟨a, ha, rfl⟩ := List.mem_map.mp hp
  obtain ⟨-, u, v, w, hr, ht⟩ := hinv.justified a (List.mem_filter.mp ha).1
  obtain ⟨_, -, -, hheld⟩ := hr.exists_of_mem (show w ∈ [u, v, w] by simp)
  obtain ⟨⟨w', hw', hconfig⟩, -⟩ := exists_mem_of_heldAfter hheld
  exact reads_transcript hX (noNewline_of_mem_requestsOf hreq) (hconfig ▸ hworded w' hw') ht

/-- What was written reads as the replies, and a part of one more where it could not be written. -/
theorem Conn.Inv.readReplies_written (hconn : c.Inv) (hline : ∀ p ∈ c.replies, '\n' ∉ p.2.reply) :
    readReplies c.answered.length (Utf8.decodeLossy c.written) =
      some (c.answered.map fun p ↦ [some ("action".toList, p.2.reply)],
        Utf8.decodeLossy c.phase.torn) := by
  have htext : c.written =
      Utf8.encode ((c.answered.map Prod.snd).flatMap Action.toWire) ++ c.phase.torn := by
    rw [hconn.written_eq, Utf8.encode, List.flatMap_assoc, List.flatMap_map]
    rfl
  have hreplies := @readReplies_flatMap (c.answered.map Prod.snd)
    (List.forall_mem_map.mpr fun p hp ↦ hline p (List.mem_append_left _ hp))
    (Utf8.decodeLossy c.phase.torn)
  rw [List.length_map, List.map_map] at hreplies
  rw [htext, Utf8.decodeLossy_encode_append]
  exact hreplies

/-- **What a mail server reads.**  If all versions that were loaded are well worded, it reads one
reply for each request that was answered, in order; these were the first requests of what it sent;
and it takes each reply for the kind of action that was decided.

Nothing is left over, unless a write has failed.  Then it is the beginning of the answer to the next
request, and as long as it is not the whole of it the mail server does not read a reply. -/
theorem Service.replies_spec (hX : X.PrintsNoNewline)
    (hload : Config.load fs fromStr path = pure cfg)
    (hnew : AppState.new fromSystemConf fs' cfg = .ok state)
    (hrun : (machine fromStr path).run (start state) es = some s)
    (hworded : ∀ v ∈ s.loads, v.config.WellWorded) (hc : s.daemon.conns[j]? = some c) :
    c.answered.map Prod.fst <+: requestsOf c.received ∧
    (∀ p ∈ c.answered, kindOfWord (firstWord p.2.reply) = some p.2.kind) ∧
    ∃ rest, readReplies c.answered.length (Utf8.decodeLossy c.written) =
        some (c.answered.map fun p ↦ [some ("action".toList, p.2.reply)], rest) ∧
      ((∀ req action sent, c.phase ≠ .broken req action sent) → rest = []) ∧
      ∀ req action sent, c.phase = .broken req action sent →
        .daemon (.conn j (.sendFails sent)) ∈ es ∧
        c.answered.map Prod.fst ++ [req] <+: requestsOf c.received ∧
        rest = Utf8.decodeLossy ((Utf8.encode action.toWire).take sent) ∧
        (sent < (Utf8.encode action.toWire).length → readReply rest = none) := by
  have hconn := (daemon_inv_of_run hrun).conns c (List.mem_of_getElem? hc)
  have hreads := reads_replies hX hload hnew hrun hworded hc
  refine ⟨hconn.answered_isPrefix, fun p hp ↦ (hreads p (List.mem_append_left _ hp)).2, _,
    hconn.readReplies_written fun p hp ↦ (hreads p hp).1, fun hwhole ↦ ?_,
    fun req action sent hbroken ↦ ?_⟩
  · cases hphase : c.phase with
    | broken req action sent => exact absurd hphase (hwhole _ _ _)
    | idle | evaluating | sending | closed => rfl
  · have hdecoded := hconn.decoded_isPrefix []
    have hreply : (req, action) ∈ c.replies := by
      rw [Conn.replies, hbroken]
      exact List.mem_append_right _ (List.mem_singleton_self _)
    rw [hconn.decoded_eq, hbroken, List.append_nil] at hdecoded
    rw [hbroken]
    exact ⟨sendFails_mem_of_broken hrun hc hbroken, hdecoded, rfl,
      readReply_take_toWire (hreads _ hreply).1⟩

/-- **What an operator reads.**  For each connection the log has the lines of its requests, in
order.  A request has no line just if nothing was done for it, since it lacked an attribute, or
since the configuration and the whitelist it saw exempt it.  Otherwise it has one, which is not
broken into several by anything in it.

* The status that is read off it is that of its answer.
* The results that are read off it are those of its two checks, the second one for the sender it was
  taken to be from, just if they are printed without equals signs, and the first one without commas.
  So nothing that the client sends makes a difference, but the explanation of a failure does, which
  the domain that was checked has chosen. -/
theorem Service.log_spec (hload : Config.load fs fromStr path = pure cfg)
    (hnew : AppState.new fromSystemConf fs' cfg = .ok state)
    (hrun : (machine fromStr path).run (start state) es = some s) :
    (∀ j, s.syslogOf j = (s.journalOf j).flatMap Handled.lines ++ s.linesOf j) ∧
    ∀ a ∈ s.journal,
      (a.lines = [] ∧ a.action = .dunno ∧ ∃ u v,
        Reads (heldAfter s.loads) a.answered a.taken [u, v] ∧
        ∀ subject, a.req.subject = some subject → Exempt u.config v.whitelist a.req subject) ∨
      ∃ subject line w, a.req.subject = some subject ∧ a.lines = [line] ∧
        Reads (heldAfter s.loads) a.answered a.taken [w] ∧
        (∀ c ∈ line, Text.isControl c = false) ∧
        readLogStatus line = some (describeAction a.action).1 ∧
        let checks := state.evaluator.checks a.outside
        let sender := effectiveSender X subject.sender w.config.srs a.outside.now
        let helo := X.displayResult (checks.checkHelo subject.clientIp subject.helo).result
        let mailFrom :=
          X.displayResult (checks.checkMailFrom subject.clientIp sender subject.helo).result
        (readLogResults line = some (sanitize helo, sanitize mailFrom) ↔
          '=' ∉ helo ∧ ',' ∉ helo ∧ '=' ∉ mailFrom) := by
  have hinv := inv_of_run hload hnew hrun
  refine ⟨hinv.syslog_eq, fun a ha ↦ ?_⟩
  obtain ⟨-, u, v, w, hr, ht⟩ := hinv.justified a ha
  obtain ⟨i, j, k, hi, hj, hk, hle, hu, hv, hw⟩ := Reads.three_iff.mp hr
  rcases transcript_cases state.evaluator a.outside a.req u v w with ⟨ht', he⟩ | ⟨x, hx, -, ht'⟩
  · obtain ⟨haction, hlines⟩ := Prod.mk.inj (ht.symm.trans ht')
    exact .inl ⟨hlines, haction, u, v, .cons hi hu (.cons hj hv (.nil (hk.trans hle))), he⟩
  · obtain ⟨haction, hlines⟩ := Prod.mk.inj (ht.symm.trans ht')
    refine .inr ⟨x, _, w, hx, hlines, .cons (hi.trans (hj.trans hk)) hw (.nil hle),
      fun c hc ↦ not_isControl_of_mem_sanitize hc, ?_, ?_⟩
    · rw [haction]
      exact readLogStatus_logLine _ _ _ _ _ _ _
    · exact readLogResults_logLine _ _ _ _ _ _ _

end

/-! ### A sample -/

theorem wellWorded_overrideConfig (key : Str) : (overrideConfig key).WellWorded :=
  Config.wellWorded_of_default rfl nofun

theorem wellWorded_listingConfig : listingConfig.WellWorded :=
  Config.wellWorded_of_default rfl nofun

/-- What the sample loads is well worded. -/
theorem wellWorded_sampleLoads :
    ∀ v ∈ [(⟨listingConfig, ⟨⟨[]⟩, ["mx.example.net".toList], [], []⟩⟩ : Version Crates.sample),
      sampleReloader.cells], v.config.WellWorded :=
  List.forall_mem_cons.mpr ⟨wellWorded_listingConfig,
    List.forall_mem_singleton.mpr (wellWorded_overrideConfig _)⟩

/-- The first client of the sample reads that it is rejected, and the second one three bytes. -/
theorem Service.replies_spec_sample :
    ∃ s c c' reason, (machine sampleFromStr "rspf.toml".toList).run
        (start sampleReloader.state) sampleService = some s ∧
      s.daemon.conns[0]? = some c ∧ s.daemon.conns[1]? = some c' ∧
      readReplies 1 (Utf8.decodeLossy c.written) =
        some ([[some ("action".toList, (Action.reject reason).reply)]], []) ∧
      kindOfWord (firstWord (Action.reject reason).reply) = some .reject ∧
      readReplies 0 (Utf8.decodeLossy c'.written) = some ([], "act".toList) ∧
      readReply "act".toList = none := by
  have hrun : (machine sampleFromStr "rspf.toml".toList).run (start sampleReloader.state)
      sampleService = some _ := run_sampleService rfl
  have hspec {j : ℕ} {c : Conn} := replies_spec (j := j) (c := c) Crates.sample_printsNoNewline
    load_sampleFiles_old new_sampleReloader hrun wellWorded_sampleLoads
  obtain ⟨-, hkind, rest, hread, hwhole, -⟩ := hspec (j := 0) rfl
  obtain ⟨-, -, rest', hread', -, htorn⟩ := hspec (j := 1) rfl
  obtain ⟨-, -, hrest', hnone⟩ := htorn _ _ _ rfl
  obtain rfl : rest' = "act".toList := hrest'.trans (by decide)
  rw [hwhole fun _ _ _ h ↦ (by cases h)] at hread
  exact ⟨_, _, _, _, hrun, rfl, rfl, hread, hkind _ (List.mem_singleton_self _), hread',
    hnone (by decide)⟩

/-- The request of the first client is logged: HELO has failed, and the sender has passed. -/
theorem Service.log_spec_sample :
    ∃ s a line, (machine sampleFromStr "rspf.toml".toList).run (start sampleReloader.state)
        sampleService = some s ∧ s.journalOf 0 = [a] ∧ a.lines = [line] ∧
      readLogStatus line = some "reject".toList ∧
      readLogResults line = some ("fail (not allowed)".toList, "pass".toList) := by
  obtain ⟨s, a, hrun, hjournal, ha, hreq, houtside, ⟨reason, haction⟩, hlogged, hloads⟩ :
      ∃ s a, (machine sampleFromStr "rspf.toml".toList).run (start sampleReloader.state)
          sampleService = some s ∧ s.journalOf 0 = [a] ∧ a ∈ s.journal ∧
        a.req = PolicyRequest.assignAll {} hastyPairs ∧ a.outside = sampleOutside ∧
        (∃ reason, a.action = .reject reason) ∧ a.lines ≠ [] ∧
        ∀ v ∈ s.loads, v.config.srs = { maxAgeDays := 0 } :=
    ⟨_, _, run_sampleService rfl, rfl, List.mem_cons_of_mem _ List.mem_cons_self, rfl, rfl,
      ⟨_, rfl⟩, List.cons_ne_nil _ _,
      List.forall_mem_cons.mpr ⟨rfl, List.forall_mem_singleton.mpr rfl⟩⟩
  rcases (log_spec load_sampleFiles_old new_sampleReloader hrun).2 a ha with
    ⟨hnone, -⟩ | ⟨subject, line, w, hsubject, hlines, hw, -, hstatus, hresults⟩
  · exact absurd hnone hlogged
  · obtain ⟨n, -, -, hheld⟩ := hw.exists_of_mem (List.mem_singleton_self w)
    obtain ⟨⟨u, hu, hconfig⟩, -⟩ := exists_mem_of_heldAfter hheld
    rw [hreq] at hsubject
    obtain rfl : (⟨.v4 ⟨[192, 0, 2, 1], rfl⟩, "mx.example.com".toList,
      "user@example.com".toList⟩ : Subject) = subject := Option.some.inj hsubject
    rw [hconfig, hloads u hu, houtside] at hresults
    rw [haction] at hstatus
    exact ⟨s, a, line, hrun, hjournal, hlines, hstatus,
      hresults.mpr ⟨by decide, by decide, by decide⟩⟩

end Rspf
