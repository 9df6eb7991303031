import Rspf.Lib.Replace
import Rspf.Proto.Response
import Rspf.Spf.Header

/-!
# The decision

`Engine.decide` turns the outcomes of the two checks into an action.  Each outcome has a severity
under its own policy, and the worse one counts; on a tie MAIL FROM does.  A rejection or deferral
carries the message for the result that caused it, with the placeholders filled in, and anything
else the header for MAIL FROM.

`Identity.Rejects` and `Identity.Defers` say what a severity means without computing one, and
`Engine.decide_spec` describes the decision in these terms.  `Engine.decide_eq` is the form that is
computed with.

The last part is about line feeds.  An answer shows text of three kinds: of the configuration, of
the request, and of `viaspf`.  `Engine.count_decide` counts the line feeds of the first kind and
says that there are no others, if what comes from the other two has none; `Rspf.Server.Wire` is
where this matters.
-/

set_option autoImplicit false

namespace Rspf

variable {X : Crates}

/-- `DecisionContext`: what a message or a header may mention of the request. -/
structure DecisionContext where
  ip : IpAddr
  sender : Str
  /-- The name the client greeted with. -/
  helo : Str
  recipient : Str

/-- `Severity`. -/
inductive Severity where
  | none
  | defer
  | reject
  deriving DecidableEq

/-- The derived order. -/
def Severity.rank : Severity → ℕ
  | none => 0
  | defer => 1
  | reject => 2

/-- `classify_severity`. -/
def classifySeverity (policy : RejectPolicy) (result : X.Result)
    (permerrorReject temperrorDefer : Bool) : Severity :=
  if policy = .noCheck then .none
  else
    match result with
    | .permerror => if permerrorReject then .reject else .none
    | .temperror => if temperrorDefer then .defer else .none
    | result =>
      match policy with
      | .never | .noCheck => .none
      | .fail =>
        match result with
        | .fail _ => .reject
        | _ => .none
      | .softFail =>
        match result with
        | .fail _ | .softfail => .reject
        | _ => .none
      | .spfNotPass =>
        match result with
        | .pass => .none
        | _ => .reject

/-- `message_template`.  The text for a pass is a fallback: nothing is rejected or deferred for
it. -/
def messageTemplate (messages : MessageTemplates) (result : X.Result) : Str :=
  match result with
  | .fail _ => messages.fail
  | .softfail => messages.softfail
  | .neutral => messages.neutral
  | .none => messages.none
  | .permerror => messages.permerror
  | .temperror => messages.temperror
  | .pass => "550 5.7.1 SPF check failed".toList

/-- The replacements of `render_message`, one after the other. -/
def substitute (result : Str) (ctx : DecisionContext) (template : Str) : Str :=
  let s := Replace.replace "{result}".toList result template
  let s := Replace.replace "{sender}".toList ctx.sender s
  let s := Replace.replace "{helo}".toList ctx.helo s
  let s := Replace.replace "{ip}".toList ctx.ip.display s
  Replace.replace "{recipient}".toList ctx.recipient s

/-- `render_message`. -/
def renderMessage (messages : MessageTemplates) (result : X.Result) (ctx : DecisionContext) : Str :=
  substitute (X.displayResult result) ctx (messageTemplate messages result)

/-- `decide`. -/
def Engine.decide (cfg : Config X) (helo mailFrom : SpfOutcome X) (ctx : DecisionContext) :
    Action :=
  let heloSeverity := classifySeverity cfg.policy.heloReject helo.result
    cfg.policy.permerrorReject cfg.policy.temperrorDefer
  let mailFromSeverity := classifySeverity cfg.policy.mailFromReject mailFrom.result
    cfg.policy.permerrorReject cfg.policy.temperrorDefer
  let (severity, responsible) :=
    if mailFromSeverity.rank < heloSeverity.rank then (heloSeverity, helo)
    else (mailFromSeverity, mailFrom)
  match severity with
  | .reject => .reject (renderMessage cfg.messages responsible.result ctx)
  | .defer => .deferIfPermit (renderMessage cfg.messages responsible.result ctx)
  | .none =>
    match cfg.header.mode with
    | .spf =>
      let header := buildReceivedSpf mailFrom ctx.ip ctx.sender ctx.helo ctx.recipient cfg.header
      .prepend ("Received-SPF: ".toList ++ header)
    | .none => .dunno

/-! ## What severities mean -/

/-- The results that a policy rejects. -/
def RejectPolicy.Rejects (policy : RejectPolicy) (result : X.Result) : Prop :=
  match policy with
  | .fail => ∃ e, result = .fail e
  | .softFail => (∃ e, result = .fail e) ∨ result = .softfail
  | .spfNotPass => result ≠ .pass
  | .never => False
  | .noCheck => False

/-- The policy for an identity. -/
def PolicyConfig.rejectPolicy (policy : PolicyConfig) : Identity → RejectPolicy
  | .helo => policy.heloReject
  | .mailFrom => policy.mailFromReject

/-- The result for an identity is a reason to reject. -/
def PolicyConfig.Rejects (policy : PolicyConfig) (identity : Identity) (result : X.Result) : Prop :=
  policy.rejectPolicy identity ≠ .noCheck ∧
    (result = .permerror ∧ policy.permerrorReject = true ∨
      result ≠ .permerror ∧ result ≠ .temperror ∧ (policy.rejectPolicy identity).Rejects result)

/-- The result for an identity is a reason to defer. -/
def PolicyConfig.Defers (policy : PolicyConfig) (identity : Identity) (result : X.Result) : Prop :=
  policy.rejectPolicy identity ≠ .noCheck ∧ result = .temperror ∧ policy.temperrorDefer = true

/-- The severity of the result for an identity. -/
def PolicyConfig.severity (policy : PolicyConfig) (identity : Identity) (result : X.Result) :
    Severity :=
  classifySeverity (policy.rejectPolicy identity) result policy.permerrorReject
    policy.temperrorDefer

variable {policy : PolicyConfig} {identity : Identity} {result : X.Result}

theorem PolicyConfig.severity_eq_reject_iff :
    policy.severity identity result = .reject ↔ policy.Rejects identity result := by
  rw [severity, Rejects]
  cases policy.rejectPolicy identity <;> cases result <;>
    simp [classifySeverity, RejectPolicy.Rejects] <;> split <;> simp

theorem PolicyConfig.severity_eq_defer_iff :
    policy.severity identity result = .defer ↔ policy.Defers identity result := by
  rw [severity, Defers]
  cases policy.rejectPolicy identity <;> cases result <;>
    simp [classifySeverity] <;> split <;> simp

/-! ## What is decided -/

variable {cfg : Config X} {helo mailFrom : SpfOutcome X} {ctx : DecisionContext}

/-- The outcome whose message is used: MAIL FROM's, unless HELO's is worse. -/
def responsible (policy : PolicyConfig) (helo mailFrom : SpfOutcome X) : SpfOutcome X :=
  if (policy.severity .mailFrom mailFrom.result).rank <
      (policy.severity .helo helo.result).rank then helo
  else mailFrom

/-- The action when there is nothing to complain about. -/
def accept (cfg : Config X) (mailFrom : SpfOutcome X) (ctx : DecisionContext) : Action :=
  match cfg.header.mode with
  | .spf => .prepend ("Received-SPF: ".toList ++
      buildReceivedSpf mailFrom ctx.ip ctx.sender ctx.helo ctx.recipient cfg.header)
  | .none => .dunno

theorem Engine.decide_eq :
    Engine.decide cfg helo mailFrom ctx =
      match cfg.policy.severity .mailFrom mailFrom.result,
        cfg.policy.severity .helo helo.result with
      | .reject, _ | _, .reject =>
        .reject (renderMessage cfg.messages (responsible cfg.policy helo mailFrom).result ctx)
      | .defer, _ | _, .defer =>
        .deferIfPermit
          (renderMessage cfg.messages (responsible cfg.policy helo mailFrom).result ctx)
      | .none, .none => accept cfg mailFrom ctx := by
  have hhelo : classifySeverity cfg.policy.heloReject helo.result cfg.policy.permerrorReject
      cfg.policy.temperrorDefer = cfg.policy.severity .helo helo.result := rfl
  have hmail : classifySeverity cfg.policy.mailFromReject mailFrom.result
      cfg.policy.permerrorReject cfg.policy.temperrorDefer =
      cfg.policy.severity .mailFrom mailFrom.result := rfl
  simp only [Engine.decide, responsible, hhelo, hmail]
  cases cfg.policy.severity .mailFrom mailFrom.result <;>
    cases cfg.policy.severity .helo helo.result <;> rfl

/-- Accepting is neither rejecting nor deferring. -/
theorem accept_ne (msg : Str) :
    accept cfg mailFrom ctx ≠ .reject msg ∧ accept cfg mailFrom ctx ≠ .deferIfPermit msg := by
  rw [accept]
  cases cfg.header.mode <;> exact ⟨Action.noConfusion, Action.noConfusion⟩

/-- **The decision**, by what the policies make of the two results. -/
theorem Engine.decide_spec (cfg : Config X) (helo mailFrom : SpfOutcome X) (ctx : DecisionContext) :
    (cfg.policy.Rejects .helo helo.result ∨ cfg.policy.Rejects .mailFrom mailFrom.result →
      Engine.decide cfg helo mailFrom ctx =
        .reject (renderMessage cfg.messages (responsible cfg.policy helo mailFrom).result ctx)) ∧
    (¬ (cfg.policy.Rejects .helo helo.result ∨ cfg.policy.Rejects .mailFrom mailFrom.result) →
      cfg.policy.Defers .helo helo.result ∨ cfg.policy.Defers .mailFrom mailFrom.result →
      Engine.decide cfg helo mailFrom ctx =
        .deferIfPermit
          (renderMessage cfg.messages (responsible cfg.policy helo mailFrom).result ctx)) ∧
    (¬ (cfg.policy.Rejects .helo helo.result ∨ cfg.policy.Rejects .mailFrom mailFrom.result) →
      ¬ (cfg.policy.Defers .helo helo.result ∨ cfg.policy.Defers .mailFrom mailFrom.result) →
      Engine.decide cfg helo mailFrom ctx = accept cfg mailFrom ctx) := by
  simp only [← PolicyConfig.severity_eq_reject_iff, ← PolicyConfig.severity_eq_defer_iff]
  rw [Engine.decide_eq]
  cases cfg.policy.severity .mailFrom mailFrom.result <;>
    cases cfg.policy.severity .helo helo.result <;> simp

/-- A rejection carries the message of the identity responsible. -/
theorem Engine.eq_of_decide_eq_reject {reason : Str}
    (h : Engine.decide cfg helo mailFrom ctx = .reject reason) :
    reason = renderMessage cfg.messages (responsible cfg.policy helo mailFrom).result ctx := by
  rw [Engine.decide_eq] at h
  split at h
  · exact (Action.reject.inj h).symm
  · exact (Action.reject.inj h).symm
  · exact absurd h nofun
  · exact absurd h nofun
  · exact absurd h (accept_ne reason).1

/-! ## Messages -/

/-- Text before the first placeholder is kept. -/
theorem substitute_append (r : Str) (ctx : DecisionContext) {a : Str} (ha : '{' ∉ a) (s : Str) :
    substitute r ctx (a ++ s) = a ++ substitute r ctx s := by
  have hkeep : ∀ {pat : Str}, pat.head? = some '{' → ∀ val s,
      Replace.replace pat val (a ++ s) = a ++ Replace.replace pat val s := by
    intro pat hpat val s
    obtain ⟨p, rfl⟩ := List.head?_eq_some_iff.mp hpat
    exact Replace.replace_append_of_not_mem ha s
  simp only [substitute]
  rw [hkeep (by decide), hkeep (by decide), hkeep (by decide), hkeep (by decide),
    hkeep (by decide)]

/-! ## Line feeds -/

/-- The parts of a request that an answer may mention have no line feeds. -/
structure DecisionContext.NoNewline (ctx : DecisionContext) : Prop where
  sender : '\n' ∉ ctx.sender
  helo : '\n' ∉ ctx.helo
  recipient : '\n' ∉ ctx.recipient

/-- **A message has the line feeds of its template**, whatever is filled in. -/
theorem count_renderMessage (hX : X.PrintsNoNewline) (hctx : ctx.NoNewline)
    (messages : MessageTemplates) (result : X.Result) :
    (renderMessage messages result ctx).count '\n' =
      (messageTemplate messages result).count '\n' := by
  rw [renderMessage, substitute]
  rw [Replace.count_replace (by decide) (by decide) hctx.recipient,
    Replace.count_replace (by decide) (by decide) (newline_not_mem_display ctx.ip),
    Replace.count_replace (by decide) (by decide) hctx.helo,
    Replace.count_replace (by decide) (by decide) hctx.sender,
    Replace.count_replace (by decide) (by decide) (hX.result result)]

/-- The configured text that an answer to these outcomes shows. -/
def Engine.usedText (cfg : Config X) (helo mailFrom : SpfOutcome X) : Action → Str
  | .dunno => []
  | .prepend _ => cfg.header.shown
  | .reject _ | .deferIfPermit _ =>
    messageTemplate cfg.messages (responsible cfg.policy helo mailFrom).result

theorem count_accept (hX : X.PrintsNoNewline) (hctx : ctx.NoNewline) :
    (accept cfg mailFrom ctx).text.count '\n' =
      (Engine.usedText cfg helo mailFrom (accept cfg mailFrom ctx)).count '\n' := by
  have hheader := count_buildReceivedSpf hX mailFrom ctx.ip hctx.sender hctx.helo hctx.recipient
    cfg.header
  rw [accept]
  split
  · exact (Text.count_append_of_not_mem (by decide) _).trans hheader
  · rfl

/-- **An answer has the line feeds of the configured text it shows.** -/
theorem Engine.count_decide (hX : X.PrintsNoNewline) (hctx : ctx.NoNewline) :
    (Engine.decide cfg helo mailFrom ctx).display.count '\n' =
      (Engine.usedText cfg helo mailFrom (Engine.decide cfg helo mailFrom ctx)).count '\n' := by
  have hmessage := count_renderMessage hX hctx cfg.messages
    (responsible cfg.policy helo mailFrom).result
  rw [Action.count_display, Engine.decide_eq]
  split
  · exact hmessage
  · exact hmessage
  · exact hmessage
  · exact hmessage
  · exact count_accept hX hctx

end Rspf
