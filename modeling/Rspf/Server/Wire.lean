import Mathlib.Data.List.TakeWhile
import Rspf.Proto.Codec
import Rspf.Server.Handle

/-!
# What a policy client reads

A response is text, and the client finds its end by looking for an empty line.  So a line feed in
the wrong place would split one response into two, and whoever controls it would control the second.
`count_toWire_handleRequest` says that nothing in a request can do this: the line feeds of a
response are the two that end it and those of the configured text it shows.  It counts them, since a
count adds up over the pieces a response is made of, and a bound on each would not.

`readReply` is the client: it reads lines up to an empty one, and takes the first word of the reply
for the action.  It is not a model of Postfix, but of what the policy protocol promises to any
client.

* `readReply_toWire_iff` — a client reads one line and nothing more just if there is no line feed.
* `readReply_decide` — it reads the action that was decided, provided the configured text has the
  form the example configuration asks for: a rejection is only known by its reply code.
* `misread_template` — validation does not check this form.  With `dunno` as a template every
  rejection is read as no opinion.
-/

set_option autoImplicit false

namespace Rspf

variable {X : Crates} {E : Type}

/-! ## Line feeds -/

theorem newline_not_mem_effectiveSender {sender : Str} (h : '\n' ∉ sender) (cfg : SrsConfig)
    (now : UInt64) : '\n' ∉ effectiveSender X sender cfg now := by
  rw [effectiveSender]
  split
  · rename_i o ho
    obtain ⟨-, a, rfl, -, -, rfl⟩ := tryUnwrap_eq_valid_iff.mp ho
    exact fun hm ↦ h (SrsAddress.mem_text_of_mem_original hm)
  · exact h
  · exact h
  · exact h

/-- A decoded request puts no line feed into messages and headers. -/
theorem PolicyRequest.NoNewline.decisionContext {req : PolicyRequest} (h : req.NoNewline)
    {s : Subject} (hs : req.subject = some s) (srs : SrsConfig) (now : UInt64) :
    (decisionContext X srs now req s).NoNewline := by
  obtain ⟨hhelo, hsender, -⟩ := subject_eq_some_iff.mp hs
  refine ⟨?_, ?_, ?_⟩
  · exact newline_not_mem_effectiveSender (h .sender _ hsender) srs now
  · exact h .heloName _ hhelo
  · rw [Rspf.decisionContext]
    cases hrecipient : req.recipient with
    | none => exact List.not_mem_nil
    | some r => exact h .recipient r hrecipient

/-- The configured text that the answer to a request shows. -/
def usedConfigText [Checks X Id E] (state : AppState X E) (now : UInt64) (req : PolicyRequest) :
    Str :=
  match req.subject with
  | none => []
  | some s =>
    Engine.usedText state.config (Checks.checkHelo (m := Id) state.evaluator s.clientIp s.helo)
      (Checks.checkMailFrom (m := Id) state.evaluator s.clientIp
        (effectiveSender X s.sender state.config.srs now) s.helo)
      (handleRequest (m := Id) state now req)

theorem count_display_handleRequest [Checks X Id E] (hX : X.PrintsNoNewline) (state : AppState X E)
    (now : UInt64) {req : PolicyRequest} (hreq : req.NoNewline) :
    (handleRequest (m := Id) state now req : Action).display.count '\n' =
      (usedConfigText state now req).count '\n' := by
  have hdunno : Action.dunno.display.count '\n' = 0 := by decide
  rw [usedConfigText]
  cases hs : req.subject with
  | none =>
    rw [handleRequest_of_subject_eq_none hs]
    exact hdunno
  | some s =>
    by_cases he : Exempt state.config state.whitelist req s
    · rw [handleRequest_of_exempt hs he]
      exact hdunno
    · rw [handleRequest_of_not_exempt hs he, evaluateRequest_id]
      exact Engine.count_decide hX (hreq.decisionContext hs state.config.srs now)

/-- The bytes of a response: its line, and two line feeds. -/
theorem count_encode_toWire (action : Action) :
    (Utf8.encode action.toWire).count lf = 2 + action.display.count '\n' := by
  have hend : ("\n\n".toList).count '\n' = 2 := by decide
  have hcount : (Utf8.encode action.toWire).count lf = action.toWire.count '\n' :=
    Utf8.count_encode (c := '\n') (by decide) action.toWire
  rw [hcount, Action.toWire, List.count_append, hend, Nat.add_comm]

/-- No configured text has a line feed. -/
def Config.NoNewline (cfg : Config X) : Prop :=
  (∀ t ∈ cfg.messages.named, '\n' ∉ t.2) ∧ ∀ id, cfg.header.authservId = some id → '\n' ∉ id

theorem newline_not_mem_messageTemplate {cfg : Config X} (h : cfg.NoNewline) (result : X.Result) :
    '\n' ∉ messageTemplate cfg.messages result := by
  have hnamed := h.1
  simp only [MessageTemplates.named, List.forall_mem_cons] at hnamed
  obtain ⟨hfail, hsoftfail, hneutral, hnone, hpermerror, htemperror, -⟩ := hnamed
  cases result with
  | none => exact hnone
  | neutral => exact hneutral
  | pass => exact (by decide : '\n' ∉ "550 5.7.1 SPF check failed".toList)
  | fail e => exact hfail
  | softfail => exact hsoftfail
  | temperror => exact htemperror
  | permerror => exact hpermerror

theorem newline_not_mem_usedText {cfg : Config X} (h : cfg.NoNewline) (helo mailFrom : SpfOutcome X)
    (action : Action) : '\n' ∉ Engine.usedText cfg helo mailFrom action := by
  cases action with
  | dunno => exact List.not_mem_nil
  | prepend header =>
    rw [Engine.usedText, HeaderConfig.shown]
    split
    · exact List.not_mem_nil
    · cases hid : cfg.header.authservId with
      | none => exact List.not_mem_nil
      | some id => exact h.2 id hid
  | reject reason => exact newline_not_mem_messageTemplate h _
  | deferIfPermit reason => exact newline_not_mem_messageTemplate h _

theorem newline_not_mem_usedConfigText [Checks X Id E] {state : AppState X E}
    (h : state.config.NoNewline) (now : UInt64) (req : PolicyRequest) :
    '\n' ∉ usedConfigText state now req := by
  rw [usedConfigText]
  split
  · exact List.not_mem_nil
  · exact newline_not_mem_usedText h _ _ _

/-- **No request can split its response.**  Whatever was decoded and whatever the checks found, the
line feeds of the response are the two that end it and those of the configured text it shows.  If
the configuration has none, the response is one line and an empty line. -/
theorem count_toWire_handleRequest [Checks X Id E] (hX : X.PrintsNoNewline) (state : AppState X E)
    (now : UInt64) {src rest : List UInt8} {req : PolicyRequest}
    (hdecode : PolicyRequestCodec.decode src = some (.ok (some req), rest)) :
    let answer : Action := handleRequest (m := Id) state now req
    (Utf8.encode answer.toWire).count lf = 2 + (usedConfigText state now req).count '\n' ∧
    (state.config.NoNewline → ∃ line, answer.toWire = "action=".toList ++ line ++ "\n\n".toList ∧
      '\n' ∉ line) := by
  have hcount := count_display_handleRequest hX state now (noNewline_of_decode hdecode)
  intro answer
  refine ⟨?_, ?_⟩
  · rw [count_encode_toWire, hcount]
  · intro hcfg
    have hzero := List.count_eq_zero.mpr (newline_not_mem_usedConfigText hcfg now req)
    refine ⟨answer.reply, answer.toWire_eq, fun hm ↦ List.count_eq_zero.mp (hcount.trans hzero) ?_⟩
    exact List.mem_append_right _ hm

/-- The sample request as the client writes it. -/
def samplePairs : List (Str × Str) :=
  [("helo_name".toList, sampleSubject.helo), ("sender".toList, sampleSubject.sender),
    ("client_address".toList, "192.0.2.1".toList)]

theorem decode_samplePairs :
    PolicyRequestCodec.decode (writeRequest samplePairs ++ []) =
      some (.ok (some sampleRequest), []) :=
  decode_writeRequest_append (by decide) []

theorem count_toWire_handleRequest_sample :
    (Utf8.encode
      (handleRequest (m := Id) sampleState 1797120005 sampleRequest : Action).toWire).count lf =
      2 + (usedConfigText sampleState 1797120005 sampleRequest).count '\n' :=
  (count_toWire_handleRequest Crates.sample_printsNoNewline sampleState 1797120005
    decode_samplePairs).1

/-! ## The client -/

/-- Lines up to the first empty one, and what follows it; the first argument is the line being read,
reversed. -/
def readLines : Str → Str → Option (List Str × Str)
  | _, [] => none
  | line, c :: s =>
    if c = '\n' then
      if line = [] then some ([], s)
      else (readLines [] s).map fun p ↦ (line.reverse :: p.1, p.2)
    else readLines (c :: line) s

/-- What a policy client reads: `name=value` lines up to the first empty line, and what is left. -/
def readReply (wire : Str) : Option (List (Option (Str × Str)) × Str) :=
  (readLines [] wire).map fun p ↦ (p.1.map (Split.splitOnce '='), p.2)

theorem readLines_append {l : Str} (h : '\n' ∉ l) (line s : Str) :
    readLines line (l ++ s) = readLines (l.reverse ++ line) s := by
  induction l generalizing line with
  | nil => rfl
  | cons c l ih =>
    rw [List.mem_cons, not_or] at h
    rw [List.cons_append, readLines, if_neg (Ne.symm h.1), ih h.2, List.reverse_cons,
      List.append_assoc]
    rfl

/-- The reply is read, and what comes after it is left. -/
theorem readReply_toWire_append {action : Action} (h : '\n' ∉ action.reply) (wire : Str) :
    readReply (action.toWire ++ wire) = some ([some ("action".toList, action.reply)], wire) := by
  have hline : '\n' ∉ "action".toList ++ '=' :: action.reply := by
    rw [List.mem_append, List.mem_cons]
    rintro (hm | hm | hm)
    · exact absurd hm (by decide)
    · exact absurd hm (by decide)
    · exact h hm
  have hwire : action.toWire ++ wire =
      ("action".toList ++ '=' :: action.reply) ++ '\n' :: '\n' :: wire := by
    rw [show action.toWire = ("action".toList ++ '=' :: action.reply) ++ ['\n', '\n'] from rfl,
      List.append_assoc]
    rfl
  have hsplit : Split.splitOnce '=' ("action".toList ++ '=' :: action.reply) =
      some ("action".toList, action.reply) :=
    Split.splitOnce_append_cons (by decide) _
  rw [readReply, hwire, readLines_append hline, readLines, if_pos rfl, if_neg (by simp), readLines,
    if_pos rfl, if_pos rfl, List.append_nil, List.reverse_reverse]
  simp only [Option.map_some, List.map_cons, List.map_nil, hsplit]

theorem readReply_toWire {action : Action} (h : '\n' ∉ action.reply) :
    readReply action.toWire = some ([some ("action".toList, action.reply)], []) := by
  have hread := readReply_toWire_append h []
  rwa [List.append_nil] at hread

/-- A line that is read has no line feed in it. -/
theorem newline_not_mem_of_readLines {s line : Str} {p : List Str × Str}
    (h : readLines line s = some p) (hline : '\n' ∉ line) : ∀ l ∈ p.1, '\n' ∉ l := by
  induction s generalizing line p with
  | nil => exact absurd h nofun
  | cons c s ih =>
    rw [readLines] at h
    split at h
    · split at h
      · obtain rfl := Option.some.inj h
        exact fun l hl ↦ absurd hl List.not_mem_nil
      · obtain ⟨p, hp, rfl⟩ := Option.map_eq_some_iff.mp h
        rw [List.forall_mem_cons, List.mem_reverse]
        exact ⟨hline, ih hp List.not_mem_nil⟩
    · rename_i hc
      exact ih h fun hm ↦ (List.mem_cons.mp hm).elim (fun he ↦ hc he.symm) hline

/-- **A client reads one line and nothing more just if the line has no line feed.** -/
theorem readReply_toWire_iff {action : Action} :
    readReply action.toWire = some ([some ("action".toList, action.reply)], []) ↔
      '\n' ∉ action.reply := by
  refine ⟨?_, readReply_toWire⟩
  intro h
  rw [readReply, Option.map_eq_some_iff] at h
  obtain ⟨⟨lines, rest⟩, hlines, he⟩ := h
  obtain ⟨hmap, -⟩ := Prod.mk.inj he
  obtain ⟨l, rfl, hsplit⟩ := List.map_eq_singleton_iff.mp hmap
  obtain ⟨rfl, -⟩ := Split.splitOnce_eq_some_iff.mp hsplit
  have hl := newline_not_mem_of_readLines hlines List.not_mem_nil _ (List.mem_singleton_self _)
  exact fun hm ↦ hl (List.mem_append_right _ (List.mem_cons_of_mem _ hm))

/-! ## Kinds of actions -/

/-- What an action asks of the mail server. -/
inductive ActionKind where
  | dunno
  | prepend
  | reject
  | deferIfPermit
  deriving DecidableEq

/-- The kind that was decided. -/
def Action.kind : Action → ActionKind
  | dunno => .dunno
  | prepend _ => .prepend
  | reject _ => .reject
  | deferIfPermit _ => .deferIfPermit

/-- The text up to the first space. -/
def firstWord (s : Str) : Str := s.takeWhile (· ≠ ' ')

/-- A reply code `5NN`. -/
def isReplyCode : Str → Bool
  | ['5', d, e] => d.isDigit && e.isDigit
  | _ => false

/-- The kind that the first word of an action says. -/
def kindOfWord (word : Str) : Option ActionKind :=
  if word = "dunno".toList then some .dunno
  else if word = "PREPEND".toList then some .prepend
  else if word = "defer_if_permit".toList then some .deferIfPermit
  else if isReplyCode word then some .reject
  else none

theorem isReplyCode_eq_true_iff {w : Str} :
    isReplyCode w = true ↔ ∃ d e, w = ['5', d, e] ∧ d.isDigit = true ∧ e.isDigit = true := by
  rw [isReplyCode.eq_def]
  split
  · rename_i d e
    simp
  · rename_i hno
    refine iff_of_false Bool.false_ne_true ?_
    rintro ⟨d, e, rfl, -⟩
    exact hno d e rfl

theorem not_mem_of_isReplyCode {w : Str} {c : Char} (h : isReplyCode w = true)
    (hc : c.isDigit = false) : c ∉ w := by
  obtain ⟨d, e, rfl, hd, he⟩ := isReplyCode_eq_true_iff.mp h
  simp only [List.mem_cons, List.not_mem_nil, or_false]
  rintro (rfl | rfl | rfl)
  · exact absurd hc (by decide)
  · exact absurd (hd.symm.trans hc) (by decide)
  · exact absurd (he.symm.trans hc) (by decide)

theorem kindOfWord_of_isReplyCode {w : Str} (h : isReplyCode w = true) :
    kindOfWord w = some .reject := by
  obtain ⟨d, e, rfl, -, -⟩ := isReplyCode_eq_true_iff.mp h
  rw [kindOfWord, if_neg (by simp), if_neg (by simp), if_neg (by simp), if_pos h]

theorem firstWord_append_space {w : Str} (h : ' ' ∉ w) (s : Str) :
    firstWord (w ++ ' ' :: s) = w := by
  rw [firstWord, List.takeWhile_append_of_pos]
  · simp
  · intro c hc
    rw [decide_eq_true_eq]
    rintro rfl
    exact h hc

/-- A text is its first word, and perhaps a space and more. -/
theorem firstWord_cases (s : Str) : s = firstWord s ∨ ∃ u, s = firstWord s ++ ' ' :: u := by
  cases hrest : s.dropWhile (· ≠ ' ') with
  | nil =>
    refine .inl ?_
    have h := List.takeWhile_append_dropWhile (p := (· ≠ ' ')) (l := s)
    rw [hrest, List.append_nil] at h
    exact h.symm
  | cons c u =>
    refine .inr ⟨u, ?_⟩
    have hc := List.head?_dropWhile_not (· ≠ ' ') s
    rw [hrest] at hc
    have h := List.takeWhile_append_dropWhile (p := (· ≠ ' ')) (l := s)
    rw [hrest] at h
    obtain rfl : c = ' ' := by simpa using hc
    exact h.symm

/-- The first word of a template that begins with a reply code is that of the message. -/
theorem firstWord_renderMessage {messages : MessageTemplates} {result : X.Result}
    (h : isReplyCode (firstWord (messageTemplate messages result)) = true)
    (ctx : DecisionContext) :
    firstWord (renderMessage messages result ctx) =
      firstWord (messageTemplate messages result) := by
  have hbrace : '{' ∉ firstWord (messageTemplate messages result) :=
    not_mem_of_isReplyCode h (by decide)
  have hspace : ' ' ∉ firstWord (messageTemplate messages result) :=
    not_mem_of_isReplyCode h (by decide)
  rw [renderMessage]
  rcases firstWord_cases (messageTemplate messages result) with hs | ⟨u, hs⟩
  · have hkeep := substitute_append (X.displayResult result) ctx hbrace []
    have hnil : substitute (X.displayResult result) ctx [] = [] := rfl
    rw [List.append_nil, ← hs, hnil, List.append_nil] at hkeep
    rw [hkeep]
  · have hbrace' : '{' ∉ firstWord (messageTemplate messages result) ++ [' '] := by
      simp [hbrace]
    have hkeep := substitute_append (X.displayResult result) ctx hbrace' u
    rw [List.append_assoc, List.singleton_append, ← hs] at hkeep
    rw [hkeep, List.append_assoc]
    exact firstWord_append_space hspace _

/-- What an action says before the text it carries is a word and a space. -/
theorem firstWord_append {p w : Str} (hp : p = w ++ [' ']) (hw : ' ' ∉ w) (s : Str) :
    firstWord (p ++ s) = w := by
  rw [hp, List.append_assoc]
  exact firstWord_append_space hw s

theorem kindOfWord_reply {action : Action} (h : action.kind ≠ .reject) :
    kindOfWord (firstWord action.reply) = some action.kind := by
  cases action with
  | dunno => decide
  | prepend header =>
    have hword : firstWord ("PREPEND ".toList ++ header) = "PREPEND".toList :=
      firstWord_append (by decide) (by decide) header
    have hkind : kindOfWord "PREPEND".toList = some .prepend := by decide
    exact (congrArg kindOfWord hword).trans hkind
  | reject reason => exact absurd rfl h
  | deferIfPermit reason =>
    have hword : firstWord ("defer_if_permit ".toList ++ reason) = "defer_if_permit".toList :=
      firstWord_append (by decide) (by decide) reason
    have hkind : kindOfWord "defer_if_permit".toList = some .deferIfPermit := by decide
    exact (congrArg kindOfWord hword).trans hkind

/-- A rejection is read as one if its template begins with a reply code. -/
theorem kindOfWord_reply_of_reject {cfg : Config X} {helo mailFrom : SpfOutcome X}
    {ctx : DecisionContext} {reason : Str}
    (haction : Engine.decide cfg helo mailFrom ctx = .reject reason)
    (hcode : isReplyCode (firstWord (messageTemplate cfg.messages
      (responsible cfg.policy helo mailFrom).result)) = true) :
    kindOfWord (firstWord reason) = some .reject := by
  have hreason := Engine.eq_of_decide_eq_reject haction
  rw [hreason, firstWord_renderMessage hcode]
  exact kindOfWord_of_isReplyCode hcode

theorem Action.eq_reject_of_kind {action : Action} (h : action.kind = .reject) :
    ∃ reason, action = .reject reason := by
  cases action with
  | reject reason => exact ⟨reason, rfl⟩
  | dunno | prepend | deferIfPermit => exact absurd h nofun

/-- **A client reads the action that was decided**, if the configured text is what the example
configuration asks for.  It reads one line `action=X`, with nothing left over, just if the text
shown has no line feed; and the first word of `X` says which kind of action it is, where for a
rejection the template must begin with a reply code. -/
theorem readReply_decide (hX : X.PrintsNoNewline) {src rest : List UInt8} {req : PolicyRequest}
    (hdecode : PolicyRequestCodec.decode src = some (.ok (some req), rest)) {s : Subject}
    (hs : req.subject = some s) (cfg : Config X) (now : UInt64) (helo mailFrom : SpfOutcome X) :
    let action := Engine.decide cfg helo mailFrom (decisionContext X cfg.srs now req s)
    let used := Engine.usedText cfg helo mailFrom action
    (readReply action.toWire = some ([some ("action".toList, action.reply)], []) ↔ '\n' ∉ used) ∧
    (action.kind ≠ .reject ∨ isReplyCode (firstWord used) = true →
      kindOfWord (firstWord action.reply) = some action.kind) := by
  intro action used
  have hctx := (noNewline_of_decode hdecode).decisionContext (X := X) hs cfg.srs now
  refine ⟨?_, ?_⟩
  · have hcount : action.display.count '\n' = used.count '\n' := Engine.count_decide hX hctx
    rw [readReply_toWire_iff, ← Action.newline_mem_display_iff, ← List.count_eq_zero, hcount,
      List.count_eq_zero]
  · intro hcode
    by_cases hkind : action.kind = .reject
    · have hcode := hcode.resolve_left fun h ↦ h hkind
      obtain ⟨reason, haction⟩ := Action.eq_reject_of_kind hkind
      have hused : used = Engine.usedText cfg helo mailFrom (.reject reason) :=
        congrArg (Engine.usedText cfg helo mailFrom) haction
      rw [hused] at hcode
      rw [haction]
      exact kindOfWord_reply_of_reject haction hcode
    · exact kindOfWord_reply hkind

/-- HELO passes in the sample. -/
def samplePass : SpfOutcome Crates.sample := ⟨.helo, .pass, some (.match ())⟩

/-- MAIL FROM fails. -/
def sampleFail : SpfOutcome Crates.sample := ⟨.mailFrom, .fail sampleExplanation, some (.match ())⟩

/-- What the sample request is about. -/
def sampleContext : DecisionContext :=
  decisionContext Crates.sample sampleState.config.srs 1797120005 sampleRequest sampleSubject

/-- With the default templates the rejection is read as one. -/
theorem readReply_decide_sample :
    let action := Engine.decide sampleState.config samplePass sampleFail sampleContext
    readReply action.toWire = some ([some ("action".toList, action.reply)], []) ∧
      kindOfWord (firstWord action.reply) = some .reject := by
  have h := readReply_decide Crates.sample_printsNoNewline decode_samplePairs subject_sampleRequest
    sampleState.config 1797120005 samplePass sampleFail
  exact ⟨h.1.mpr (by decide), h.2 (.inr (by decide))⟩

/-- **Validation does not look at the form of templates.**  With `dunno` as the template for a fail,
which validation accepts, the rejection of the sample request is read as having no opinion. -/
theorem misread_template :
    let cfg : Config Crates.sample :=
      { sampleState.config with messages := { fail := "dunno".toList } }
    let action := Engine.decide cfg samplePass sampleFail sampleContext
    cfg.validate = pure () ∧ Crates.sample.PrintsNoNewline ∧
      PolicyRequestCodec.decode (writeRequest samplePairs ++ []) =
        some (.ok (some sampleRequest), []) ∧
      action = .reject "dunno".toList ∧
      readReply action.toWire = some ([some ("action".toList, "dunno".toList)], []) ∧
      kindOfWord (firstWord "dunno".toList) = some .dunno := by
  refine ⟨?_, Crates.sample_printsNoNewline, decode_samplePairs, ?_, ?_, ?_⟩
  · refine Config.validate_eq_ok_iff.mpr ⟨?_, ?_, ?_, ?_⟩
    · exact List.cons_ne_nil _ _
    · exact fun _ ↦ List.cons_ne_nil _ _
    · exact fun e he ↦ absurd he List.not_mem_nil
    · decide
  · decide
  · decide
  · decide

end Rspf
