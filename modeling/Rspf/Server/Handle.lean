import Rspf.Engine
import Rspf.MailLog
import Rspf.Proto.Request
import Rspf.Server.State
import Rspf.Srs

/-!
# Answering a request

`handleRequest` reads what it needs of the request, asks `shouldSkip` whether the client is exempt,
and otherwise unwraps the sender, checks both identities and decides.

The code reads the shared cells three times on the way, and the model is cut at these places:
`skipByConfig` and `skipByWhitelist` are the two halves of `shouldSkip`, and `evaluateRequest` is
what comes after it, so that it can be asked what happens when a reload falls in between.

The checks are actions of an arbitrary monad.  This is more than generality: two handlers that are
equal for all monads ask the same questions in the same order, which is what "has no influence"
ought to mean for a program that asks the DNS.

## What is here

* `Subject` is what a request must have to be looked at, and `Exempt` the condition under which its
  client is not checked.  `shouldSkip_ne_none_iff` says that the code skips just these.
* `handleRequest_of_subject_eq_none`, `handleRequest_of_exempt` and `handleRequest_of_not_exempt`
  say what `handleRequest` does, over an arbitrary monad.
* `handleRequest_spec` reads off them what is answered when, for checks that are functions.
* `handleRequest_srs` compares it with what the daemon does when it does not unwrap senders.
-/

set_option autoImplicit false

namespace Rspf

variable {X : Crates} {m : Type → Type} {E : Type}

/-! ## Exemptions -/

/-- `should_skip`, as far as it depends on the configuration. -/
def skipByConfig (config : Config X) (req : PolicyRequest) (clientIp : IpAddr) : Option Str :=
  if config.skip.addresses.contains clientIp then
    some "client_address matches skip.addresses".toList
  else if config.relay.trustedRelays.contains clientIp then
    some "client_address matches relay.trusted_relays".toList
  else if config.relay.exemptSaslAuthenticated && req.saslUsername.any (fun u ↦ !u.isEmpty) then
    some "sasl_username present and relay.exempt_sasl_authenticated is set".toList
  else none

/-- The name of a reason in the log. -/
def WhitelistReason.word : WhitelistReason → Str
  | ip => "whitelist.ips".toList
  | helo => "whitelist.helo_names".toList
  | domain => "whitelist.domains".toList
  | domainPtr => "whitelist.domains_ptr".toList

/-- `should_skip`, as far as it depends on the whitelist. -/
def skipByWhitelist (whitelist : Whitelist X) (req : PolicyRequest) (clientIp : IpAddr)
    (helo sender : Str) : Option Str :=
  let mailFromDomain := (Split.rsplitOnce '@' sender).map Prod.snd
  (whitelist.matches clientIp helo mailFromDomain req.reverseClientName).map WhitelistReason.word

/-- `should_skip`. -/
def shouldSkip (state : AppState X E) (req : PolicyRequest) (clientIp : IpAddr)
    (helo sender : Str) : Option Str :=
  (skipByConfig state.config req clientIp).or
    (skipByWhitelist state.whitelist req clientIp helo sender)

/-! ## Handling -/

/-- The sender that is checked: the original one if it can be recovered. -/
def effectiveSender (X : Crates) (sender : Str) (cfg : SrsConfig) (now : UInt64) : Str :=
  match tryUnwrap X sender cfg now with
  | .valid originalSender => originalSender
  | .notSrs | .invalidHash | .expired => sender

/-- `handle_request`, from its second look at the configuration on. -/
def evaluateRequest [Monad m] [Checks X m E] [Syslog m] (config : Config X) (evaluator : E)
    (now : UInt64) (req : PolicyRequest) (clientIp : IpAddr) (helo sender : Str) : m Action := do
  let recipient := req.recipient.getD []
  let sender := effectiveSender X sender config.srs now
  -- `tokio::join!` makes the two checks side by side; neither sees the other's result
  let heloOutcome ← Checks.checkHelo evaluator clientIp helo
  let mailFromOutcome ← Checks.checkMailFrom evaluator clientIp sender helo
  let ctx : DecisionContext := { ip := clientIp, sender, helo, recipient }
  let action := Engine.decide config heloOutcome mailFromOutcome ctx
  logEvaluatedSpf X clientIp req.reverseClientName helo sender heloOutcome.result
    mailFromOutcome.result action
  pure action

/-- `handle_request`. -/
def handleRequest [Monad m] [Checks X m E] [Syslog m] (state : AppState X E) (now : UInt64)
    (req : PolicyRequest) : m Action :=
  match req.heloName, req.sender, req.clientIp with
  | some helo, some sender, .ok clientIp =>
    match shouldSkip state req clientIp helo sender with
    | some _ => pure .dunno
    | none => evaluateRequest state.config state.evaluator now req clientIp helo sender
  | _, _, _ => pure .dunno

/-! ## What is answered -/

/-- Checks that are functions of their arguments. -/
structure PureChecks (X : Crates) where
  checkHelo : IpAddr → Str → SpfOutcome X
  checkMailFrom : IpAddr → Str → Str → SpfOutcome X

instance : Checks X Id (PureChecks X) where
  checkHelo := PureChecks.checkHelo
  checkMailFrom := PureChecks.checkMailFrom

/-- What a request must have to be looked at: a client, a HELO name and a sender. -/
structure Subject where
  clientIp : IpAddr
  helo : Str
  /-- The sender, as received. -/
  sender : Str

/-- The subject of a request, if it has one. -/
def PolicyRequest.subject (req : PolicyRequest) : Option Subject :=
  match req.heloName, req.sender, req.clientIp with
  | some helo, some sender, .ok clientIp => some ⟨clientIp, helo, sender⟩
  | _, _, _ => none

theorem PolicyRequest.subject_eq_none_iff {req : PolicyRequest} :
    req.subject = none ↔
      req.heloName = none ∨ req.sender = none ∨ ∃ e, req.clientIp = .error e := by
  rw [subject]
  cases req.heloName <;> cases req.sender <;> cases req.clientIp <;> simp

theorem PolicyRequest.clientIp_eq_error_iff {req : PolicyRequest} :
    (∃ e, req.clientIp = .error e) ↔
      req.clientAddress = none ∨ ∃ raw, req.clientAddress = some raw ∧ IpAddr.parse raw = none := by
  rw [clientIp]
  cases req.clientAddress with
  | none => simp
  | some raw => cases h : IpAddr.parse raw <;> simp [h]

theorem PolicyRequest.subject_eq_some_iff {req : PolicyRequest} {s : Subject} :
    req.subject = some s ↔
      req.heloName = some s.helo ∧ req.sender = some s.sender ∧ req.clientIp = .ok s.clientIp := by
  rw [subject]
  cases req.heloName <;> cases req.sender <;> cases req.clientIp <;> cases s <;> simp
  tauto

/-- A request is exempt from checks. -/
def Exempt (config : Config X) (whitelist : Whitelist X) (req : PolicyRequest) (s : Subject) :
    Prop :=
  (∃ net ∈ config.skip.addresses.nets, X.netContains net s.clientIp = true) ∨
    (∃ net ∈ config.relay.trustedRelays.nets, X.netContains net s.clientIp = true) ∨
    (config.relay.exemptSaslAuthenticated = true ∧ ∃ u, req.saslUsername = some u ∧ u ≠ []) ∨
    (whitelist.matches s.clientIp s.helo ((Split.rsplitOnce '@' s.sender).map Prod.snd)
      req.reverseClientName).isSome = true

/-- What the decision may mention of a request. -/
def decisionContext (X : Crates) (srs : SrsConfig) (now : UInt64) (req : PolicyRequest)
    (s : Subject) : DecisionContext where
  ip := s.clientIp
  sender := effectiveSender X s.sender srs now
  helo := s.helo
  recipient := req.recipient.getD []

theorem skipByConfig_isSome_iff {config : Config X} {req : PolicyRequest} {ip : IpAddr} :
    (skipByConfig config req ip).isSome = true ↔
      config.skip.addresses.contains ip = true ∨ config.relay.trustedRelays.contains ip = true ∨
      (config.relay.exemptSaslAuthenticated = true ∧ ∃ u, req.saslUsername = some u ∧ u ≠ []) := by
  have hsasl : req.saslUsername.any (fun u ↦ !u.isEmpty) = true ↔
      ∃ u, req.saslUsername = some u ∧ u ≠ [] := by
    cases req.saslUsername <;> simp
  rw [skipByConfig]
  split
  · rename_i h; simp [h]
  · rename_i h
    split
    · rename_i h'; simp [h']
    · rename_i h'
      split
      · rename_i hs
        rw [Bool.and_eq_true, hsasl] at hs
        exact iff_of_true rfl (.inr (.inr hs))
      · rename_i hs
        rw [Bool.and_eq_true, hsasl] at hs
        refine iff_of_false (by simp) ?_
        rintro (hc | hc | hc)
        · exact h hc
        · exact h' hc
        · exact hs hc

theorem skipByWhitelist_isSome {whitelist : Whitelist X} {req : PolicyRequest} {ip : IpAddr}
    {helo sender : Str} :
    (skipByWhitelist whitelist req ip helo sender).isSome =
      (whitelist.matches ip helo ((Split.rsplitOnce '@' sender).map Prod.snd)
        req.reverseClientName).isSome := by
  rw [skipByWhitelist, Option.isSome_map]

variable {state : AppState X E} {now : UInt64} {req : PolicyRequest} {s : Subject}

/-- Exemptions come from the configuration or from the whitelist. -/
theorem exempt_iff {config : Config X} {whitelist : Whitelist X} :
    Exempt config whitelist req s ↔ (skipByConfig config req s.clientIp).isSome = true ∨
      (skipByWhitelist whitelist req s.clientIp s.helo s.sender).isSome = true := by
  rw [skipByConfig_isSome_iff, skipByWhitelist_isSome, Exempt, CidrSet.contains_iff,
    CidrSet.contains_iff]
  simp only [or_assoc]

/-- **What is skipped is what is exempt.** -/
theorem shouldSkip_ne_none_iff :
    shouldSkip state req s.clientIp s.helo s.sender ≠ none ↔
      Exempt state.config state.whitelist req s := by
  rw [← Option.isSome_iff_ne_none, shouldSkip, Option.isSome_or, Bool.or_eq_true, exempt_iff]

theorem shouldSkip_eq_none_iff :
    shouldSkip state req s.clientIp s.helo s.sender = none ↔
      ¬ Exempt state.config state.whitelist req s := by
  rw [← shouldSkip_ne_none_iff, Ne, Decidable.not_not]

section

variable [Monad m] [Checks X m E] [Syslog m]

theorem handleRequest_of_subject_eq_none (h : req.subject = none) :
    (handleRequest state now req : m Action) = pure .dunno := by
  rw [PolicyRequest.subject_eq_none_iff] at h
  rw [handleRequest]
  rcases h with h | h | ⟨e, h⟩
  · rw [h]
  · rw [h]; cases req.heloName <;> rfl
  · rw [h]; cases req.heloName <;> cases req.sender <;> rfl

theorem handleRequest_of_exempt (hs : req.subject = some s)
    (h : Exempt state.config state.whitelist req s) :
    (handleRequest state now req : m Action) = pure .dunno := by
  obtain ⟨hhelo, hsender, hip⟩ := PolicyRequest.subject_eq_some_iff.mp hs
  obtain ⟨reason, hskip⟩ := Option.ne_none_iff_exists'.mp (shouldSkip_ne_none_iff.mpr h)
  rw [handleRequest, hhelo, hsender, hip]
  dsimp only
  rw [hskip]

theorem handleRequest_of_not_exempt (hs : req.subject = some s)
    (h : ¬ Exempt state.config state.whitelist req s) :
    (handleRequest state now req : m Action) =
      evaluateRequest state.config state.evaluator now req s.clientIp s.helo s.sender := by
  obtain ⟨hhelo, hsender, hip⟩ := PolicyRequest.subject_eq_some_iff.mp hs
  rw [handleRequest, hhelo, hsender, hip]
  dsimp only
  rw [shouldSkip_eq_none_iff.mpr h]

end

/-- With checks that are functions, an evaluation is the decision on their values. -/
theorem evaluateRequest_id [Checks X Id E] (config : Config X) (evaluator : E) (now : UInt64)
    (req : PolicyRequest) (s : Subject) :
    (evaluateRequest config evaluator now req s.clientIp s.helo s.sender : Id Action) =
      Engine.decide config (Checks.checkHelo (m := Id) evaluator s.clientIp s.helo)
        (Checks.checkMailFrom (m := Id) evaluator s.clientIp
          (effectiveSender X s.sender config.srs now) s.helo)
        (decisionContext X config.srs now req s) := rfl

theorem effectiveSender_of_valid {sender o : Str} {cfg : SrsConfig}
    (h : tryUnwrap X sender cfg now = .valid o) : effectiveSender X sender cfg now = o := by
  rw [effectiveSender, h]

theorem effectiveSender_of_not_valid {sender : Str} {cfg : SrsConfig}
    (h : ∀ o, tryUnwrap X sender cfg now ≠ .valid o) :
    effectiveSender X sender cfg now = sender := by
  rw [effectiveSender]
  split
  · rename_i o ho; exact absurd ho (h o)
  · rfl
  · rfl
  · rfl

/-- **The answer to a request**, for checks that are functions of their arguments.

* Without a subject, or for an exempt one, there is no opinion.  A client is exempt by its address,
  by being authenticated, or by the whitelist, which is asked about the sender as received.
* Otherwise MAIL FROM is checked for the unwrapped sender if there is one, and for the sender as
  received if there is not.  The answer rejects if either result is a reason to reject; it defers if
  neither is and either is a reason to defer; and in all other cases it adds the header for MAIL
  FROM, or has no opinion if no header is wanted.  The message is that of the identity responsible.
-/
theorem handleRequest_spec [Checks X Id E] (state : AppState X E) (now : UInt64)
    (req : PolicyRequest) :
    (req.heloName = none ∨ req.sender = none ∨ req.clientAddress = none ∨
        (∃ raw, req.clientAddress = some raw ∧ IpAddr.parse raw = none) →
      (handleRequest state now req : Id Action) = .dunno) ∧
    ∀ s, req.subject = some s →
      (Exempt state.config state.whitelist req s →
        (handleRequest state now req : Id Action) = .dunno) ∧
      (¬ Exempt state.config state.whitelist req s →
        ∀ sender, (tryUnwrap X s.sender state.config.srs now = .valid sender ∨
            (∀ o, tryUnwrap X s.sender state.config.srs now ≠ .valid o) ∧ sender = s.sender) →
        ∀ helo mailFrom : SpfOutcome X,
          Checks.checkHelo (m := Id) state.evaluator s.clientIp s.helo = helo →
          Checks.checkMailFrom (m := Id) state.evaluator s.clientIp sender s.helo = mailFrom →
        let policy := state.config.policy
        let rejects := policy.Rejects .helo helo.result ∨ policy.Rejects .mailFrom mailFrom.result
        let defers := policy.Defers .helo helo.result ∨ policy.Defers .mailFrom mailFrom.result
        let ctx : DecisionContext :=
          { ip := s.clientIp, sender, helo := s.helo, recipient := req.recipient.getD [] }
        let message :=
          renderMessage state.config.messages (responsible policy helo mailFrom).result ctx
        let answer : Action := handleRequest (m := Id) state now req
        (rejects ↔ ∃ msg, answer = .reject msg) ∧ (rejects → answer = .reject message) ∧
        (¬ rejects ∧ defers ↔ ∃ msg, answer = .deferIfPermit msg) ∧
        (¬ rejects → defers → answer = .deferIfPermit message) ∧
        (¬ rejects → ¬ defers → answer =
          match state.config.header.mode with
          | .spf => .prepend ("Received-SPF: ".toList ++ buildReceivedSpf mailFrom s.clientIp sender
              s.helo (req.recipient.getD []) state.config.header)
          | .none => .dunno)) := by
  refine ⟨?_, ?_⟩
  · intro h
    refine handleRequest_of_subject_eq_none (PolicyRequest.subject_eq_none_iff.mpr ?_)
    rwa [PolicyRequest.clientIp_eq_error_iff]
  · intro s hs
    refine ⟨handleRequest_of_exempt hs, ?_⟩
    intro hexempt sender hsender helo mailFrom hhelo hmail policy rejects defers ctx message answer
    have heff : effectiveSender X s.sender state.config.srs now = sender := by
      rcases hsender with h | ⟨h, rfl⟩
      · exact effectiveSender_of_valid h
      · exact effectiveSender_of_not_valid h
    have hanswer : answer = Engine.decide state.config helo mailFrom ctx := by
      have h : (handleRequest state now req : Id Action) = _ :=
        handleRequest_of_not_exempt hs hexempt
      rw [evaluateRequest_id, decisionContext, heff, hhelo, hmail] at h
      exact h
    obtain ⟨hreject, hdefer, haccept⟩ :=
      Engine.decide_spec state.config helo mailFrom ctx
    rw [hanswer]
    by_cases hr : rejects
    · have h := hreject hr
      refine ⟨iff_of_true hr ⟨_, h⟩, fun _ ↦ h, iff_of_false (fun hd ↦ hd.1 hr) ?_,
        fun hn ↦ absurd hr hn, fun hn ↦ absurd hr hn⟩
      rintro ⟨msg, hmsg⟩
      exact Action.noConfusion (h.symm.trans hmsg)
    · by_cases hd : defers
      · have h := hdefer hr hd
        refine ⟨iff_of_false hr ?_, fun hn ↦ absurd hn hr, iff_of_true ⟨hr, hd⟩ ⟨_, h⟩,
          fun _ _ ↦ h, fun _ hn ↦ absurd hd hn⟩
        rintro ⟨msg, hmsg⟩
        exact Action.noConfusion (h.symm.trans hmsg)
      · have h := haccept hr hd
        refine ⟨iff_of_false hr ?_, fun hn ↦ absurd hn hr, iff_of_false (fun hn ↦ hd hn.2) ?_,
          fun _ hn ↦ absurd hn hd, fun _ _ ↦ h⟩
        · rintro ⟨msg, hmsg⟩
          exact (accept_ne msg).1 (h.symm.trans hmsg)
        · rintro ⟨msg, hmsg⟩
          exact (accept_ne msg).2 (h.symm.trans hmsg)

/-! ### A sample

A request from a forwarder that the sender's domain does not know: its own HELO name passes, and
the sender it has rewritten fails. -/

/-- A daemon that unwraps senders. -/
def sampleState : AppState Crates.sample (PureChecks Crates.sample) where
  config :=
    { server := { listen := [.unix "/run/rspf/policy.sock".toList] }
      srs := { enabled := true, secrets := ["old".toList, "secret".toList] } }
  whitelist := { ips := ⟨[]⟩, heloNames := [], domains := [], domainsPtr := [] }
  evaluator :=
    { checkHelo := fun _ _ ↦ ⟨.helo, .pass, none⟩
      checkMailFrom := fun _ sender _ ↦
        if sender = "user@example.com".toList then
          ⟨.mailFrom, .fail sampleExplanation, some (.match ())⟩
        else ⟨.mailFrom, .pass, some (.match ())⟩ }

/-- The subject of a request with a rewritten sender. -/
def sampleSubject : Subject where
  clientIp := .v4 ⟨[192, 0, 2, 1], rfl⟩
  helo := "relay.example.net".toList
  sender := "SRS0=DTrn=A0=example.com=user@relay.example.net".toList

/-- A request with this subject. -/
def sampleRequest : PolicyRequest :=
  { heloName := some sampleSubject.helo
    sender := some sampleSubject.sender
    clientAddress := some "192.0.2.1".toList }

theorem subject_sampleRequest : sampleRequest.subject = some sampleSubject := rfl

theorem shouldSkip_sample :
    shouldSkip sampleState sampleRequest sampleSubject.clientIp sampleSubject.helo
      sampleSubject.sender = none := rfl

theorem tryUnwrap_sample :
    tryUnwrap Crates.sample sampleSubject.sender sampleState.config.srs 1797120005 =
      .valid "user@example.com".toList := by decide

/-- The request is rejected, for the sender before the rewrite. -/
theorem handleRequest_spec_sample :
    ∃ msg, (handleRequest sampleState 1797120005 sampleRequest : Id Action) = .reject msg := by
  have hmail : Checks.checkMailFrom (m := Id) sampleState.evaluator sampleSubject.clientIp
      "user@example.com".toList sampleSubject.helo =
        (⟨.mailFrom, .fail sampleExplanation, some (.match ())⟩ : SpfOutcome Crates.sample) := rfl
  have h := ((handleRequest_spec sampleState 1797120005 sampleRequest).2 sampleSubject
    subject_sampleRequest).2 (shouldSkip_eq_none_iff.mp shouldSkip_sample) _ (.inl tryUnwrap_sample)
    _ _ rfl hmail
  refine h.1.mp (.inr ⟨?_, .inr ⟨?_, ?_, ?_⟩⟩)
  · exact nofun
  · exact nofun
  · exact nofun
  · exact ⟨sampleExplanation, rfl⟩

/-! ## Rewritten senders -/

/-- The same state with the unwrapping of senders switched off. -/
def AppState.withoutSrs (state : AppState X E) : AppState X E :=
  { state with config := { state.config with srs := { state.config.srs with enabled := false } } }

theorem effectiveSender_withoutSrs (sender : Str) :
    effectiveSender X sender state.withoutSrs.config.srs now = sender := by
  refine effectiveSender_of_not_valid fun o ↦ ?_
  rw [tryUnwrap_of_disabled rfl]
  exact SrsUnwrap.noConfusion

theorem exempt_withoutSrs :
    Exempt state.withoutSrs.config state.withoutSrs.whitelist req s ↔
      Exempt state.config state.whitelist req s := Iff.rfl

section

variable [Monad m] [Checks X m E] [Syslog m]

/-- An evaluation only depends on the sender through the one that is checked. -/
theorem evaluateRequest_congr {clientIp : IpAddr} {helo sender sender' : Str} {srs : SrsConfig}
    (h : effectiveSender X sender state.config.srs now = effectiveSender X sender' srs now) :
    (evaluateRequest state.config state.evaluator now req clientIp helo sender : m Action) =
      evaluateRequest { state.config with srs } state.evaluator now req clientIp helo sender' := by
  simp only [evaluateRequest, h]
  rfl

/-- The actions of a state are those without unwrapping if the sender is checked as received. -/
theorem handleRequest_withoutSrs
    (h : ∀ raw o, req.sender = some raw → tryUnwrap X raw state.config.srs now ≠ .valid o) :
    (handleRequest state now req : m Action) = handleRequest state.withoutSrs now req := by
  cases hs : req.subject with
  | none => rw [handleRequest_of_subject_eq_none hs, handleRequest_of_subject_eq_none hs]
  | some s =>
    by_cases he : Exempt state.config state.whitelist req s
    · rw [handleRequest_of_exempt hs he, handleRequest_of_exempt hs (exempt_withoutSrs.mpr he)]
    · rw [handleRequest_of_not_exempt hs he,
        handleRequest_of_not_exempt hs (exempt_withoutSrs.not.mpr he)]
      refine evaluateRequest_congr ?_
      have hsender := (PolicyRequest.subject_eq_some_iff.mp hs).2.1
      rw [effectiveSender_of_not_valid fun o ↦ h s.sender o hsender]
      exact (effectiveSender_withoutSrs s.sender).symm

end

/-- A call of a check, with its arguments. -/
inductive CheckCall where
  | helo (ip : IpAddr) (helo : Str)
  | mailFrom (ip : IpAddr) (sender helo : Str)
  deriving DecidableEq

/-- Actions that record the calls they make. -/
abbrev Recorded : Type → Type := StateM (List CheckCall)

instance : Checks X Recorded (PureChecks X) where
  checkHelo ev ip helo := fun calls ↦ (ev.checkHelo ip helo, calls ++ [.helo ip helo])
  checkMailFrom ev ip sender helo := fun calls ↦
    (ev.checkMailFrom ip sender helo, calls ++ [.mailFrom ip sender helo])

instance : Syslog Recorded := ⟨fun _ ↦ pure ()⟩

/-- A request that is not exempt makes two calls, of which the second is for the sender that was
recovered. -/
theorem handleRequest_calls {state : AppState X (PureChecks X)} (hs : req.subject = some s)
    (h : ¬ Exempt state.config state.whitelist req s) :
    ((handleRequest state now req : Recorded Action) []).2 =
      [.helo s.clientIp s.helo,
        .mailFrom s.clientIp (effectiveSender X s.sender state.config.srs now) s.helo] := by
  rw [handleRequest_of_not_exempt hs h, evaluateRequest]
  simp only [logEvaluatedSpf_eq]
  rfl

theorem PolicyRequest.subject_with_sender (hs : req.subject = some s) (raw : Str) :
    { req with sender := some raw }.subject = some { s with sender := raw } := by
  obtain ⟨hhelo, -, hip⟩ := subject_eq_some_iff.mp hs
  exact subject_eq_some_iff.mpr ⟨hhelo, rfl, hip⟩

/-- **Rewritten senders have no influence unless they are verified.**

* If the sender does not unwrap, a request is handled exactly as if senders were not unwrapped: the
  two are the same action of whatever monad the checks are made in, so they make the same calls with
  the same arguments and end with the same answer.
* If it unwraps to `o`, the exemption is still decided for the sender as received, HELO is checked
  with the same arguments, and everything else is done with `o` in the place of the sender: the
  check of MAIL FROM, the message, the header and the log.
* So two senders that unwrap to the same `o`, neither of them exempt, are handled in the same way.

The last part spells out the calls, for checks that are functions of their arguments. -/
theorem handleRequest_srs (X : Crates) (m : Type → Type) [Monad m] [Syslog m] (E : Type)
    [Checks X m E] :
    (∀ (state : AppState X E) (now : UInt64) (req : PolicyRequest),
      (∀ raw o, req.sender = some raw → tryUnwrap X raw state.config.srs now ≠ .valid o) →
        (handleRequest state now req : m Action) = handleRequest state.withoutSrs now req) ∧
    (∀ (state : AppState X E) (now : UInt64) (req : PolicyRequest) (s : Subject) (o : Str),
      req.subject = some s → tryUnwrap X s.sender state.config.srs now = .valid o →
        shouldSkip state req s.clientIp s.helo s.sender =
          shouldSkip state.withoutSrs req s.clientIp s.helo s.sender ∧
        (shouldSkip state req s.clientIp s.helo s.sender ≠ none →
          (handleRequest state now req : m Action) = pure .dunno ∧
          (handleRequest state.withoutSrs now req : m Action) = pure .dunno) ∧
        (shouldSkip state req s.clientIp s.helo s.sender = none →
          ∀ state' sender, state' = state ∧ sender = o ∨
              state' = state.withoutSrs ∧ sender = s.sender →
            (handleRequest state' now req : m Action) = do
              let helo ← Checks.checkHelo (X := X) state.evaluator s.clientIp s.helo
              let mailFrom ← Checks.checkMailFrom state.evaluator s.clientIp sender s.helo
              let action := Engine.decide state.config helo mailFrom
                { ip := s.clientIp, sender, helo := s.helo, recipient := req.recipient.getD [] }
              logEvaluatedSpf X s.clientIp req.reverseClientName s.helo sender helo.result
                mailFrom.result action
              pure action)) ∧
    (∀ (state : AppState X E) (now : UInt64) (req : PolicyRequest) (s : Subject) (raw o : Str),
      req.subject = some s → tryUnwrap X s.sender state.config.srs now = .valid o →
        tryUnwrap X raw state.config.srs now = .valid o →
        shouldSkip state req s.clientIp s.helo s.sender = none →
        shouldSkip state req s.clientIp s.helo raw = none →
          (handleRequest state now req : m Action) =
            handleRequest state now { req with sender := some raw }) ∧
    (∀ (state : AppState X (PureChecks X)) (now : UInt64) (req : PolicyRequest) (s : Subject)
        (sender : Str),
      req.subject = some s → shouldSkip state req s.clientIp s.helo s.sender = none →
        (tryUnwrap X s.sender state.config.srs now = .valid sender ∨
          (∀ o, tryUnwrap X s.sender state.config.srs now ≠ .valid o) ∧ sender = s.sender) →
          ((handleRequest state now req : Recorded Action) []).2 =
            [.helo s.clientIp s.helo, .mailFrom s.clientIp sender s.helo]) := by
  refine ⟨fun _ _ _ h ↦ handleRequest_withoutSrs h, ?_, ?_, ?_⟩
  · intro state now req s o hs ho
    refine ⟨rfl, ?_, ?_⟩
    · intro hskip
      have he := shouldSkip_ne_none_iff.mp hskip
      exact ⟨handleRequest_of_exempt hs he, handleRequest_of_exempt hs (exempt_withoutSrs.mpr he)⟩
    · intro hskip state' sender hstate
      have he := shouldSkip_eq_none_iff.mp hskip
      rcases hstate with ⟨rfl, rfl⟩ | ⟨rfl, rfl⟩
      · rw [handleRequest_of_not_exempt hs he, evaluateRequest, effectiveSender_of_valid ho]
      · rw [handleRequest_of_not_exempt hs (exempt_withoutSrs.not.mpr he), evaluateRequest,
          effectiveSender_withoutSrs]
        rfl
  · intro state now req s raw o hs ho hraw hskip hskip'
    have he := shouldSkip_eq_none_iff.mp hskip
    have hs' := PolicyRequest.subject_with_sender hs raw
    have he' : ¬ Exempt state.config state.whitelist { req with sender := some raw }
        { s with sender := raw } := shouldSkip_eq_none_iff.mp hskip'
    rw [handleRequest_of_not_exempt hs he, handleRequest_of_not_exempt hs' he']
    simp only [evaluateRequest, effectiveSender_of_valid ho, effectiveSender_of_valid hraw]
  · intro state now req s sender hs hskip hsender
    rw [handleRequest_calls hs (shouldSkip_eq_none_iff.mp hskip)]
    rcases hsender with h | ⟨h, rfl⟩
    · rw [effectiveSender_of_valid h]
    · rw [effectiveSender_of_not_valid h]

/-- The sample is checked for the sender before the rewrite, under the name it came with. -/
theorem handleRequest_srs_sample :
    ((handleRequest sampleState 1797120005 sampleRequest : Recorded Action) []).2 =
      [.helo sampleSubject.clientIp sampleSubject.helo,
        .mailFrom sampleSubject.clientIp "user@example.com".toList sampleSubject.helo] :=
  (handleRequest_srs Crates.sample Id (PureChecks Crates.sample)).2.2.2 sampleState 1797120005
    sampleRequest sampleSubject _ subject_sampleRequest shouldSkip_sample (.inl tryUnwrap_sample)

end Rspf
