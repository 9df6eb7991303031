import Rspf.Engine.Strictness
import Rspf.Server.Answers

/-!
# Stricter configurations

What the two cells hold can be made stricter in two ways: the policies can be, and less can be
exempt.  With the same secrets, so that the same senders are checked, this is an order on the
versions that the cells can hold.  With other secrets there is none: a sender that is unwrapped is
replaced by one of which nothing is known.

A request may see three different versions while it is handled (`Service.service_spec`), and what it
is answered may be what none of them would have answered.  It is not out of bounds, though: if all
of them lie between two versions then so does the answer (`severity_handleSeeing_le`,
`le_severity_handleSeeing`).  `Service.severity_spec` says this of all answers in all runs: an
operator who only ever tightens the configuration, or only ever loosens it, sees no answer that is
laxer than both the version from before and the one from after it, and none that is stricter.
-/

set_option autoImplicit false

namespace Rspf

variable {X : Crates}

/-! ## The order of versions -/

/-- The second configuration is at least as strict as the first. -/
structure Config.AtMost (cfg cfg' : Config X) : Prop where
  policy : cfg.policy ≤ cfg'.policy
  /-- The same senders are unwrapped. -/
  srs : cfg.srs = cfg'.srs
  skip : cfg'.skip.addresses.nets ⊆ cfg.skip.addresses.nets
  trustedRelays : cfg'.relay.trustedRelays.nets ⊆ cfg.relay.trustedRelays.nets
  exemptSaslAuthenticated : cfg'.relay.exemptSaslAuthenticated ≤ cfg.relay.exemptSaslAuthenticated

instance : Preorder (Config X) where
  le := Config.AtMost
  le_refl _ := ⟨le_refl _, rfl, List.Subset.refl _, List.Subset.refl _, le_refl _⟩
  le_trans _ _ _ h h' := ⟨h.policy.trans h'.policy, h.srs.trans h'.srs,
    List.Subset.trans h'.skip h.skip, List.Subset.trans h'.trustedRelays h.trustedRelays,
    h'.exemptSaslAuthenticated.trans h.exemptSaslAuthenticated⟩

/-- The second whitelist has no entries that the first has not. -/
structure Whitelist.AtMost (w w' : Whitelist X) : Prop where
  ips : w'.ips.nets ⊆ w.ips.nets
  heloNames : w'.heloNames ⊆ w.heloNames
  domains : w'.domains ⊆ w.domains
  domainsPtr : w'.domainsPtr ⊆ w.domainsPtr

instance : Preorder (Whitelist X) where
  le := Whitelist.AtMost
  le_refl _ := ⟨List.Subset.refl _, List.Subset.refl _, List.Subset.refl _, List.Subset.refl _⟩
  le_trans _ _ _ h h' := ⟨List.Subset.trans h'.ips h.ips,
    List.Subset.trans h'.heloNames h.heloNames, List.Subset.trans h'.domains h.domains,
    List.Subset.trans h'.domainsPtr h.domainsPtr⟩

instance : Preorder (Version X) where
  le v v' := v.config ≤ v'.config ∧ v.whitelist ≤ v'.whitelist
  le_refl _ := ⟨le_refl _, le_refl _⟩
  le_trans _ _ _ h h' := ⟨h.1.trans h'.1, h.2.trans h'.2⟩

/-! ## Exemptions -/

theorem CidrSet.contains_mono {s t : CidrSet X} (h : s.nets ⊆ t.nets) {ip : IpAddr}
    (hs : s.contains ip = true) : t.contains ip = true := by
  obtain ⟨net, hnet, hip⟩ := contains_iff.mp hs
  exact contains_iff.mpr ⟨net, h hnet, hip⟩

theorem any_mono {α : Type} {p : α → Bool} {l l' : List α} (h : l ⊆ l') (hl : l.any p = true) :
    l'.any p = true := by
  rw [List.any_eq_true] at hl ⊢
  obtain ⟨a, ha, hp⟩ := hl
  exact ⟨a, h ha, hp⟩

/-- What a whitelist matches. -/
theorem Whitelist.isSome_matches_iff {w : Whitelist X} {ip : IpAddr} {helo : Str}
    {domain reverse : Option Str} :
    (w.matches ip helo domain reverse).isSome = true ↔
      w.ips.contains ip = true ∨ Text.lower helo ∈ w.heloNames ∨
        w.domains.any (matchesSuffix helo) = true ∨
        (∃ d, domain = some d ∧ w.domains.any (matchesSuffix d) = true) ∨
        ∃ r, reverse = some r ∧ w.domainsPtr.any (matchesSuffix r) = true := by
  have hany : ∀ {o : Option Str} {p : Str → Bool},
      o.any p = true ↔ ∃ d, o = some d ∧ p d = true := by
    intro o p
    cases o <;> simp
  rw [Whitelist.matches, ← List.contains_iff_mem, ← hany, ← hany]
  generalize w.ips.contains ip = b₁, w.heloNames.contains (Text.lower helo) = b₂,
    w.domains.any (matchesSuffix helo) = b₃,
    (domain.any fun d ↦ w.domains.any (matchesSuffix d)) = b₄,
    (reverse.any fun r ↦ w.domainsPtr.any (matchesSuffix r)) = b₅
  revert b₁ b₂ b₃ b₄ b₅
  decide

/-- **A whitelist with fewer entries matches less.** -/
theorem Whitelist.isSome_matches_anti {w w' : Whitelist X} (h : w ≤ w') {ip : IpAddr} {helo : Str}
    {domain reverse : Option Str} (hmatches : (w'.matches ip helo domain reverse).isSome = true) :
    (w.matches ip helo domain reverse).isSome = true := by
  rw [isSome_matches_iff] at hmatches ⊢
  rcases hmatches with hip | hhelo | hdomain | ⟨d, hd, hdomain⟩ | ⟨r, hr, hreverse⟩
  · exact .inl (CidrSet.contains_mono h.ips hip)
  · exact .inr (.inl (h.heloNames hhelo))
  · exact .inr (.inr (.inl (any_mono h.domains hdomain)))
  · exact .inr (.inr (.inr (.inl ⟨d, hd, any_mono h.domains hdomain⟩)))
  · exact .inr (.inr (.inr (.inr ⟨r, hr, any_mono h.domainsPtr hreverse⟩)))

/-- **What is exempt under a stricter version is exempt.** -/
theorem Exempt.anti {cfg cfg' : Config X} {w w' : Whitelist X} (hcfg : cfg ≤ cfg') (hw : w ≤ w')
    {req : PolicyRequest} {s : Subject} (h : Exempt cfg' w' req s) : Exempt cfg w req s := by
  rcases h with ⟨net, hskip, hip⟩ | ⟨net, hrelay, hip⟩ | ⟨hsasl, huser⟩ | hmatches
  · exact .inl ⟨net, hcfg.skip hskip, hip⟩
  · exact .inr (.inl ⟨net, hcfg.trustedRelays hrelay, hip⟩)
  · exact .inr (.inr (.inl ⟨Bool.le_iff_imp.mp hcfg.exemptSaslAuthenticated hsasl, huser⟩))
  · exact .inr (.inr (.inr (Whitelist.isSome_matches_anti hw hmatches)))

/-! ## Answers -/

/-- The answer under one version. -/
def Version.answer (checks : PureChecks X) (now : UInt64) (req : PolicyRequest) (v : Version X) :
    Action :=
  handleRequest (m := Id) (v.state checks) now req

section

variable {checks : PureChecks X} {now : UInt64} {req : PolicyRequest} {lo u v w hi : Version X}

/-- An evaluation is as severe as its decision. -/
theorem evaluateRequest_severity_mono {cfg cfg' : Config X} (h : cfg ≤ cfg') (s : Subject) :
    (evaluateRequest (m := Id) cfg checks now req s.clientIp s.helo s.sender : Action).severity ≤
      (evaluateRequest (m := Id) cfg' checks now req s.clientIp s.helo s.sender :
        Action).severity := by
  rw [evaluateRequest_id, evaluateRequest_id, decisionContext, decisionContext, h.srs]
  exact Engine.severity_decide_mono h.policy _ _ _ _

/-- **The answer is not below that of a version that is laxer than all it has seen.** -/
theorem le_severity_handleSeeing (hu : lo ≤ u) (hv : lo ≤ v) (hw : lo ≤ w) :
    (lo.answer checks now req).severity ≤
      (handleSeeing (m := Id) checks now req u v w : Action).severity := by
  rw [Version.answer, ← handleSeeing_self]
  cases hs : req.subject with
  | none =>
    rw [handleSeeing_of_subject_eq_none hs]
    exact Severity.none_le _
  | some s =>
    by_cases he : Exempt lo.config lo.whitelist req s
    · rw [handleSeeing_of_exempt hs he]
      exact Severity.none_le _
    · rw [handleSeeing_of_not_exempt hs he,
        handleSeeing_of_not_exempt hs fun h ↦ he (h.anti hu.1 hv.2)]
      exact evaluateRequest_severity_mono hw.1 s

/-- **The answer is not above that of a version that is stricter than all it has seen.** -/
theorem severity_handleSeeing_le (hu : u ≤ hi) (hv : v ≤ hi) (hw : w ≤ hi) :
    (handleSeeing (m := Id) checks now req u v w : Action).severity ≤
      (hi.answer checks now req).severity := by
  rw [Version.answer, ← handleSeeing_self]
  cases hs : req.subject with
  | none =>
    rw [handleSeeing_of_subject_eq_none hs]
    exact Severity.none_le _
  | some s =>
    by_cases he : Exempt u.config v.whitelist req s
    · rw [handleSeeing_of_exempt hs he]
      exact Severity.none_le _
    · rw [handleSeeing_of_not_exempt hs he,
        handleSeeing_of_not_exempt hs fun h ↦ he (h.anti hu.1 hv.2)]
      exact evaluateRequest_severity_mono hw.1 s

/-- A request that writes to the log is answered as one that does not. -/
theorem fst_transcript (ev : Evaluator X) (outside : Outside X) (u v w : Version X) :
    (transcript ev outside req u v w).1 =
      (handleSeeing (m := Id) (ev.checks outside) outside.now req u v w : Action) := by
  rw [transcript]
  cases hs : req.subject with
  | none => rw [handleSeeing_of_subject_eq_none hs, handleSeeing_of_subject_eq_none hs]; rfl
  | some s =>
    by_cases he : Exempt u.config v.whitelist req s
    · rw [handleSeeing_of_exempt hs he, handleSeeing_of_exempt hs he]; rfl
    · rw [handleSeeing_of_not_exempt hs he, handleSeeing_of_not_exempt hs he,
        evaluateRequest_logged, evaluateRequest_id]

end

/-! ## Runs -/

/-- What holds between every load and those before it holds between what the cells hold later and
what they held before. -/
theorem heldAfter_rel {r : Config X → Config X → Prop} {r' : Whitelist X → Whitelist X → Prop}
    [Std.Refl r] [Std.Refl r'] {loads : List (Version X)}
    (hloads : loads.Pairwise fun later earlier ↦
      r earlier.config later.config ∧ r' earlier.whitelist later.whitelist)
    {i j : ℕ} (hij : i ≤ j) {u v : Version X} (hu : heldAfter loads i = some u)
    (hv : heldAfter loads j = some v) : r u.config v.config ∧ r' u.whitelist v.whitelist := by
  have hrel : ∀ {i j : ℕ} {u v : Version X}, i ≤ j → loads.reverse[i]? = some u →
      loads.reverse[j]? = some v → r u.config v.config ∧ r' u.whitelist v.whitelist := by
    intro i j u v hij hu hv
    obtain ⟨hi, rfl⟩ := List.getElem?_eq_some_iff.mp hu
    obtain ⟨hj, rfl⟩ := List.getElem?_eq_some_iff.mp hv
    rcases Nat.eq_or_lt_of_le hij with rfl | hlt
    · exact ⟨Std.Refl.refl _, Std.Refl.refl _⟩
    · exact List.pairwise_iff_getElem.mp (List.pairwise_reverse.mpr hloads) i j hi hj hlt
  obtain ⟨u₁, u₂, hu₁, hu₂, rfl⟩ := heldAfter_eq_some_iff.mp hu
  obtain ⟨v₁, v₂, hv₁, hv₂, rfl⟩ := heldAfter_eq_some_iff.mp hv
  exact ⟨(hrel (Nat.div_le_div_right hij) hu₁ hv₁).1,
    (hrel (Nat.div_le_div_right (Nat.succ_le_succ hij)) hu₂ hv₂).2⟩

section

variable {fromStr : Str → Except X.TomlError (Config X)} {path : Str}
  {fromSystemConf : Except X.ResolveError (X.Resolver Id)} {fs fs' : FileSystem} {cfg : Config X}
  {state : AppState X (Evaluator X)} {es : List (ServiceEvent X)} {s : Service X}

/-- **Answers stay within bounds.**  Whatever is received and whenever the configuration is reloaded
while a request is handled:

* the answer is at least as severe as that of any version that is laxer than all that the cells
  held meanwhile, and at most as severe as that of any version that is stricter than all of them;
* so if every load was at least as strict as those before it, the answer lies between that of the
  version when the request was taken and that of the version when it was answered;
* and the other way round if every load was at most as strict. -/
theorem Service.severity_spec (hload : Config.load fs fromStr path = pure cfg)
    (hnew : AppState.new fromSystemConf fs' cfg = .ok state)
    (hrun : (machine fromStr path).run (start state) es = some s) :
    ∀ a ∈ s.journal,
      let severity := fun v : Version X ↦
        (v.answer (state.evaluator.checks a.outside) a.outside.now a.req).severity
      (∀ lo, (∀ n v, a.taken ≤ n → n ≤ a.answered → heldAfter s.loads n = some v → lo ≤ v) →
        severity lo ≤ a.action.severity) ∧
      (∀ hi, (∀ n v, a.taken ≤ n → n ≤ a.answered → heldAfter s.loads n = some v → v ≤ hi) →
        a.action.severity ≤ severity hi) ∧
      ∀ before after, heldAfter s.loads a.taken = some before →
        heldAfter s.loads a.answered = some after →
        (s.loads.Pairwise (fun later earlier ↦ earlier ≤ later) →
          severity before ≤ a.action.severity ∧ a.action.severity ≤ severity after) ∧
        (s.loads.Pairwise (fun later earlier ↦ later ≤ earlier) →
          severity after ≤ a.action.severity ∧ a.action.severity ≤ severity before) := by
  intro a ha severity
  obtain ⟨-, u, v, w, hreads, ht⟩ := (inv_of_run hload hnew hrun).justified a ha
  have haction : a.action =
      (handleSeeing (m := Id) (state.evaluator.checks a.outside) a.outside.now a.req u v w :
        Action) := by
    rw [← fst_transcript, ht]
  have hheld : ∀ x ∈ [u, v, w], ∃ n, a.taken ≤ n ∧ n ≤ a.answered ∧
      heldAfter s.loads n = some x := fun x hx ↦ hreads.exists_of_mem hx
  have hlower : ∀ lo, (∀ n v, a.taken ≤ n → n ≤ a.answered → heldAfter s.loads n = some v →
      lo ≤ v) → severity lo ≤ a.action.severity := by
    intro lo hlo
    have hall : ∀ x ∈ [u, v, w], lo ≤ x := by
      intro x hx
      obtain ⟨n, hn, hn', hx⟩ := hheld x hx
      exact hlo n x hn hn' hx
    rw [haction]
    exact le_severity_handleSeeing (hall u (by simp)) (hall v (by simp)) (hall w (by simp))
  have hupper : ∀ hi, (∀ n v, a.taken ≤ n → n ≤ a.answered → heldAfter s.loads n = some v →
      v ≤ hi) → a.action.severity ≤ severity hi := by
    intro hi hhi
    have hall : ∀ x ∈ [u, v, w], x ≤ hi := by
      intro x hx
      obtain ⟨n, hn, hn', hx⟩ := hheld x hx
      exact hhi n x hn hn' hx
    rw [haction]
    exact severity_handleSeeing_le (hall u (by simp)) (hall v (by simp)) (hall w (by simp))
  refine ⟨hlower, hupper, fun before after hbefore hafter ↦ ⟨fun hloads ↦ ?_, fun hloads ↦ ?_⟩⟩
  · exact ⟨hlower before fun n v hn _ hv ↦ heldAfter_rel hloads hn hbefore hv,
      hupper after fun n v _ hn hv ↦ heldAfter_rel hloads hn hv hafter⟩
  · have hrel := @heldAfter_rel X (· ≥ ·) (· ≥ ·) _ _ s.loads hloads
    exact ⟨hlower after fun n v _ hn hv ↦ hrel hn hv hafter,
      hupper before fun n v hn _ hv ↦ hrel hn hbefore hv⟩

end

/-- The reload of the sample goes on with a whitelist that has the HELO name of the request. -/
def sampleLoosening : List (ServiceEvent Crates.sample) :=
  [.work 0, .reload (.loadWhitelist (sampleFiles "new" "helo:mx.example.com")),
    .reload .storeWhitelist, .work 0, .reload .storeConfig, .work 0, .work 0, .finish 0]

/-- A request that was taken under the stricter version, and answered under the laxer one, which
would not have rejected it. -/
theorem Service.severity_spec_sample :
    ∃ s a before after, (machine sampleFromStr "rspf.toml".toList).run
        (start sampleReloader.state) ((sampleAsked ++ [sampleSignal]) ++ sampleLoosening) = some s ∧
      a ∈ s.journal ∧ heldAfter s.loads a.taken = some before ∧
      heldAfter s.loads a.answered = some after ∧
      let severity := fun v : Version Crates.sample ↦ (v.answer
        (Evaluator.checks sampleReloader.state.evaluator a.outside) a.outside.now a.req).severity
      severity after = .none ∧ a.action.severity = .reject ∧
      severity after ≤ a.action.severity ∧ a.action.severity ≤ severity before := by
  have hrun : (machine sampleFromStr "rspf.toml".toList).run (start sampleReloader.state)
      ((sampleAsked ++ [sampleSignal]) ++ sampleLoosening) = some _ :=
    (Machine.run_append_eq_some _).mpr ⟨_, run_sampleAsked, rfl⟩
  have hspec := severity_spec load_sampleFiles_old new_sampleReloader hrun _ List.mem_cons_self
  have hlooser : Version.mk listingConfig ⟨⟨[]⟩, ["mx.example.com".toList], [], []⟩ ≤
      sampleReloader.cells :=
    ⟨⟨le_refl _, rfl, List.Subset.refl _, List.Subset.refl _, le_refl _⟩,
      ⟨List.Subset.refl _, List.nil_subset _, List.Subset.refl _, List.Subset.refl _⟩⟩
  exact ⟨_, _, _, _, hrun, List.mem_cons_self, rfl, rfl, rfl, rfl,
    (hspec.2.2 _ _ rfl rfl).2 (List.pairwise_pair.mpr hlooser)⟩

/-! ## Bounces

The sender of a bounce is empty, and MAIL FROM is then checked under the HELO name. -/

variable (X) in
/-- A domain makes a sender at this domain. -/
def Crates.SendersFromDomains : Prop :=
  ∀ domain sender, X.senderFromDomain domain = some sender →
    X.domainName domain = some (X.senderDomain sender)

/-- **The two checks of a bounce are the same**, and ask the same questions. -/
theorem checkMailFrom_nil {m : Type → Type} [Monad m] [LawfulMonad m] (hX : X.SendersFromDomains)
    (ev : SpfEvaluator (X.Resolver m)) (ip : IpAddr) (helo : Str) :
    ev.checkMailFrom ip [] helo =
      (fun outcome : SpfOutcome X ↦ { outcome with identity := .mailFrom }) <$>
        ev.checkHelo ip helo := by
  rw [SpfEvaluator.checkMailFrom, SpfEvaluator.checkHelo]
  simp only [List.isEmpty_nil, if_true]
  cases hsender : X.senderFromDomain helo with
  | none => rw [map_pure]; rfl
  | some sender =>
    dsimp only
    rw [hX helo sender hsender, map_bind]
    simp only [map_pure]
    rfl

/-- An empty sender is no rewritten one. -/
theorem effectiveSender_nil (srs : SrsConfig) (now : UInt64) :
    effectiveSender X [] srs now = [] := by
  refine effectiveSender_of_not_valid fun o h ↦ ?_
  rw [tryUnwrap_of_forall_text_ne fun a ha ↦ absurd ha (List.cons_ne_nil _ _)] at h
  exact SrsUnwrap.noConfusion h

/-- The policy for both identities that is as strict as either. -/
def PolicyConfig.both (policy : PolicyConfig) : RejectPolicy :=
  max policy.heloReject policy.mailFromReject

/-- **Bounces.**  A request with an empty sender that is not exempt is answered by two checks of its
HELO name, one for each identity.

* It is as severe as the worse of the two results, each under the policy for its identity.
* If the DNS gives the second check what it gives the first, it is answered as if only HELO had been
  checked, under the stricter of the two policies: that is how severe the answer is, and if it is a
  rejection or a deferral then with the message for this result. -/
theorem handleRequest_bounce (hX : X.SendersFromDomains) (ev : Evaluator X) (outside : Outside X)
    (v : Version X) (req : PolicyRequest) (s : Subject) (hs : req.subject = some s)
    (hsender : s.sender = []) (hexempt : ¬ Exempt v.config v.whitelist req s) :
    let heloResult (dns : X.Resolver Id → X.Resolver Id) : X.Result :=
      (Checks.checkHelo (m := Id) (ev.asking dns) s.clientIp s.helo : SpfOutcome X).result
    let first := heloResult outside.heloDns
    let second := heloResult outside.mailFromDns
    let ctx : DecisionContext :=
      { ip := s.clientIp, sender := [], helo := s.helo, recipient := req.recipient.getD [] }
    let message := renderMessage v.config.messages first ctx
    let policy := v.config.policy
    let answer := v.answer (ev.checks outside) outside.now req
    answer.severity = max (policy.severity .helo first) (policy.severity .mailFrom second) ∧
    (second = first →
      answer.severity =
        classifySeverity policy.both first policy.permerrorReject policy.temperrorDefer ∧
      (answer.severity = .reject → answer = .reject message) ∧
      (answer.severity = .defer → answer = .deferIfPermit message)) := by
  intro heloResult first second ctx message policy answer
  let helo (dns : X.Resolver Id → X.Resolver Id) : SpfOutcome X :=
    Checks.checkHelo (m := Id) (ev.asking dns) s.clientIp s.helo
  let mailFrom : SpfOutcome X := { helo outside.mailFromDns with identity := .mailFrom }
  have hmail : (ev.checks outside).checkMailFrom s.clientIp [] s.helo = mailFrom :=
    checkMailFrom_nil (m := Id) hX
      { ev with lookup := (ev.asking outside.mailFromDns).lookup.toLookup } s.clientIp s.helo
  have hanswer : answer = Engine.decide v.config (helo outside.heloDns) mailFrom ctx := by
    have h : (handleRequest (v.state (ev.checks outside)) outside.now req : Id Action) = _ :=
      handleRequest_of_not_exempt hs hexempt
    rw [evaluateRequest_id, decisionContext, hsender, effectiveSender_nil] at h
    exact h.trans (congrArg (Engine.decide v.config (helo outside.heloDns) · ctx) hmail)
  have hseverity : answer.severity =
      max (policy.severity .helo first) (policy.severity .mailFrom second) := by
    rw [hanswer]
    exact Engine.severity_decide
  refine ⟨hseverity, fun hsame ↦ ?_⟩
  have hresponsible : (responsible policy (helo outside.heloDns) mailFrom).result = first := by
    rw [responsible]
    split
    · rfl
    · exact hsame
  obtain ⟨hreject, hdefer⟩ :=
    Engine.decide_of_severity v.config (helo outside.heloDns) mailFrom ctx
  rw [hresponsible, ← hanswer] at hreject hdefer
  refine ⟨?_, hreject, hdefer⟩
  rw [hseverity, hsame]
  exact (classifySeverity_max _ _).symm

/-- A bounce from a client without a record is rejected where senders are required to have one.  If
the DNS fails before the second check it is deferred, where this is what failures of the DNS are
for. -/
theorem handleRequest_bounce_sample :
    let version (policy : PolicyConfig) : Version Crates.sample :=
      ⟨{ sampleReloader.state.config with policy }, sampleReloader.state.whitelist⟩
    let failing (resolver : Crates.sample.Resolver Id) : Crates.sample.Resolver Id :=
      { resolver with lookupTxt := fun _ ↦ .error () }
    let req : PolicyRequest :=
      { heloName := some "mx.example.net".toList, sender := some []
        clientAddress := some "192.0.2.77".toList }
    let answer (policy : PolicyConfig)
        (dns : Crates.sample.Resolver Id → Crates.sample.Resolver Id) : Action :=
      (version policy).answer (Evaluator.checks sampleReloader.state.evaluator ⟨0, id, dns⟩) 0 req
    (answer { mailFromReject := .spfNotPass } id).severity = .reject ∧
    (answer { temperrorDefer := true } failing).severity = .defer := by
  intro version failing req answer
  let s : Subject := ⟨.v4 ⟨[192, 0, 2, 77], rfl⟩, "mx.example.net".toList, []⟩
  have hs : req.subject = some s := rfl
  have hskip (policy : PolicyConfig) :
      shouldSkip ((version policy).state sampleReloader.state.evaluator) req s.clientIp s.helo
        s.sender = none := rfl
  have hX : Crates.sample.SendersFromDomains := fun _ _ h ↦ h
  have hbounce (policy : PolicyConfig)
      (dns : Crates.sample.Resolver Id → Crates.sample.Resolver Id) :=
    handleRequest_bounce hX sampleReloader.state.evaluator ⟨0, id, dns⟩ (version policy) req s hs
      rfl (shouldSkip_eq_none_iff.mp (hskip policy))
  exact ⟨((hbounce { mailFromReject := .spfNotPass } id).2 rfl).1,
    (hbounce { temperrorDefer := true } failing).1⟩

end Rspf
