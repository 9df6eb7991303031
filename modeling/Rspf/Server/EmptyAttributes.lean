import Rspf.Server.Handle
import Rspf.Whitelist.Matching

/-!
# Empty attributes

Postfix sends an attribute without a value where there is nothing to say: an empty reverse name for
a client without a PTR record, and an empty user name for one that is not authenticated.  The log
takes an empty reverse name for an absent one, and `shouldSkip` does so with the user name.  The
whitelist does not: an entry `ptr:` without a value matches the empty reverse name, and so exempts
every client without a PTR record (`empty_ptr_exempts`).

`emptyIsAbsent_iff` says when it makes no difference whether an empty attribute is sent or left out.
The user name drops out of it, and so does the log.  What is left is about one entry, the one for
the empty name, and about whether the client is exempt anyway.  Both are said of the configuration
(`Listed`), not of the whitelist it loads to, so that an operator can look for the entry.
-/

set_option autoImplicit false

namespace Rspf

variable {X : Crates} {m : Type → Type} {E : Type}

/-! ## Leaving out what is empty -/

/-- An attribute, or nothing in the place of an empty one. -/
def LeftOut (a a' : Option Str) : Prop := a' = a ∨ a = some [] ∧ a' = none

theorem LeftOut.nonEmpty_eq {a a' : Option Str} (h : LeftOut a a') : nonEmpty a' = nonEmpty a := by
  rcases h with rfl | ⟨rfl, rfl⟩ <;> rfl

theorem LeftOut.exists_iff {a a' : Option Str} (h : LeftOut a a') :
    (∃ u, a' = some u ∧ u ≠ []) ↔ ∃ u, a = some u ∧ u ≠ [] := by
  rcases h with rfl | ⟨rfl, rfl⟩ <;> simp

/-- A request, perhaps without a reverse name or a user name that is empty. -/
def PolicyRequest.EmptyLeftOut (req req' : PolicyRequest) : Prop :=
  ∃ r u, LeftOut req.reverseClientName r ∧ LeftOut req.saslUsername u ∧
    req' = { req with reverseClientName := r, saslUsername := u }

variable (m) in
/-- It makes no difference whether an empty reverse name or user name is sent or left out: neither
to `should_skip`, nor to what `handle_request` does and answers. -/
def EmptyIsAbsent [Monad m] [Checks X m E] [Syslog m] (state : AppState X E) (req : PolicyRequest) :
    Prop :=
  ∀ req', req.EmptyLeftOut req' →
    (∀ s, req.subject = some s →
      (shouldSkip state req s.clientIp s.helo s.sender).isSome =
        (shouldSkip state req' s.clientIp s.helo s.sender).isSome) ∧
    ∀ now, (handleRequest state now req : m Action) = handleRequest state now req'

/-! ## Exemptions without the reverse name -/

/-- The domain of a sender, if it has one. -/
def Subject.mailFromDomain (s : Subject) : Option Str :=
  (Split.rsplitOnce '@' s.sender).map Prod.snd

/-- The client is exempt for a reason that has nothing to do with its reverse name. -/
def ExemptOtherwise (fs : FileSystem) (config : Config X) (req : PolicyRequest) (s : Subject) :
    Prop :=
  (∃ net ∈ config.skip.addresses.nets, X.netContains net s.clientIp = true) ∨
    (∃ net ∈ config.relay.trustedRelays.nets, X.netContains net s.clientIp = true) ∨
    (config.relay.exemptSaslAuthenticated = true ∧ ∃ u, req.saslUsername = some u ∧ u ≠ []) ∨
    ∃ e, Listed fs config.whitelist e ∧ e.Matches ⟨s.clientIp, s.helo, s.mailFromDomain, none⟩

variable {fs : FileSystem} {config : Config X} {whitelist : Whitelist X} {req req' : PolicyRequest}
  {s : Subject}

/-- Only entries for reverse names look at the reverse name. -/
theorem Entry.matches_iff {e : Entry X} {q : Question} :
    e.Matches q ↔ e.Matches { q with reverse := none } ∨
      ∃ name, e = .ptr name ∧ ∃ r, q.reverse = some r ∧ IsUnder r name := by
  cases e <;> simp [Entry.Matches]

/-- **A client is exempt by its reverse name or otherwise.** -/
theorem exempt_iff_listed (hload : Whitelist.load fs config.whitelist = .ok whitelist) :
    Exempt config whitelist req s ↔ ExemptOtherwise fs config req s ∨
      ∃ name, Listed fs config.whitelist (.ptr name : Entry X) ∧
        ∃ r, req.reverseClientName = some r ∧ IsUnder r name := by
  have hanswer : (whitelist.matches s.clientIp s.helo s.mailFromDomain
      req.reverseClientName).isSome = true ↔
        (∃ e, Listed fs config.whitelist e ∧
          e.Matches ⟨s.clientIp, s.helo, s.mailFromDomain, none⟩) ∨
        ∃ name, Listed fs config.whitelist (.ptr name : Entry X) ∧
          ∃ r, req.reverseClientName = some r ∧ IsUnder r name := by
    refine (Whitelist.answer_isSome_iff
      (q := ⟨s.clientIp, s.helo, s.mailFromDomain, req.reverseClientName⟩) hload).trans ?_
    simp only [Entry.matches_iff (q := ⟨_, _, _, req.reverseClientName⟩), and_or_left, exists_or]
    refine or_congr_right ⟨?_, ?_⟩
    · rintro ⟨_, he, name, rfl, hr⟩
      exact ⟨name, he, hr⟩
    · rintro ⟨name, he, hr⟩
      exact ⟨_, he, name, rfl, hr⟩
  rw [Exempt, ExemptOtherwise]
  show _ ∨ _ ∨ _ ∨ (whitelist.matches s.clientIp s.helo s.mailFromDomain _).isSome = true ↔ _
  rw [hanswer]
  simp only [or_assoc]

/-- Nothing but the empty domain is above the empty name. -/
theorem isUnder_nil_iff {domain : Str} : IsUnder [] domain ↔ domain = [] := by
  rw [← Whitelist.matchesSuffix_lower_iff, Whitelist.matchesSuffix]
  simp [Text.lower]

/-- Other reasons stay what they are when something empty is left out. -/
theorem exemptOtherwise_congr (h : req.EmptyLeftOut req') :
    ExemptOtherwise fs config req s ↔ ExemptOtherwise fs config req' s := by
  obtain ⟨r, u, -, hu, rfl⟩ := h
  rw [ExemptOtherwise, ExemptOtherwise, hu.exists_iff]

/-- **What may make a difference**: an entry for the empty reverse name. -/
theorem exempt_congr (hload : Whitelist.load fs config.whitelist = .ok whitelist)
    (h : req.EmptyLeftOut req')
    (hother : req.reverseClientName = some [] → Listed fs config.whitelist (.ptr [] : Entry X) →
      ExemptOtherwise fs config req s) :
    Exempt config whitelist req s ↔ Exempt config whitelist req' s := by
  rw [exempt_iff_listed hload, exempt_iff_listed hload, ← exemptOtherwise_congr h]
  obtain ⟨r, u, hr | ⟨hempty, hr⟩, -, rfl⟩ := h
  · rw [hr]
  · have hnone : ¬ ∃ name, Listed fs config.whitelist (.ptr name : Entry X) ∧
        ∃ n, r = some n ∧ IsUnder n name := by
      rintro ⟨name, -, n, hn, -⟩
      exact absurd (hr.symm.trans hn) nofun
    rw [or_iff_left hnone]
    refine ⟨?_, .inl⟩
    rintro (h | ⟨name, hlisted, n, hn, hunder⟩)
    · exact h
    · obtain rfl := Option.some.inj (hempty.symm.trans hn)
      obtain rfl := isUnder_nil_iff.mp hunder
      exact hother hempty hlisted

section

variable [Monad m] [Checks X m E] [Syslog m] {evaluator : E} {now : UInt64}

/-- An evaluation does the same without what is empty: the log does not look at it either. -/
theorem evaluateRequest_emptyLeftOut (h : req.EmptyLeftOut req') (clientIp : IpAddr)
    (helo sender : Str) :
    (evaluateRequest config evaluator now req clientIp helo sender : m Action) =
      evaluateRequest config evaluator now req' clientIp helo sender := by
  obtain ⟨r, u, hr, -, rfl⟩ := h
  simp only [evaluateRequest, logEvaluatedSpf, logLine, hr.nonEmpty_eq]

/-- **When an empty attribute counts as an absent one**: unless the reverse name is empty, an entry
for the empty reverse name is listed, and the client is not exempt for another reason. -/
theorem emptyIsAbsent_iff (hload : Whitelist.load fs config.whitelist = .ok whitelist)
    (evaluator : E) (req : PolicyRequest) :
    EmptyIsAbsent m ⟨config, whitelist, evaluator⟩ req ↔
      (req.reverseClientName = some [] → Listed fs config.whitelist (.ptr [] : Entry X) →
        ∀ s, req.subject = some s → ExemptOtherwise fs config req s) := by
  have hiff : ∀ r s, (shouldSkip (X := X) ⟨config, whitelist, evaluator⟩ r s.clientIp s.helo
      s.sender).isSome = true ↔ Exempt config whitelist r s := fun r s ↦
    Option.isSome_iff_ne_none.trans shouldSkip_ne_none_iff
  refine ⟨?_, ?_⟩
  · intro h hempty hlisted s hs
    have hleft : req.EmptyLeftOut { req with reverseClientName := none } :=
      ⟨none, req.saslUsername, .inr ⟨hempty, rfl⟩, .inl rfl, rfl⟩
    have hexempt : Exempt config whitelist req s :=
      (exempt_iff_listed hload).mpr (.inr ⟨[], hlisted, [], hempty, isUnder_nil_iff.mpr rfl⟩)
    have hexempt' : Exempt config whitelist { req with reverseClientName := none } s := by
      rw [← hiff, ← (h _ hleft).1 s hs, hiff]
      exact hexempt
    rcases (exempt_iff_listed hload).mp hexempt' with hother | ⟨name, -, r, hr, -⟩
    · exact (exemptOtherwise_congr hleft).mpr hother
    · exact absurd hr nofun
  · intro hother req' hleft
    have hexempt : ∀ s, req.subject = some s →
        (Exempt config whitelist req s ↔ Exempt config whitelist req' s) := fun s hs ↦
      exempt_congr hload hleft fun hempty hlisted ↦ hother hempty hlisted s hs
    refine ⟨fun s hs ↦ ?_, fun now ↦ ?_⟩
    · rw [Bool.eq_iff_iff, hiff, hiff]
      exact hexempt s hs
    · have hsubject : req'.subject = req.subject := by
        obtain ⟨r, u, -, -, rfl⟩ := hleft
        rfl
      cases hs : req.subject with
      | none =>
        rw [handleRequest_of_subject_eq_none hs,
          handleRequest_of_subject_eq_none (hsubject.trans hs)]
      | some s =>
        have hs' := hsubject.trans hs
        by_cases he : Exempt config whitelist req s
        · rw [handleRequest_of_exempt hs he,
            handleRequest_of_exempt hs' ((hexempt s hs).mp he)]
        · rw [handleRequest_of_not_exempt hs he,
            handleRequest_of_not_exempt hs' ((hexempt s hs).not.mp he)]
          exact evaluateRequest_emptyLeftOut hleft s.clientIp s.helo s.sender

end

/-! ## An entry without a value -/

/-- A whitelist file with an entry that has lost its value. -/
def emptyPtrFiles : FileSystem := fun _ ↦ .ok "# partners\nptr:\n".toList

/-- A configuration that uses it. -/
def emptyPtrConfig : Config Crates.sample where
  server := { listen := [.unix "/run/rspf/policy.sock".toList] }
  whitelist := { files := ["/etc/rspf/whitelist".toList] }

/-- What is loaded. -/
def emptyPtrWhitelist : Whitelist Crates.sample where
  ips := ⟨[]⟩
  heloNames := []
  domains := []
  domainsPtr := [[]]

/-- A daemon for which every MAIL FROM fails. -/
def emptyPtrState : AppState Crates.sample (PureChecks Crates.sample) where
  config := emptyPtrConfig
  whitelist := emptyPtrWhitelist
  evaluator :=
    { checkHelo := fun _ _ ↦ ⟨.helo, .none, none⟩
      checkMailFrom := fun _ _ _ ↦ ⟨.mailFrom, .fail sampleExplanation, some (.match ())⟩ }

/-- A request from a client without a PTR record, as Postfix sends it. -/
def noPtrRequest : PolicyRequest where
  heloName := some "mail.example.net".toList
  sender := some "user@example.com".toList
  clientAddress := some "192.0.2.1".toList
  reverseClientName := some []

theorem load_emptyPtrConfig :
    Whitelist.load emptyPtrFiles emptyPtrConfig.whitelist = .ok emptyPtrWhitelist := rfl

theorem listed_emptyPtr :
    Listed emptyPtrFiles emptyPtrConfig.whitelist (.ptr [] : Entry Crates.sample) := by
  refine .inr ⟨_, List.mem_cons_self, _, rfl, "ptr:".toList, by decide, "ptr".toList, [], rfl, ?_⟩
  exact .ptr

/-- An empty user name does no harm. -/
theorem emptyIsAbsent_iff_sample :
    EmptyIsAbsent Id emptyPtrState { noPtrRequest with
      reverseClientName := none, saslUsername := some [] } :=
  (emptyIsAbsent_iff load_emptyPtrConfig _ _).mpr fun hempty ↦ nomatch hempty

/-- **An empty reverse name does**: an accepted whitelist exempts every client that has none, and a
request that is rejected when the attribute is left out is not when it is empty. -/
theorem empty_ptr_exempts :
    emptyPtrConfig.validate = pure () ∧
    Whitelist.load emptyPtrFiles emptyPtrConfig.whitelist = .ok emptyPtrWhitelist ∧
    (∀ req s, req.subject = some s → req.reverseClientName = some [] →
      Exempt emptyPtrConfig emptyPtrWhitelist req s) ∧
    (handleRequest emptyPtrState 0 noPtrRequest : Id Action) = .dunno ∧
    (∃ msg, (handleRequest emptyPtrState 0 { noPtrRequest with reverseClientName := none } :
      Id Action) = .reject msg) ∧
    ¬ EmptyIsAbsent Id emptyPtrState noPtrRequest := by
  have hdunno : (handleRequest emptyPtrState 0 noPtrRequest : Id Action) = .dunno := rfl
  have hreject : ∃ msg, (handleRequest emptyPtrState 0
      { noPtrRequest with reverseClientName := none } : Id Action) = .reject msg := ⟨_, rfl⟩
  refine ⟨?_, rfl, ?_, hdunno, hreject, ?_⟩
  · refine Config.validate_eq_ok_iff.mpr ⟨?_, ?_, ?_, MessageTemplates.templateOk_default⟩
    · exact List.cons_ne_nil _ _
    · exact fun h ↦ nomatch h
    · exact fun e he ↦ nomatch he
  · intro req s _ hempty
    refine (exempt_iff_listed load_emptyPtrConfig).mpr (.inr ⟨[], listed_emptyPtr, [], hempty, ?_⟩)
    exact isUnder_nil_iff.mpr rfl
  · intro h
    have hleft : noPtrRequest.EmptyLeftOut { noPtrRequest with reverseClientName := none } :=
      ⟨none, none, .inr ⟨rfl, rfl⟩, .inl rfl, rfl⟩
    obtain ⟨msg, hmsg⟩ := hreject
    exact absurd (hdunno.symm.trans (((h _ hleft).2 0).trans hmsg)) nofun

end Rspf
