import Rspf.Config.Load
import Rspf.Lib.Loop

/-!
# What is wrong with a configuration

A configuration that is not accepted is reported by the first thing that is wrong with it, and an
operator fixes one fault after the other.  `Config.Faulty` says what is first: the checks have an
order, the templates have one, and so have the placeholders in a template.  The overrides have
none, since a hash map is walked in any order.

* `FirstUnknown` — the first placeholder of a template that the renderer does not know.
* `Config.Faulty` — what is wrong with a configuration, with everything before it in order.
* `Config.validate_eq_throw_iff` — validation reports what is wrong, and just this.
* `Config.load_faults` — the whole story of `Config.load`: which error it gives and when, that it
  gives one or a configuration, and that the order of the overrides only decides which of several
  bad records is named.
-/

set_option autoImplicit false

namespace Rspf

variable {X : Crates}

/-! ## Checks that fail -/

theorem throw_inj {ε α : Type} {e e' : ε} :
    (throw e : MayPanic ε α) = throw e' ↔ e = e' := by
  refine ⟨fun h ↦ ?_, fun h ↦ h ▸ rfl⟩
  have h : (some (.error e) : Option (Except ε α)) = some (.error e') := h
  exact Except.error.inj (Option.some.inj h)

/-- A computation fails where its first part does, or else where the rest does. -/
theorem bind_eq_throw_iff {ε α β : Type} {x : MayPanic ε α} {f : α → MayPanic ε β} {e : ε} :
    x >>= f = throw e ↔ x = throw e ∨ ∃ a, x = pure a ∧ f a = throw e := by
  refine ⟨?_, ?_⟩
  · intro h
    match x, h with
    | none, h => exact absurd h.symm (throw_ne_panicked e)
    | some (.error e'), h =>
      have h : (throw e' : MayPanic ε β) = throw e := h
      exact .inl (throw_inj.mp h ▸ rfl)
    | some (.ok a), h => exact .inr ⟨a, rfl, h⟩
  · rintro (rfl | ⟨a, rfl, h⟩)
    · rfl
    · exact h

/-- What does not panic succeeds or fails. -/
theorem eq_pure_or_throw {ε α : Type} {x : MayPanic ε α} (h : x ≠ panicked) :
    (∃ a, x = pure a) ∨ ∃ e, x = throw e := by
  match x, h with
  | none, h => exact absurd rfl h
  | some (.error e), _ => exact .inr ⟨e, rfl⟩
  | some (.ok a), _ => exact .inl ⟨a, rfl⟩

/-- **A loop of checks fails with the error of the first that does.** -/
theorem forM_eq_throw_iff {ε α : Type} {f : α → MayPanic ε Unit} (hf : ∀ a, f a ≠ panicked)
    {l : List α} {e : ε} :
    forM l f = throw e ↔ Loop.FirstFault (fun a e ↦ f a = throw e) l e := by
  induction l with
  | nil => exact iff_of_false (fun h ↦ throw_ne_pure e () h.symm) Loop.not_firstFault_nil
  | cons a l ih =>
    rw [List.forM_cons, bind_eq_throw_iff, Loop.firstFault_cons_iff, ← ih]
    refine or_congr Iff.rfl ⟨?_, ?_⟩
    · rintro ⟨⟨⟩, ha, hl⟩
      exact ⟨fun e' he' ↦ throw_ne_pure e' () (he'.symm.trans ha), hl⟩
    · rintro ⟨ha, hl⟩
      rcases eq_pure_or_throw (hf a) with ⟨⟨⟩, h⟩ | ⟨e', h⟩
      · exact ⟨(), h, hl⟩
      · exact absurd h (ha e')

/-! ## Templates -/

/-- The first placeholder of a template that is not a known one. -/
inductive FirstUnknown : Str → Str → Prop where
  /-- It comes first. -/
  | here {a p s : Str} : '{' ∉ a → '}' ∉ p → p ∉ knownMessagePlaceholders →
      FirstUnknown (a ++ '{' :: (p ++ '}' :: s)) p
  /-- A known one comes before it. -/
  | later {a p s q : Str} : '{' ∉ a → p ∈ knownMessagePlaceholders → FirstUnknown s q →
      FirstUnknown (a ++ '{' :: (p ++ '}' :: s)) q

theorem FirstUnknown.not_templateOk {s q : Str} (h : FirstUnknown s q) : ¬ TemplateOk s := by
  induction h with
  | here ha hp hunknown => exact fun hok ↦ hunknown ((templateOk_placeholder_iff ha hp).mp hok).1
  | later ha hknown _ ih =>
    have hp := (not_mem_of_mem_knownMessagePlaceholders hknown).2
    exact fun hok ↦ ih ((templateOk_placeholder_iff ha hp).mp hok).2

/-- The first placeholder is the one, or it is a known one and the first unknown one comes later. -/
theorem firstUnknown_placeholder_iff {a p t q : Str} (ha : '{' ∉ a) (hp : '}' ∉ p) :
    FirstUnknown (a ++ '{' :: (p ++ '}' :: t)) q ↔
      p ∉ knownMessagePlaceholders ∧ q = p ∨ p ∈ knownMessagePlaceholders ∧ FirstUnknown t q := by
  refine ⟨?_, ?_⟩
  · intro h
    generalize hs : a ++ '{' :: (p ++ '}' :: t) = s at h
    cases h with
    | here ha' hp' hunknown =>
      obtain ⟨-, hs⟩ := Split.append_cons_inj hs ha ha'
      obtain ⟨rfl, -⟩ := Split.append_cons_inj hs hp hp'
      exact .inl ⟨hunknown, rfl⟩
    | later ha' hknown h =>
      obtain ⟨-, hs⟩ := Split.append_cons_inj hs ha ha'
      obtain ⟨rfl, rfl⟩ :=
        Split.append_cons_inj hs hp (not_mem_of_mem_knownMessagePlaceholders hknown).2
      exact .inr ⟨hknown, h⟩
  · rintro (⟨hunknown, rfl⟩ | ⟨hknown, h⟩)
    · exact .here ha hp hunknown
    · exact .later ha hknown h

/-- **The check reports the first unknown placeholder.** -/
theorem validatePlaceholders_eq_throw_iff {name template : Str} {e : ConfigError X} :
    validatePlaceholders name template = throw e ↔
      ∃ p, FirstUnknown template p ∧ e = .unknownMessagePlaceholder name p := by
  induction hn : template.length using Nat.strongRecOn generalizing template with
  | ind n ih =>
    rcases template_cases template with h | ⟨a, b, rfl, ha, hb⟩ | ⟨a, p, t, rfl, ha, hp⟩
    · rw [validatePlaceholders_text h]
      exact iff_of_false (fun h ↦ throw_ne_pure e () h.symm)
        fun ⟨p, hp, _⟩ ↦ hp.not_templateOk (.text h)
    · rw [validatePlaceholders_unclosed ha hb]
      exact iff_of_false (fun h ↦ throw_ne_pure e () h.symm)
        fun ⟨p, hp, _⟩ ↦ hp.not_templateOk (.unclosed ha hb)
    · rw [validatePlaceholders_placeholder ha hp]
      simp only [firstUnknown_placeholder_iff ha hp]
      split
      · rename_i hunknown
        rw [throw_inj]
        refine ⟨fun h ↦ ⟨p, .inl ⟨hunknown, rfl⟩, h.symm⟩, ?_⟩
        rintro ⟨q, ⟨-, rfl⟩ | ⟨hknown, -⟩, rfl⟩
        · rfl
        · exact absurd hknown hunknown
      · rename_i hknown
        rw [Decidable.not_not] at hknown
        rw [ih t.length (by rw [← hn]; simp; omega) rfl]
        refine exists_congr fun q ↦ and_congr_left fun _ ↦ ⟨fun h ↦ .inr ⟨hknown, h⟩, ?_⟩
        rintro (⟨hunknown, -⟩ | ⟨-, h⟩)
        · exact absurd hknown hunknown
        · exact h

/-! ## Configurations -/

/-- An override is not an SPF record. -/
def OverrideFault (o : (_ : Str) × Str) (e : ConfigError X) : Prop :=
  ∃ source, X.parseSpfRecord o.2 = .error source ∧ e = .invalidOverrideRecord o.1 o.2 source

/-- A template mentions something that is not known. -/
def TemplateFault (t : Str × Str) (e : ConfigError X) : Prop :=
  ∃ p, FirstUnknown t.2 p ∧ e = .unknownMessagePlaceholder t.1 p

/-- The first thing that is wrong with a configuration. -/
inductive Config.Faulty (cfg : Config X) : ConfigError X → Prop where
  | listen : cfg.server.listen = [] → cfg.Faulty .noListenAddresses
  | secrets : cfg.server.listen ≠ [] → cfg.srs.enabled = true → cfg.srs.secrets = [] →
      cfg.Faulty .srsEnabledWithoutSecrets
  | override {e : ConfigError X} : cfg.server.listen ≠ [] →
      (cfg.srs.enabled = true → cfg.srs.secrets ≠ []) →
      Loop.FirstFault OverrideFault cfg.overrides.entries e → cfg.Faulty e
  | template {e : ConfigError X} : cfg.server.listen ≠ [] →
      (cfg.srs.enabled = true → cfg.srs.secrets ≠ []) →
      (∀ o ∈ cfg.overrides.entries, ∃ r, X.parseSpfRecord o.2 = .ok r) →
      Loop.FirstFault TemplateFault cfg.messages.named e → cfg.Faulty e

/-- The check of one override. -/
def checkOverride (o : (_ : Str) × Str) : MayPanic (ConfigError X) Unit :=
  match X.parseSpfRecord o.2 with
  | .ok _ => pure ()
  | .error source => throw (.invalidOverrideRecord o.1 o.2 source)

theorem checkOverride_ne_panicked (o : (_ : Str) × Str) :
    checkOverride (X := X) o ≠ panicked := by
  rw [checkOverride]
  split
  · exact pure_ne_panicked ()
  · exact throw_ne_panicked _

theorem checkOverride_eq_pure_iff {o : (_ : Str) × Str} :
    checkOverride (X := X) o = pure () ↔ ∃ r, X.parseSpfRecord o.2 = .ok r := by
  rw [checkOverride]
  cases X.parseSpfRecord o.2 with
  | ok r => exact iff_of_true rfl ⟨r, rfl⟩
  | error source => exact iff_of_false (throw_ne_pure _ ()) fun ⟨_, h⟩ ↦ absurd h nofun

theorem checkOverride_eq_throw_iff {o : (_ : Str) × Str} {e : ConfigError X} :
    checkOverride o = throw e ↔ OverrideFault o e := by
  rw [checkOverride, OverrideFault]
  cases X.parseSpfRecord o.2 with
  | ok r => exact iff_of_false (fun h ↦ throw_ne_pure e () h.symm) fun ⟨_, h, _⟩ ↦ absurd h nofun
  | error source =>
    dsimp only
    rw [throw_inj]
    refine ⟨fun h ↦ ⟨source, rfl, h.symm⟩, ?_⟩
    rintro ⟨source', hsource, rfl⟩
    rw [Except.error.inj hsource]

/-- Validation, one check after the other. -/
theorem Config.validate_eq (cfg : Config X) :
    cfg.validate =
      if cfg.server.listen = [] then throw .noListenAddresses
      else if cfg.srs.enabled = true ∧ cfg.srs.secrets = [] then throw .srsEnabledWithoutSecrets
      else forM cfg.overrides.entries checkOverride >>= fun _ ↦
        forM cfg.messages.named fun t ↦ validatePlaceholders t.1 t.2 := by
  simp only [validate, List.isEmpty_iff, Bool.and_eq_true]
  rfl

/-- **Validation reports the first thing that is wrong.** -/
theorem Config.validate_eq_throw_iff {cfg : Config X} {e : ConfigError X} :
    cfg.validate = throw e ↔ cfg.Faulty e := by
  have hoverrides : forM cfg.overrides.entries checkOverride = throw e ↔
      Loop.FirstFault OverrideFault cfg.overrides.entries e := by
    rw [forM_eq_throw_iff checkOverride_ne_panicked]
    simp only [checkOverride_eq_throw_iff]
  have htemplates : (forM cfg.messages.named fun t ↦ validatePlaceholders t.1 t.2) = throw e ↔
      Loop.FirstFault TemplateFault cfg.messages.named e := by
    rw [forM_eq_throw_iff fun t : Str × Str ↦ (validatePlaceholders_spec t.2).1]
    simp only [validatePlaceholders_eq_throw_iff]
    rfl
  rw [validate_eq]
  split
  · rename_i hlisten
    rw [throw_inj]
    refine ⟨?_, ?_⟩
    · rintro rfl
      exact .listen hlisten
    · rintro (_ | ⟨h, -, -⟩ | ⟨h, -, -⟩ | ⟨h, -, -, -⟩)
      · rfl
      all_goals exact absurd hlisten h
  · rename_i hlisten
    split
    · rename_i hsrs
      rw [throw_inj]
      refine ⟨?_, ?_⟩
      · rintro rfl
        exact .secrets hlisten hsrs.1 hsrs.2
      · rintro (h | _ | ⟨-, h, -⟩ | ⟨-, h, -, -⟩)
        · exact absurd h hlisten
        · rfl
        all_goals exact absurd hsrs.2 (h hsrs.1)
    · rename_i hsrs
      rw [not_and] at hsrs
      rw [bind_eq_throw_iff, hoverrides]
      simp only [htemplates]
      refine ⟨?_, ?_⟩
      · rintro (h | ⟨⟨⟩, hover, h⟩)
        · exact .override hlisten hsrs h
        · refine .template hlisten hsrs (fun o ho ↦ ?_) h
          exact checkOverride_eq_pure_iff.mp (forM_eq_pure_iff.mp hover o ho)
      · rintro (h | ⟨-, henabled, h⟩ | ⟨-, -, h⟩ | ⟨-, -, hover, h⟩)
        · exact absurd h hlisten
        · exact absurd h (hsrs henabled)
        · exact .inl h
        · refine .inr ⟨(), forM_eq_pure_iff.mpr fun o ho ↦ ?_, h⟩
          exact checkOverride_eq_pure_iff.mpr (hover o ho)

/-! ## Loading -/

/-- The same thing is wrong, but perhaps with another override. -/
def ConfigError.SameCheck (e e' : ConfigError X) : Prop :=
  e = e' ∨ (∃ domain record source, e = .invalidOverrideRecord domain record source) ∧
    ∃ domain record source, e' = .invalidOverrideRecord domain record source

/-- The order of the overrides only matters for which of them is named. -/
theorem Config.Faulty.perm {cfg : Config X} {e : ConfigError X} (h : cfg.Faulty e)
    {overrides : StrMap} (hperm : overrides.entries.Perm cfg.overrides.entries) :
    ∃ e', { cfg with overrides }.Faulty e' ∧ e.SameCheck e' := by
  cases h with
  | listen h => exact ⟨_, .listen h, .inl rfl⟩
  | secrets h h₁ h₂ => exact ⟨_, .secrets h h₁ h₂, .inl rfl⟩
  | override h h₁ h₂ =>
    obtain ⟨o, ho, hfault⟩ := h₂.exists_mem
    obtain ⟨e', he'⟩ := Loop.exists_firstFault (hperm.mem_iff.mpr ho) hfault
    obtain ⟨o', -, source', -, rfl⟩ := he'.exists_mem
    obtain ⟨source, -, rfl⟩ := hfault
    exact ⟨_, .override h h₁ he', .inr ⟨⟨_, _, _, rfl⟩, _, _, _, rfl⟩⟩
  | template h h₁ h₂ h₃ =>
    exact ⟨_, .template h h₁ (fun o ho ↦ h₂ o (hperm.mem_iff.mp ho)) h₃, .inl rfl⟩

/-- **How loading fails.**

* The error says that the file cannot be read, that it does not parse, or what the first thing is
  that is wrong with the configuration.
* There is always an error or a configuration: loading does not panic.
* The overrides are walked in an arbitrary order.  This does not decide whether there is an error,
  nor which check it comes from, but only which of several bad overrides is named. -/
theorem Config.load_faults (fs : FileSystem) (fromStr : Str → Except X.TomlError (Config X))
    (path : Str) :
    (∀ e, Config.load fs fromStr path = throw e ↔
      (∃ source, fs path = .error source ∧ e = .read path source) ∨
      (∃ raw source, fs path = .ok raw ∧ fromStr raw = .error source ∧ e = .parse path source) ∨
      ∃ raw cfg, fs path = .ok raw ∧ fromStr raw = .ok cfg ∧ cfg.Faulty e) ∧
    ((∃ cfg, Config.load fs fromStr path = pure cfg) ∨
      ∃ e, Config.load fs fromStr path = throw e) ∧
    ∀ (cfg : Config X) (overrides : StrMap), overrides.entries.Perm cfg.overrides.entries →
      ∀ e, cfg.Faulty e → ∃ e', { cfg with overrides }.Faulty e' ∧ e.SameCheck e' := by
  refine ⟨fun e ↦ ?_, ?_, fun cfg overrides hperm e h ↦ h.perm hperm⟩
  · rw [Config.load]
    cases fs path with
    | error source =>
      dsimp only
      rw [throw_inj]
      refine ⟨fun h ↦ .inl ⟨source, rfl, h.symm⟩, ?_⟩
      rintro (⟨source', h, rfl⟩ | ⟨raw, source', h, -⟩ | ⟨raw, cfg, h, -⟩)
      · rw [Except.error.inj h]
      · cases h
      · cases h
    | ok raw =>
      dsimp only
      cases hparse : fromStr raw with
      | error source =>
        dsimp only
        rw [throw_inj]
        refine ⟨fun h ↦ .inr (.inl ⟨raw, source, rfl, hparse, h.symm⟩), ?_⟩
        rintro (⟨source', h, -⟩ | ⟨raw', source', h, herror, rfl⟩ | ⟨raw', cfg, h, hok, -⟩)
        · cases h
        · obtain rfl := Except.ok.inj h
          rw [Except.error.inj (hparse.symm.trans herror)]
        · obtain rfl := Except.ok.inj h
          cases hparse.symm.trans hok
      | ok cfg =>
        dsimp only
        have hcfg : (cfg.validate >>= fun _ ↦ pure cfg) = throw e ↔ cfg.Faulty e := by
          rw [bind_eq_throw_iff, Config.validate_eq_throw_iff]
          refine or_iff_left ?_
          rintro ⟨-, -, h⟩
          exact throw_ne_pure e cfg h.symm
        refine hcfg.trans ⟨fun h ↦ .inr (.inr ⟨raw, cfg, rfl, hparse, h⟩), ?_⟩
        rintro (⟨source', h, -⟩ | ⟨raw', source', h, herror, -⟩ | ⟨raw', cfg', h, hok, hfaulty⟩)
        · cases h
        · obtain rfl := Except.ok.inj h
          cases hparse.symm.trans herror
        · obtain rfl := Except.ok.inj h
          obtain rfl := Except.ok.inj (hparse.symm.trans hok)
          exact hfaulty
  · exact eq_pure_or_throw (Config.load_ne_panicked fs fromStr path)

/-- The first unknown placeholder of the first bad template is reported, whatever comes after it. -/
theorem Config.load_faults_sample :
    let cfg : Config Crates.sample :=
      { server := { listen := [.unix "/run/rspf/policy.sock".toList] }
        messages :=
          { fail := "550 ".toList ++ '{' :: ("Sender".toList ++ '}' :: " {x}".toList)
            neutral := "550 {y}".toList } }
    Config.load (fun _ ↦ .ok []) (fun _ ↦ .ok cfg) "rspf.toml".toList =
      throw (.unknownMessagePlaceholder "fail".toList "Sender".toList) := by
  intro cfg
  have hunknown : FirstUnknown cfg.messages.fail "Sender".toList :=
    .here (by decide) (by decide) (by decide)
  refine ((Config.load_faults (fun _ ↦ .ok []) (fun _ ↦ .ok cfg) "rspf.toml".toList).1 _).mpr
    (.inr (.inr ⟨[], cfg, rfl, rfl, .template (List.cons_ne_nil _ _) nofun nofun ?_⟩))
  exact Loop.firstFault_cons_iff.mpr (.inl ⟨_, hunknown, rfl⟩)

end Rspf
