import Rspf.Config.Model
import Rspf.Lib.Slice

/-!
# Loading and validating a configuration

`Config.load` reads a file, parses it and calls `Config.validate`, which checks what the types
leave open: that there is something to listen on, that SRS has a secret if it is enabled, that the
override records are SPF records, and that the message templates only mention placeholders the
renderer knows.  The parser of TOML is not part of the repository, so it is a parameter.

The template check slices strings at byte offsets, so it could panic.  That is a third outcome next
to success and failure, and `MayPanic` has room for it.  It never does (`Config.load_ne_panicked`),
since all offsets come from a search for a brace, which is one byte long (`Rspf.Lib.Slice`).

`Config.validate_eq_ok_iff` describes the configurations that are accepted, in terms of
`TemplateOk`, which reads a template by splitting it.  Of two things that one might expect it says
nothing, since they are not checked: the form of the templates, which begin with a reply code if
they are to be understood, and the keys of the overrides, which only work in lower case.
-/

set_option autoImplicit false

namespace Rspf

variable {X : Crates}

/-- A `Result`, or a panic. -/
abbrev MayPanic (ε α : Type) : Type := ExceptT ε Option α

/-- Stop with a panic. -/
def panicked {ε α : Type} : MayPanic ε α := ExceptT.mk none

theorem pure_ne_panicked {ε α : Type} (a : α) : (pure a : MayPanic ε α) ≠ panicked :=
  Option.some_ne_none _

theorem throw_ne_panicked {ε α : Type} (e : ε) : (throw e : MayPanic ε α) ≠ panicked :=
  Option.some_ne_none _

theorem throw_ne_pure {ε α : Type} (e : ε) (a : α) : (throw e : MayPanic ε α) ≠ pure a := by
  intro h
  have h : (some (.error e) : Option (Except ε α)) = some (.ok a) := h
  simp at h

/-- A computation succeeds when its first part does, and then the rest. -/
theorem bind_eq_pure_iff {ε α β : Type} {x : MayPanic ε α} {f : α → MayPanic ε β} {b : β} :
    x >>= f = pure b ↔ ∃ a, x = pure a ∧ f a = pure b := by
  refine ⟨?_, ?_⟩
  · intro h
    match x, h with
    | none, h => exact absurd h.symm (pure_ne_panicked b)
    | some (.error e), h => exact absurd h (throw_ne_pure e b)
    | some (.ok a), h => exact ⟨a, rfl, h⟩
  · rintro ⟨a, rfl, h⟩
    exact h

/-- A loop of checks succeeds when each of them does. -/
theorem forM_eq_pure_iff {ε α : Type} {f : α → MayPanic ε Unit} {l : List α} :
    forM l f = pure () ↔ ∀ a ∈ l, f a = pure () := by
  induction l with
  | nil => simp
  | cons a l ih =>
    rw [List.forM_cons, bind_eq_pure_iff, List.forall_mem_cons, ← ih]
    refine ⟨?_, ?_⟩
    · rintro ⟨⟨⟩, ha, hl⟩; exact ⟨ha, hl⟩
    · rintro ⟨ha, hl⟩; exact ⟨(), ha, hl⟩

/-- A computation does not panic if none of its parts does. -/
theorem bind_ne_panicked {ε α β : Type} {x : MayPanic ε α} {f : α → MayPanic ε β}
    (hx : x ≠ panicked) (hf : ∀ a, f a ≠ panicked) : x >>= f ≠ panicked := by
  match x, hx with
  | none, hx => exact absurd rfl hx
  | some (.error e), _ => exact throw_ne_panicked e
  | some (.ok a), _ => exact hf a

theorem forM_ne_panicked {ε α : Type} {f : α → MayPanic ε Unit} (hf : ∀ a, f a ≠ panicked)
    (l : List α) : forM l f ≠ panicked := by
  induction l with
  | nil => exact pure_ne_panicked ()
  | cons a l ih =>
    rw [List.forM_cons]
    exact bind_ne_panicked (hf a) fun _ ↦ ih

/-- `ConfigError`. -/
inductive ConfigError (X : Crates) where
  | read (path : Str) (source : IoError)
  | parse (path : Str) (source : X.TomlError)
  | srsEnabledWithoutSecrets
  | invalidOverrideRecord (domain record : Str) (source : X.RecordParseError)
  | noListenAddresses
  | unknownMessagePlaceholder (name placeholder : Str)

/-! ## Templates -/

/-- `KNOWN_MESSAGE_PLACEHOLDERS`. -/
def knownMessagePlaceholders : List Str :=
  ["result".toList, "sender".toList, "helo".toList, "ip".toList, "recipient".toList]

/-- `validate_placeholders`, the loop with `rest = template`. -/
def validatePlaceholders (name template : Str) : MayPanic (ConfigError X) Unit :=
  match Slice.find '{' template with
  | none => pure ()
  | some openAt =>
    match hafter : Slice.sliceFrom template (openAt + 1) with
    | none => panicked
    | some afterOpen =>
      match Slice.find '}' afterOpen with
      | none => pure ()
      | some closeAt =>
        match Slice.sliceTo afterOpen closeAt with
        | none => panicked
        | some placeholder =>
          if placeholder ∉ knownMessagePlaceholders then
            throw (.unknownMessagePlaceholder name placeholder)
          else
            match hrest : Slice.sliceFrom afterOpen (closeAt + 1) with
            | none => panicked
            | some rest =>
              have : rest.length < template.length :=
                Nat.lt_trans (Slice.length_lt_of_sliceFrom hrest)
                  (Slice.length_lt_of_sliceFrom hafter)
              validatePlaceholders name rest
termination_by template.length

/-- The six templates with the names they are reported under. -/
def MessageTemplates.named (m : MessageTemplates) : List (Str × Str) :=
  [("fail".toList, m.fail), ("softfail".toList, m.softfail), ("neutral".toList, m.neutral),
    ("none".toList, m.none), ("permerror".toList, m.permerror), ("temperror".toList, m.temperror)]

/-! ## Configurations -/

/-- `Config::validate`. -/
def Config.validate (cfg : Config X) : MayPanic (ConfigError X) Unit :=
  if cfg.server.listen.isEmpty then throw .noListenAddresses
  else if cfg.srs.enabled && cfg.srs.secrets.isEmpty then throw .srsEnabledWithoutSecrets
  else do
    forM cfg.overrides.entries fun ⟨domain, record⟩ ↦
      match X.parseSpfRecord record with
      | .ok _ => pure ()
      | .error source => throw (.invalidOverrideRecord domain record source)
    forM cfg.messages.named fun (name, template) ↦ validatePlaceholders name template

/-- `Config::load`.  The parser of the format is a parameter. -/
def Config.load (fs : FileSystem) (fromStr : Str → Except X.TomlError (Config X)) (path : Str) :
    MayPanic (ConfigError X) (Config X) :=
  match fs path with
  | .error source => throw (.read path source)
  | .ok raw =>
    match fromStr raw with
    | .error source => throw (.parse path source)
    | .ok config => do
      config.validate
      pure config

/-! ## What the template check accepts -/

/-- A template as the check reads it: text without an opening brace, known placeholders, and
perhaps a last brace that nothing closes. -/
inductive TemplateOk : Str → Prop where
  /-- There is no opening brace. -/
  | text {s : Str} : '{' ∉ s → TemplateOk s
  /-- The last opening brace is never closed. -/
  | unclosed {a b : Str} : '{' ∉ a → '}' ∉ b → TemplateOk (a ++ '{' :: b)
  /-- A known placeholder comes first. -/
  | placeholder {a p s : Str} : '{' ∉ a → p ∈ knownMessagePlaceholders → TemplateOk s →
      TemplateOk (a ++ '{' :: (p ++ '}' :: s))

theorem not_mem_of_mem_knownMessagePlaceholders {p : Str} (h : p ∈ knownMessagePlaceholders) :
    '{' ∉ p ∧ '}' ∉ p := by
  have hall : ∀ p ∈ knownMessagePlaceholders, '{' ∉ p ∧ '}' ∉ p := by decide
  exact hall p h

variable {name : Str}

theorem validatePlaceholders_text {s : Str} (h : '{' ∉ s) :
    validatePlaceholders (X := X) name s = pure () := by
  rw [validatePlaceholders, Slice.find_eq_none h]

theorem validatePlaceholders_unclosed {a b : Str} (ha : '{' ∉ a) (hb : '}' ∉ b) :
    validatePlaceholders (X := X) name (a ++ '{' :: b) = pure () := by
  have hopen := Slice.find_append_cons ha b
  have hafter := Slice.sliceFrom_byteLen_add_one a (c := '{') rfl b
  rw [validatePlaceholders, hopen]
  dsimp only
  split
  · rename_i h; exact absurd (h.symm.trans hafter) (by simp)
  · rename_i afterOpen h
    rw [hafter, Option.some_inj] at h
    subst h
    rw [Slice.find_eq_none hb]

theorem validatePlaceholders_placeholder {a p : Str} (ha : '{' ∉ a) (hp : '}' ∉ p) (s : Str) :
    validatePlaceholders (X := X) name (a ++ '{' :: (p ++ '}' :: s)) =
      if p ∉ knownMessagePlaceholders then throw (.unknownMessagePlaceholder name p)
      else validatePlaceholders name s := by
  have hopen := Slice.find_append_cons ha (p ++ '}' :: s)
  have hafter := Slice.sliceFrom_byteLen_add_one a (c := '{') rfl (p ++ '}' :: s)
  have hclose := Slice.find_append_cons hp s
  have hrest := Slice.sliceFrom_byteLen_add_one p (c := '}') rfl s
  rw [validatePlaceholders, hopen]
  dsimp only
  split
  · rename_i h; exact absurd (h.symm.trans hafter) (by simp)
  · rename_i afterOpen h
    rw [hafter, Option.some_inj] at h
    subst h
    rw [hclose]
    dsimp only
    rw [Slice.sliceTo_byteLen_append]
    dsimp only
    split
    · rfl
    · split
      · rename_i h; exact absurd (h.symm.trans hrest) (by simp)
      · rename_i rest h
        rw [hrest, Option.some_inj] at h
        rw [h]

/-- Every string is text, ends in a brace that is not closed, or starts with a placeholder. -/
theorem template_cases (s : Str) :
    '{' ∉ s ∨ (∃ a b, s = a ++ '{' :: b ∧ '{' ∉ a ∧ '}' ∉ b) ∨
      ∃ a p t, s = a ++ '{' :: (p ++ '}' :: t) ∧ '{' ∉ a ∧ '}' ∉ p := by
  cases h : Split.splitOnce '{' s with
  | none => exact .inl (Split.splitOnce_eq_none_iff.mp h)
  | some q =>
    obtain ⟨a, b⟩ := q
    obtain ⟨rfl, ha⟩ := Split.splitOnce_eq_some_iff.mp h
    cases h' : Split.splitOnce '}' b with
    | none => exact .inr (.inl ⟨a, b, rfl, ha, Split.splitOnce_eq_none_iff.mp h'⟩)
    | some q =>
      obtain ⟨p, t⟩ := q
      obtain ⟨rfl, hp⟩ := Split.splitOnce_eq_some_iff.mp h'
      exact .inr (.inr ⟨a, p, t, rfl, ha, hp⟩)

theorem templateOk_placeholder_iff {a p t : Str} (ha : '{' ∉ a) (hp : '}' ∉ p) :
    TemplateOk (a ++ '{' :: (p ++ '}' :: t)) ↔ p ∈ knownMessagePlaceholders ∧ TemplateOk t := by
  refine ⟨?_, ?_⟩
  · intro h
    generalize hs : a ++ '{' :: (p ++ '}' :: t) = s at h
    cases h with
    | text h => exact absurd (hs ▸ by simp) h
    | unclosed ha' hb' =>
      obtain ⟨-, rfl⟩ := Split.append_cons_inj hs ha ha'
      exact absurd (by simp) hb'
    | placeholder ha' hp' h =>
      obtain ⟨-, hs⟩ := Split.append_cons_inj hs ha ha'
      obtain ⟨rfl, rfl⟩ :=
        Split.append_cons_inj hs hp (not_mem_of_mem_knownMessagePlaceholders hp').2
      exact ⟨hp', h⟩
  · rintro ⟨hp', h⟩
    exact .placeholder ha hp' h

/-- **The template check never panics, and accepts the well-formed templates.** -/
theorem validatePlaceholders_spec (template : Str) :
    validatePlaceholders (X := X) name template ≠ panicked ∧
      (validatePlaceholders (X := X) name template = pure () ↔ TemplateOk template) := by
  induction hn : template.length using Nat.strongRecOn generalizing template with
  | ind n ih =>
    rcases template_cases template with h | ⟨a, b, rfl, ha, hb⟩ | ⟨a, p, t, rfl, ha, hp⟩
    · rw [validatePlaceholders_text h]
      exact ⟨pure_ne_panicked (), iff_of_true rfl (.text h)⟩
    · rw [validatePlaceholders_unclosed ha hb]
      exact ⟨pure_ne_panicked (), iff_of_true rfl (.unclosed ha hb)⟩
    · rw [validatePlaceholders_placeholder ha hp, templateOk_placeholder_iff ha hp]
      split
      · rename_i hp'
        exact ⟨throw_ne_panicked _, iff_of_false (throw_ne_pure _ ()) fun h ↦ hp' h.1⟩
      · rename_i hp'
        obtain ⟨hpanic, hok⟩ := ih t.length (by rw [← hn]; simp; omega) t rfl
        refine ⟨hpanic, hok.trans ?_⟩
        rw [Decidable.not_not] at hp'
        simp [hp']

/-! ## What validation accepts -/

/-- **The configurations that validation accepts.** -/
theorem Config.validate_eq_ok_iff {cfg : Config X} :
    cfg.validate = pure () ↔
      cfg.server.listen ≠ [] ∧ (cfg.srs.enabled = true → cfg.srs.secrets ≠ []) ∧
      (∀ e ∈ cfg.overrides.entries, ∃ r, X.parseSpfRecord e.2 = .ok r) ∧
      ∀ t ∈ cfg.messages.named, TemplateOk t.2 := by
  have hrecord : ∀ e : (_ : Str) × Str,
      (match X.parseSpfRecord e.2 with
        | .ok _ => pure ()
        | .error source => throw (.invalidOverrideRecord e.1 e.2 source) :
          MayPanic (ConfigError X) Unit) = pure () ↔ ∃ r, X.parseSpfRecord e.2 = .ok r := by
    intro e
    split
    · rename_i r h; exact iff_of_true rfl ⟨r, h⟩
    · rename_i h; exact iff_of_false (throw_ne_pure _ ()) (by simp [h])
  rw [Config.validate]
  split
  · rename_i h
    exact iff_of_false (throw_ne_pure _ ()) fun hok ↦ hok.1 (List.isEmpty_iff.mp h)
  · rename_i hlisten
    rw [List.isEmpty_iff] at hlisten
    split
    · rename_i h
      rw [Bool.and_eq_true, List.isEmpty_iff] at h
      exact iff_of_false (throw_ne_pure _ ()) fun hok ↦ hok.2.1 h.1 h.2
    · rename_i hsrs
      rw [Bool.and_eq_true, List.isEmpty_iff, not_and] at hsrs
      rw [bind_eq_pure_iff]
      refine ⟨?_, ?_⟩
      · rintro ⟨⟨⟩, hover, hmsg⟩
        rw [forM_eq_pure_iff] at hover hmsg
        refine ⟨hlisten, hsrs, fun e he ↦ (hrecord e).mp (hover e he), fun t ht ↦ ?_⟩
        exact (validatePlaceholders_spec t.2).2.mp (hmsg t ht)
      · rintro ⟨-, -, hover, hmsg⟩
        refine ⟨(), forM_eq_pure_iff.mpr fun e he ↦ (hrecord e).mpr (hover e he), ?_⟩
        exact forM_eq_pure_iff.mpr fun t ht ↦ (validatePlaceholders_spec t.2).2.mpr (hmsg t ht)

/-- Validation never panics. -/
theorem Config.validate_ne_panicked (cfg : Config X) : cfg.validate ≠ panicked := by
  rw [Config.validate]
  split
  · exact throw_ne_panicked _
  · split
    · exact throw_ne_panicked _
    · refine bind_ne_panicked (forM_ne_panicked (fun e ↦ ?_) _) fun _ ↦
        forM_ne_panicked (fun t : Str × Str ↦ (validatePlaceholders_spec t.2).1) _
      show (match X.parseSpfRecord e.2 with | .ok _ => _ | .error source => _) ≠ _
      split
      · exact pure_ne_panicked ()
      · exact throw_ne_panicked _

/-- **What loading gives**: what the file parses to, if it passes validation. -/
theorem Config.load_eq_pure_iff {fs : FileSystem} {fromStr : Str → Except X.TomlError (Config X)}
    {path : Str} {cfg : Config X} :
    Config.load fs fromStr path = pure cfg ↔
      ∃ raw, fs path = .ok raw ∧ fromStr raw = .ok cfg ∧ cfg.validate = pure () := by
  rw [Config.load]
  cases fs path with
  | error source => exact iff_of_false (throw_ne_pure _ cfg) (by simp)
  | ok raw =>
    dsimp only
    cases hparse : fromStr raw with
    | error source => exact iff_of_false (throw_ne_pure _ cfg) (by simp [hparse])
    | ok config =>
      dsimp only
      rw [bind_eq_pure_iff]
      refine ⟨?_, ?_⟩
      · rintro ⟨⟨⟩, hvalid, h⟩
        have h : (some (.ok config) : Option (Except (ConfigError X) _)) = some (.ok cfg) := h
        rw [Option.some_inj, Except.ok.injEq] at h
        exact ⟨raw, rfl, by rw [hparse, h], h ▸ hvalid⟩
      · rintro ⟨raw', hraw, hparse', hvalid⟩
        obtain rfl := Except.ok.inj hraw
        obtain rfl := Except.ok.inj (hparse.symm.trans hparse')
        exact ⟨(), hvalid, rfl⟩

/-- Loading never panics. -/
theorem Config.load_ne_panicked (fs : FileSystem) (fromStr : Str → Except X.TomlError (Config X))
    (path : Str) : Config.load fs fromStr path ≠ panicked := by
  rw [Config.load]
  split
  · exact throw_ne_panicked _
  · split
    · exact throw_ne_panicked _
    · exact bind_ne_panicked (validate_ne_panicked _) fun _ ↦ pure_ne_panicked _

/-! ### Running the check -/

/-- Read a template character by character; the argument is the placeholder being read, reversed,
if there is one. -/
def scanTemplate : Option Str → Str → Bool
  | _, [] => true
  | none, c :: s => if c = '{' then scanTemplate (some []) s else scanTemplate none s
  | some p, c :: s =>
    if c = '}' then decide (p.reverse ∈ knownMessagePlaceholders) && scanTemplate none s
    else scanTemplate (some (c :: p)) s

theorem scanTemplate_none {a : Str} (ha : '{' ∉ a) (s : Str) :
    scanTemplate none (a ++ s) = scanTemplate none s := by
  induction a with
  | nil => rfl
  | cons c a ih =>
    rw [List.mem_cons, not_or] at ha
    rw [List.cons_append, scanTemplate, if_neg (Ne.symm ha.1), ih ha.2]

theorem scanTemplate_some {p : Str} (hp : '}' ∉ p) (q s : Str) :
    scanTemplate (some q) (p ++ s) = scanTemplate (some (p.reverse ++ q)) s := by
  induction p generalizing q with
  | nil => rfl
  | cons c p ih =>
    rw [List.mem_cons, not_or] at hp
    rw [List.cons_append, scanTemplate, if_neg (Ne.symm hp.1), ih hp.2, List.reverse_cons,
      List.append_assoc]
    rfl

theorem scanTemplate_eq_true_iff (s : Str) : scanTemplate none s = true ↔ TemplateOk s := by
  induction hn : s.length using Nat.strongRecOn generalizing s with
  | ind n ih =>
    rcases template_cases s with h | ⟨a, b, rfl, ha, hb⟩ | ⟨a, p, t, rfl, ha, hp⟩
    · rw [← List.append_nil s, scanTemplate_none h, List.append_nil]
      exact iff_of_true rfl (.text h)
    · have hend := scanTemplate_some hb [] []
      rw [List.append_nil] at hend
      rw [scanTemplate_none ha, scanTemplate, if_pos rfl, hend]
      exact iff_of_true rfl (.unclosed ha hb)
    · rw [templateOk_placeholder_iff ha hp, scanTemplate_none ha, scanTemplate, if_pos rfl,
        scanTemplate_some hp, scanTemplate, if_pos rfl, List.append_nil, List.reverse_reverse,
        Bool.and_eq_true, decide_eq_true_eq, ih t.length (by rw [← hn]; simp; omega) t rfl]

instance (s : Str) : Decidable (TemplateOk s) := decidable_of_iff _ (scanTemplate_eq_true_iff s)

/-- Every default template is well formed. -/
theorem MessageTemplates.templateOk_default :
    ∀ t ∈ ({} : MessageTemplates).named, TemplateOk t.2 := by
  decide

end Rspf
