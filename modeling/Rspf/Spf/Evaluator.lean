import Rspf.Config.Model
import Rspf.Lib.Text

/-!
# Evaluating SPF

An `SpfEvaluator` is a resolver and the limits of an evaluation.  It checks the two identities of a
request, `checkHelo` and `checkMailFrom`, by handing them to `viaspf`; an identity that does not
parse is a permanent error and is not looked up.

The resolver the daemon uses is an `OverrideLookup`: it answers a TXT query itself if there is an
override for the name, and leaves everything else to the resolver below it.  `AnswersAsPatched` is
what overrides are for.  They do this if the keys that can be asked for are in lower case
(`OverrideLookup.answersAsPatched`), and only then (`OverrideLookup.queryableKeysLower`): the lookup
folds the case of the name and expects the keys of the map to have been folded already.

Both are written over an arbitrary monad, so that an equation between two of their actions also says
that they ask the same questions.
-/

set_option autoImplicit false

namespace Rspf

variable {X : Crates} {m : Type → Type}

/-! ## Evaluation -/

/-- `Identity`: what was checked. -/
inductive Identity where
  | helo
  | mailFrom
  deriving DecidableEq

variable (X) in
/-- `SpfOutcome`: the result of a check. -/
structure SpfOutcome where
  identity : Identity
  result : X.Result
  cause : Option X.Cause

/-- `SpfOutcome::permerror`. -/
def SpfOutcome.permerror (identity : Identity) : SpfOutcome X := ⟨identity, .permerror, none⟩

/-- `SpfOutcome::from_query_result`. -/
def SpfOutcome.fromQueryResult (identity : Identity)
    (result : QueryResult X.ExplanationString X.Mechanism X.ErrorCause) : SpfOutcome X :=
  ⟨identity, result.spfResult, result.cause⟩

/-- What the handler of a request asks of an evaluator. -/
class Checks (X : Crates) (m : Type → Type) (E : Type) where
  checkHelo : E → IpAddr → Str → m (SpfOutcome X)
  checkMailFrom : E → IpAddr → Str → Str → m (SpfOutcome X)

/-- `SpfEvaluator`. -/
structure SpfEvaluator (L : Type) where
  lookup : L
  config : ViaspfConfig

namespace SpfEvaluator

/-- `SpfEvaluator::new`. -/
def new {L : Type} (lookup : L) (cfg : SpfConfig) : SpfEvaluator L where
  lookup
  config :=
    { maxLookups := cfg.maxLookups, maxVoidLookups := cfg.voidLimit,
      timeout := cfg.lookupTimeoutSecs }

variable [Monad m]

/-- `check_helo`. -/
def checkHelo (ev : SpfEvaluator (X.Resolver m)) (ip : IpAddr) (helo : Str) : m (SpfOutcome X) :=
  match X.senderFromDomain helo with
  | none => pure (.permerror .helo)
  | some sender => do
    let heloDomain := X.senderDomain sender
    let result ← X.evaluateSender ev.lookup ev.config ip sender (some heloDomain)
    pure (.fromQueryResult .helo result)

/-- `check_mail_from`.  The null sender is checked under the HELO name. -/
def checkMailFrom (ev : SpfEvaluator (X.Resolver m)) (ip : IpAddr) (mailFrom helo : Str) :
    m (SpfOutcome X) :=
  match if mailFrom.isEmpty then X.senderFromDomain helo else X.senderFromAddress mailFrom with
  | none => pure (.permerror .mailFrom)
  | some sender => do
    let heloDomain := X.domainName helo
    let result ← X.evaluateSender ev.lookup ev.config ip sender heloDomain
    pure (.fromQueryResult .mailFrom result)

end SpfEvaluator

/-! ## Overrides -/

variable (X m) in
/-- `OverrideLookup`. -/
structure OverrideLookup where
  /-- The resolver below. -/
  inner : X.Resolver m
  /-- SPF records by domain, which the source says is in lower case. -/
  overrides : StrMap

/-- `impl Lookup for OverrideLookup`. -/
def OverrideLookup.toLookup [Monad m] (l : OverrideLookup X m) : X.Resolver m where
  lookupA name := l.inner.lookupA name
  lookupAaaa name := l.inner.lookupAaaa name
  lookupMx name := l.inner.lookupMx name
  lookupTxt name :=
    let key := Text.lower (X.nameToString name)
    match l.overrides.lookup key with
    | some record => pure (.ok [record])
    | none => l.inner.lookupTxt name
  lookupPtr ip := l.inner.lookupPtr ip

instance [Monad m] : Checks X m (SpfEvaluator (OverrideLookup X m)) where
  checkHelo ev := SpfEvaluator.checkHelo { ev with lookup := ev.lookup.toLookup }
  checkMailFrom ev := SpfEvaluator.checkMailFrom { ev with lookup := ev.lookup.toLookup }

/-! ### What overrides are for -/

/-- The resolver answers as the one below would with the overrides in its TXT zone: a query for a
name with an override, in whatever case either is written, is answered with that record, and at
once; every other query is passed on. -/
structure AnswersAsPatched [Monad m] (overrides : StrMap) (inner lookup : X.Resolver m) : Prop where
  /-- A name with an override. -/
  overridden : ∀ name, ∀ e ∈ overrides.entries,
    Text.lower e.1 = Text.lower (X.nameToString name) → lookup.lookupTxt name = pure (.ok [e.2])
  /-- A name without one. -/
  other : ∀ name, (∀ k ∈ overrides.keys, Text.lower k ≠ Text.lower (X.nameToString name)) →
    lookup.lookupTxt name = inner.lookupTxt name
  lookupA : lookup.lookupA = inner.lookupA
  lookupAaaa : lookup.lookupAaaa = inner.lookupAaaa
  lookupMx : lookup.lookupMx = inner.lookupMx
  lookupPtr : lookup.lookupPtr = inner.lookupPtr

/-- Keys that differ in case only are the same key. -/
def DistinctIgnoringCase (overrides : StrMap) : Prop :=
  ∀ k ∈ overrides.keys, ∀ k' ∈ overrides.keys, Text.lower k = Text.lower k' → k = k'

instance (overrides : StrMap) : Decidable (DistinctIgnoringCase overrides) :=
  inferInstanceAs (Decidable (∀ _ ∈ _, ∀ _ ∈ _, _ → _))

/-- The keys that some name spells are in lower case. -/
def QueryableKeysLower (X : Crates) (overrides : StrMap) : Prop :=
  ∀ k ∈ overrides.keys, ∀ name, Text.lower (X.nameToString name) = Text.lower k → Text.IsLower k

theorem mem_keys_of_mem_entries {overrides : StrMap} {e : (_ : Str) × Str}
    (h : e ∈ overrides.entries) : e.1 ∈ overrides.keys :=
  List.mem_map_of_mem h

/-- Lower-case keys are enough: a folded name finds the override of any spelling of it. -/
theorem OverrideLookup.answersAsPatched [Monad m] {l : OverrideLookup X m}
    (hlower : QueryableKeysLower X l.overrides) :
    AnswersAsPatched l.overrides l.inner l.toLookup where
  overridden name e he hk := by
    have hlow : Text.lower e.1 = e.1 := hlower e.1 (mem_keys_of_mem_entries he) name hk.symm
    have hfind : l.overrides.lookup (Text.lower (X.nameToString name)) = some e.2 := by
      rw [← hk, hlow]
      exact AList.mem_lookup_iff.mpr he
    simp only [toLookup, hfind]
  other name hno := by
    have hfind : l.overrides.lookup (Text.lower (X.nameToString name)) = none := by
      rw [AList.lookup_eq_none]
      intro hmem
      exact hno _ hmem (Text.lower_lower _)
    simp only [toLookup, hfind]
  lookupA := rfl
  lookupAaaa := rfl
  lookupMx := rfl
  lookupPtr := rfl

/-- A resolver that knows nothing. -/
def emptyLookup (X : Crates) : X.Resolver Id where
  lookupA _ := .ok []
  lookupAaaa _ := .ok []
  lookupMx _ := .ok []
  lookupTxt _ := .ok []
  lookupPtr _ := .ok []

/-- They are also needed: over a resolver that knows nothing, an override with a capital in its key
is not found. -/
theorem OverrideLookup.queryableKeysLower {overrides : StrMap}
    (hdistinct : DistinctIgnoringCase overrides)
    (h : AnswersAsPatched overrides (emptyLookup X)
      (OverrideLookup.toLookup ⟨emptyLookup X, overrides⟩)) :
    QueryableKeysLower X overrides := by
  intro k hk name hname
  obtain ⟨e, he, rfl⟩ := List.mem_map.mp hk
  have htxt := h.overridden name e he hname.symm
  cases hfind : overrides.lookup (Text.lower (X.nameToString name)) with
  | none =>
    simp only [toLookup, hfind] at htxt
    have htxt : (.ok [] : Except X.LookupError (List Str)) = .ok [e.2] := htxt
    simp at htxt
  | some record =>
    have hmem : Text.lower (X.nameToString name) ∈ overrides.keys :=
      mem_keys_of_mem_entries (AList.mem_lookup_iff.mp hfind)
    have hkey := hdistinct _ hk _ hmem (by rw [Text.lower_lower, hname])
    rw [Text.IsLower, ← hname, ← hkey]

end Rspf
