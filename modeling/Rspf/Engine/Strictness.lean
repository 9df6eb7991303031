import Mathlib.Order.MinMax
import Rspf.Engine

/-!
# Stricter policies

The policies for an identity come in an order, from `noCheck` to `spfNotPass`: each of them has
everything against a result that the one before it has (`classifySeverity_mono`).  This is seen best
if each result is assigned the laxest policy that minds it, as `classifySeverity_eq` does; the
source goes through the policies one by one instead.

A decision is as severe as the worse of the two results (`Engine.severity_decide`), and a stricter
policy never makes it milder (`Engine.severity_decide_mono`), whatever else the configuration says.
-/

set_option autoImplicit false

namespace Rspf

variable {X : Crates}

/-! ## The two orders -/

theorem Severity.rank_injective : Function.Injective Severity.rank := by
  intro a b h
  cases a <;> cases b <;> first | rfl | exact absurd h (by decide)

/-- The derived order of `Severity`. -/
instance : LinearOrder Severity := LinearOrder.lift' Severity.rank Severity.rank_injective

theorem Severity.none_le (a : Severity) : .none ≤ a := Nat.zero_le a.rank

/-- How strict a policy is. -/
def RejectPolicy.strictness : RejectPolicy → ℕ
  | noCheck => 0
  | never => 1
  | fail => 2
  | softFail => 3
  | spfNotPass => 4

theorem RejectPolicy.strictness_injective : Function.Injective RejectPolicy.strictness := by
  intro a b h
  cases a <;> cases b <;> first | rfl | exact absurd h (by decide)

/-- Policies, the laxer ones first. -/
instance : LinearOrder RejectPolicy :=
  LinearOrder.lift' RejectPolicy.strictness RejectPolicy.strictness_injective

/-- Policies for both identities, and for errors. -/
instance : Preorder PolicyConfig where
  le p q := p.heloReject ≤ q.heloReject ∧ p.mailFromReject ≤ q.mailFromReject ∧
    p.permerrorReject ≤ q.permerrorReject ∧ p.temperrorDefer ≤ q.temperrorDefer
  le_refl p := ⟨le_refl _, le_refl _, le_refl _, le_refl _⟩
  le_trans p q r := fun ⟨h₁, h₂, h₃, h₄⟩ ⟨h₁', h₂', h₃', h₄'⟩ ↦
    ⟨h₁.trans h₁', h₂.trans h₂', h₃.trans h₃', h₄.trans h₄'⟩

theorem PolicyConfig.rejectPolicy_mono {p q : PolicyConfig} (h : p ≤ q) (identity : Identity) :
    p.rejectPolicy identity ≤ q.rejectPolicy identity := by
  cases identity with
  | helo => exact h.1
  | mailFrom => exact h.2.1

/-! ## What a policy makes of a result -/

section

variable {p q : RejectPolicy} {result : X.Result} {permerrorReject temperrorDefer : Bool}

/-- **The laxest policy that minds a result.**  An error is minded by all but the laxest, if it is
minded at all. -/
theorem classifySeverity_eq :
    classifySeverity p result permerrorReject temperrorDefer =
      match result with
      | .pass => .none
      | .fail _ => if .fail ≤ p then .reject else .none
      | .softfail => if .softFail ≤ p then .reject else .none
      | .neutral | .none => if .spfNotPass ≤ p then .reject else .none
      | .permerror => if .never ≤ p ∧ permerrorReject = true then .reject else .none
      | .temperror => if .never ≤ p ∧ temperrorDefer = true then .defer else .none := by
  cases p <;> cases result <;> cases permerrorReject <;> cases temperrorDefer <;> rfl

theorem ite_severity_mono {P Q : Prop} [Decidable P] [Decidable Q] (h : P → Q) (a : Severity) :
    (if P then a else .none) ≤ if Q then a else .none := by
  split
  · rename_i hp
    rw [if_pos (h hp)]
  · exact Severity.none_le _

/-- **A stricter policy has no less against a result.** -/
theorem classifySeverity_mono {permerrorReject' temperrorDefer' : Bool} (h : p ≤ q)
    (hpermerror : permerrorReject ≤ permerrorReject')
    (htemperror : temperrorDefer ≤ temperrorDefer') (result : X.Result) :
    classifySeverity p result permerrorReject temperrorDefer ≤
      classifySeverity q result permerrorReject' temperrorDefer' := by
  rw [classifySeverity_eq, classifySeverity_eq]
  cases result with
  | pass => exact le_refl _
  | fail e => exact ite_severity_mono (fun hp ↦ hp.trans h) _
  | softfail => exact ite_severity_mono (fun hp ↦ hp.trans h) _
  | neutral => exact ite_severity_mono (fun hp ↦ hp.trans h) _
  | none => exact ite_severity_mono (fun hp ↦ hp.trans h) _
  | permerror =>
    exact ite_severity_mono (fun hp ↦ ⟨hp.1.trans h, Bool.le_iff_imp.mp hpermerror hp.2⟩) _
  | temperror =>
    exact ite_severity_mono (fun hp ↦ ⟨hp.1.trans h, Bool.le_iff_imp.mp htemperror hp.2⟩) _

/-- Two policies together have the severity of the worse one. -/
theorem classifySeverity_max (p q : RejectPolicy) :
    classifySeverity (max p q) result permerrorReject temperrorDefer =
      max (classifySeverity p result permerrorReject temperrorDefer)
        (classifySeverity q result permerrorReject temperrorDefer) := by
  have hmono : Monotone fun p ↦ classifySeverity p result permerrorReject temperrorDefer :=
    fun _ _ h ↦ classifySeverity_mono h (le_refl _) (le_refl _) result
  exact hmono.map_max

end

/-! ## Decisions -/

/-- How severe an action is. -/
def Action.severity : Action → Severity
  | .dunno | .prepend _ => .none
  | .deferIfPermit _ => .defer
  | .reject _ => .reject

variable {cfg cfg' : Config X} {helo mailFrom : SpfOutcome X} {ctx ctx' : DecisionContext}

theorem severity_accept : (accept cfg mailFrom ctx).severity = .none := by
  rw [accept]
  split <;> rfl

/-- **A decision is as severe as the worse of the two results.** -/
theorem Engine.severity_decide :
    (Engine.decide cfg helo mailFrom ctx).severity =
      max (cfg.policy.severity .helo helo.result)
        (cfg.policy.severity .mailFrom mailFrom.result) := by
  rw [Engine.decide_eq]
  cases cfg.policy.severity .helo helo.result <;>
    cases cfg.policy.severity .mailFrom mailFrom.result <;>
      first | rfl | exact severity_accept

/-- What is rejected or deferred carries the message for the result responsible. -/
theorem Engine.decide_of_severity (cfg : Config X) (helo mailFrom : SpfOutcome X)
    (ctx : DecisionContext) :
    ((Engine.decide cfg helo mailFrom ctx).severity = .reject →
      Engine.decide cfg helo mailFrom ctx =
        .reject (renderMessage cfg.messages (responsible cfg.policy helo mailFrom).result ctx)) ∧
    ((Engine.decide cfg helo mailFrom ctx).severity = .defer →
      Engine.decide cfg helo mailFrom ctx = .deferIfPermit
        (renderMessage cfg.messages (responsible cfg.policy helo mailFrom).result ctx)) := by
  rw [Engine.decide_eq]
  split
  · exact ⟨fun _ ↦ rfl, fun h ↦ Severity.noConfusion h⟩
  · exact ⟨fun _ ↦ rfl, fun h ↦ Severity.noConfusion h⟩
  · exact ⟨fun h ↦ Severity.noConfusion h, fun _ ↦ rfl⟩
  · exact ⟨fun h ↦ Severity.noConfusion h, fun _ ↦ rfl⟩
  · rw [severity_accept]
    exact ⟨fun h ↦ Severity.noConfusion h, fun h ↦ Severity.noConfusion h⟩

theorem PolicyConfig.severity_mono {p q : PolicyConfig} (h : p ≤ q) (identity : Identity)
    (result : X.Result) : p.severity identity result ≤ q.severity identity result :=
  classifySeverity_mono (rejectPolicy_mono h identity) h.2.2.1 h.2.2.2 result

/-- **A stricter policy never decides more mildly.** -/
theorem Engine.severity_decide_mono (h : cfg.policy ≤ cfg'.policy) (helo mailFrom : SpfOutcome X)
    (ctx ctx' : DecisionContext) :
    (Engine.decide cfg helo mailFrom ctx).severity ≤
      (Engine.decide cfg' helo mailFrom ctx').severity := by
  rw [Engine.severity_decide, Engine.severity_decide]
  exact max_le_max (PolicyConfig.severity_mono h _ _) (PolicyConfig.severity_mono h _ _)

end Rspf
