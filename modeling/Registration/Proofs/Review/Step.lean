import Registration.Proofs.Rule.Acceptance
import Registration.Review

/-!
# Single rules as steps

* `step_rule_eq`: a step with one rule in terms of its objection;
* `isOk_step_rule_iff`, `record_step_rule`: when it succeeds, and with what.
-/

namespace Registration.Review

variable {v : Review} {rule : Rule} {grants : List String}

theorem step_rule_eq (v : Review) (rule : Rule) (grants : List String) :
    v.step (.rule rule grants) =
      match rule.objection? v.policy ⟨v.record, grants⟩ with
      | none =>
        { review := { v with record := (rule.settle ⟨v.record, grants⟩).record }
          log := []
          reply := .ok (if rule = .grantTypes then .grants (rule.settle ⟨v.record, grants⟩).grants
            else .nothing) }
      | some e => ⟨v, [], .error e⟩ := by
  rw [step, applyRule, Rule.apply_eq]
  cases rule.objection? v.policy ⟨v.record, grants⟩ <;> rfl

theorem isOk_step_rule_iff :
    (v.step (.rule rule grants)).reply.isOk = true ↔
      rule.Permits v.policy ⟨v.record, grants⟩ := by
  rw [step_rule_eq, ← Rule.objection?_eq_none_iff]
  cases rule.objection? v.policy ⟨v.record, grants⟩ <;> simp [Except.isOk, Except.toBool]

theorem record_step_rule (h : rule.Permits v.policy ⟨v.record, grants⟩) :
    (v.step (.rule rule grants)).review.record = v.record.settleFields rule.writes := by
  rw [step_rule_eq, Rule.objection?_eq_none_iff.mpr h]
  rfl

end Registration.Review
