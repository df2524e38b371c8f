import Registration.Proofs.Pass.Strict
import Registration.Proofs.Rule.Acceptance
import Registration.Review

/-!
# What strict passes accept

* `Review.strictPass_eq`: a strict pass in terms of the objections to its record;
* `Review.strictPass_failure_eq_none_iff`: it succeeds on the acceptable records;
* `Review.exists_objection_of_failure`: it fails with the objection of a rule
  before which there is none;
* `Review.strictPass_eq_of_acceptable`: it settles the optional lists of these;
* `Review.strictPass_succeeds_iff`: both, for every policy and record.
-/

namespace Registration.Review

open Pass (accepted rejectionLog)

/-- The rule on grant types comes before the match. -/
theorem shows_record (r : Record) : Pass.Shows ⟨r, []⟩ r Rule.all :=
  Pass.Shows.of_record r [] (by decide)

theorem strictPass_eq (v : Review) :
    v.strictPass =
      { record := v.record.settleFields ((accepted v.policy v.record Rule.all).flatMap Rule.writes)
        log := rejectionLog (Rule.all.findSome? (·.objection? v.policy v.record.draft))
        failure := Rule.all.findSome? (·.objection? v.policy v.record.draft) } :=
  Pass.strict_eq (shows_record v.record) (by decide) v.policy

theorem strictPass_failure_eq_none_iff (v : Review) :
    v.strictPass.failure = none ↔ Acceptable v.policy v.record := by
  rw [strictPass_eq, List.findSome?_eq_none_iff]
  exact ⟨fun h rule => Rule.objection?_eq_none_iff.mp (h rule (Rule.mem_all rule)),
    fun h rule _ => Rule.objection?_eq_none_iff.mpr (h rule)⟩

theorem exists_objection_of_failure {v : Review} {e : Failure}
    (h : v.strictPass.failure = some e) :
    ∃ rule : Rule, rule.objection? v.policy v.record.draft = some e ∧
      ∀ other ∈ rule.before, other.Permits v.policy v.record.draft := by
  rw [strictPass_eq] at h
  obtain ⟨rules, rule, rest, hall, hobjection, hnone⟩ := List.findSome?_eq_some_iff.mp h
  refine ⟨rule, hobjection, fun other ho => ?_⟩
  rw [Rule.before_eq hall] at ho
  exact Rule.objection?_eq_none_iff.mp (hnone other ho)

theorem strictPass_eq_of_acceptable {v : Review} (h : Acceptable v.policy v.record) :
    v.strictPass = ⟨v.record.settleFields Field.optionalLists, [], none⟩ := by
  have hno : ∀ rule : Rule, rule.objection? v.policy v.record.draft = none :=
    fun rule => Rule.objection?_eq_none_iff.mpr (h rule)
  have hnone : Rule.all.findSome? (·.objection? v.policy v.record.draft) = none :=
    List.findSome?_eq_none_iff.mpr fun rule _ => hno rule
  rw [strictPass_eq, Pass.accepted_eq_self fun rule _ => hno rule, hnone]
  rfl

/-- A strict pass succeeds on the records that meet every demand, whatever the policy. Of these it
changes the optional lists only: omitted ones become empty, and trusted prefixes end with a
slash. -/
theorem strictPass_succeeds_iff (v : Review) :
    (v.strictPass.failure = none ↔ Acceptable v.policy v.record) ∧
      (v.strictPass.failure = none →
        v.strictPass.record = v.record.settleFields Field.optionalLists) := by
  refine ⟨strictPass_failure_eq_none_iff v, fun h => ?_⟩
  rw [strictPass_eq_of_acceptable ((strictPass_failure_eq_none_iff v).mp h)]

end Registration.Review
