import Registration.Proofs.Pass.Acceptance
import Registration.Proofs.Rule.Rejection

/-!
# The violation that is told

A record can hold many violations, in several fields and in several items of
one. A strict pass that rejects it tells one of them, and always the first:

* `Criterion.rank_le_of_not_mem_before`: criteria follow the order of the rules;
* `not_occurs_of_accepted`: an accepted record has no violation;
* `exists_isFirst_of_rejected`: the rejection of a record is that of the first;
* `strictPass_tells_first_violation`: both, with the error codes.
-/

namespace Registration

/-- What no rule looks for before a criterion's own does not come before the criterion. -/
theorem Criterion.rank_le_of_not_mem_before {c c' : Criterion} (hb : c'.rule ∉ c.rule.before)
    (hne : c'.rule ≠ c.rule) : c.rank ≤ c'.rank :=
  (by decide : ∀ c ∈ all, ∀ c' ∈ all, c'.rule ∉ c.rule.before → c'.rule ≠ c.rule →
    c.rank ≤ c'.rank) c (mem_all c) c' (mem_all c') hb hne

namespace Review

variable {v : Review} {e : Rejection}

theorem not_occurs_of_accepted (h : v.strictPass.failure = none) (x : Violation) :
    ¬ x.Occurs v.policy v.record :=
  fun hx => hx.not_permits ((strictPass_failure_eq_none_iff v).mp h _)

theorem exists_isFirst_of_rejected (h : v.strictPass.failure = some (.rejected e)) :
    ∃ x : Violation, Violation.IsFirst (·.Occurs v.policy v.record) x ∧
      e = x.rejection v.record := by
  obtain ⟨rule, hobjection, hbefore⟩ := exists_objection_of_failure h
  obtain ⟨c, rfl, ⟨x, hx, hfailure⟩, hc⟩ := Rule.exists_tells_of_objection hobjection
    fun hr => ⟨hbefore .responseTypes (hr ▸ by decide), e, rfl⟩
  -- The rules before permit the record, so their criteria are not violated.
  have hrank : ∀ y : Violation, y.Occurs v.policy v.record → c.rank ≤ y.criterion.rank := by
    intro y hy
    by_cases hr : y.criterion.rule = c.rule
    · exact hc y hy hr
    · exact Criterion.rank_le_of_not_mem_before (fun hm => hy.not_permits (hbefore _ hm)) hr
  exact ⟨x, .of_criterion hrank hx, Violation.eq_rejection_of_failure hfailure⟩

/-- A record that a strict pass accepts has no violation. The rejection with which it ends else is
that of the first of all violations of the record: it gives the reason and the field of that one,
and the item at fault or the whole field. It has the error code for redirections if these are
unusable, and in any other case the one for metadata. -/
theorem strictPass_tells_first_violation (v : Review) :
    (v.strictPass.failure = none → ∀ x : Violation, ¬ x.Occurs v.policy v.record) ∧
      ∀ e, v.strictPass.failure = some (.rejected e) →
        ∃ x : Violation, Violation.IsFirst (·.Occurs v.policy v.record) x ∧
          e = x.rejection v.record ∧
          (∀ i, x.item = some i →
            (v.record.value x.criterion.field).items[i]? = some (x.value v.record)) ∧
          (e.code = "invalid_redirect_uri" ↔ x.SpoilsRedirection) ∧
          (e.code = "invalid_client_metadata" ↔ ¬ x.SpoilsRedirection) := by
  refine ⟨not_occurs_of_accepted, fun e h => ?_⟩
  obtain ⟨x, hfirst, rfl⟩ := exists_isFirst_of_rejected h
  exact ⟨x, hfirst, rfl, fun i hi => hfirst.holds.getElem?_items hi, x.code_rejection v.record⟩

/-- The second redirection is relative, before the third repeats the first, and before the type of
the subject is looked at. -/
theorem strictPass_tells_first_violation_of_relative_redirection :
    ∃ (v : Review) (e : Rejection), v = stock (.ofEntries [
        ("redirect_uris", .ofTexts ["https://a.test/", "/b", "https://a.test/"]),
        ("subject_type", .str "pairwise")]) ∧
      e = .ofField .notAbsoluteUri .redirectUris (.str "/b") ∧
      v.strictPass.failure = some (.rejected e) ∧
      ∃ x : Violation, Violation.IsFirst (·.Occurs v.policy v.record) x ∧
        e = x.rejection v.record :=
  ⟨_, _, rfl, rfl, rfl,
    ((strictPass_tells_first_violation _).2 _ rfl).imp fun _ hx => ⟨hx.1, hx.2.1⟩⟩

end Review

end Registration
