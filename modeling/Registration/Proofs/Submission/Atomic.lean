import Registration.Proofs.Pass.Acceptance
import Registration.Proofs.Record.Name
import Registration.Submission

/-!
# Validating a submission

* `policy_eq`: the policy by which a submission is validated;
* `reviewed`: the review of its record by a policy;
* `validate_eq_of_policy`: a validation by way of that review, of which
  `result_eq_ok_iff`, `result_eq_error_iff` and `submission_of_accepted` tell
  the outcome;
* `result_eq_ok_iff_acceptable`, `record_validate`: the submissions that are
  accepted, and the record that is left of them;
* `validate_agrees_with_review`: a validation as a whole.
-/

namespace Registration

namespace Review

variable {v : Review}

theorem reply_strict_eq_ok_iff :
    (v.step .strict).reply = .ok .record ↔ v.strictPass.failure = none := by
  rw [step, finish]
  cases v.strictPass.failure <;> simp

theorem reply_strict_eq_error_iff {e : Failure} :
    (v.step .strict).reply = .error e ↔ v.strictPass.failure = some e := by
  rw [step, finish]
  cases v.strictPass.failure <;> simp

/-- The review of a value is that of the record as which it is read. -/
theorem create_eq_of_ofValue {r : Record} {w : Value} (h : Record.ofValue w = .ok r)
    (policy : Policy) (defaults : Defaults) :
    create policy defaults w = .ok (⟨r, policy, defaults⟩ : Review).decodeName := by
  rw [create, ofValue, h]
  rfl

end Review

namespace Submission

variable {s : Submission} {policy : Policy}

theorem policy_eq (s : Submission) :
    s.policy =
      if s.serverMetadata.isTruthy then Policy.ofServerMetadata .stock s.serverMetadata
      else .ok .stock := by
  rw [policy, Policy.ofOptions_stock]

/-- The review of the record, with the name of the client decoded. -/
def reviewed (s : Submission) (policy : Policy) : Review :=
  (⟨s.record, policy, .stock⟩ : Review).decodeName.1

theorem validate_eq_of_fault {e : Fault} (h : s.policy = .error e) :
    s.validate = (s, [], .error (.fault e)) := by
  rw [validate, review, h]
  rfl

theorem validate_eq_of_policy (h : s.policy = .ok policy) :
    s.validate =
      match (s.reviewed policy).strictPass.failure with
      | some e => (s, s.record.decodeName.2 ++ (s.reviewed policy).strictPass.log, .error e)
      | none =>
        ({ s with record := (s.reviewed policy).strictPass.record },
          s.record.decodeName.2 ++ (s.reviewed policy).strictPass.log, .ok ()) := by
  rw [validate, review, h]
  rfl

theorem result_eq_ok_iff (h : s.policy = .ok policy) :
    s.validate.2.2 = .ok () ↔ (s.reviewed policy).strictPass.failure = none := by
  rw [validate_eq_of_policy h]
  cases (s.reviewed policy).strictPass.failure <;> simp

theorem result_eq_error_iff (h : s.policy = .ok policy) {e : Failure} :
    s.validate.2.2 = .error e ↔ (s.reviewed policy).strictPass.failure = some e := by
  rw [validate_eq_of_policy h]
  cases (s.reviewed policy).strictPass.failure <;> simp

theorem log_eq (h : s.policy = .ok policy) :
    s.validate.2.1 = s.record.decodeName.2 ++ (s.reviewed policy).strictPass.log := by
  rw [validate_eq_of_policy h]
  cases (s.reviewed policy).strictPass.failure <;> rfl

theorem submission_of_accepted (h : s.policy = .ok policy) (ha : s.validate.2.2 = .ok ()) :
    s.validate.1 = { s with record := (s.reviewed policy).strictPass.record } := by
  rw [validate_eq_of_policy h, (result_eq_ok_iff h).mp ha]

theorem submission_of_rejected {e : Failure} (h : s.validate.2.2 = .error e) :
    s.validate.1 = s := by
  cases hp : s.policy with
  | error f => rw [validate_eq_of_fault hp]
  | ok policy => rw [validate_eq_of_policy hp, (result_eq_error_iff hp).mp h]

/-! ## Accepted submissions -/

/-- Nothing but the record and the server's metadata counts. -/
theorem result_eq_ok_iff_acceptable :
    s.validate.2.2 = .ok () ↔ ∃ policy, s.policy = .ok policy ∧ Acceptable policy s.record := by
  cases hp : s.policy with
  | error e =>
    rw [validate_eq_of_fault hp]
    simp
  | ok policy =>
    rw [result_eq_ok_iff hp, Review.strictPass_failure_eq_none_iff]
    simp only [Except.ok.injEq, exists_eq_left']
    exact acceptable_decodeName_iff

theorem record_validate (h : s.validate.2.2 = .ok ()) :
    s.validate.1 =
      { s with record := (s.record.settleFields Field.optionalLists).decodeName.1 } := by
  obtain ⟨policy, hp, ha⟩ := result_eq_ok_iff_acceptable.mp h
  have ha' : Acceptable policy s.record.decodeName.1 := acceptable_decodeName_iff.mpr ha
  rw [submission_of_accepted hp h, Record.decodeName_settleFields _ (by decide)]
  exact congrArg (fun p : Pass => { s with record := p.record })
    (Review.strictPass_eq_of_acceptable (v := s.reviewed policy) ha')

/-! ## Validation as a whole -/

theorem validate_with (s : Submission) (header options : Value) :
    ({ s with header, options } : Submission).validate =
      ({ s.validate.1 with header, options }, s.validate.2) := by
  cases hp : s.policy with
  | error e =>
    have hp' : ({ s with header, options } : Submission).policy = .error e := hp
    rw [validate_eq_of_fault hp, validate_eq_of_fault hp']
  | ok policy =>
    have hp' : ({ s with header, options } : Submission).policy = .ok policy := hp
    have hreviewed : ({ s with header, options } : Submission).reviewed policy =
        s.reviewed policy := rfl
    rw [validate_eq_of_policy hp, validate_eq_of_policy hp', hreviewed]
    cases (s.reviewed policy).strictPass.failure <;> rfl

/-- A submission is left as it was unless its validation succeeds. The validation fails if the
server's metadata, where they are given, make no policy, and ends else as a strict pass does in a
review of the same record, of which it takes over the record. What came with the record in the
request does not matter. -/
theorem validate_agrees_with_review (s : Submission) :
    (∀ e, s.validate.2.2 = .error e → s.validate.1 = s) ∧
    (match (if s.serverMetadata.isTruthy then Policy.ofServerMetadata .stock s.serverMetadata
        else .ok .stock) with
      | .error e => s.validate.2.2 = .error (.fault e)
      | .ok policy => ∃ v log, (⟨s.record, policy, .stock⟩ : Review).decodeName = (v, log) ∧
        (∀ w, Record.ofValue w = .ok s.record → Review.create policy .stock w = .ok (v, log)) ∧
        s.validate.2.1 = log ++ (v.step .strict).log ∧
        (∀ e, s.validate.2.2 = .error e ↔ (v.step .strict).reply = .error e) ∧
        (s.validate.2.2 = .ok () ↔ (v.step .strict).reply = .ok .record) ∧
        (s.validate.2.2 = .ok () →
          s.validate.1 = { s with record := (v.step .strict).review.record })) ∧
    ∀ header options, ({ s with header, options } : Submission).validate =
      ({ s.validate.1 with header, options }, s.validate.2) := by
  refine ⟨fun e => submission_of_rejected, ?_, validate_with s⟩
  rw [← policy_eq]
  cases hp : s.policy with
  | error e =>
    simp only
    rw [validate_eq_of_fault hp]
  | ok policy =>
    refine ⟨s.reviewed policy, s.record.decodeName.2, rfl, fun w hw => ?_, log_eq hp, fun e => ?_,
      ?_, submission_of_accepted hp⟩
    · exact Review.create_eq_of_ofValue hw policy .stock
    · rw [result_eq_error_iff hp, Review.reply_strict_eq_error_iff]
    · rw [result_eq_ok_iff hp, Review.reply_strict_eq_ok_iff]

end Submission

end Registration
