import Registration.Proofs.Pass.Faultless

/-!
# Strict and lenient passes side by side

A strict pass and a lenient one take the same steps until a rule rejects
something. Then the strict one ends, and the lenient one notes what the strict
one has ended with:

* `Pass.resets`: the rejections after which fields have been put back;
* `strict_log`: what a strict pass notes;
* `lenient_eq_strict`, `lenient_log_of_rejected`: a lenient pass is the strict
  one if that rejects nothing, and starts with its rejection if it does;
* `strict_append`: a strict pass over rules of which the first ones reject
  nothing;
* `lenientPass_eq_strictPass`, `head?_resets_lenientPass`, `lenientPass_agrees`:
  the passes of a review;
* `refuse_of_long_number`: the one failure that neither of them can tell.
-/

namespace Registration

/-- The rejection that is noted when fields are put back. -/
def LogEntry.reset? : LogEntry → Option Rejection
  | reset e => some e
  | _ => none

namespace Pass

/-- The rejections after which fields have been put back, in their order. -/
def resets (p : Pass) : List Rejection :=
  p.log.filterMap LogEntry.reset?

variable {policy : Policy} {defaults : Defaults} {rules : List Rule} {d : Draft}

/-- A strict pass notes the rejection with which it ends, and nothing else. -/
theorem strict_log (policy : Policy) (rules : List Rule) (d : Draft) :
    (strict policy rules d).log = rejectionLog (strict policy rules d).failure := by
  induction rules generalizing d with
  | nil => rfl
  | cons rule rules ih =>
    rw [strict]
    cases rule.apply policy d with
    | ok d => exact ih d
    | error e => cases e <;> rfl

theorem resets_strict (policy : Policy) (rules : List Rule) (d : Draft) :
    (strict policy rules d).resets = [] := by
  rw [resets, strict_log]
  cases (strict policy rules d).failure with
  | none => rfl
  | some e => cases e <;> rfl

/-- By induction on the rules: the drafts are the same as long as no rule rejects one. -/
theorem lenient_eq_strict (h : ∀ e, (strict policy rules d).failure ≠ some (.rejected e)) :
    lenient policy defaults rules d = strict policy rules d := by
  induction rules generalizing d with
  | nil => rfl
  | cons rule rules ih =>
    rw [strict] at h
    rw [lenient, strict]
    cases ha : rule.apply policy d with
    | ok d' =>
      rw [ha] at h
      exact ih h
    | error e =>
      rw [ha] at h
      cases e with
      | rejected e => exact absurd rfl (h e)
      | fault e => rfl

/-- By induction on the rules: the first rule to reject a draft finds the same one in both. -/
theorem lenient_log_of_rejected {e : Rejection}
    (h : (strict policy rules d).failure = some (.rejected e)) :
    ∃ log, (lenient policy defaults rules d).log = .reset e :: log := by
  induction rules generalizing d with
  | nil => cases h
  | cons rule rules ih =>
    rw [strict] at h
    rw [lenient]
    cases ha : rule.apply policy d with
    | ok d' =>
      rw [ha] at h
      exact ih h
    | error e' =>
      rw [ha] at h
      cases e' with
      | rejected e' =>
        obtain rfl : e' = e := by cases h; rfl
        exact ⟨_, rfl⟩
      | fault e' => cases h

/-- A strict pass that has not failed goes on with the draft that is handled. -/
theorem strict_append {rest : List Rule} (defaults : Defaults)
    (h : (strict policy rules d).failure = none) :
    strict policy (rules ++ rest) d = strict policy rest (handled policy defaults rules d) := by
  induction rules generalizing d with
  | nil => rfl
  | cons rule rules ih =>
    rw [strict, Rule.apply_eq] at h
    rw [List.cons_append, strict, Rule.apply_eq, handled, List.foldl_cons, Rule.handle]
    cases ho : rule.objection? policy d with
    | none =>
      rw [ho] at h
      exact ih h
    | some e =>
      rw [ho] at h
      cases e <;> cases h

end Pass

namespace Review

theorem lenientPass_eq_strictPass {v : Review}
    (h : ∀ e, v.strictPass.failure ≠ some (.rejected e)) : v.lenientPass = v.strictPass :=
  Pass.lenient_eq_strict h

theorem resets_strictPass (v : Review) : v.strictPass.resets = [] :=
  Pass.resets_strict ..

theorem head?_resets_lenientPass {v : Review} {e : Rejection}
    (h : v.strictPass.failure = some (.rejected e)) : v.lenientPass.resets.head? = some e := by
  obtain ⟨log, hlog⟩ : ∃ log, v.lenientPass.log = .reset e :: log :=
    Pass.lenient_log_of_rejected h
  rw [Pass.resets, hlog]
  rfl

/-- A lenient pass over a record that a strict one accepts is the same pass. Over one that is
rejected, it puts back something for that rejection first. A fault ends both passes alike before
anything is put back. With a policy that requires texts of texts the only fault is that a field of
the record cannot be written out. -/
theorem lenientPass_agrees (v : Review) :
    (v.strictPass.failure = none →
      v.lenientPass.failure = none ∧ v.lenientPass.record = v.strictPass.record ∧
        v.lenientPass.resets = []) ∧
    (∀ e, v.strictPass.failure = some (.rejected e) → v.lenientPass.resets.head? = some e) ∧
    (∀ e, v.strictPass.failure = some (.fault e) →
      v.lenientPass.failure = some (.fault e) ∧ v.lenientPass.resets = []) ∧
    (v.lenientPass.resets = [] ↔
      v.strictPass.failure = none ∨ ∃ e, v.strictPass.failure = some (.fault e)) ∧
    (v.policy.RequiresTexts → ∀ e, v.strictPass.failure = some (.fault e) →
      e = .unprintable ∧ ∃ f, (v.record.value f).isPrintable = false) := by
  have haccepted (h : v.strictPass.failure = none) : v.lenientPass = v.strictPass :=
    lenientPass_eq_strictPass fun e he => by rw [h] at he; cases he
  have hfault (e : Fault) (h : v.strictPass.failure = some (.fault e)) :
      v.lenientPass = v.strictPass :=
    lenientPass_eq_strictPass fun e' he => by rw [h] at he; cases he
  refine ⟨fun h => ?_, fun e h => head?_resets_lenientPass h, fun e h => ?_, ⟨fun h => ?_, ?_⟩,
    exists_of_strictPass_fault⟩
  · rw [haccepted h]
    exact ⟨h, rfl, v.resets_strictPass⟩
  · rw [hfault e h]
    exact ⟨h, v.resets_strictPass⟩
  · cases hs : v.strictPass.failure with
    | none => exact .inl rfl
    | some e =>
      cases e with
      | rejected e =>
        have hhead := head?_resets_lenientPass hs
        rw [h] at hhead
        cases hhead
      | fault e => exact .inr ⟨e, rfl⟩
  · rintro (h | ⟨e, h⟩)
    · rw [haccepted h]
      exact v.resets_strictPass
    · rw [hfault e h]
      exact v.resets_strictPass

/-- Of a value that is not supported and a group that is given twice, both passes find the value
first. -/
theorem lenientPass_agrees_of_two_rejections :
    ∃ (v : Review) (e : Rejection), v = stock (.ofEntries [("subject_type", .str "pairwise"),
        ("functional_user_groupIds", .ofTexts ["a", "a"])]) ∧
      e = .ofField .unsupportedValue .subjectType (.str "pairwise") ∧
      v.strictPass.failure = some (.rejected e) ∧ v.lenientPass.resets.head? = some e :=
  ⟨_, _, rfl, rfl, rfl, (lenientPass_agrees _).2.1 _ rfl⟩

/-- A number of too many digits is not supported, but this cannot be said. -/
theorem refuse_of_long_number {n : Int} (h : (Value.int n).isPrintable = false) (f : Field) :
    Failure.refuse .unsupportedValue f (.int n) = .fault .unprintable := by
  have hnot : (Rejection.ofField .unsupportedValue f (.int n)).canBeDescribed = false := by
    simp [Rejection.canBeDescribed, Rejection.ofField, Rejection.ofName, Reason.mentioned, h]
  rw [Failure.refuse, Failure.ofRejection, hnot, if_neg Bool.false_ne_true]

theorem strictPass_of_long_number {n : Int} (h : (Value.int n).isPrintable = false) :
    (stock (.ofEntries [("application_type", .int n)])).strictPass.failure =
      some (.fault .unprintable) := by
  have happly : Rule.applicationType.apply .stock
      ⟨.ofEntries [("application_type", .int n)], []⟩ =
        .error (.refuse .unsupportedValue .applicationType (.int n)) := rfl
  rw [refuse_of_long_number h] at happly
  rw [strictPass, Rule.all, Pass.strict, stock, happly]

/-- The type of an application may be a number that nobody can write out. Neither pass ends with a
record or a rejection then, and nothing is put back. -/
theorem lenientPass_resets_nothing_of_long_number :
    ∃ v : Review,
      v = stock (.ofEntries
        [("application_type", .int (.ofNat (Nat.pow 10 Value.digitLimit)))]) ∧
      v.strictPass.failure = some (.fault .unprintable) ∧
      v.lenientPass.failure = some (.fault .unprintable) ∧ v.lenientPass.resets = [] := by
  have hlong : (Value.int (.ofNat (Nat.pow 10 Value.digitLimit))).isPrintable = false := by
    decide +kernel
  have hstrict := strictPass_of_long_number hlong
  have hsame := lenientPass_eq_strictPass fun e he => nomatch hstrict.symm.trans he
  refine ⟨_, rfl, hstrict, ?_, ?_⟩
  · rw [hsame, hstrict]
  · rw [hsame, resets_strictPass]

end Review

end Registration
