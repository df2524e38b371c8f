import Mathlib.Logic.Function.Iterate
import Registration.Proofs.Pass.Lenient
import Registration.Proofs.Record.Name
import Registration.Proofs.Review.Step

/-!
# What a review leaves alone

The rules on the two scopes object to nothing, so that what would put these
fields back never does. The name is decoded by a new review only, and no other
entry is looked at:

* `Field.reviewed`: the fields that a review may change besides the name;
* `mem_reviewed_of_objection?`: the rules that may object are on such fields;
* `changesOnly_strict`, `changesOnly_lenient`: passes, also those that end with
  a failure;
* `changesOnly_step`, `registered_clientName_step`: one step;
* `changesOnly_run`, `registered_clientName_run`: steps in succession;
* `run_keeps_untouched`: the same for any key.
-/

namespace Registration

/-- The fields that rules settle or put back, or that are filled if they are omitted. -/
def Field.reviewed : List Field :=
  [applicationType, responseTypes, grantTypes, redirectUris, postLogoutRedirectUris,
   trustedUriPrefixes, subjectType, tokenEndpointAuthMethod, functionalUserGroupIds,
   clientIdIssuedAt, clientSecretExpiresAt, registrationClientUri]

/-! ## Rules -/

namespace Rule

variable {policy : Policy} {rule : Rule} {d : Draft}

/-- The rules on the scopes, which would put back other fields, have no objections. -/
theorem mem_reviewed_of_objection? {e : Failure} (h : rule.objection? policy d = some e) :
    rule.changes ⊆ Field.reviewed := by
  have hscope : rule ≠ scope ∧ rule ≠ preauthorizedScope := by
    rw [objection?_eq] at h
    constructor <;> rintro rfl <;> cases h
  exact (by decide : ∀ rule : Rule, rule ≠ scope ∧ rule ≠ preauthorizedScope →
    rule.changes ⊆ Field.reviewed) rule hscope

theorem writes_subset_reviewed (rule : Rule) : rule.writes ⊆ Field.reviewed :=
  (by decide : ∀ rule : Rule, rule.writes ⊆ Field.reviewed) rule

theorem changesOnly_reviewed_settle (rule : Rule) (d : Draft) :
    d.record.ChangesOnly Field.reviewed (rule.settle d).record :=
  (d.record.changesOnly_settleFields rule.writes).mono rule.writes_subset_reviewed

theorem changesOnly_reviewed_reset {e : Failure} (h : rule.objection? policy d = some e)
    (defaults : Defaults) :
    d.record.ChangesOnly Field.reviewed (rule.reset defaults d).record :=
  (rule.changesOnly_resetRecord defaults d.record).mono (mem_reviewed_of_objection? h)

end Rule

/-! ## Passes -/

namespace Pass

/-- By induction on the rules. The failure with which a pass ends changes nothing. -/
theorem changesOnly_strict (policy : Policy) (rules : List Rule) (d : Draft) :
    d.record.ChangesOnly Field.reviewed (strict policy rules d).record := by
  induction rules generalizing d with
  | nil => exact .refl _ d.record
  | cons rule rules ih =>
    rw [strict, Rule.apply_eq]
    cases rule.objection? policy d with
    | none => exact (rule.changesOnly_reviewed_settle d).trans (ih (rule.settle d))
    | some e => cases e <;> exact .refl _ d.record

/-- By induction on the rules. Fields are put back only if their rule has objected. -/
theorem changesOnly_lenient (policy : Policy) (defaults : Defaults) (rules : List Rule)
    (d : Draft) : d.record.ChangesOnly Field.reviewed (lenient policy defaults rules d).record := by
  induction rules generalizing d with
  | nil => exact .refl _ d.record
  | cons rule rules ih =>
    rw [lenient, Rule.apply_eq]
    cases ho : rule.objection? policy d with
    | none => exact (rule.changesOnly_reviewed_settle d).trans (ih (rule.settle d))
    | some e =>
      cases e with
      | rejected e =>
        have hreset := Rule.changesOnly_reviewed_reset ho defaults
        exact hreset.trans (ih (rule.reset defaults d))
      | fault e => exact .refl _ d.record

end Pass

/-! ## Steps -/

namespace Review

/-- The steps that change an entry at will. -/
def Step.isEdit : Step → Bool
  | .insert .. | .erase .. => true
  | _ => false

/-- The step that decodes the name. -/
def Step.isRecreate : Step → Bool
  | .recreate => true
  | _ => false

variable {s : Step}

/-- Only a new review changes the name. -/
theorem changesOnly_reviewed_step (v : Review) (he : s.isEdit = false)
    (hr : s.isRecreate = false) :
    v.record.ChangesOnly Field.reviewed (v.step s).review.record := by
  cases s with
  | strict => exact Pass.changesOnly_strict v.policy Rule.all ⟨v.record, []⟩
  | lenient => exact Pass.changesOnly_lenient v.policy v.defaults Rule.all ⟨v.record, []⟩
  | fillDefaults => exact (v.record.changesOnly_fillDefaults v.defaults).mono (by decide)
  | rule rule grants =>
    rw [step_rule_eq]
    split
    · exact rule.changesOnly_reviewed_settle ⟨v.record, grants⟩
    · exact .refl _ v.record
  | insert | erase => cases he
  | recreate => cases hr

theorem changesOnly_step (v : Review) (he : s.isEdit = false) :
    v.record.ChangesOnly (.clientName :: Field.reviewed) (v.step s).review.record := by
  cases hr : s.isRecreate with
  | false =>
    refine (v.changesOnly_reviewed_step he hr).mono ?_
    exact List.subset_cons_self ..
  | true =>
    cases s with
    | recreate => exact v.record.changesOnly_decodeName.mono (by decide)
    | _ => cases hr

theorem registered_clientName_step (v : Review) (he : s.isEdit = false) :
    (v.step s).review.record.registered .clientName =
      if s.isRecreate = true then Record.decodedName (v.record.registered .clientName)
      else v.record.registered .clientName := by
  split
  · rename_i hr
    cases s with
    | recreate => exact v.record.registered_decodeName
    | _ => cases hr
  · rename_i hr
    have hstep := v.changesOnly_reviewed_step he (Bool.eq_false_iff.mpr hr)
    exact hstep.registered .clientName (by decide)

/-! ## Steps in succession -/

/-- By induction on the steps. -/
theorem changesOnly_run (v : Review) {ss : List Step} (h : ∀ s ∈ ss, s.isEdit = false) :
    v.record.ChangesOnly (.clientName :: Field.reviewed) (v.run ss).record := by
  induction ss generalizing v with
  | nil => exact .refl _ v.record
  | cons s ss ih =>
    have hs := v.changesOnly_step (h s (List.mem_cons_self ..))
    exact hs.trans (ih (v.step s).review fun s' hs' => h s' (List.mem_cons_of_mem _ hs'))

/-- By induction on the steps: each new review decodes what the one before has left. -/
theorem registered_clientName_run (v : Review) {ss : List Step}
    (h : ∀ s ∈ ss, s.isEdit = false) :
    (v.run ss).record.registered .clientName =
      Record.decodedName^[ss.countP Step.isRecreate] (v.record.registered .clientName) := by
  induction ss generalizing v with
  | nil => rfl
  | cons s ss ih =>
    have hs := v.registered_clientName_step (h s (List.mem_cons_self ..))
    have hss := ih (v.step s).review fun s' hs' => h s' (List.mem_cons_of_mem _ hs')
    rw [run, hss, hs, List.countP_cons]
    split
    · rw [Function.iterate_succ_apply]
    · rfl

/-- Whatever is done in a review short of editing the record, and whether or not it succeeds, the
two scopes and all entries that are no registered field stay as they are. The name is decoded by
each new review, if it can be, and by nothing else. -/
theorem run_keeps_untouched (v : Review) (ss : List Step) (h : ∀ s ∈ ss, s.isEdit = false) :
    (∀ key, Field.ofName? key ∈ [none, some .scope, some .preauthorizedScope] →
        (v.run ss).record.get? key = v.record.get? key) ∧
      (v.run ss).record.unnamed = v.record.unnamed ∧
      (v.run ss).record.registered .clientName =
        Record.decodedName^[ss.countP Step.isRecreate] (v.record.registered .clientName) := by
  have hrun := v.changesOnly_run h
  refine ⟨fun key hkey => hrun.get? fun f hf => ?_, hrun.unnamed, v.registered_clientName_run h⟩
  -- Of the registered fields only the scopes are left, and neither is ever changed.
  rw [hf] at hkey
  simp only [List.mem_cons, reduceCtorEq, Option.some.injEq, List.not_mem_nil, or_false,
    false_or] at hkey
  rcases hkey with rfl | rfl <;> decide

/-- Both passes, single rules and new reviews, of which some fail. -/
theorem run_keeps_untouched_of_failing_steps :
    ∃ (v : Review) (ss : List Step), v = stock (.ofEntries [("client_name", .str "a%252Bb"),
        ("scope", .int 3), ("note", .map []), ("subject_type", .str "none"),
        ("redirect_uris", .str "/cb")]) ∧
      ss = [.strict, .recreate, .rule .scope ["code"], .rule .redirectUris [], .lenient,
        .fillDefaults, .recreate, .strict] ∧
      (∀ s ∈ ss, s.isEdit = false) ∧ (v.step .strict).reply.isOk = false ∧
      (v.run ss).record.get? "note" = some (.map []) ∧
      (v.run ss).record.get? "scope" = some (.int 3) ∧
      (v.run ss).record.get? "preauthorized_scope" = none ∧
      (v.run ss).record.registered .clientName = some (.str "a+b") := by
  obtain ⟨ss, hss⟩ : ∃ ss : List Step, ss = [.strict, .recreate, .rule .scope ["code"],
      .rule .redirectUris [], .lenient, .fillDefaults, .recreate, .strict] := ⟨_, rfl⟩
  have hedit : ∀ s ∈ ss, s.isEdit = false := hss ▸ by decide
  obtain ⟨hkey, -, hname⟩ := run_keeps_untouched (stock (.ofEntries
    [("client_name", .str "a%252Bb"), ("scope", .int 3), ("note", .map []),
      ("subject_type", .str "none"), ("redirect_uris", .str "/cb")])) ss hedit
  refine ⟨_, ss, rfl, hss, hedit, rfl, ?_, ?_, ?_, ?_⟩
  · exact hkey "note" (by decide)
  · exact hkey "scope" (by decide)
  · exact hkey "preauthorized_scope" (by decide)
  · rw [hname, hss]
    rfl

end Review

end Registration
