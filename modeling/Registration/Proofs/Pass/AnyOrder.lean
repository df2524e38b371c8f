import Registration.Proofs.Pass.Acceptance
import Registration.Proofs.Review.Step

/-!
# Rules in any order

No rule reads what another one settles, so the rules may be applied in any
order, if only the match comes after the rule that finds its grant types:

* `Review.applyRules`: single rules, each as a step of its own;
* `applyRules_eq_ok_iff`: they come to what a strict pass over them comes to;
* `mem_takeWhile_of_sublist`, `shows_of_grants_before_match`: a match that comes
  late enough finds the grant types of the record;
* `strict_perm`: a strict pass over the rules in another order;
* `rules_in_any_order`: the steps in another order.
-/

namespace Registration

/-! ## Single rules -/

namespace Review

/-- The grant types that a step gives, if it gives any. -/
def Reply.grants? : Reply → Option (List String)
  | .grants texts => some texts
  | _ => none

/-- Single rules, one step after the other up to the first that fails. The match looks for the grant
types that the rule on them has given. -/
def applyRules (v : Review) (grants : List String) : List Rule → Except Failure Review
  | [] => .ok v
  | rule :: rules =>
    match (v.step (.rule rule grants)).reply with
    | .ok reply => (v.step (.rule rule grants)).review.applyRules (reply.grants?.getD grants) rules
    | .error e => .error e

/-- What a rule gives is what the draft carries on to the next one. -/
theorem grants_settle (rule : Rule) (d : Draft) :
    ((if rule = .grantTypes then Reply.grants (rule.settle d).grants
      else Reply.nothing).grants?.getD d.grants) = (rule.settle d).grants := by
  by_cases hr : rule = .grantTypes
  · rw [if_pos hr]
    rfl
  · rw [if_neg hr, Rule.settle, if_neg hr]
    rfl

/-- By induction on the rules: each step leaves the draft of the pass. -/
theorem applyRules_eq_ok_iff {v w : Review} {grants : List String} {rules : List Rule} :
    v.applyRules grants rules = .ok w ↔
      (Pass.strict v.policy rules ⟨v.record, grants⟩).failure = none ∧
        w = { v with record := (Pass.strict v.policy rules ⟨v.record, grants⟩).record } := by
  induction rules generalizing v grants with
  | nil =>
    simp only [applyRules, Pass.strict, Except.ok.injEq, true_and]
    exact eq_comm
  | cons rule rules ih =>
    rw [applyRules, step_rule_eq, Pass.strict, Rule.apply_eq]
    cases rule.objection? v.policy ⟨v.record, grants⟩ with
    | none =>
      simp only
      rw [grants_settle rule ⟨v.record, grants⟩]
      exact ih
    | some e => cases e <;> simp

end Review

/-! ## The place of the match -/

namespace Pass

variable {rules : List Rule}

theorem mem_takeWhile_of_sublist {a b : Rule} (h : [a, b].Sublist rules) (hn : rules.Nodup) :
    a ∈ rules.takeWhile (· != b) := by
  obtain ⟨front, rest, rfl, ha, hb⟩ := List.cons_sublist_iff.mp h
  have hb : b ∈ rest := List.singleton_sublist.mp hb
  -- The second rule is not among those in front, as it comes once only.
  have hne : ∀ c ∈ front, (c != b) = true := by
    intro c hc
    rw [bne_iff_ne]
    rintro rfl
    exact (List.nodup_append.mp hn).2.2 c hc c hb rfl
  rw [List.takeWhile_append_of_pos hne]
  exact List.mem_append_left _ ha

theorem shows_of_grants_before_match (h : [.grantTypes, .responseAndGrantMatch].Sublist rules)
    (hn : rules.Nodup) (r : Record) (grants : List String) : Shows ⟨r, grants⟩ r rules :=
  Shows.of_record r grants (mem_takeWhile_of_sublist h hn)

/-- A pass over the rules in another order succeeds on the same records, and settles the same
fields. -/
theorem strict_perm (hp : rules.Perm Rule.all)
    (hm : [.grantTypes, .responseAndGrantMatch].Sublist rules) (policy : Policy) (r : Record) :
    ((strict policy rules ⟨r, []⟩).failure = none ↔ Acceptable policy r) ∧
      (Acceptable policy r →
        (strict policy rules ⟨r, []⟩).record = r.settleFields Field.optionalLists) := by
  have hn : rules.Nodup := hp.nodup_iff.mpr (by decide)
  have hmem : ∀ rule : Rule, rule ∈ rules := fun rule => hp.mem_iff.mpr rule.mem_all
  rw [strict_eq (shows_of_grants_before_match hm hn r []) hn policy]
  constructor
  · simp only [List.findSome?_eq_none_iff, Rule.objection?_eq_none_iff]
    exact ⟨fun h rule => h rule (hmem rule), fun h rule _ => h rule⟩
  · intro h
    have hall : accepted policy r rules = rules :=
      accepted_eq_self fun rule _ => Rule.objection?_eq_none_iff.mpr (h rule)
    have hsame : (rules.flatMap Rule.writes).Perm (Rule.all.flatMap Rule.writes) :=
      hp.flatMap_right _
    show r.settleFields ((accepted policy r rules).flatMap Rule.writes) = _
    rw [hall]
    exact r.settleFields_congr fun f => hsame.mem_iff

end Pass

namespace Review

/-- The rules may be applied one by one in any order in which the match comes after the rule on
grant types, and is asked about those that this has found. All of them succeed if and only if a
strict pass does, and leave the record that it leaves. -/
theorem rules_in_any_order (v : Review) {rules : List Rule} (hp : rules.Perm Rule.all)
    (hm : [.grantTypes, .responseAndGrantMatch].Sublist rules) :
    ((∃ w, v.applyRules [] rules = .ok w) ↔ v.strictPass.failure = none) ∧
      ∀ w, v.applyRules [] rules = .ok w → w = { v with record := v.strictPass.record } := by
  obtain ⟨hok, hrecord⟩ := Pass.strict_perm hp hm v.policy v.record
  have hiff : (Pass.strict v.policy rules ⟨v.record, []⟩).failure = none ↔
      v.strictPass.failure = none := hok.trans (strictPass_failure_eq_none_iff v).symm
  constructor
  · rw [← hiff]
    exact ⟨fun ⟨w, hw⟩ => (applyRules_eq_ok_iff.mp hw).1,
      fun h => ⟨_, applyRules_eq_ok_iff.mpr ⟨h, rfl⟩⟩⟩
  · intro w hw
    obtain ⟨hnone, rfl⟩ := applyRules_eq_ok_iff.mp hw
    have ha : Acceptable v.policy v.record := hok.mp hnone
    rw [hrecord ha, strictPass_eq_of_acceptable ha]

/-- The rules from the last to the first, but for those on grant types and the match. -/
theorem rules_in_any_order_of_reverse :
    ∃ (rules : List Rule) (v w : Review), rules = [.outputParameters, .functionalUserGroupIds,
        .trustedUriPrefixes, .preauthorizedScope, .postLogoutRedirectUris,
        .tokenEndpointAuthMethod, .subjectType, .scope, .redirectUris, .grantTypes,
        .responseTypes, .responseAndGrantMatch, .applicationType] ∧
      v = stock (.ofEntries [("application_type", .str "native"),
        ("response_types", .ofTexts ["code"]), ("grant_types", .ofTexts ["authorization_code"]),
        ("redirect_uris", .ofTexts ["/cb"]),
        ("trusted_uri_prefixes", .ofTexts ["https://a.test/x"])]) ∧
      rules.Perm Rule.all ∧ [.grantTypes, .responseAndGrantMatch].Sublist rules ∧
      v.strictPass.failure = none ∧ v.applyRules [] rules = .ok w ∧
      w = { v with record := v.strictPass.record } := by
  obtain ⟨rules, hrules⟩ : ∃ rules : List Rule, rules = [.outputParameters,
      .functionalUserGroupIds, .trustedUriPrefixes, .preauthorizedScope, .postLogoutRedirectUris,
      .tokenEndpointAuthMethod, .subjectType, .scope, .redirectUris, .grantTypes,
      .responseTypes, .responseAndGrantMatch, .applicationType] := ⟨_, rfl⟩
  have hp : rules.Perm Rule.all := hrules ▸ by decide
  have hm : [.grantTypes, .responseAndGrantMatch].Sublist rules := hrules ▸ by decide
  obtain ⟨hok, hrecord⟩ := rules_in_any_order (stock (.ofEntries
    [("application_type", .str "native"), ("response_types", .ofTexts ["code"]),
      ("grant_types", .ofTexts ["authorization_code"]), ("redirect_uris", .ofTexts ["/cb"]),
      ("trusted_uri_prefixes", .ofTexts ["https://a.test/x"])])) hp hm
  obtain ⟨w, hw⟩ := hok.mpr rfl
  exact ⟨rules, _, w, hrules, rfl, hp, hm, rfl, hw, hrecord w hw⟩

end Review

end Registration
