import Registration.Proofs.Pass.Strict
import Registration.Proofs.Record.Changes
import Registration.Proofs.Rule.Acceptance

/-!
# Lenient passes

* `Rule.handle`: a draft after one rule, settled or with its fields put back;
* `Rule.changes`: the fields that this may change (`changesOnly_handle`);
* `Rule.collection?`: the collection that is emptied if it is rejected;
* `Rule.permits_handle_iff`: when a rule that settles nothing permits what it
  leaves;
* `handled`: a draft after rules in succession (`lenient_record`);
* `lenient_append`: a pass goes on with the draft that it has handled;
* `handled_of_established`: what one of the rules brings about, and no other one
  undoes, holds after all;
* `handled_all`: a pass over all rules from the point of view of one of them;
* `registered_handled`, `permits_handled_iff`: the fields that are left alone on
  the way, and the demands on them;
* `permits_before_match`: the demands on response types and grant types are met
  when their match is judged;
* `registered_handled_all`: a field ends as the last rule that changes it leaves
  it.
-/

namespace Registration

namespace Rule

/-- A draft after a rule: settled, or with the fields put back to which the rule objects. -/
def handle (policy : Policy) (defaults : Defaults) (rule : Rule) (d : Draft) : Draft :=
  if (rule.objection? policy d).isNone then rule.settle d else rule.reset defaults d

/-- The fields that a rule puts back, among which are those that it settles. -/
def changes : Rule → List Field
  | applicationType => [.applicationType]
  | responseTypes => [.responseTypes]
  | grantTypes => [.grantTypes]
  | responseAndGrantMatch => [.responseTypes, .grantTypes]
  | redirectUris => [.redirectUris]
  | scope => [.scope]
  | subjectType => [.subjectType]
  | tokenEndpointAuthMethod => [.tokenEndpointAuthMethod]
  | postLogoutRedirectUris => [.postLogoutRedirectUris]
  | preauthorizedScope => [.preauthorizedScope]
  | trustedUriPrefixes => [.trustedUriPrefixes]
  | functionalUserGroupIds => [.functionalUserGroupIds]
  | outputParameters => Field.outputs

theorem mem_changes_of_mem_writes {rule : Rule} {f : Field} (h : f ∈ rule.writes) :
    f ∈ rule.changes :=
  (by decide : ∀ rule : Rule, ∀ f ∈ rule.writes, f ∈ rule.changes) rule f h

/-- The collection that a rule judges item by item. -/
def collection? : Rule → Option Field
  | responseTypes => some .responseTypes
  | grantTypes => some .grantTypes
  | redirectUris => some .redirectUris
  | postLogoutRedirectUris => some .postLogoutRedirectUris
  | trustedUriPrefixes => some .trustedUriPrefixes
  | functionalUserGroupIds => some .functionalUserGroupIds
  | _ => none

theorem collection?_of_mem_writes {rule : Rule} {f : Field} (h : f ∈ rule.writes) :
    rule.collection? = some f :=
  (by decide : ∀ rule : Rule, ∀ f ∈ rule.writes, rule.collection? = some f) rule f h

variable {policy : Policy} {defaults : Defaults} {rule : Rule} {d : Draft}

/-- A rejected collection is emptied. -/
theorem resetRecord_of_collection {f : Field} (h : rule.collection? = some f) (r : Record) :
    rule.resetRecord defaults r = r.put f (.list []) := by
  cases rule with
  | responseTypes | grantTypes | redirectUris | postLogoutRedirectUris | trustedUriPrefixes
  | functionalUserGroupIds =>
    cases h
    rfl
  | _ => cases h

theorem value_reset_of_collection {f : Field} (h : rule.collection? = some f) (d : Draft) :
    (rule.reset defaults d).record.value f = .list [] := by
  rw [reset, resetRecord_of_collection h, Record.value_put_self]

theorem responseTypes_reset_match (d : Draft) :
    (responseAndGrantMatch.reset defaults d).record.value .responseTypes =
      .list [defaults.responseType] := by
  rw [reset, resetRecord, Record.value_put_ne _ _ (by decide), Record.value_put_self]

theorem grantTypes_reset_match (d : Draft) :
    (responseAndGrantMatch.reset defaults d).record.value .grantTypes =
      .list [defaults.grantType] := by
  rw [reset, resetRecord, Record.value_put_self]

theorem handle_of_permits (h : rule.Permits policy d) :
    rule.handle policy defaults d = rule.settle d := by
  rw [handle, objection?_eq_none_iff.mpr h]
  rfl

theorem handle_of_not_permits (h : ¬ rule.Permits policy d) :
    rule.handle policy defaults d = rule.reset defaults d := by
  rw [handle, if_neg]
  rwa [Option.isNone_iff_eq_none, objection?_eq_none_iff]

theorem permits_settle_iff (hw : rule.writes = []) :
    rule.Permits policy (rule.settle d) ↔ rule.Permits policy d := by
  refine permits_congr (fun f _ => value_settle_of_not_mem (hw ▸ List.not_mem_nil) d) ?_
  rintro rfl
  rfl

/-- A rule that settles nothing leaves what meets its demand if it was given that, or puts it
back. -/
theorem permits_handle_iff (hw : rule.writes = []) (d : Draft) :
    rule.Permits policy (rule.handle policy defaults d) ↔
      rule.Permits policy d ∨ rule.Permits policy (rule.reset defaults d) := by
  by_cases hp : rule.Permits policy d
  · rw [handle_of_permits hp]
    exact iff_of_true ((permits_settle_iff hw).mpr hp) (.inl hp)
  · rw [handle_of_not_permits hp, or_iff_right hp]

/-- An empty list meets the demand on response types, and that on grant types. -/
theorem permits_handle_of_collection {f : Field} (hc : rule.collection? = some f)
    (hw : rule.writes = []) (d : Draft) : rule.Permits policy (rule.handle policy defaults d) := by
  rw [permits_handle_iff hw]
  refine .inr ?_
  cases rule with
  | responseTypes | grantTypes =>
    rw [Permits, value_reset_of_collection rfl]
    exact .inl rfl
  | redirectUris | postLogoutRedirectUris | trustedUriPrefixes | functionalUserGroupIds => cases hw
  | _ => cases hc

theorem changesOnly_resetRecord (rule : Rule) (defaults : Defaults) (r : Record) :
    r.ChangesOnly rule.changes (rule.resetRecord defaults r) := by
  cases rule with
  | responseAndGrantMatch =>
    exact (r.changesOnly_put (by decide) _).trans (Record.changesOnly_put _ (by decide) _)
  | outputParameters =>
    refine .trans ?_ (Record.changesOnly_remove _ (by decide))
    exact (r.changesOnly_put (by decide) _).trans (Record.changesOnly_put _ (by decide) _)
  | scope | subjectType | preauthorizedScope => exact r.changesOnly_remove (by decide)
  | tokenEndpointAuthMethod => exact r.changesOnly_putOrRemove (by decide) _
  | _ => exact r.changesOnly_put (by decide) _

theorem changesOnly_settle (rule : Rule) (d : Draft) :
    d.record.ChangesOnly rule.changes (rule.settle d).record :=
  (d.record.changesOnly_settleFields rule.writes).mono fun _ => mem_changes_of_mem_writes

theorem changesOnly_handle (d : Draft) :
    d.record.ChangesOnly rule.changes (rule.handle policy defaults d).record := by
  rw [handle]
  split
  · exact rule.changesOnly_settle d
  · exact rule.changesOnly_resetRecord defaults d.record

/-- The fields outside `changes` are left alone. -/
theorem registered_handle {f : Field} (h : f ∉ rule.changes) (d : Draft) :
    (rule.handle policy defaults d).record.registered f = d.record.registered f :=
  (changesOnly_handle d).registered f h

theorem value_handle {f : Field} (h : f ∉ rule.changes) (d : Draft) :
    (rule.handle policy defaults d).record.value f = d.record.value f := by
  rw [Record.value, registered_handle h, Record.value]

end Rule

namespace Pass

/-- A draft after rules in succession, of which each settles its fields or puts them back. -/
def handled (policy : Policy) (defaults : Defaults) (rules : List Rule) (d : Draft) : Draft :=
  rules.foldl (fun d rule => rule.handle policy defaults d) d

variable {policy : Policy} {defaults : Defaults}

/-- By induction on the rules: a lenient pass that ends without a fault handles them all. -/
theorem lenient_record {rules : List Rule} {d : Draft}
    (h : (lenient policy defaults rules d).failure = none) :
    (lenient policy defaults rules d).record = (handled policy defaults rules d).record := by
  induction rules generalizing d with
  | nil => rfl
  | cons rule rules ih =>
    rw [lenient, Rule.apply_eq] at h ⊢
    rw [handled, List.foldl_cons, Rule.handle]
    cases ho : rule.objection? policy d with
    | none =>
      rw [ho] at h
      exact ih h
    | some e =>
      rw [ho] at h
      cases e with
      | rejected e => exact ih h
      | fault e => cases h

/-- A pass that has met no fault goes on with the draft that it has handled. -/
theorem lenient_append {rules rest : List Rule} {d : Draft}
    (h : (lenient policy defaults rules d).failure = none) :
    lenient policy defaults (rules ++ rest) d =
      { lenient policy defaults rest (handled policy defaults rules d) with
        log := (lenient policy defaults rules d).log ++
          (lenient policy defaults rest (handled policy defaults rules d)).log } := by
  induction rules generalizing d with
  | nil => rfl
  | cons rule rules ih =>
    rw [lenient, Rule.apply_eq] at h
    rw [List.cons_append, lenient, lenient, Rule.apply_eq, handled, List.foldl_cons, Rule.handle]
    cases ho : rule.objection? policy d with
    | none =>
      rw [ho] at h
      exact ih h
    | some e =>
      rw [ho] at h
      cases e with
      | rejected e =>
        have hrest := ih (d := rule.reset defaults d) h
        simp only [hrest]
        rfl
      | fault e => cases h

/-- What one of the rules brings about, and the others do not undo, holds after all of them. -/
theorem handled_of_established {P : Draft → Prop} {rule : Rule} {rules : List Rule}
    (hm : rule ∈ rules) (hest : ∀ d, P (rule.handle policy defaults d))
    (hkeep : ∀ other d, other ≠ rule → P d → P (other.handle policy defaults d)) (d : Draft) :
    P (handled policy defaults rules d) := by
  have hrun : ∀ (rules : List Rule) (d : Draft), P d → P (handled policy defaults rules d) := by
    intro rules
    induction rules with
    | nil => exact fun _ hd => hd
    | cons other rules ih =>
      intro d hd
      refine ih _ ?_
      by_cases ho : other = rule
      · exact ho ▸ hest d
      · exact hkeep other d ho hd
  obtain ⟨before, after, rfl⟩ := List.append_of_mem hm
  rw [handled, List.foldl_append, List.foldl_cons]
  exact hrun after _ (hest _)

/-- A pass over all rules from the point of view of one of them. -/
theorem handled_all (rule : Rule) (d : Draft) :
    handled policy defaults Rule.all d =
      handled policy defaults rule.after
        (rule.handle policy defaults (handled policy defaults rule.before d)) := by
  rw [rule.all_eq, handled, List.foldl_append, List.foldl_cons, handled, handled]

theorem registered_handled {f : Field} {rules : List Rule} (h : ∀ rule ∈ rules, f ∉ rule.changes)
    (d : Draft) :
    (handled policy defaults rules d).record.registered f = d.record.registered f := by
  induction rules generalizing d with
  | nil => rfl
  | cons rule rules ih =>
    rw [handled, List.foldl_cons]
    exact (ih (fun other ho => h other (List.mem_cons_of_mem _ ho)) _).trans
      (Rule.registered_handle (h rule (List.mem_cons_self ..)) d)

theorem value_handled {f : Field} {rules : List Rule} (h : ∀ rule ∈ rules, f ∉ rule.changes)
    (d : Draft) : (handled policy defaults rules d).record.value f = d.record.value f := by
  rw [Record.value, registered_handled h, Record.value]

/-- Rules that change nothing of what another one reads leave it to permit the record or not. -/
theorem permits_handled_iff {rule : Rule} (hm : rule ≠ .responseAndGrantMatch) {rules : List Rule}
    (h : ∀ f ∈ rule.reads, ∀ other ∈ rules, f ∉ other.changes) (r : Record) :
    rule.Permits policy (handled policy defaults rules ⟨r, []⟩) ↔ rule.Permits policy r.draft :=
  Rule.permits_congr (fun f hf => value_handled (h f hf) _) fun hr => absurd hr hm

/-- The rules on response types and grant types are followed by nothing that undoes their effect
before the match. -/
theorem permits_before_match {rule : Rule} (hm : rule = .responseTypes ∨ rule = .grantTypes)
    (d : Draft) :
    rule.Permits policy (handled policy defaults Rule.responseAndGrantMatch.before d) := by
  obtain rfl | rfl := hm
  · have hr : Rule.responseTypes.Permits policy (Rule.responseTypes.handle policy defaults
        (handled policy defaults Rule.responseTypes.before d)) :=
      Rule.permits_handle_of_collection rfl rfl _
    refine (Rule.permits_congr (fun f hf => ?_) (by nofun)).mpr hr
    obtain rfl := List.mem_singleton.mp hf
    have hgrants : Field.responseTypes ∉ Rule.grantTypes.changes := by decide
    exact Rule.value_handle hgrants _
  · exact Rule.permits_handle_of_collection rfl rfl _

/-- A field that no later rule changes ends as a rule leaves it. -/
theorem registered_handled_all {rule : Rule} {f : Field}
    (h : ∀ other ∈ rule.after, f ∉ other.changes) (d : Draft) :
    (handled policy defaults Rule.all d).record.registered f =
      (rule.handle policy defaults
        (handled policy defaults rule.before d)).record.registered f := by
  rw [handled_all rule, registered_handled h]

theorem value_handled_all {rule : Rule} {f : Field}
    (h : ∀ other ∈ rule.after, f ∉ other.changes) (d : Draft) :
    (handled policy defaults Rule.all d).record.value f =
      (rule.handle policy defaults (handled policy defaults rule.before d)).record.value f := by
  rw [Record.value, registered_handled_all h, Record.value]

end Pass

end Registration
