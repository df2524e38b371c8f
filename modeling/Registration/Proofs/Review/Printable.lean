import Registration.Proofs.Pass.Lenient
import Registration.Proofs.Record.Name
import Registration.Proofs.Review.Step

/-!
# Records that may be written out

No step of a review makes a value that may not be written out, unless it is
given one:

* `Value.isPrintable_of_mem_items`, `Field.isPrintable_settled`: the items of a
  value, and what it is settled to;
* `Record.IsPrintable`, `Defaults.IsPrintable`, `Step.IsPrintable`: records,
  defaults and steps without such values;
* `IsPrintable.put` … `IsPrintable.decodeName`: changes of a record;
* `Pass.strict_record_of`, `Pass.lenient_record_of`: what passes keep;
* `isPrintable_step`, `isPrintable_run`: one step, and steps in succession.
-/

namespace Registration

namespace Value

theorem allPrintable_iff {vs : List Value} :
    allPrintable vs = true ↔ ∀ v ∈ vs, v.isPrintable = true := by
  induction vs with
  | nil => simp [allPrintable]
  | cons v vs ih => simp [allPrintable, ih]

theorem isPrintable_list_iff {vs : List Value} :
    (list vs).isPrintable = true ↔ ∀ v ∈ vs, v.isPrintable = true := by
  rw [isPrintable, allPrintable_iff]

theorem isPrintable_singleton {v : Value} (h : v.isPrintable = true) :
    (list [v]).isPrintable = true :=
  isPrintable_list_iff.mpr fun _ hw => List.mem_singleton.mp hw ▸ h

theorem isPrintable_of_mem_items {v w : Value} (h : v.isPrintable = true) (hw : w ∈ v.items) :
    w.isPrintable = true := by
  cases v with
  | list vs => exact isPrintable_list_iff.mp h w hw
  | tuple vs => exact allPrintable_iff.mp h w hw
  | _ => cases hw

theorem isPrintable_withFinalSlash {v : Value} (h : v.isPrintable = true) :
    v.withFinalSlash.isPrintable = true := by
  cases v with
  | str s => rfl
  | _ => exact h

theorem isPrintable_orEmptyList {v : Value} (h : v.isPrintable = true) :
    v.orEmptyList.isPrintable = true := by
  rw [orEmptyList]
  split
  · rfl
  · exact h

end Value

theorem Field.isPrintable_settled (f : Field) {v : Value} (h : v.isPrintable = true) :
    (f.settled v).isPrintable = true := by
  cases f with
  | trustedUriPrefixes =>
    refine Value.isPrintable_list_iff.mpr fun w hw => ?_
    obtain ⟨u, hu, rfl⟩ := List.mem_map.mp hw
    exact Value.isPrintable_withFinalSlash (Value.isPrintable_of_mem_items h hu)
  | _ => exact Value.isPrintable_orEmptyList h

/-- All registered fields may be written out. -/
def Record.IsPrintable (r : Record) : Prop :=
  ∀ f, (r.value f).isPrintable = true

structure Defaults.IsPrintable (defaults : Defaults) : Prop where
  applicationType : defaults.applicationType.isPrintable = true
  responseType : defaults.responseType.isPrintable = true
  grantType : defaults.grantType.isPrintable = true
  tokenEndpointAuthMethod : defaults.tokenEndpointAuthMethod.isPrintable = true

/-! ## Records -/

namespace Record.IsPrintable

variable {r : Record} {defaults : Defaults}

theorem put (h : r.IsPrintable) (f : Field) {v : Value} (hv : v.isPrintable = true) :
    (r.put f v).IsPrintable := by
  intro g
  by_cases hg : g = f
  · subst hg
    rw [value_put_self]
    exact hv
  · rw [value_put_ne r v hg]
    exact h g

theorem remove (h : r.IsPrintable) (f : Field) : (r.remove f).IsPrintable := by
  intro g
  by_cases hg : g = f
  · subst hg
    rw [value_remove_self]
    rfl
  · rw [value_remove_ne r hg]
    exact h g

theorem putOrRemove (h : r.IsPrintable) (f : Field) {v : Value} (hv : v.isPrintable = true) :
    (r.putOrRemove f v).IsPrintable := by
  rw [Record.putOrRemove]
  split
  · exact h.remove f
  · exact h.put f hv

theorem fillEmpty (h : r.IsPrintable) (f : Field) {v : Value} (hv : v.isPrintable = true) :
    (r.fillEmpty f v).IsPrintable := by
  rw [Record.fillEmpty]
  split
  · exact h.put f hv
  · exact h

theorem fillList (h : r.IsPrintable) (f : Field) : (r.fillList f).IsPrintable := by
  rw [Record.fillList]
  split
  · exact h.put f rfl
  · exact h

theorem fillDefaults (h : r.IsPrintable) (hd : defaults.IsPrintable) :
    (r.fillDefaults defaults).IsPrintable := by
  have hresponse := Value.isPrintable_singleton hd.responseType
  have hgrant := Value.isPrintable_singleton hd.grantType
  have hfilled := (((h.fillEmpty .applicationType hd.applicationType).fillEmpty .responseTypes
    hresponse).fillEmpty .grantTypes hgrant).fillEmpty .tokenEndpointAuthMethod
      hd.tokenEndpointAuthMethod
  exact ((hfilled.fillList .redirectUris).fillList .postLogoutRedirectUris).fillList
    .trustedUriPrefixes

theorem insert (h : r.IsPrintable) (key : String) {v : Value} (hv : v.isPrintable = true) :
    (r.insert key v).IsPrintable := by
  rw [Record.insert]
  split
  · exact h.put _ hv
  · exact h

theorem erase (h : r.IsPrintable) (key : String) : (r.erase key).IsPrintable := by
  rw [Record.erase]
  split
  · exact h.remove _
  · exact h

theorem settleFields (h : r.IsPrintable) (fs : List Field) : (r.settleFields fs).IsPrintable := by
  intro f
  by_cases hf : f ∈ fs
  · rw [value_settleFields_of_mem r hf]
    exact f.isPrintable_settled (h f)
  · rw [value_settleFields_of_not_mem r hf]
    exact h f

/-- A decoded name is a text. -/
theorem decodeName (h : r.IsPrintable) : r.decodeName.1.IsPrintable := by
  obtain hr | ⟨s, t, -, -, hr⟩ := r.decodeName_eq
  · rwa [hr]
  · rw [hr]
    exact h.put _ rfl

theorem resetRecord (h : r.IsPrintable) (hd : defaults.IsPrintable) (rule : Rule) :
    (rule.resetRecord defaults r).IsPrintable := by
  have hzero : (Value.int 0).isPrintable = true := by decide +kernel
  cases rule with
  | applicationType => exact h.put _ hd.applicationType
  | tokenEndpointAuthMethod => exact h.putOrRemove _ hd.tokenEndpointAuthMethod
  | responseAndGrantMatch =>
    have hresponse := Value.isPrintable_singleton hd.responseType
    exact (h.put _ hresponse).put _ (Value.isPrintable_singleton hd.grantType)
  | scope | subjectType | preauthorizedScope => exact h.remove _
  | outputParameters => exact ((h.put _ hzero).put _ hzero).remove _
  | _ => exact h.put _ rfl

end Record.IsPrintable

/-! ## Passes -/

namespace Pass

variable {P : Record → Prop} {policy : Policy}

/-- What no rule undoes when it settles its fields holds after a strict pass. -/
theorem strict_record_of (hsettle : ∀ (rule : Rule) d, P d.record → P (rule.settle d).record)
    (rules : List Rule) {d : Draft} (hd : P d.record) : P (strict policy rules d).record := by
  induction rules generalizing d with
  | nil => exact hd
  | cons rule rules ih =>
    rw [strict, Rule.apply_eq]
    cases rule.objection? policy d with
    | none => exact ih (hsettle rule d hd)
    | some e => cases e <;> exact hd

/-- After a lenient one it holds if putting fields back does not undo it either. -/
theorem lenient_record_of {defaults : Defaults}
    (hsettle : ∀ (rule : Rule) d, P d.record → P (rule.settle d).record)
    (hreset : ∀ (rule : Rule) r, P r → P (rule.resetRecord defaults r)) (rules : List Rule)
    {d : Draft} (hd : P d.record) : P (lenient policy defaults rules d).record := by
  induction rules generalizing d with
  | nil => exact hd
  | cons rule rules ih =>
    rw [lenient, Rule.apply_eq]
    cases rule.objection? policy d with
    | none => exact ih (hsettle rule d hd)
    | some e =>
      cases e with
      | rejected e => exact ih (hreset rule d.record hd)
      | fault e => exact hd

end Pass

/-! ## Steps -/

namespace Review

/-- A step that puts nothing into the record that may not be written out. -/
def Step.IsPrintable : Step → Prop
  | .insert _ v => v.isPrintable = true
  | _ => True

theorem isPrintable_step {v : Review} (hr : v.record.IsPrintable)
    (hd : v.defaults.IsPrintable) {s : Step} (hs : s.IsPrintable) :
    (v.step s).review.record.IsPrintable := by
  cases s with
  | strict => exact Pass.strict_record_of (fun _ _ h => h.settleFields _) Rule.all hr
  | lenient =>
    exact Pass.lenient_record_of (fun _ _ h => h.settleFields _)
      (fun rule _ h => h.resetRecord hd rule) Rule.all hr
  | fillDefaults => exact hr.fillDefaults hd
  | rule rule grants =>
    rw [step_rule_eq]
    split
    · exact hr.settleFields _
    · exact hr
  | insert key value => exact hr.insert key hs
  | erase key => exact hr.erase key
  | recreate => exact hr.decodeName

/-- No step changes the configuration. -/
theorem policy_step (v : Review) (s : Step) :
    (v.step s).review.policy = v.policy ∧ (v.step s).review.defaults = v.defaults := by
  cases s with
  | rule rule grants =>
    rw [step, applyRule]
    split <;> exact ⟨rfl, rfl⟩
  | _ => exact ⟨rfl, rfl⟩

/-- By induction on the steps. -/
theorem isPrintable_run {v : Review} (hr : v.record.IsPrintable) (hd : v.defaults.IsPrintable)
    {ss : List Step} (hs : ∀ s ∈ ss, s.IsPrintable) : (v.run ss).record.IsPrintable := by
  induction ss generalizing v with
  | nil => exact hr
  | cons s ss ih =>
    obtain ⟨hs, hss⟩ := List.forall_mem_cons.mp hs
    exact ih (isPrintable_step hr hd hs) ((v.policy_step s).2 ▸ hd) hss

end Review

end Registration
