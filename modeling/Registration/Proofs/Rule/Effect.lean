import Registration.Proofs.Record.Settled
import Registration.Proofs.Rule.Check

/-!
# What a rule reads and leaves

A rule either has an objection to a draft or settles its fields, and both
depend on few fields only:

* `decidableForall`: statements about all rules can be checked;
* `objection?`, `settle`: the two sides of `apply` (`apply_eq`);
* `reads`, `writes`: the fields that a rule looks at and settles;
* `objection?_eq`: the objections of the rules, by the checks they make;
* `objection?_congr`: drafts with the same values in the fields read meet the
  same objection;
* `not_mem_writes_of_mem_reads`: no rule settles what another one reads.
-/

namespace Registration

namespace Rule

instance decidableForall {p : Rule → Prop} [DecidablePred p] : Decidable (∀ rule, p rule) :=
  decidable_of_iff (∀ rule ∈ all, p rule)
    ⟨fun h rule => h rule rule.mem_all, fun h rule _ => h rule⟩

/-! ## Objections -/

/-- What a rule has against a draft. -/
def objection? (policy : Policy) (rule : Rule) (d : Draft) : Option Failure :=
  match rule.apply policy d with
  | .ok _ => none
  | .error e => some e

/-- The fields that a rule looks at. -/
def reads : Rule → List Field
  | applicationType => [.applicationType]
  | responseTypes | responseAndGrantMatch => [.responseTypes]
  | grantTypes => [.grantTypes]
  | redirectUris => [.redirectUris, .applicationType]
  | subjectType => [.subjectType]
  | tokenEndpointAuthMethod => [.tokenEndpointAuthMethod]
  | postLogoutRedirectUris => [.postLogoutRedirectUris]
  | trustedUriPrefixes => [.trustedUriPrefixes]
  | functionalUserGroupIds => [.functionalUserGroupIds]
  | outputParameters => Field.outputs
  | scope | preauthorizedScope => []

/-- The fields that a rule settles. -/
def writes : Rule → List Field
  | redirectUris => [.redirectUris]
  | postLogoutRedirectUris => [.postLogoutRedirectUris]
  | trustedUriPrefixes => [.trustedUriPrefixes]
  | functionalUserGroupIds => [.functionalUserGroupIds]
  | _ => []

/-- What a rule settles is read by no other one. -/
theorem not_mem_writes_of_mem_reads {rule other : Rule} (hne : other ≠ rule) {f : Field}
    (hf : f ∈ other.reads) : f ∉ rule.writes :=
  (by decide : ∀ rule other : Rule, other ≠ rule → ∀ f ∈ other.reads, f ∉ rule.writes)
    rule other hne f hf

/-- What a rule leaves of a draft to which it has no objection. -/
def settle (rule : Rule) (d : Draft) : Draft where
  record := d.record.settleFields rule.writes
  grants := if rule = grantTypes then (d.record.value .grantTypes).texts else d.grants

theorem value_settle_of_mem {rule : Rule} {f : Field} (h : f ∈ rule.writes) (d : Draft) :
    (rule.settle d).record.value f = f.settled (d.record.value f) :=
  Record.value_settleFields_of_mem d.record h

theorem value_settle_of_not_mem {rule : Rule} {f : Field} (h : f ∉ rule.writes) (d : Draft) :
    (rule.settle d).record.value f = d.record.value f :=
  Record.value_settleFields_of_not_mem d.record h

theorem settle_eq_self {rule : Rule} {d : Draft} (hw : rule.writes = [])
    (hg : rule ≠ grantTypes) : rule.settle d = d := by
  rw [settle, hw, Record.settleFields_nil, if_neg hg]

theorem settle_responseAndGrantMatch (d : Draft) : responseAndGrantMatch.settle d = d :=
  settle_eq_self rfl nofun

theorem orEmptyList_eq_ok_iff {f : Field} {settle : Value → Except Failure Record}
    {r r' : Record} :
    orEmptyList f settle r = .ok r' ↔
      (r.value f).isNull = true ∧ r' = r.put f (.list []) ∨
        (r.value f).isNull = false ∧ settle (r.value f) = .ok r' := by
  rw [orEmptyList]
  split
  · rename_i h
    simp [h, eq_comm]
  · rename_i h
    simp [h]

theorem settle_of_orEmptyList {f : Field} {find : Value → Except Failure (List String)}
    {r r' : Record} (hf : ∀ v, f.settled v = v.orEmptyList)
    (h : orEmptyList f (fun v => (find v).map fun _ => r) r = .ok r') :
    r' = r.settleFields [f] := by
  obtain ⟨hn, rfl⟩ | ⟨hn, hr⟩ := orEmptyList_eq_ok_iff.mp h
  · rw [Record.put_eq_settleFields]
    rw [hf, Value.orEmptyList, if_pos hn]
  · obtain ⟨-, -, rfl⟩ := map_eq_ok_iff.mp hr
    refine (Record.settleFields_eq_self fun g hg => ?_).symm
    obtain rfl := List.mem_singleton.mp hg
    rw [hf, Value.orEmptyList_of_isNull_eq_false hn, Record.registered_of_isNull_eq_false hn]

theorem settle_of_trustedPrefixes {r r' : Record} (h : trustedPrefixes r = .ok r') :
    r' = r.settleFields [.trustedUriPrefixes] := by
  obtain ⟨hn, rfl⟩ | ⟨hn, hr⟩ := orEmptyList_eq_ok_iff.mp h
  · rw [Record.put_eq_settleFields]
    rw [Value.eq_null_of_isNull hn, Field.settled_null]
  · rw [terminatedPrefixes_eq] at hr
    obtain ⟨ss, hs, rfl⟩ := map_eq_ok_iff.mp hr
    obtain ⟨hc, rfl⟩ := uris_eq_ok_iff.mp hs
    rw [Record.put_eq_settleFields]
    rw [Field.settled, hc.items_eq_map_texts fun _ => IsReference.text?_isSome, List.map_map]
    rfl

theorem settle_of_apply {policy : Policy} {rule : Rule} {d d' : Draft}
    (h : rule.apply policy d = .ok d') : d' = rule.settle d := by
  cases rule with
  | applicationType | responseTypes | responseAndGrantMatch | subjectType
  | tokenEndpointAuthMethod | outputParameters =>
    obtain ⟨-, -, rfl⟩ := map_eq_ok_iff.mp h
    exact Eq.symm (settle_eq_self rfl nofun)
  | scope | preauthorizedScope =>
    rw [apply, Except.ok.injEq] at h
    subst h
    exact Eq.symm (settle_eq_self rfl nofun)
  | grantTypes =>
    obtain ⟨gs, hg, rfl⟩ := map_eq_ok_iff.mp h
    obtain ⟨-, rfl⟩ := enumerated_eq_ok_iff.mp hg
    simp [settle, writes, Enumerated.field]
  | redirectUris | postLogoutRedirectUris | functionalUserGroupIds =>
    obtain ⟨r', hr, rfl⟩ := map_eq_ok_iff.mp h
    rw [settle_of_orEmptyList (fun _ => rfl) hr]
    rfl
  | trustedUriPrefixes =>
    obtain ⟨r', hr, rfl⟩ := map_eq_ok_iff.mp h
    rw [settle_of_trustedPrefixes hr]
    rfl

/-- A rule objects to a draft or settles it. -/
theorem apply_eq (policy : Policy) (rule : Rule) (d : Draft) :
    rule.apply policy d =
      match rule.objection? policy d with
      | none => .ok (rule.settle d)
      | some e => .error e := by
  rw [objection?]
  cases h : rule.apply policy d with
  | ok d' => rw [settle_of_apply h]
  | error e => rfl

/-- The failure in which a check ends, if it does. -/
def failureOf? {α : Type} (verdict : Except Failure α) : Option Failure :=
  match verdict with
  | .ok _ => none
  | .error e => some e

/-- The same for a list that may be omitted. -/
def failureOfList? (find : Value → Except Failure (List String)) (v : Value) : Option Failure :=
  if v.isNull then none else failureOf? (find v)

theorem failureOf?_map {α β : Type} (verdict : Except Failure α) (g : α → β) :
    failureOf? (verdict.map g) = failureOf? verdict := by
  cases verdict <;> rfl

theorem objection?_eq_failureOf? {α : Type} {policy : Policy} {rule : Rule} {d : Draft}
    {verdict : Except Failure α} {next : α → Draft}
    (h : rule.apply policy d = verdict.map next) :
    rule.objection? policy d = failureOf? verdict := by
  rw [objection?, h]
  cases verdict <;> rfl

theorem failureOf?_orEmptyList {f : Field} {settle : Value → Except Failure Record}
    {find : Value → Except Failure (List String)} {leave : List String → Record} {r : Record}
    (h : ∀ v, settle v = (find v).map leave) :
    failureOf? (orEmptyList f settle r) = failureOfList? find (r.value f) := by
  rw [orEmptyList, failureOfList?]
  split
  · rfl
  · rw [h, failureOf?_map]

/-- The objections of the rules, each by the check that it makes. -/
theorem objection?_eq (policy : Policy) (rule : Rule) (d : Draft) :
    rule.objection? policy d =
      match rule with
      | applicationType => failureOf? (scalar policy .applicationType d.record)
      | responseTypes => failureOf? (enumerated policy .responseTypes d.record)
      | grantTypes => failureOf? (enumerated policy .grantTypes d.record)
      | responseAndGrantMatch => failureOf? (responseMatch policy d)
      | redirectUris =>
        failureOfList? (uris .redirectUris (needsAbsoluteUris d.record))
          (d.record.value .redirectUris)
      | subjectType => failureOf? (scalar policy .subjectType d.record)
      | tokenEndpointAuthMethod => failureOf? (scalar policy .tokenEndpointAuthMethod d.record)
      | postLogoutRedirectUris =>
        failureOfList? (uris .postLogoutRedirectUris true) (d.record.value .postLogoutRedirectUris)
      | trustedUriPrefixes =>
        failureOfList? (uris .trustedUriPrefixes true) (d.record.value .trustedUriPrefixes)
      | functionalUserGroupIds =>
        failureOfList? (identifiers .functionalUserGroupIds)
          (d.record.value .functionalUserGroupIds)
      | outputParameters => failureOf? (outputs d.record)
      | scope | preauthorizedScope => none := by
  cases rule with
  | applicationType | responseTypes | grantTypes | responseAndGrantMatch | subjectType
  | tokenEndpointAuthMethod | outputParameters => exact objection?_eq_failureOf? rfl
  | scope | preauthorizedScope => rfl
  | redirectUris | postLogoutRedirectUris | functionalUserGroupIds =>
    rw [objection?_eq_failureOf? rfl]
    exact failureOf?_orEmptyList fun _ => rfl
  | trustedUriPrefixes =>
    rw [objection?_eq_failureOf? rfl]
    exact failureOf?_orEmptyList (terminatedPrefixes_eq d.record)

/-- Drafts with the same values in the fields that a rule reads meet the same objection. Only the
match looks at the grant types found before. -/
theorem objection?_congr {policy : Policy} {rule : Rule} {d d' : Draft}
    (hr : ∀ f ∈ rule.reads, d.record.value f = d'.record.value f)
    (hg : rule = responseAndGrantMatch → d.grants = d'.grants) :
    rule.objection? policy d = rule.objection? policy d' := by
  rw [objection?_eq, objection?_eq]
  cases rule with
  | responseAndGrantMatch =>
    simp only [responseMatch, hr .responseTypes (by decide), hg rfl]
  | redirectUris =>
    simp only [needsAbsoluteUris, hr .redirectUris (by decide), hr .applicationType (by decide)]
  | outputParameters =>
    simp only [outputs, unassignedTime, hr .clientIdIssuedAt (by decide),
      hr .clientSecretExpiresAt (by decide), hr .registrationClientUri (by decide)]
  | scope | preauthorizedScope => rfl
  | applicationType | subjectType | tokenEndpointAuthMethod =>
    exact congrArg failureOf? (scalar_congr (hr _ (List.mem_singleton.mpr rfl)))
  | responseTypes | grantTypes =>
    exact congrArg failureOf? (enumerated_congr (hr _ (List.mem_singleton.mpr rfl)))
  | postLogoutRedirectUris | trustedUriPrefixes | functionalUserGroupIds =>
    simp only [hr _ (List.mem_singleton.mpr rfl)]

end Rule

end Registration
