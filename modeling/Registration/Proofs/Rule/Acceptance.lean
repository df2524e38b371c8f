import Registration.Proofs.Rule.Effect

/-!
# Acceptable records

* `Permits`: what each rule demands of a draft, said without the rule's check;
* `objection?_eq_none_iff`: a rule has no objection if its demand is met;
* `permits_congr`: the demand concerns the fields that the rule reads;
* `Acceptable`: a record that meets the demands of all rules.
-/

namespace Registration

namespace Rule

/-- What a rule demands of a draft. Enumerated fields may be empty, the other lists absent or null;
the match asks for the grant types that go with the response types. -/
def Permits (policy : Policy) (rule : Rule) (d : Draft) : Prop :=
  match rule with
  | applicationType =>
    IsEmptyOr (policy.accepts .applicationType · = true) (d.record.value .applicationType)
  | responseTypes =>
    IsEmptyOr (Value.IsCollection (policy.accepts .responseTypes · = true))
      (d.record.value .responseTypes)
  | grantTypes =>
    IsEmptyOr (Value.IsCollection (policy.accepts .grantTypes · = true))
      (d.record.value .grantTypes)
  | responseAndGrantMatch =>
    IsEmptyOr (fun v => ∃ vs, v.elements? = some vs ∧ ∀ w ∈ vs, HasGrant policy d.grants w)
      (d.record.value .responseTypes)
  | redirectUris =>
    IsNullOr (Value.IsCollection (IsReference (needsAbsoluteUris d.record)))
      (d.record.value .redirectUris)
  | subjectType => IsEmptyOr (policy.accepts .subjectType · = true) (d.record.value .subjectType)
  | tokenEndpointAuthMethod =>
    IsEmptyOr (policy.accepts .tokenEndpointAuthMethod · = true)
      (d.record.value .tokenEndpointAuthMethod)
  | postLogoutRedirectUris =>
    IsNullOr (Value.IsCollection (IsReference true)) (d.record.value .postLogoutRedirectUris)
  | trustedUriPrefixes =>
    IsNullOr (Value.IsCollection (IsReference true)) (d.record.value .trustedUriPrefixes)
  | functionalUserGroupIds =>
    IsNullOr (Value.IsCollection (·.text?.isSome = true))
      (d.record.value .functionalUserGroupIds)
  | outputParameters =>
    IsNullOr (·.isZero = true) (d.record.value .clientIdIssuedAt) ∧
      IsNullOr (·.isZero = true) (d.record.value .clientSecretExpiresAt) ∧
      (d.record.value .registrationClientUri).isEmpty = true
  | scope | preauthorizedScope => True

theorem failureOf?_eq_none_iff {α : Type} {verdict : Except Failure α} :
    failureOf? verdict = none ↔ ∃ a, verdict = .ok a := by
  cases verdict <;> simp [failureOf?]

theorem failureOf?_unit_eq_none_iff {verdict : Except Failure Unit} :
    failureOf? verdict = none ↔ verdict = .ok () :=
  failureOf?_eq_none_iff.trans ⟨fun ⟨_, h⟩ => h, fun h => ⟨(), h⟩⟩

theorem failureOfList?_eq_none_iff {find : Value → Except Failure (List String)} {v : Value}
    {p : Value → Prop} (hp : ∀ ss, find v = .ok ss ↔ p v ∧ ss = v.texts) :
    failureOfList? find v = none ↔ IsNullOr p v := by
  rw [failureOfList?, IsNullOr]
  split
  · rename_i h
    exact iff_of_true rfl (.inl h)
  · rename_i h
    rw [failureOf?_eq_none_iff, or_iff_right h]
    constructor
    · rintro ⟨ss, hs⟩
      exact ((hp ss).mp hs).1
    · exact fun hv => ⟨_, (hp _).mpr ⟨hv, rfl⟩⟩

theorem objection?_eq_none_iff {policy : Policy} {rule : Rule} {d : Draft} :
    rule.objection? policy d = none ↔ rule.Permits policy d := by
  have hscalar (e : Enumerated) : failureOf? (scalar policy e d.record) = none ↔
      IsEmptyOr (policy.accepts e · = true) (d.record.value e.field) :=
    failureOf?_unit_eq_none_iff.trans scalar_eq_ok_iff
  have henumerated (e : Enumerated) : failureOf? (enumerated policy e d.record) = none ↔
      IsEmptyOr (Value.IsCollection (policy.accepts e · = true)) (d.record.value e.field) := by
    simp only [failureOf?_eq_none_iff, enumerated_eq_ok_iff, exists_and_left, exists_eq, and_true]
  rw [objection?_eq]
  cases rule with
  | applicationType => exact hscalar .applicationType
  | subjectType => exact hscalar .subjectType
  | tokenEndpointAuthMethod => exact hscalar .tokenEndpointAuthMethod
  | responseTypes => exact henumerated .responseTypes
  | grantTypes => exact henumerated .grantTypes
  | responseAndGrantMatch => exact failureOf?_unit_eq_none_iff.trans responseMatch_eq_ok_iff
  | redirectUris | postLogoutRedirectUris | trustedUriPrefixes =>
    exact failureOfList?_eq_none_iff fun _ => uris_eq_ok_iff
  | functionalUserGroupIds => exact failureOfList?_eq_none_iff fun _ => identifiers_eq_ok_iff
  | outputParameters => exact failureOf?_unit_eq_none_iff.trans outputs_eq_ok_iff
  | scope | preauthorizedScope => exact iff_of_true rfl trivial

theorem permits_congr {policy : Policy} {rule : Rule} {d d' : Draft}
    (hr : ∀ f ∈ rule.reads, d.record.value f = d'.record.value f)
    (hg : rule = responseAndGrantMatch → d.grants = d'.grants) :
    rule.Permits policy d ↔ rule.Permits policy d' := by
  rw [← objection?_eq_none_iff, objection?_congr hr hg, objection?_eq_none_iff]

end Rule

/-- A record that meets the demands of all rules, with the grant types that it names itself. -/
def Acceptable (policy : Policy) (r : Record) : Prop :=
  ∀ rule : Rule, rule.Permits policy r.draft

end Registration
