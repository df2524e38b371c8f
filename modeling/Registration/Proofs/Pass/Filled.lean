import Registration.Proofs.Pass.Acceptance
import Registration.Proofs.Rule.Supported

/-!
# Strict passes after omitted fields are filled

Each omitted field is filled without a look at the others:

* `Field.filled`: the value that each field ends with (`value_fillDefaults`);
* `permits_fillDefaults`: with supported defaults, the demands on single fields
  stay met;
* `permits_match_fillDefaults_iff`: the demand on response types and grant types
  does not, if the default response type joins grant types that lack its own;
* `acceptable_fillDefaults_iff`, `strictPass_of_fillDefaults_iff`: what follows
  for the records that a strict pass accepts.
-/

namespace Registration

/-- The value with which a field is left once omitted fields are filled. -/
def Field.filled (defaults : Defaults) : Field → Value → Value
  | applicationType, v => if v.isEmpty then defaults.applicationType else v
  | responseTypes, v => if v.isEmpty then .list [defaults.responseType] else v
  | grantTypes, v => if v.isEmpty then .list [defaults.grantType] else v
  | tokenEndpointAuthMethod, v => if v.isEmpty then defaults.tokenEndpointAuthMethod else v
  | redirectUris, v | postLogoutRedirectUris, v | trustedUriPrefixes, v => v.orEmptyList
  | _, v => v

namespace Record

theorem value_fillEmpty (r : Record) (f : Field) (v : Value) (g : Field) :
    (r.fillEmpty f v).value g = if g = f ∧ (r.value f).isEmpty = true then v else r.value g := by
  rw [fillEmpty]
  by_cases he : (r.value f).isEmpty = true
  · by_cases hg : g = f
    · rw [if_pos he, if_pos ⟨hg, he⟩, hg, value_put_self]
    · rw [if_pos he, if_neg fun h => hg h.1, value_put_ne r v hg]
  · rw [if_neg he, if_neg fun h => he h.2]

theorem value_fillList (r : Record) (f g : Field) :
    (r.fillList f).value g = if g = f then (r.value g).orEmptyList else r.value g := by
  rw [fillList, Value.orEmptyList]
  by_cases hg : g = f
  · subst hg
    rw [if_pos rfl]
    split
    · rw [value_put_self]
    · rfl
  · rw [if_neg hg]
    split
    · rw [value_put_ne r _ hg]
    · rfl

theorem value_fillDefaults (r : Record) (defaults : Defaults) (f : Field) :
    (r.fillDefaults defaults).value f = f.filled defaults (r.value f) := by
  cases f <;> simp [fillDefaults, value_fillList, value_fillEmpty, Field.filled]

end Record

namespace Rule

variable {policy : Policy} {defaults : Defaults}

theorem IsReference.mono {absolute absolute' : Bool} (h : absolute' = true → absolute = true)
    {v : Value} (hv : IsReference absolute v) : IsReference absolute' v := by
  obtain ⟨u, hu, hs⟩ := hv
  exact ⟨u, hu, fun ha => hs (h ha)⟩

/-- An omitted kind of application is judged most strictly. -/
theorem needsAbsoluteUris_of_fillDefaults {r : Record}
    (h : needsAbsoluteUris (r.fillDefaults defaults) = true) : needsAbsoluteUris r = true := by
  by_cases he : (r.value .applicationType).isEmpty = true
  · rw [needsAbsoluteUris, he, Bool.true_or]
  · rwa [needsAbsoluteUris, Record.value_fillDefaults, Field.filled, if_neg he] at h

/-- Filling omitted fields keeps each field within its own demand. -/
theorem permits_fillDefaults (hd : defaults.Supported policy) {rule : Rule}
    (hm : rule ≠ responseAndGrantMatch) {r : Record} (h : rule.Permits policy r.draft) :
    rule.Permits policy (r.fillDefaults defaults).draft := by
  have hv (f : Field) : (r.fillDefaults defaults).draft.record.value f =
      f.filled defaults (r.value f) := Record.value_fillDefaults r defaults f
  cases rule with
  | responseAndGrantMatch => exact absurd rfl hm
  | scope | preauthorizedScope => trivial
  | applicationType =>
    rw [Permits, hv, Field.filled]
    split
    · exact .inr hd.applicationType
    · exact h
  | tokenEndpointAuthMethod =>
    rw [Permits, hv, Field.filled]
    split
    · exact .inr hd.tokenEndpointAuthMethod
    · exact h
  | responseTypes =>
    rw [Permits, hv, Field.filled]
    split
    · exact isEmptyOr_singleton hd.responseType
    · exact h
  | grantTypes =>
    rw [Permits, hv, Field.filled]
    split
    · exact isEmptyOr_singleton hd.grantType
    · exact h
  | redirectUris =>
    rw [Permits, hv]
    refine isNullOr_orEmptyList (h.imp_right fun hc => ⟨hc.isSequence, hc.distinct, fun w hw => ?_⟩)
    exact (hc.all w hw).mono needsAbsoluteUris_of_fillDefaults
  | postLogoutRedirectUris | trustedUriPrefixes =>
    rw [Permits, hv]
    exact isNullOr_orEmptyList h
  | subjectType | functionalUserGroupIds =>
    rw [Permits, hv]
    exact h
  | outputParameters =>
    rw [Permits, hv, hv, hv]
    exact h

/-- The response types and the grant types fit after filling, unless grant types were given without
response types, and lack the one that goes with the default response type. -/
theorem permits_match_fillDefaults_iff (hd : defaults.Supported policy) {r : Record}
    (h : responseAndGrantMatch.Permits policy r.draft) :
    responseAndGrantMatch.Permits policy (r.fillDefaults defaults).draft ↔
      ((r.value .responseTypes).isEmpty = true → (r.value .grantTypes).isEmpty = false →
        HasGrant policy (r.value .grantTypes).texts defaults.responseType) := by
  have hresponse : (r.fillDefaults defaults).draft.record.value .responseTypes =
      Field.filled defaults .responseTypes (r.value .responseTypes) :=
    Record.value_fillDefaults ..
  have hgrants : (r.fillDefaults defaults).draft.grants =
      (Field.filled defaults .grantTypes (r.value .grantTypes)).texts :=
    congrArg Value.texts (Record.value_fillDefaults ..)
  by_cases hr : (r.value .responseTypes).isEmpty = true
  · rw [Field.filled, if_pos hr] at hresponse
    rw [permits_match_singleton hresponse, hgrants, Field.filled]
    by_cases hg : (r.value .grantTypes).isEmpty = true
    · rw [if_pos hg]
      exact iff_of_true hd.hasGrant fun _ hn => absurd hg (Bool.eq_false_iff.mp hn)
    · rw [if_neg hg]
      exact ⟨fun hh _ _ => hh, fun hh => hh hr (Bool.eq_false_iff.mpr hg)⟩
  · rw [Field.filled, if_neg hr] at hresponse
    refine iff_of_true (permits_match_mono h hresponse fun s hs => ?_) fun hn => absurd hn hr
    rw [hgrants, Field.filled]
    split
    · rename_i hg
      rw [Record.draft, Value.texts_of_items_eq_nil (Value.items_of_isEmpty hg)] at hs
      cases hs
    · exact hs

end Rule

/-- A record stays acceptable if the default response type may join its grant types. -/
theorem acceptable_fillDefaults_iff {policy : Policy} {defaults : Defaults}
    (hd : defaults.Supported policy) {r : Record} (h : Acceptable policy r) :
    Acceptable policy (r.fillDefaults defaults) ↔
      ((r.value .responseTypes).isEmpty = true → (r.value .grantTypes).isEmpty = false →
        Rule.HasGrant policy (r.value .grantTypes).texts defaults.responseType) := by
  rw [← Rule.permits_match_fillDefaults_iff hd (h .responseAndGrantMatch)]
  refine ⟨fun ha => ha .responseAndGrantMatch, fun hm rule => ?_⟩
  by_cases hr : rule = .responseAndGrantMatch
  · exact hr ▸ hm
  · exact Rule.permits_fillDefaults hd hr (h rule)

theorem Rule.hasGrant_stock_iff {grants : List String} :
    HasGrant .stock grants Defaults.stock.responseType ↔ "authorization_code" ∈ grants := by
  constructor
  · rintro ⟨required, hr, ht⟩
    cases hr
    obtain ⟨s, hs, heq⟩ := ht rfl
    cases heq
    exact hs
  · exact fun h => ⟨_, rfl, fun _ => ⟨_, h, rfl⟩⟩

namespace Review

/-- In the stock configuration, filling the omitted fields of an accepted record leaves one that is
accepted, unless it gives grant types other than the authorization code, and no response types. -/
theorem strictPass_of_fillDefaults_iff {r : Record} (h : (stock r).strictPass.failure = none) :
    ((stock r).step .fillDefaults).review.strictPass.failure = none ↔
      ¬ ((r.value .responseTypes).isEmpty = true ∧ (r.value .grantTypes).isEmpty = false ∧
        "authorization_code" ∉ (r.value .grantTypes).texts) := by
  have ha : Acceptable .stock r := (strictPass_failure_eq_none_iff (stock r)).mp h
  rw [strictPass_failure_eq_none_iff]
  refine (acceptable_fillDefaults_iff Defaults.supported_stock ha).trans ?_
  rw [Rule.hasGrant_stock_iff, not_and, not_and]
  exact ⟨fun hs hr hg hn => hn (hs hr hg), fun hs hr hg => Classical.not_not.mp (hs hr hg)⟩

/-- Response types that are omitted among grant types with the authorization code are filled. -/
theorem strictPass_of_fillDefaults_of_authorization_code :
    ∃ r : Record, r = .ofEntries [("application_type", .str "native"),
        ("grant_types", .ofTexts ["implicit", "authorization_code"]),
        ("redirect_uris", .ofTexts ["/cb"])] ∧
      (stock r).strictPass.failure = none ∧
      ((stock r).step .fillDefaults).review.strictPass.failure = none :=
  ⟨_, rfl, rfl, (strictPass_of_fillDefaults_iff rfl).mpr fun hn => hn.2.2 (by decide)⟩

/-- Grant types of a client that acts on its own behalf are joined by a response type for users. -/
theorem strictPass_rejects_filled_response_types :
    (stock (.ofEntries [("grant_types", .ofTexts ["client_credentials"])])).strictPass.failure =
      none ∧
    ((stock (.ofEntries [("grant_types", .ofTexts ["client_credentials"])])).step
      .fillDefaults).review.strictPass.failure =
        some (.rejected (.ofField (.grantResponseMismatch (.str "authorization_code"))
          .responseTypes (.str "code"))) :=
  ⟨rfl, rfl⟩

end Review

end Registration
