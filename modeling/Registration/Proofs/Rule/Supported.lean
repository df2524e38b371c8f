import Registration.Defaults
import Registration.Policy.Build
import Registration.Proofs.Rule.Acceptance

/-!
# Supported defaults

Defaults that may stand in any record:

* `Defaults.Supported`: each is a supported value, and the response type among
  them requires no other grant type than the one among them;
* `isNullOr_orEmptyList`, `isEmptyOr_singleton`: the values with which omitted
  lists are filled, and rejected ones replaced, meet every demand;
* `HasGrant.mono`, `Supported.hasGrant`: where the required grant type is.
-/

namespace Registration

/-- Defaults that a policy supports, with a grant type that suits the response type. -/
structure Defaults.Supported (policy : Policy) (defaults : Defaults) : Prop where
  applicationType : policy.accepts .applicationType defaults.applicationType = true
  responseType : policy.accepts .responseTypes defaults.responseType = true
  grantType : policy.accepts .grantTypes defaults.grantType = true
  tokenEndpointAuthMethod :
    policy.accepts .tokenEndpointAuthMethod defaults.tokenEndpointAuthMethod = true
  grant : ∃ required, policy.grantTypeFor defaults.responseType = .ok required ∧
    (required.isTruthy = true → required = defaults.grantType)

theorem Defaults.supported_stock : Defaults.stock.Supported .stock where
  applicationType := rfl
  responseType := rfl
  grantType := rfl
  tokenEndpointAuthMethod := rfl
  grant := ⟨.str "authorization_code", rfl, fun _ => rfl⟩

namespace Rule

variable {policy : Policy}

/-! ## Values that meet every demand -/

theorem isCollection_nil (p : Value → Prop) : (Value.list []).IsCollection p where
  isSequence := rfl
  distinct := Value.hasDistinctItems_of_items_eq_nil rfl
  all := nofun

theorem isCollection_singleton {p : Value → Prop} {v : Value} (h : p v) :
    (Value.list [v]).IsCollection p where
  isSequence := rfl
  distinct := Value.hasDistinctItems_singleton v
  all := fun _ hw => List.mem_singleton.mp hw ▸ h

theorem IsNullOr.of_mem_items {p : Value → Prop} {v w : Value}
    (h : IsNullOr (Value.IsCollection p) v) (hw : w ∈ v.items) : p w := by
  obtain hn | hc := h
  · rw [Value.eq_null_of_isNull hn] at hw
    cases hw
  · exact hc.all w hw

theorem isNullOr_orEmptyList {p : Value → Prop} {v : Value}
    (h : IsNullOr (Value.IsCollection p) v) : IsNullOr (Value.IsCollection p) v.orEmptyList := by
  rw [Value.orEmptyList]
  split
  · exact .inr (isCollection_nil p)
  · exact h

theorem isEmptyOr_singleton {e : Enumerated} {v : Value} (h : policy.accepts e v = true) :
    IsEmptyOr (Value.IsCollection (policy.accepts e · = true)) (.list [v]) :=
  .inr (isCollection_singleton h)

/-! ## Grant types -/

theorem HasGrant.mono {grants grants' : List String} {v : Value} (h : HasGrant policy grants v)
    (hs : ∀ s ∈ grants, s ∈ grants') : HasGrant policy grants' v := by
  obtain ⟨required, hr, ht⟩ := h
  refine ⟨required, hr, fun hn => ?_⟩
  obtain ⟨s, hm, rfl⟩ := ht hn
  exact ⟨s, hs s hm, rfl⟩

/-- Response types that fit some grant types fit more of them. -/
theorem permits_match_mono {d d' : Draft} (h : responseAndGrantMatch.Permits policy d)
    (hv : d'.record.value .responseTypes = d.record.value .responseTypes)
    (hs : ∀ s ∈ d.grants, s ∈ d'.grants) : responseAndGrantMatch.Permits policy d' := by
  obtain he | ⟨vs, hvs, ha⟩ := h
  · exact .inl (hv ▸ he)
  · exact .inr ⟨vs, hv ▸ hvs, fun w hw => (ha w hw).mono hs⟩

theorem permits_match_singleton {d : Draft} {v : Value}
    (hv : d.record.value .responseTypes = .list [v]) :
    responseAndGrantMatch.Permits policy d ↔ HasGrant policy d.grants v := by
  rw [Permits, hv]
  constructor
  · rintro (he | ⟨vs, hvs, ha⟩)
    · cases he
    · cases hvs
      exact ha v (List.mem_singleton.mpr rfl)
  · exact fun h => .inr ⟨[v], rfl, fun w hw => List.mem_singleton.mp hw ▸ h⟩

end Rule

/-- The default response type goes with the default grant type. -/
theorem Defaults.Supported.hasGrant {policy : Policy} {defaults : Defaults}
    (h : defaults.Supported policy) :
    Rule.HasGrant policy (Value.list [defaults.grantType]).texts defaults.responseType := by
  obtain ⟨required, hr, ht⟩ := h.grant
  refine ⟨required, hr, fun hn => ?_⟩
  obtain ⟨s, hs⟩ := Option.isSome_iff_exists.mp (Rule.text?_isSome_of_accepts h.grantType)
  have hg : defaults.grantType = .str s := Value.eq_str_of_text? hs
  exact ⟨s, Value.mem_texts.mpr (hg ▸ List.mem_singleton.mpr rfl), (ht hn).trans hg⟩

end Registration
