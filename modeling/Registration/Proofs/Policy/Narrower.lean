import Registration.Proofs.Policy.Advertised
import Registration.Proofs.Rule.Acceptance

/-!
# Narrower policies

A policy is narrower than another one if it supports nothing that the other
does not support, and requires the same grant types:

* `Value.IsAmong`, `Policy.Narrows`: what this means of arbitrary values;
* `Narrows.accepts`, `Narrows.permits`, `Narrows.acceptable`: what a narrower
  policy accepts, item by item, rule by rule, and as a record;
* `sublist_of_select`, `exists_elements_of_narrow`: what servers advertise, of
  any kind, selects values of the catalogue and adds none;
* `exists_narrows_of_ofServerMetadata`: so the policy of a server narrows that
  of the whole catalogue.
-/

namespace Registration

/-- One of the values is this one, or equals it. -/
def Value.IsAmong (v : Value) (vs : List Value) : Prop :=
  ∃ w ∈ vs, w = v ∨ w.same v = true

theorem Value.eq_str_of_same {v : Value} {s : String} (h : v.same (.str s) = true) :
    v = .str s := by
  cases v with
  | str t =>
    rw [same_str, beq_iff_eq] at h
    rw [h]
  | _ => simp [same, sameNumber, integer?] at h

/-- Only the text itself equals a text. -/
theorem Value.isAmong_str_iff {s : String} {vs : List Value} :
    (Value.str s).IsAmong vs ↔ .str s ∈ vs := by
  constructor
  · rintro ⟨w, hw, rfl | hsame⟩
    · exact hw
    · rwa [← eq_str_of_same hsame]
  · exact fun h => ⟨_, h, .inl rfl⟩

namespace Policy

/-- A policy supports for every field only what the other one does, and requires the same. -/
structure Narrows (p q : Policy) : Prop where
  requirements : p.requirements = q.requirements
  supported : ∀ e, ∀ v ∈ p.supported e, v.IsAmong (q.supported e)

theorem Narrows.refl (p : Policy) : p.Narrows p where
  requirements := rfl
  supported _ v hv := ⟨v, hv, .inl rfl⟩

namespace Narrows

variable {p q : Policy}

/-! ## What is accepted -/

theorem accepts (h : p.Narrows q) {e : Enumerated} {v : Value} (ha : p.accepts e v = true) :
    q.accepts e v = true := by
  obtain ⟨s, hs⟩ := Option.isSome_iff_exists.mp (Rule.text?_isSome_of_accepts ha)
  obtain rfl := Value.eq_str_of_text? hs
  obtain ⟨hne, hmem⟩ := accepts_str_iff.mp ha
  exact accepts_str_iff.mpr ⟨hne, Value.isAmong_str_iff.mp (h.supported e _ hmem)⟩

theorem grantTypeFor (h : p.Narrows q) (v : Value) : p.grantTypeFor v = q.grantTypeFor v := by
  unfold Policy.grantTypeFor
  rw [h.requirements]

theorem hasGrant (h : p.Narrows q) {grants : List String} {v : Value}
    (hg : Rule.HasGrant p grants v) : Rule.HasGrant q grants v := by
  obtain ⟨required, hfor, ht⟩ := hg
  exact ⟨required, h.grantTypeFor v ▸ hfor, ht⟩

/-- Only the rules on enumerated fields and the match ask the policy. -/
theorem permits (h : p.Narrows q) {rule : Rule} {d : Draft} (hp : rule.Permits p d) :
    rule.Permits q d := by
  cases rule with
  | applicationType | subjectType | tokenEndpointAuthMethod => exact hp.imp_right h.accepts
  | responseTypes | grantTypes => exact hp.imp_right fun hc => hc.imp fun _ => h.accepts
  | responseAndGrantMatch =>
    refine hp.imp_right fun hwalk => ?_
    obtain ⟨vs, hvs, hall⟩ := hwalk
    exact ⟨vs, hvs, fun w hw => h.hasGrant (hall w hw)⟩
  | _ => exact hp

theorem acceptable (h : p.Narrows q) {r : Record} (ha : Acceptable p r) : Acceptable q r :=
  fun rule => h.permits (ha rule)

end Narrows

/-! ## What servers advertise -/

/-- By induction on the values of the catalogue, of which each is kept or left out. -/
theorem sublist_of_select {advertised : Value} {vs kept : List Value}
    (h : select advertised vs = .ok kept) : kept.Sublist vs := by
  induction vs generalizing kept with
  | nil =>
    cases h
    exact List.Sublist.refl _
  | cons v vs ih =>
    unfold select at h
    split at h
    · rename_i b rest _ hrest
      cases h
      have hsub : rest.Sublist vs := ih hrest
      split
      · exact hsub.cons_cons v
      · exact hsub.cons v
    · cases h
    · cases h

/-- A value that advertises something selects some values, and any other one gives none. -/
theorem exists_elements_of_narrow {values advertised given : Value}
    (h : narrow values advertised = .ok given) :
    given = .null ∨
      ∃ vs kept, values.elements? = some vs ∧ given = .list kept ∧ kept.Sublist vs := by
  unfold narrow at h
  split at h
  · cases hvs : values.elements? with
    | none =>
      rw [hvs] at h
      cases h
    | some vs =>
      rw [hvs] at h
      cases hs : select advertised vs with
      | error e =>
        simp only [hs] at h
        cases h
      | ok selected =>
        simp only [hs] at h
        cases h
        exact .inr ⟨vs, selected, rfl, rfl, sublist_of_select hs⟩
  · cases h
    exact .inl rfl

theorem exists_elements_of_takes {c : Catalogue} {metadata : Entries} {e : Enumerated} {v : Value}
    {kept : List Value} (h : Takes c metadata e v) (hv : v.elements? = some kept) :
    ∃ vs, (c.values e).elements? = some vs ∧ kept.Sublist vs := by
  obtain ⟨given, hgiven, rfl⟩ := h
  have hnarrowed : given = .null ∨ ∃ vs kept, (c.values e).elements? = some vs ∧
      given = .list kept ∧ kept.Sublist vs := by
    unfold narrowed at hgiven
    split at hgiven
    · cases hgiven
      exact .inl rfl
    · exact exists_elements_of_narrow hgiven
  obtain rfl | ⟨vs, kept', hvs, rfl, hsub⟩ := hnarrowed
  · exact ⟨kept, hv, List.Sublist.refl _⟩
  · obtain rfl : kept' = kept := Option.some.inj hv
    exact ⟨vs, hvs, hsub⟩

/-- Wherever there is a policy for a server, there is one of the whole catalogue, and the first one
is narrower. -/
theorem exists_narrows_of_ofServerMetadata {c : Catalogue} {metadata : Entries} {p : Policy}
    (h : ofServerMetadata c (.map metadata) = .ok p) :
    ∃ q, ofOptions c [] = .ok q ∧ p.Narrows q := by
  obtain ⟨⟨hrequirements, -⟩, hfields⟩ := ofServerMetadata_eq_ok_iff.mp h
  have hvalues (e : Enumerated) :
      ∃ vs, (c.values e).elements? = some vs ∧ (p.supported e).Sublist vs := by
    obtain ⟨v, ht, hv⟩ := hfields e
    exact exists_elements_of_takes ht hv
  choose supported hsupported hsub using hvalues
  have hwhole : ofOptions c [] = .ok ⟨supported, c.requirements, c.optionCheck⟩ := by
    show ofValues c c.values = _
    exact ofValues_eq_ok_iff.mpr ⟨⟨rfl, rfl⟩, hsupported⟩
  refine ⟨_, hwhole, hrequirements, fun e v hv => ?_⟩
  exact ⟨v, (hsub e).subset hv, .inl rfl⟩

end Policy

end Registration
