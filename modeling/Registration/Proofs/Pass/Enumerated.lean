import Registration.Proofs.Pass.Faultless
import Registration.Proofs.Pass.Restored
import Registration.Proofs.Policy.Advertised
import Registration.Proofs.Rule.Rejection

/-!
# Enumerated fields after lenient passes

What a lenient pass puts back is supported only if the defaults are, and the
policy of a server need not support them:

* `Retains`, `Mismatches`: the items of a record that their own rules accept,
  and response types among them that require other grant types;
* `permits_lenientPass_iff`: a field with one value ends with a permitted one if
  it has one, or if that is put back;
* `permits_match_draftAtMatch_iff`: the match objects to a record that mismatches;
* `accepts_items_lenientPass_iff`: the items with which response types and grant
  types end;
* `lenientPass_supported_iff`: all enumerated fields, for the policy of a server.
-/

namespace Registration

namespace Record

/-- The items of a field that the rule on it accepts; there is none in one that it rejects. -/
def Retains (policy : Policy) (rule : Rule) (f : Field) (r : Record) (w : Value) : Prop :=
  rule.Permits policy r.draft ∧ w ∈ (r.value f).items

/-- An accepted response type requires a grant type that is not among the accepted ones. -/
def Mismatches (policy : Policy) (r : Record) : Prop :=
  ∃ w required, r.Retains policy .responseTypes .responseTypes w ∧
    policy.grantTypeFor w = .ok required ∧ required.isTruthy = true ∧
    ¬ r.Retains policy .grantTypes .grantTypes required

end Record

namespace Rule

variable {policy : Policy} {defaults : Defaults}

/-! ## Fields with one value -/

theorem permits_reset_applicationType_iff (d : Draft) :
    applicationType.Permits policy (applicationType.reset defaults d) ↔
      IsEmptyOr (policy.accepts .applicationType · = true) defaults.applicationType := by
  rw [Permits, reset, resetRecord, Record.value_put_self]

/-- No subject type is put back, which any policy permits. -/
theorem permits_reset_subjectType (d : Draft) :
    subjectType.Permits policy (subjectType.reset defaults d) := by
  rw [Permits, reset, resetRecord, Record.value_remove_self]
  exact .inl rfl

theorem permits_reset_tokenEndpointAuthMethod_iff (d : Draft) :
    tokenEndpointAuthMethod.Permits policy (tokenEndpointAuthMethod.reset defaults d) ↔
      IsEmptyOr (policy.accepts .tokenEndpointAuthMethod · = true)
        defaults.tokenEndpointAuthMethod := by
  rw [Permits, reset, resetRecord, Record.putOrRemove]
  split
  · rename_i h
    rw [Record.value_remove_self, Value.eq_null_of_isNull h]
  · rw [Record.value_put_self]

/-! ## Response types and grant types -/

/-- A list that a rule rejects loses its items. -/
theorem mem_items_handle_iff {rule : Rule} {f : Field} (hc : rule.collection? = some f)
    (hw : rule.writes = []) {d : Draft} {w : Value} :
    w ∈ ((rule.handle policy defaults d).record.value f).items ↔
      rule.Permits policy d ∧ w ∈ (d.record.value f).items := by
  by_cases hp : rule.Permits policy d
  · rw [handle_of_permits hp, value_settle_of_not_mem (hw ▸ List.not_mem_nil), and_iff_right hp]
  · rw [handle_of_not_permits hp, value_reset_of_collection hc]
    exact iff_of_false List.not_mem_nil fun h => hp h.1

/-- Response types that are permitted can be walked through. -/
theorem permits_match_iff {d : Draft} (h : responseTypes.Permits policy d) :
    responseAndGrantMatch.Permits policy d ↔
      ∀ w ∈ (d.record.value .responseTypes).items, HasGrant policy d.grants w := by
  obtain he | hc := h
  · rw [Value.items_of_isEmpty he]
    exact iff_of_true (.inl he) nofun
  · have helements := Value.elements?_eq_items hc.isSequence
    constructor
    · rintro (he | ⟨vs, hvs, ha⟩)
      · rw [Value.items_of_isEmpty he]
        nofun
      · rw [helements] at hvs
        exact Option.some.inj hvs ▸ ha
    · exact fun ha => .inr ⟨_, helements, ha⟩

theorem IsEmptyOr.of_mem_items {p : Value → Prop} {v w : Value}
    (h : IsEmptyOr (Value.IsCollection p) v) (hw : w ∈ v.items) : p w := by
  obtain he | hc := h
  · rw [Value.items_of_isEmpty he] at hw
    cases hw
  · exact hc.all w hw

theorem IsEmptyOr.sequence?_isSome {p : Value → Prop} {v : Value}
    (h : IsEmptyOr (Value.IsCollection p) v) : IsEmptyOr (·.sequence?.isSome = true) v :=
  h.imp_right fun hc => hc.isSequence

/-- A match that is not permitted and meets no fault rejects the draft. -/
theorem exists_of_match_not_permits {d : Draft}
    (hp : ¬ responseAndGrantMatch.Permits policy d)
    (h : ∀ e, responseAndGrantMatch.objection? policy d ≠ some (.fault e)) :
    ∃ e, responseMatch policy d = .error (.rejected e) := by
  rw [← objection?_eq_none_iff, objection?_eq] at hp
  simp only [objection?_eq] at h
  cases hm : responseMatch policy d with
  | ok => exact absurd (by rw [hm]; rfl) hp
  | error e =>
    rw [hm] at h
    cases e with
    | rejected e => exact ⟨e, rfl⟩
    | fault e => exact absurd rfl (h e)

end Rule

namespace Review

open Pass (handled)

variable {v : Review}

/-! ## Passes -/

/-- A field with one value ends with one that is permitted if it has one, or if that is put back. -/
theorem permits_lenientPass_iff {P : Prop} {rule : Rule}
    (hreset : ∀ d, rule.Permits v.policy (rule.reset v.defaults d) ↔ P)
    (hm : rule ∉ Rule.paired) (hw : rule.writes = [])
    (hbefore : ∀ f ∈ rule.reads, ∀ other ∈ rule.before, f ∉ other.changes)
    (h : v.lenientPass.failure = none) :
    rule.Permits v.policy v.lenientPass.record.draft ↔
      rule.Permits v.policy v.record.draft ∨ P := by
  rw [permits_lenientPass_iff_handle h hm, Rule.permits_handle_iff hw,
    Pass.permits_handled_iff (Rule.ne_match_of_not_mem_paired hm) hbefore, hreset]

/-- The match finds the items that the rules on response types and grant types accept. -/
theorem mem_items_draftAtMatch_iff {rule : Rule} (hm : rule = .responseTypes ∨ rule = .grantTypes)
    {f : Field} (hc : rule.collection? = some f) {w : Value} :
    w ∈ (v.draftAtMatch.record.value f).items ↔ v.record.Retains v.policy rule f w := by
  rcases hm with rfl | rfl <;> cases hc
  · rw [value_draftAtMatch (.inl rfl) (by decide), Rule.mem_items_handle_iff rfl rfl,
      Pass.permits_handled_iff (by decide) (by decide), Pass.value_handled (by decide),
      Record.Retains]
  · rw [value_draftAtMatch (.inr rfl) (by decide), Rule.mem_items_handle_iff rfl rfl,
      Pass.permits_handled_iff (by decide) (by decide), Pass.value_handled (by decide),
      Record.Retains]

/-- Unless it meets a fault, the match objects to a record that mismatches, and to no other one. -/
theorem permits_match_draftAtMatch_iff (h : v.lenientPass.failure = none) :
    Rule.responseAndGrantMatch.Permits v.policy v.draftAtMatch ↔
      ¬ v.record.Mismatches v.policy := by
  have hresponse (w : Value) :
      w ∈ (v.draftAtMatch.record.value .responseTypes).items ↔
        v.record.Retains v.policy .responseTypes .responseTypes w :=
    mem_items_draftAtMatch_iff (.inl rfl) rfl
  have hgrant (w : Value) :
      w ∈ (v.draftAtMatch.record.value .grantTypes).items ↔
        v.record.Retains v.policy .grantTypes .grantTypes w :=
    mem_items_draftAtMatch_iff (.inr rfl) rfl
  have hdraft : v.draftAtMatch.record.draft = v.draftAtMatch := by
    rw [Record.draft, ← grants_draftAtMatch]
  constructor
  · intro hp
    rintro ⟨w, required, hw, hfor, ht, hn⟩
    rw [Rule.permits_match_iff (permits_draftAtMatch (.inl rfl)), grants_draftAtMatch] at hp
    obtain ⟨s, hs, rfl⟩ := (hp w ((hresponse w).mpr hw)).exists_of_isTruthy hfor ht
    exact hn ((hgrant _).mp (Value.mem_texts.mp hs))
  · intro hno
    by_contra hp
    -- What the match says against the draft is no fault, so it has found a grant type missing.
    obtain ⟨e, he⟩ : ∃ e, Rule.responseMatch v.policy v.draftAtMatch.record.draft =
        .error (.rejected e) := by
      rw [hdraft]
      refine Rule.exists_of_match_not_permits hp ?_
      exact lenientPass_failure_eq_none_iff.mp h .responseAndGrantMatch
    obtain ⟨x, hx, -⟩ := Violation.exists_isFirst_of_responseMatch_rejected
      (hdraft.symm ▸ permits_draftAtMatch (.inl rfl)) he
    obtain ⟨_, w, required, -, -, hw, hfor, ht, hn⟩ := hx.holds.2
    refine hno ⟨w, required, (hresponse w).mp (List.mem_of_getElem? hw), hfor, ht, fun hr => ?_⟩
    have haccepts := Rule.IsEmptyOr.of_mem_items hr.1 hr.2
    obtain ⟨s, hs⟩ := Option.isSome_iff_exists.mp (Rule.text?_isSome_of_accepts haccepts)
    obtain rfl := Value.eq_str_of_text? hs
    exact hn s (Value.mem_texts.mpr ((hgrant _).mpr hr)) rfl

/-- The response types, or the grant types, end as their own rule has left them, or with the default
one alone. -/
theorem accepts_items_lenientPass_iff (h : v.lenientPass.failure = none) {e : Enumerated}
    {w : Value} (hpair : e.field ∈ [Field.responseTypes, .grantTypes])
    (hbefore : Rule.IsEmptyOr (Value.IsCollection (v.policy.accepts e · = true))
      (v.draftAtMatch.record.value e.field))
    (hreset : ∀ d, (Rule.responseAndGrantMatch.reset v.defaults d).record.value e.field =
      .list [w]) :
    Rule.IsEmptyOr (·.sequence?.isSome = true) (v.lenientPass.record.value e.field) ∧
      ((∀ u ∈ (v.lenientPass.record.value e.field).items, v.policy.accepts e u = true) ↔
        ¬ (v.record.Mismatches v.policy ∧ ¬ v.policy.accepts e w = true)) := by
  rw [value_lenientPass_of_mem_pair h hpair]
  have hmatch := permits_match_draftAtMatch_iff h
  by_cases hm : v.record.Mismatches v.policy
  · have hn : ¬ Rule.responseAndGrantMatch.Permits v.policy v.draftAtMatch :=
      fun hp => hmatch.mp hp hm
    rw [Rule.handle_of_not_permits hn, hreset]
    exact ⟨.inr rfl, by simp [hm]⟩
  · rw [Rule.handle_of_permits (hmatch.mpr hm),
      Rule.settle_responseAndGrantMatch]
    exact ⟨hbefore.sequence?_isSome, iff_of_true (fun u => hbefore.of_mem_items) fun hn => hm hn.1⟩

/-- A server that gives lists of texts or nothing narrows what a lenient pass accepts, but not what
it puts back. It gives the record if this may be written out. Application types and subject types
end as supported ones, or empty. The others do unless the default is put back and the server
withholds it: that of the authentication method if the one given is rejected, those of response
types and grant types if the accepted ones do not fit. -/
theorem lenientPass_supported_iff {metadata : Entries}
    (h : ∀ e, Policy.Silent metadata e ∨ ∃ ss, Policy.States metadata e ss) :
    ∃ policy, Policy.ofServerMetadata .stock (.map metadata) = .ok policy ∧
      ∀ (r : Record) (v : Review), v = ⟨r, policy, .stock⟩ →
        (r.IsPrintable → v.lenientPass.failure = none) ∧
        (v.lenientPass.failure = none →
          Rule.IsEmptyOr (policy.accepts .applicationType · = true)
            (v.lenientPass.record.value .applicationType) ∧
          Rule.IsEmptyOr (policy.accepts .subjectType · = true)
            (v.lenientPass.record.value .subjectType) ∧
          (Rule.IsEmptyOr (policy.accepts .tokenEndpointAuthMethod · = true)
              (v.lenientPass.record.value .tokenEndpointAuthMethod) ↔
            ¬ (¬ Rule.tokenEndpointAuthMethod.Permits policy r.draft ∧
              Policy.Withholds metadata .tokenEndpointAuthMethod "client_secret_basic")) ∧
          (∀ f ∈ [Field.responseTypes, .grantTypes],
            Rule.IsEmptyOr (·.sequence?.isSome = true) (v.lenientPass.record.value f)) ∧
          ((∀ w ∈ (v.lenientPass.record.value .responseTypes).items,
              policy.accepts .responseTypes w = true) ↔
            ¬ (r.Mismatches policy ∧ Policy.Withholds metadata .responseTypes "code")) ∧
          ((∀ w ∈ (v.lenientPass.record.value .grantTypes).items,
              policy.accepts .grantTypes w = true) ↔
            ¬ (r.Mismatches policy ∧
              Policy.Withholds metadata .grantTypes "authorization_code"))) := by
  rw [Catalogue.stock_eq_ofTexts]
  obtain ⟨policy, hpolicy⟩ := Policy.exists_ofServerMetadata h
  have htexts : policy.RequiresTexts := by
    obtain ⟨es, hes, ht⟩ := Policy.requiresTexts_stock
    exact ⟨es, (Policy.ofServerMetadata_eq_ok_iff.mp hpolicy).1.1.trans hes, ht⟩
  have hwithholds (e : Enumerated) (s : String) (hne : s ≠ "")
      (hm : s ∈ Policy.stock.supportedTexts e) :
      ¬ policy.accepts e (.str s) = true ↔ Policy.Withholds metadata e s := by
    rw [Policy.accepts_iff_not_withholds hpolicy (h e) hne hm, Classical.not_not]
  refine ⟨policy, hpolicy, ?_⟩
  rintro r v rfl
  refine ⟨lenientPass_failure_eq_none (v := ⟨r, policy, .stock⟩) htexts, fun hnone => ?_⟩
  obtain ⟨hresponse, hresponses⟩ := accepts_items_lenientPass_iff (v := ⟨r, policy, .stock⟩)
    (e := .responseTypes) hnone (by decide) (permits_draftAtMatch (.inl rfl))
    Rule.responseTypes_reset_match
  obtain ⟨hgrant, hgrants⟩ := accepts_items_lenientPass_iff (v := ⟨r, policy, .stock⟩)
    (e := .grantTypes) hnone (by decide) (permits_draftAtMatch (.inr rfl))
    Rule.grantTypes_reset_match
  refine ⟨?_, ?_, ?_, ?_, ?_, ?_⟩
  · have hweb : policy.accepts .applicationType (.str "web") = true := by
      rw [Policy.accepts_iff_not_withholds hpolicy (h _) (by decide) (by decide)]
      rintro ⟨ss, ⟨name, hname, -⟩, -⟩
      cases hname
    exact (permits_lenientPass_iff Rule.permits_reset_applicationType_iff (by decide) rfl
      (by decide) hnone).mpr (.inr (.inr hweb))
  · exact (permits_lenientPass_iff (fun d => iff_of_true (Rule.permits_reset_subjectType d) trivial)
      (by decide) rfl (by decide) hnone).mpr (.inr trivial)
  · rw [← hwithholds _ _ (by decide) (by decide), not_and_or, Classical.not_not, Classical.not_not]
    refine (permits_lenientPass_iff Rule.permits_reset_tokenEndpointAuthMethod_iff (by decide) rfl
      (by decide) hnone).trans (or_congr_right ?_)
    exact or_iff_right Bool.false_ne_true
  · simp only [List.mem_cons, List.not_mem_nil, or_false, forall_eq_or_imp, forall_eq]
    exact ⟨hresponse, hgrant⟩
  · rwa [← hwithholds _ _ (by decide) (by decide)]
  · rwa [← hwithholds _ _ (by decide) (by decide)]

/-- A server that knows clients without a secret only, and no implicit grant: the authentication
method ends as one that it does not know, but response types and grant types do not. -/
theorem lenientPass_supported_of_public_clients :
    ∃ (metadata : Entries) (r : Record) (policy : Policy) (v : Review),
      metadata = [("token_endpoint_auth_methods_supported", .ofTexts ["none"]),
        ("grant_types_supported", .ofTexts ["authorization_code"])] ∧
      r = .ofEntries [("token_endpoint_auth_method", .str "private_key_jwt"),
        ("response_types", .ofTexts ["code"]), ("grant_types", .ofTexts ["implicit"])] ∧
      Policy.ofServerMetadata .stock (.map metadata) = .ok policy ∧ v = ⟨r, policy, .stock⟩ ∧
      ¬ Rule.IsEmptyOr (policy.accepts .tokenEndpointAuthMethod · = true)
        (v.lenientPass.record.value .tokenEndpointAuthMethod) ∧
      (∀ w ∈ (v.lenientPass.record.value .responseTypes).items,
        policy.accepts .responseTypes w = true) ∧
      ∀ w ∈ (v.lenientPass.record.value .grantTypes).items,
        policy.accepts .grantTypes w = true := by
  obtain ⟨metadata, hm⟩ : ∃ metadata : Entries,
      metadata = [("token_endpoint_auth_methods_supported", .ofTexts ["none"]),
        ("grant_types_supported", .ofTexts ["authorization_code"])] := ⟨_, rfl⟩
  have hmethod : Policy.States metadata .tokenEndpointAuthMethod ["none"] := hm ▸ ⟨_, rfl, rfl⟩
  have hgrant : Policy.States metadata .grantTypes ["authorization_code"] := hm ▸ ⟨_, rfl, rfl⟩
  have hresponse : Policy.Silent metadata .responseTypes := by
    rintro name ⟨⟩
    exact hm ▸ rfl
  have hsubject : Policy.Silent metadata .subjectType := by
    rintro name ⟨⟩
    exact hm ▸ rfl
  have hfields : ∀ e, Policy.Silent metadata e ∨ ∃ ss, Policy.States metadata e ss
    | .applicationType => .inl nofun
    | .responseTypes => .inl hresponse
    | .grantTypes => .inr ⟨_, hgrant⟩
    | .subjectType => .inl hsubject
    | .tokenEndpointAuthMethod => .inr ⟨_, hmethod⟩
  obtain ⟨policy, hp, hv⟩ := lenientPass_supported_iff hfields
  obtain ⟨hends, hends'⟩ := hv (.ofEntries
    [("token_endpoint_auth_method", .str "private_key_jwt"),
      ("response_types", .ofTexts ["code"]), ("grant_types", .ofTexts ["implicit"])]) _ rfl
  have hprintable : (Record.ofEntries
      [("token_endpoint_auth_method", .str "private_key_jwt"),
        ("response_types", .ofTexts ["code"]),
        ("grant_types", .ofTexts ["implicit"])]).IsPrintable := by
    intro f
    cases f <;> decide +kernel
  obtain ⟨-, -, hmethods, -, hresponses, hgrants⟩ := hends' (hends hprintable)
  refine ⟨metadata, _, policy, _, hm, rfl, hp, rfl, ?_, ?_, ?_⟩
  · rw [hmethods, Classical.not_not]
    refine ⟨?_, _, hmethod, by decide, by decide⟩
    rintro (he | ha)
    · cases he
    · rw [Catalogue.stock_eq_ofTexts] at hp
      have hnone := (Policy.accepts_of_takes hp (Policy.takes_of_states hmethod)).mp ha
      exact absurd hnone.2 (by decide)
  · rintro w hw
    refine hresponses.mpr ?_ w hw
    rintro ⟨-, ss, hss, -⟩
    exact hss.not_silent hresponse
  · rintro w hw
    refine hgrants.mpr ?_ w hw
    rintro ⟨-, ss, hss, -, hn⟩
    exact hn (hgrant.unique hss ▸ List.mem_singleton.mpr rfl)

/-- A rejected authentication method is replaced by one that the server does not advertise. -/
theorem lenientPass_puts_back_withheld_method :
    ∃ (policy : Policy) (v : Review), Policy.ofServerMetadata .stock
        (.map [("token_endpoint_auth_methods_supported", .ofTexts ["none"])]) = .ok policy ∧
      v = ⟨.ofEntries [("token_endpoint_auth_method", .str "private_key_jwt")], policy, .stock⟩ ∧
      v.lenientPass.failure = none ∧
      v.lenientPass.record.value .tokenEndpointAuthMethod = .str "client_secret_basic" ∧
      ¬ Rule.IsEmptyOr (policy.accepts .tokenEndpointAuthMethod · = true)
        (.str "client_secret_basic") := by
  refine ⟨⟨fun e => if e = .tokenEndpointAuthMethod then [.str "none"] else
    Policy.stock.supported e, Policy.stock.requirements, .membership⟩, _, ?_, rfl, rfl, rfl, ?_⟩
  · rw [Catalogue.stock_eq_ofTexts]
    refine Policy.ofServerMetadata_eq_ok_iff.mpr ⟨⟨rfl, rfl⟩, fun e => ?_⟩
    cases e with
    | tokenEndpointAuthMethod => exact ⟨_, Policy.takes_of_states ⟨_, rfl, rfl⟩, rfl⟩
    | applicationType => exact ⟨_, Policy.takes_of_silent (by rintro name ⟨⟩) _, rfl⟩
    | _ => exact ⟨_, Policy.takes_of_silent (by rintro name ⟨⟩; rfl) _, rfl⟩
  · rintro (he | ha)
    · cases he
    · cases ha

end Review

end Registration
