import Registration.Proofs.Pass.Acceptance
import Registration.Proofs.Pass.Lenient
import Registration.Proofs.Rule.Supported

/-!
# Strict passes after lenient ones

With defaults that the policy supports, a lenient pass leaves nothing for a
strict one to reject or to settle:

* `permits_handle`: what a rule leaves meets its own demand;
* `registered_handle_of_mem_writes`: the lists that it leaves are settled;
* `permits_handle_match`: the match leaves response types and grant types that
  meet the demands of their own rules too;
* `registered_lenientPass`, `permits_lenientPass_iff_handle`: all rules from the
  point of view of the last one that changes a field;
* `draftAtMatch`: the draft that the match finds on the way;
* `acceptable_lenientPass`, `settleFields_lenientPass`: both for the record after
  all rules;
* `strictPass_of_lenientPass`: a strict pass of that record.
-/

namespace Registration

namespace Rule

variable {policy : Policy} {defaults : Defaults}

/-- Prefixes still read as URIs of the same scheme after a slash has been added. -/
theorem isReference_withFinalSlash {v : Value} (h : IsReference true v) :
    IsReference true v.withFinalSlash := by
  obtain ⟨u, hu, hs⟩ := h
  obtain ⟨s, rfl, hp⟩ := Uri.ofValue_eq_ok_iff.mp hu
  obtain ⟨u', hp', hscheme, -⟩ := Uri.parse_withFinalSlash hp
  exact ⟨u', Uri.ofValue_eq_ok_iff.mpr ⟨_, rfl, hp'⟩, fun ht => hscheme ▸ hs ht⟩

theorem isCollection_withFinalSlash {v : Value}
    (h : IsNullOr (Value.IsCollection (IsReference true)) v)
    (hd : (Value.list (v.items.map Value.withFinalSlash)).HasDistinctItems) :
    (Value.list (v.items.map Value.withFinalSlash)).IsCollection (IsReference true) where
  isSequence := rfl
  distinct := hd
  all := by
    intro w hw
    obtain ⟨u, hu, rfl⟩ := List.mem_map.mp hw
    exact isReference_withFinalSlash (h.of_mem_items hu)

/-- A draft that a rule has settled still meets its demand. -/
theorem permits_settle {rule : Rule} {d : Draft} (h : rule.Permits policy d)
    (ht : rule ≠ trustedUriPrefixes ∨
      ((rule.settle d).record.value .trustedUriPrefixes).HasDistinctItems) :
    rule.Permits policy (rule.settle d) := by
  cases rule with
  | redirectUris =>
    have happ : (redirectUris.settle d).record.value .applicationType =
        d.record.value .applicationType := value_settle_of_not_mem (by decide) d
    rw [Permits, needsAbsoluteUris, happ, value_settle_of_mem (by decide)]
    exact isNullOr_orEmptyList h
  | postLogoutRedirectUris | functionalUserGroupIds =>
    rw [Permits, value_settle_of_mem (by decide)]
    exact isNullOr_orEmptyList h
  | trustedUriPrefixes =>
    rw [value_settle_of_mem (by decide)] at ht
    rw [Permits, value_settle_of_mem (by decide)]
    exact .inr (isCollection_withFinalSlash h (ht.resolve_left fun hn => hn rfl))
  | _ => exact (permits_settle_iff rfl).mpr h

/-- What a rule puts back meets its demand, unless it puts back several fields at once. -/
theorem permits_reset (hd : defaults.Supported policy) {rule : Rule}
    (hm : rule ≠ responseAndGrantMatch) (d : Draft) :
    rule.Permits policy (rule.reset defaults d) := by
  cases rule with
  | responseAndGrantMatch => exact absurd rfl hm
  | scope | preauthorizedScope => trivial
  | applicationType =>
    rw [Permits, reset, resetRecord, Record.value_put_self]
    exact .inr hd.applicationType
  | responseTypes | grantTypes =>
    rw [Permits, value_reset_of_collection rfl]
    exact .inl rfl
  | redirectUris | postLogoutRedirectUris | trustedUriPrefixes | functionalUserGroupIds =>
    rw [Permits, value_reset_of_collection rfl]
    exact .inr (isCollection_nil _)
  | subjectType =>
    rw [Permits, reset, resetRecord, Record.value_remove_self]
    exact .inl rfl
  | tokenEndpointAuthMethod =>
    rw [Permits, reset, resetRecord, Record.putOrRemove]
    split
    · rw [Record.value_remove_self]
      exact .inl rfl
    · rw [Record.value_put_self]
      exact .inr hd.tokenEndpointAuthMethod
  | outputParameters =>
    have hissued : (outputParameters.reset defaults d).record.value .clientIdIssuedAt = .int 0 := by
      rw [reset, resetRecord, Record.value_remove_ne _ (by decide),
        Record.value_put_ne _ _ (by decide), Record.value_put_self]
    have hexpires : (outputParameters.reset defaults d).record.value .clientSecretExpiresAt =
        .int 0 := by
      rw [reset, resetRecord, Record.value_remove_ne _ (by decide), Record.value_put_self]
    have huri : (outputParameters.reset defaults d).record.value .registrationClientUri = .null :=
      Record.value_remove_self ..
    rw [Permits, hissued, hexpires, huri]
    exact ⟨.inr rfl, .inr rfl, rfl⟩

/-- What a rule leaves meets its demand, whatever it was given. -/
theorem permits_handle (hd : defaults.Supported policy) {rule : Rule}
    (hm : rule ≠ responseAndGrantMatch) {d : Draft}
    (ht : rule ≠ trustedUriPrefixes ∨
      ((rule.handle policy defaults d).record.value .trustedUriPrefixes).HasDistinctItems) :
    rule.Permits policy (rule.handle policy defaults d) := by
  by_cases hp : rule.Permits policy d
  · rw [handle_of_permits hp] at ht ⊢
    exact permits_settle hp ht
  · rw [handle_of_not_permits hp]
    exact permits_reset hd hm d

/-- The lists that a rule settles are settled after it. -/
theorem registered_handle_of_mem_writes {rule : Rule} {f : Field} (hf : f ∈ rule.writes)
    (d : Draft) :
    (rule.handle policy defaults d).record.registered f =
      some (f.settled ((rule.handle policy defaults d).record.value f)) := by
  by_cases hp : rule.Permits policy d
  · rw [handle_of_permits hp, value_settle_of_mem hf, Field.settled_idem]
    exact Record.registered_settleFields_of_mem d.record hf
  · have hput : (rule.reset defaults d).record = d.record.put f (.list []) :=
      resetRecord_of_collection (collection?_of_mem_writes hf) d.record
    rw [handle_of_not_permits hp, hput, Record.value_put_self, Field.settled_empty,
      Record.registered_put_self]

/-! ## Response types and grant types -/

/-- The rules on the fields that the match puts back together. -/
def paired : List Rule :=
  [responseTypes, grantTypes, responseAndGrantMatch]

theorem ne_match_of_not_mem_paired {rule : Rule} (h : rule ∉ paired) :
    rule ≠ responseAndGrantMatch := by
  rintro rfl
  exact h (by decide)

theorem forall_mem_paired {p : Rule → Prop} (hr : p responseTypes) (hg : p grantTypes)
    (hm : p responseAndGrantMatch) : ∀ rule ∈ paired, p rule := by
  intro rule h
  rw [paired] at h
  simp only [List.mem_cons, List.not_mem_nil, or_false] at h
  obtain rfl | rfl | rfl := h
  · exact hr
  · exact hg
  · exact hm

/-- The grant types found are those of the record. -/
theorem grants_handle_grantTypes (d : Draft) :
    (grantTypes.handle policy defaults d).grants =
      ((grantTypes.handle policy defaults d).record.value .grantTypes).texts := by
  by_cases hp : grantTypes.Permits policy d
  · rw [handle_of_permits hp, value_settle_of_not_mem (by decide)]
    rfl
  · rw [handle_of_not_permits hp, reset, resetRecord, Record.value_put_self]
    rfl

/-- After the match the response types and the grant types are supported and fit, if only they were
supported before it. -/
theorem permits_handle_match (hd : defaults.Supported policy) {d : Draft}
    (hr : responseTypes.Permits policy d) (hg : grantTypes.Permits policy d)
    (he : d.grants = (d.record.value .grantTypes).texts) :
    ∀ rule ∈ paired,
      rule.Permits policy (responseAndGrantMatch.handle policy defaults d).record.draft := by
  by_cases hp : responseAndGrantMatch.Permits policy d
  · have hdraft : d.record.draft = d := by rw [Record.draft, ← he]
    rw [handle_of_permits hp, settle_responseAndGrantMatch, hdraft]
    exact forall_mem_paired hr hg hp
  · have hresponse : (responseAndGrantMatch.reset defaults d).record.value .responseTypes =
        .list [defaults.responseType] := responseTypes_reset_match d
    -- The grant types found before are out of date; those of the record are the default ones.
    have hgrants : (responseAndGrantMatch.reset defaults d).record.draft.grants =
        (Value.list [defaults.grantType]).texts := congrArg Value.texts (grantTypes_reset_match d)
    rw [handle_of_not_permits hp]
    refine forall_mem_paired ?_ ?_ ?_
    · rw [Permits, Record.draft, hresponse]
      exact isEmptyOr_singleton hd.responseType
    · rw [Permits, Record.draft, grantTypes_reset_match]
      exact isEmptyOr_singleton hd.grantType
    · rw [permits_match_singleton (d := (responseAndGrantMatch.reset defaults d).record.draft)
        hresponse, hgrants]
      exact hd.hasGrant

end Rule

namespace Review

open Pass (handled)

variable {v : Review}

/-- A field ends as the last rule that changes it leaves it. -/
theorem registered_lenientPass (h : v.lenientPass.failure = none) (rule : Rule) {f : Field}
    (hlast : ∀ other ∈ rule.after, f ∉ other.changes) :
    v.lenientPass.record.registered f =
      (rule.handle v.policy v.defaults
        (handled v.policy v.defaults rule.before ⟨v.record, []⟩)).record.registered f := by
  rw [lenientPass, Pass.lenient_record h]
  exact Pass.registered_handled_all hlast _

theorem value_lenientPass (h : v.lenientPass.failure = none) (rule : Rule) {f : Field}
    (hlast : ∀ other ∈ rule.after, f ∉ other.changes) :
    v.lenientPass.record.value f =
      (rule.handle v.policy v.defaults
        (handled v.policy v.defaults rule.before ⟨v.record, []⟩)).record.value f := by
  rw [Record.value, registered_lenientPass h rule hlast, Record.value]

/-- The draft that the match finds in a lenient pass. -/
def draftAtMatch (v : Review) : Draft :=
  handled v.policy v.defaults Rule.responseAndGrantMatch.before ⟨v.record, []⟩

/-- The match finds response types and grant types as their own rules have left them. -/
theorem registered_draftAtMatch {rule : Rule} (hm : rule = .responseTypes ∨ rule = .grantTypes)
    {f : Field} (hf : f ∈ rule.changes) :
    v.draftAtMatch.record.registered f =
      (rule.handle v.policy v.defaults
        (handled v.policy v.defaults rule.before ⟨v.record, []⟩)).record.registered f := by
  rcases hm with rfl | rfl
  · -- The rule on grant types still comes before the match, and leaves response types alone.
    obtain rfl := List.mem_singleton.mp hf
    exact Rule.registered_handle (by decide) _
  · rfl

theorem value_draftAtMatch {rule : Rule} (hm : rule = .responseTypes ∨ rule = .grantTypes)
    {f : Field} (hf : f ∈ rule.changes) :
    v.draftAtMatch.record.value f =
      (rule.handle v.policy v.defaults
        (handled v.policy v.defaults rule.before ⟨v.record, []⟩)).record.value f := by
  rw [Record.value, registered_draftAtMatch hm hf, Record.value]

/-- Response types and grant types end as the match leaves them. -/
theorem value_lenientPass_of_mem_pair (h : v.lenientPass.failure = none) {f : Field}
    (hf : f ∈ [Field.responseTypes, .grantTypes]) :
    v.lenientPass.record.value f =
      (Rule.responseAndGrantMatch.handle v.policy v.defaults v.draftAtMatch).record.value f :=
  value_lenientPass h .responseAndGrantMatch ((by decide : ∀ f ∈ [Field.responseTypes, .grantTypes],
    ∀ other ∈ Rule.responseAndGrantMatch.after, f ∉ other.changes) f hf)

/-- The rules on response types and grant types come before the match, and their demands are met. -/
theorem permits_draftAtMatch {rule : Rule} (hm : rule = .responseTypes ∨ rule = .grantTypes) :
    rule.Permits v.policy v.draftAtMatch :=
  Pass.permits_before_match hm _

theorem grants_draftAtMatch :
    v.draftAtMatch.grants = (v.draftAtMatch.record.value .grantTypes).texts :=
  Rule.grants_handle_grantTypes _

/-- No rule after one of these changes what it reads. -/
theorem permits_lenientPass_iff_handle (h : v.lenientPass.failure = none) {rule : Rule}
    (hm : rule ∉ Rule.paired) :
    rule.Permits v.policy v.lenientPass.record.draft ↔
      rule.Permits v.policy (rule.handle v.policy v.defaults
        (handled v.policy v.defaults rule.before ⟨v.record, []⟩)) := by
  have hlast : ∀ f ∈ rule.reads, ∀ other ∈ rule.after, f ∉ other.changes :=
    (by decide : ∀ rule : Rule, rule ∉ Rule.paired →
      ∀ f ∈ rule.reads, ∀ other ∈ rule.after, f ∉ other.changes) rule hm
  exact Rule.permits_congr (fun f hf => value_lenientPass h rule (hlast f hf))
    fun hr => absurd hr (Rule.ne_match_of_not_mem_paired hm)

/-- The demands of rules other than these are met in what they leave, and stay met. -/
theorem permits_lenientPass_of_not_mem_paired (hd : v.defaults.Supported v.policy)
    (h : v.lenientPass.failure = none)
    (ht : (v.lenientPass.record.value .trustedUriPrefixes).HasDistinctItems) {rule : Rule}
    (hm : rule ∉ Rule.paired) : rule.Permits v.policy v.lenientPass.record.draft := by
  refine (permits_lenientPass_iff_handle h hm).mpr
    (Rule.permits_handle hd (Rule.ne_match_of_not_mem_paired hm) ?_)
  by_cases hr : rule = .trustedUriPrefixes
  · subst hr
    rw [value_lenientPass h .trustedUriPrefixes (by decide)] at ht
    exact .inr ht
  · exact .inl hr

/-- The match is the last rule on these fields, and meets the demands of all three. -/
theorem permits_lenientPass_of_mem_paired (hd : v.defaults.Supported v.policy)
    (h : v.lenientPass.failure = none) {rule : Rule} (hm : rule ∈ Rule.paired) :
    rule.Permits v.policy v.lenientPass.record.draft := by
  have hreads : ∀ f ∈ rule.reads, f ∈ [Field.responseTypes, .grantTypes] :=
    (by decide : ∀ rule ∈ Rule.paired, ∀ f ∈ rule.reads,
      f ∈ [Field.responseTypes, .grantTypes]) rule hm
  have hgrants := congrArg Value.texts
    (value_lenientPass_of_mem_pair h (f := .grantTypes) (by decide))
  exact (Rule.permits_congr (fun f hf => value_lenientPass_of_mem_pair h (hreads f hf))
      fun _ => hgrants).mpr
    (Rule.permits_handle_match hd (permits_draftAtMatch (.inl rfl))
      (permits_draftAtMatch (.inr rfl)) grants_draftAtMatch rule hm)

/-- A lenient pass leaves an acceptable record. -/
theorem acceptable_lenientPass (hd : v.defaults.Supported v.policy)
    (h : v.lenientPass.failure = none)
    (ht : (v.lenientPass.record.value .trustedUriPrefixes).HasDistinctItems) :
    Acceptable v.policy v.lenientPass.record := by
  intro rule
  by_cases hm : rule ∈ Rule.paired
  · exact permits_lenientPass_of_mem_paired hd h hm
  · exact permits_lenientPass_of_not_mem_paired hd h ht hm

/-- A lenient pass leaves settled lists. -/
theorem settleFields_lenientPass (h : v.lenientPass.failure = none) :
    v.lenientPass.record.settleFields Field.optionalLists = v.lenientPass.record := by
  refine Record.settleFields_eq_self fun f hf => ?_
  obtain ⟨rule, -, hw, hlast⟩ := (by decide : ∀ f ∈ Field.optionalLists, ∃ rule ∈ Rule.all,
    f ∈ rule.writes ∧ ∀ other ∈ rule.after, f ∉ other.changes) f hf
  rw [lenientPass, Pass.lenient_record h, Pass.registered_handled_all hlast,
    Pass.value_handled_all hlast]
  exact Rule.registered_handle_of_mem_writes hw _

/-- With supported defaults, a strict pass accepts what a lenient one leaves, and changes nothing,
unless trusted prefixes have become equal. -/
theorem strictPass_of_lenientPass (hd : v.defaults.Supported v.policy)
    (h : v.lenientPass.failure = none)
    (ht : (v.lenientPass.record.value .trustedUriPrefixes).HasDistinctItems) :
    ({ v with record := v.lenientPass.record } : Review).strictPass =
      ⟨v.lenientPass.record, [], none⟩ := by
  rw [strictPass_eq_of_acceptable (acceptable_lenientPass hd h ht), settleFields_lenientPass h]

/-- An unknown kind of application, a relative redirection, and types that do not fit. -/
theorem strictPass_of_lenientPass_of_mismatch :
    ∃ r : Record, r = .ofEntries [("application_type", .str "desktop"),
        ("response_types", .ofTexts ["code"]), ("grant_types", .ofTexts ["implicit"]),
        ("redirect_uris", .ofTexts ["/cb"]),
        ("trusted_uri_prefixes", .ofTexts ["https://a.test/x"])] ∧
      (stock r).lenientPass.failure = none ∧
      (stock (stock r).lenientPass.record).strictPass = ⟨(stock r).lenientPass.record, [], none⟩ :=
  ⟨_, rfl, rfl,
    strictPass_of_lenientPass Defaults.supported_stock rfl (Value.hasDistinctItems_singleton _)⟩

end Review

end Registration
