import Registration.Proofs.Pass.Enumerated
import Registration.Proofs.Review.Untouched

/-!
# Lenient passes field by field

A lenient pass hands one record from rule to rule, and still each field ends as
if its own rule had been alone with it:

* `Field.restored`: what stands in for a field that is rejected;
* `Review.alone`: a field as a rule on its own leaves it, or what stands in for it;
* `Record.AgreesOn`: records that hold the same in some fields;
* `registered_handle_congr`: what a rule leaves in its fields depends on what it
  was given in them, and in those that it reads;
* `registered_lenientPass_eq_alone`: the fields that one rule changes;
* `registered_draftAtMatch_eq_alone`: response types and grant types before the match;
* `registered_lenientPass_of_mismatches`, `registered_lenientPass_of_fit`: what the
  match makes of the two;
* `lenientPass_field_by_field`: all fields of a record.
-/

namespace Registration

/-- What stands in for a field that its rule rejects, none if the field is removed. -/
def Field.restored (defaults : Defaults) : Field → Option Value
  | applicationType => some defaults.applicationType
  | tokenEndpointAuthMethod =>
    if defaults.tokenEndpointAuthMethod.isNull then none
    else some defaults.tokenEndpointAuthMethod
  | responseTypes | grantTypes | redirectUris | postLogoutRedirectUris | trustedUriPrefixes
  | functionalUserGroupIds => some (.list [])
  | clientIdIssuedAt | clientSecretExpiresAt => some (.int 0)
  | clientName | scope | preauthorizedScope | subjectType | registrationClientUri => none

namespace Record

/-- Two records hold the same in some of the registered fields. -/
def AgreesOn (fs : List Field) (r r' : Record) : Prop :=
  ∀ f ∈ fs, r.registered f = r'.registered f

theorem AgreesOn.value {fs : List Field} {r r' : Record} (h : r.AgreesOn fs r') {f : Field}
    (hf : f ∈ fs) : r.value f = r'.value f := by
  unfold Record.value
  rw [h f hf]

theorem retains_congr {policy : Policy} {rule : Rule} (hm : rule ≠ .responseAndGrantMatch)
    {f : Field} {r r' : Record} (h : r.AgreesOn (f :: rule.reads) r') (w : Value) :
    r.Retains policy rule f w ↔ r'.Retains policy rule f w := by
  have hpermits : rule.Permits policy r.draft ↔ rule.Permits policy r'.draft :=
    Rule.permits_congr (fun g hg => h.value (List.mem_cons_of_mem f hg)) fun hr => absurd hr hm
  unfold Retains
  rw [hpermits, h.value (List.mem_cons_self ..)]

/-- Whether a record mismatches is a matter of its response types and grant types. -/
theorem mismatches_congr {policy : Policy} {r r' : Record}
    (h : r.AgreesOn [.responseTypes, .grantTypes] r') :
    r.Mismatches policy ↔ r'.Mismatches policy := by
  have hresponse (w : Value) : r.Retains policy .responseTypes .responseTypes w ↔
      r'.Retains policy .responseTypes .responseTypes w :=
    retains_congr (by decide) (fun f hf => h f (by revert f; decide)) w
  have hgrant (w : Value) : r.Retains policy .grantTypes .grantTypes w ↔
      r'.Retains policy .grantTypes .grantTypes w :=
    retains_congr (by decide) (fun f hf => h f (by revert f; decide)) w
  simp only [Mismatches, hresponse, hgrant]

end Record

/-! ## Rules -/

namespace Rule

variable {policy : Policy} {defaults : Defaults} {rule : Rule} {f : Field}

theorem registered_resetRecord_of_mem (hm : rule ≠ responseAndGrantMatch) (hf : f ∈ rule.changes)
    (r : Record) : (rule.resetRecord defaults r).registered f = f.restored defaults := by
  cases rule with
  | responseAndGrantMatch => exact absurd rfl hm
  | outputParameters =>
    simp only [changes, Field.outputs, List.mem_cons, List.not_mem_nil, or_false] at hf
    rcases hf with rfl | rfl | rfl <;>
      simp [resetRecord, Record.put, Record.remove, Field.restored]
  | tokenEndpointAuthMethod =>
    obtain rfl := List.mem_singleton.mp hf
    rw [resetRecord, Record.putOrRemove, Field.restored]
    split <;> simp
  | scope | subjectType | preauthorizedScope =>
    obtain rfl := List.mem_singleton.mp hf
    exact Record.registered_remove_self ..
  | _ =>
    obtain rfl := List.mem_singleton.mp hf
    exact Record.registered_put_self ..

/-- A rule leaves the same in its fields if it was given the same there, and in those it reads. -/
theorem registered_handle_congr (hm : rule ≠ responseAndGrantMatch) {d d' : Draft}
    (hr : ∀ g ∈ rule.reads, d.record.value g = d'.record.value g)
    (hc : d.record.AgreesOn rule.changes d'.record) (hf : f ∈ rule.changes) :
    (rule.handle policy defaults d).record.registered f =
      (rule.handle policy defaults d').record.registered f := by
  have hpermits : rule.Permits policy d ↔ rule.Permits policy d' :=
    permits_congr hr fun h => absurd h hm
  by_cases hp : rule.Permits policy d
  · rw [handle_of_permits hp, handle_of_permits (hpermits.mp hp)]
    show (d.record.settleFields rule.writes).registered f =
      (d'.record.settleFields rule.writes).registered f
    by_cases hw : f ∈ rule.writes
    · rw [Record.registered_settleFields_of_mem _ hw, Record.registered_settleFields_of_mem _ hw,
        hc.value hf]
    · rw [Record.registered_settleFields_of_not_mem _ hw,
        Record.registered_settleFields_of_not_mem _ hw, hc f hf]
  · rw [handle_of_not_permits hp, handle_of_not_permits (mt hpermits.mpr hp)]
    show (rule.resetRecord defaults d.record).registered f =
      (rule.resetRecord defaults d'.record).registered f
    rw [registered_resetRecord_of_mem hm hf, registered_resetRecord_of_mem hm hf]

theorem registered_reset_match (d : Draft) :
    (responseAndGrantMatch.reset defaults d).record.registered .responseTypes =
        some (.list [defaults.responseType]) ∧
      (responseAndGrantMatch.reset defaults d).record.registered .grantTypes =
        some (.list [defaults.grantType]) := by
  unfold reset resetRecord
  constructor
  · rw [Record.registered_put_ne _ _ (by decide), Record.registered_put_self]
  · rw [Record.registered_put_self]

/-- The fields that a rule reads are those that it may change, but for the kind of application. -/
theorem mem_changes_of_mem_reads (hm : rule ≠ responseAndGrantMatch) (hf : f ∈ rule.reads) :
    f ∈ rule.changes ∨ rule = redirectUris ∧ f = .applicationType :=
  (by decide : ∀ rule : Rule, rule ≠ responseAndGrantMatch → ∀ f ∈ rule.reads,
    f ∈ rule.changes ∨ rule = redirectUris ∧ f = .applicationType) rule hm f hf

end Rule

namespace Review

open Pass (handled)

variable {v : Review} {rule : Rule} {f : Field}

/-- A field as a rule leaves it that is applied alone, or what stands in for it if the rule
fails. -/
def alone (v : Review) (rule : Rule) (grants : List String) (f : Field) : Option Value :=
  if (v.step (.rule rule grants)).reply.isOk then
    (v.step (.rule rule grants)).review.record.registered f
  else f.restored v.defaults

theorem alone_eq_handle (v : Review) (hm : rule ≠ .responseAndGrantMatch) (grants : List String)
    (hf : f ∈ rule.changes) :
    v.alone rule grants f =
      (rule.handle v.policy v.defaults ⟨v.record, grants⟩).record.registered f := by
  unfold alone
  split
  · rename_i hok
    have hp := isOk_step_rule_iff.mp hok
    rw [record_step_rule hp, Rule.handle_of_permits hp]
    rfl
  · rename_i hok
    rw [Rule.handle_of_not_permits (mt isOk_step_rule_iff.mpr hok)]
    exact (Rule.registered_resetRecord_of_mem hm hf v.record).symm

/-- A rule that settles nothing keeps the fields that it accepts. -/
theorem alone_of_writes_eq_nil (v : Review) (hw : rule.writes = []) (grants : List String)
    (f : Field) :
    v.alone rule grants f =
      if (v.step (.rule rule grants)).reply.isOk then v.record.registered f
      else f.restored v.defaults := by
  unfold alone
  split
  · rename_i hok
    rw [record_step_rule (isOk_step_rule_iff.mp hok), hw, Record.settleFields_nil]
  · rfl

/-! ## Fields that one rule changes -/

/-- What comes before a rule changes nothing of what this one may change. -/
theorem agreesOn_handled_before (hm : rule ≠ .responseAndGrantMatch) {r : Record}
    (hr : r.AgreesOn rule.changes v.record) :
    (handled v.policy v.defaults rule.before ⟨v.record, []⟩).record.AgreesOn rule.changes r := by
  intro f hf
  have hbefore := (by decide : ∀ rule : Rule, rule ≠ .responseAndGrantMatch →
    ∀ f ∈ rule.changes, ∀ other ∈ rule.before, f ∉ other.changes) rule hm f hf
  rw [Pass.registered_handled hbefore, hr f hf]

/-- The kind of application is settled when the redirections are judged. -/
theorem applicationType_lenientPass (h : v.lenientPass.failure = none) :
    v.lenientPass.record.registered .applicationType =
      (handled v.policy v.defaults Rule.redirectUris.before
        ⟨v.record, []⟩).record.registered .applicationType := by
  rw [registered_lenientPass h .redirectUris (by decide)]
  exact Rule.registered_handle (by decide) _

/-- A rule finds the values that it changes as they were given, and a kind of application that
stays. -/
theorem registered_lenientPass_eq_alone (h : v.lenientPass.failure = none)
    (hm : rule ∉ Rule.paired) {r : Record} (hr : r.AgreesOn rule.changes v.record)
    (ha : rule = .redirectUris → r.AgreesOn [.applicationType] v.lenientPass.record)
    (grants : List String) (hf : f ∈ rule.changes) :
    v.lenientPass.record.registered f =
      ({ v with record := r } : Review).alone rule grants f := by
  have hne := Rule.ne_match_of_not_mem_paired hm
  have hlast : ∀ other ∈ rule.after, f ∉ other.changes :=
    (by decide : ∀ rule : Rule, rule ∉ Rule.paired → ∀ f ∈ rule.changes,
      ∀ other ∈ rule.after, f ∉ other.changes) rule hm f hf
  have hchanges := agreesOn_handled_before hne hr
  rw [alone_eq_handle _ hne grants hf, registered_lenientPass h rule hlast]
  refine Rule.registered_handle_congr hne (fun g hg => ?_) hchanges hf
  obtain hg | ⟨rfl, rfl⟩ := Rule.mem_changes_of_mem_reads hne hg
  · exact hchanges.value hg
  · -- The kind of application may have been put back before, so it is that of the result.
    have happ := (ha rfl .applicationType (List.mem_singleton.mpr rfl)).trans
      (applicationType_lenientPass h)
    unfold Record.value
    rw [happ]

/-! ## Response types and grant types -/

/-- Each of the two rules finds what was given in its field. -/
theorem registered_draftAtMatch_eq_alone (hm : rule = .responseTypes ∨ rule = .grantTypes)
    {r : Record} (hr : r.AgreesOn rule.changes v.record) (grants : List String)
    (hf : f ∈ rule.changes) :
    v.draftAtMatch.record.registered f =
      ({ v with record := r } : Review).alone rule grants f := by
  have hne : rule ≠ .responseAndGrantMatch := by
    rintro rfl
    exact absurd hm (by decide)
  have hreads : ∀ g ∈ rule.reads, g ∈ rule.changes := by
    rcases hm with rfl | rfl <;> decide
  have hchanges := agreesOn_handled_before hne hr
  rw [alone_eq_handle _ hne grants hf, registered_draftAtMatch hm hf]
  exact Rule.registered_handle_congr hne (fun g hg => hchanges.value (hreads g hg)) hchanges hf

/-- Accepted response types that require other grant types are replaced together with these. -/
theorem registered_lenientPass_of_mismatches (h : v.lenientPass.failure = none)
    (hm : v.record.Mismatches v.policy) :
    v.lenientPass.record.registered .responseTypes = some (.list [v.defaults.responseType]) ∧
      v.lenientPass.record.registered .grantTypes = some (.list [v.defaults.grantType]) := by
  have hp : ¬ Rule.responseAndGrantMatch.Permits v.policy v.draftAtMatch :=
    fun hp => (permits_match_draftAtMatch_iff h).mp hp hm
  have hreset (f : Field) (hf : ∀ other ∈ Rule.responseAndGrantMatch.after, f ∉ other.changes) :
      v.lenientPass.record.registered f =
        (Rule.responseAndGrantMatch.reset v.defaults v.draftAtMatch).record.registered f := by
    rw [registered_lenientPass h .responseAndGrantMatch hf, ← Rule.handle_of_not_permits hp]
    rfl
  rw [hreset .responseTypes (by decide), hreset .grantTypes (by decide)]
  exact Rule.registered_reset_match v.draftAtMatch

/-- Otherwise each is left to its own rule. -/
theorem registered_lenientPass_of_fit (h : v.lenientPass.failure = none)
    (hm : ¬ v.record.Mismatches v.policy) (hf : f ∈ [Field.responseTypes, .grantTypes]) :
    v.lenientPass.record.registered f = v.draftAtMatch.record.registered f := by
  have hlast := (by decide : ∀ f ∈ [Field.responseTypes, .grantTypes],
    ∀ other ∈ Rule.responseAndGrantMatch.after, f ∉ other.changes) f hf
  have hhandle : Rule.responseAndGrantMatch.handle v.policy v.defaults v.draftAtMatch =
      v.draftAtMatch := by
    rw [Rule.handle_of_permits ((permits_match_draftAtMatch_iff h).mpr hm),
      Rule.settle_responseAndGrantMatch]
  rw [registered_lenientPass h .responseAndGrantMatch hlast]
  exact congrArg (·.record.registered f) hhandle

/-! ## All fields -/

/-- What a lenient pass has made of a record, field by field. Of the record that was given, each
part concerns some fields only, and holds of any record `r` that agrees with it on these. -/
structure IsFieldByField (v : Review) (final : Record) : Prop where
  /-- The fields of most rules end as their own rule leaves them, or are put back. -/
  single : ∀ rule ∉ .redirectUris :: Rule.paired, ∀ r : Record, r.AgreesOn rule.changes v.record →
    ∀ grants, ∀ f ∈ rule.changes,
      final.registered f = ({ v with record := r } : Review).alone rule grants f
  /-- Redirections do so by the kind of application that the record ends with. -/
  redirectUris : ∀ r : Record, r.AgreesOn [.redirectUris] v.record →
    r.AgreesOn [.applicationType] final → ∀ grants,
      final.registered .redirectUris =
        ({ v with record := r } : Review).alone .redirectUris grants .redirectUris
  /-- Response types and grant types that fit do so too. -/
  fit : ∀ r : Record, r.AgreesOn [.responseTypes, .grantTypes] v.record →
    ¬ r.Mismatches v.policy → ∀ grants,
      final.registered .responseTypes =
          ({ v with record := r } : Review).alone .responseTypes grants .responseTypes ∧
        final.registered .grantTypes =
          ({ v with record := r } : Review).alone .grantTypes grants .grantTypes
  /-- Others are replaced by the default pair. -/
  mismatch : ∀ r : Record, r.AgreesOn [.responseTypes, .grantTypes] v.record →
    r.Mismatches v.policy →
      final.registered .responseTypes = some (.list [v.defaults.responseType]) ∧
        final.registered .grantTypes = some (.list [v.defaults.grantType])
  /-- Rules that settle nothing keep their fields, all of them or none. -/
  kept : ∀ (rule : Rule) (r : Record) (grants : List String) (f : Field), rule.writes = [] →
    ({ v with record := r } : Review).alone rule grants f =
      if (({ v with record := r } : Review).step (.rule rule grants)).reply.isOk then r.registered f
      else f.restored v.defaults
  /-- Nothing else changes. -/
  untouched : v.record.ChangesOnly Field.reviewed final

/-- If the required grant types are given as texts and the record may be written out, a lenient pass
ends without a fault. It decides on each field by that field alone, but for redirections, which
depend on the kind of application, and for response types and grant types, which are judged
together. -/
theorem lenientPass_field_by_field (v : Review) :
    (v.policy.RequiresTexts → v.record.IsPrintable → v.lenientPass.failure = none) ∧
      (v.lenientPass.failure = none → v.IsFieldByField v.lenientPass.record) := by
  refine ⟨lenientPass_failure_eq_none, fun h => ?_⟩
  constructor
  case single =>
    intro rule hm r hr grants f hf
    rw [List.mem_cons, not_or] at hm
    exact registered_lenientPass_eq_alone h hm.2 hr (fun hn => absurd hn hm.1) grants hf
  case redirectUris =>
    intro r hr ha grants
    have hr : r.AgreesOn Rule.redirectUris.changes v.record := hr
    exact registered_lenientPass_eq_alone h (by decide) hr (fun _ => ha) grants (by decide)
  case fit =>
    intro r hr hm grants
    have hfit := mt (Record.mismatches_congr hr).mpr hm
    rw [registered_lenientPass_of_fit h hfit (by decide),
      registered_lenientPass_of_fit h hfit (by decide)]
    constructor
    · exact registered_draftAtMatch_eq_alone (.inl rfl)
        (fun f hf => hr f (List.mem_cons.mpr (.inl (List.mem_singleton.mp hf)))) grants (by decide)
    · exact registered_draftAtMatch_eq_alone (.inr rfl)
        (fun f hf => hr f (List.mem_cons_of_mem _ hf)) grants (by decide)
  case mismatch =>
    intro r hr hm
    exact registered_lenientPass_of_mismatches h ((Record.mismatches_congr hr).mp hm)
  case kept =>
    intro rule r grants f hw
    exact alone_of_writes_eq_nil _ hw grants f
  case untouched => exact Pass.changesOnly_lenient v.policy v.defaults Rule.all ⟨v.record, []⟩

/-- A client of an unknown kind with a relative redirection, with an unknown subject type, with
types that do not fit, and with a time that the server assigns. -/
theorem lenientPass_field_by_field_of_rejected :
    ∃ v : Review, v = stock (.ofEntries [("application_type", .str "desktop"),
        ("redirect_uris", .ofTexts ["/cb"]), ("subject_type", .str "shared"),
        ("response_types", .ofTexts ["code"]), ("grant_types", .ofTexts ["implicit"]),
        ("token_endpoint_auth_method", .str "none"), ("client_id_issued_at", .int 5),
        ("client_secret_expires_at", .null), ("registration_client_uri", .str "")]) ∧
      v.policy.RequiresTexts ∧ v.record.IsPrintable ∧ v.lenientPass.failure = none ∧
      v.lenientPass.record.registered .applicationType = some (.str "web") ∧
      v.lenientPass.record.registered .redirectUris = some (.list []) ∧
      v.lenientPass.record.registered .subjectType = none ∧
      v.lenientPass.record.registered .tokenEndpointAuthMethod = some (.str "none") ∧
      v.lenientPass.record.registered .responseTypes = some (.ofTexts ["code"]) ∧
      v.lenientPass.record.registered .grantTypes = some (.ofTexts ["authorization_code"]) ∧
      ∀ f ∈ Field.outputs, v.lenientPass.record.registered f = f.restored .stock := by
  obtain ⟨r, hr⟩ : ∃ r : Record, r = .ofEntries [("application_type", .str "desktop"),
      ("redirect_uris", .ofTexts ["/cb"]), ("subject_type", .str "shared"),
      ("response_types", .ofTexts ["code"]), ("grant_types", .ofTexts ["implicit"]),
      ("token_endpoint_auth_method", .str "none"), ("client_id_issued_at", .int 5),
      ("client_secret_expires_at", .null), ("registration_client_uri", .str "")] := ⟨_, rfl⟩
  obtain ⟨hfaultless, hfields⟩ := lenientPass_field_by_field (stock r)
  have hprintable : r.IsPrintable := by
    subst hr
    intro f
    cases f <;> decide +kernel
  have hnone := hfaultless Policy.requiresTexts_stock hprintable
  have hfield := hfields hnone
  have hsingle (rule : Rule) (hm : rule ∉ .redirectUris :: Rule.paired) (f : Field)
      (hf : f ∈ rule.changes) : (stock r).lenientPass.record.registered f =
        (stock r).alone rule [] f := hfield.single rule hm r (fun _ _ => rfl) [] f hf
  have happ := hsingle .applicationType (by decide) .applicationType (by decide)
  have huris := hfield.redirectUris (r.put .applicationType (.str "web"))
    (fun f hf => by rw [List.mem_singleton.mp hf]; rfl)
    (fun f hf => by rw [List.mem_singleton.mp hf, happ, hr]; rfl) []
  have hm : r.Mismatches .stock := by
    have hresponse : Rule.responseTypes.Permits .stock r.draft :=
      Rule.objection?_eq_none_iff.mp (hr ▸ rfl)
    have hcode : Value.str "code" ∈ (r.value .responseTypes).items :=
      hr ▸ List.mem_singleton.mpr rfl
    refine ⟨.str "code", .str "authorization_code", ⟨hresponse, hcode⟩, rfl, rfl, fun hg => ?_⟩
    have hitems : (r.value .grantTypes).items = [.str "implicit"] := hr ▸ rfl
    have hmem := hg.2
    rw [hitems, List.mem_singleton, Value.str.injEq] at hmem
    exact absurd hmem (by decide)
  obtain ⟨hresponse, hgrant⟩ := hfield.mismatch r (fun _ _ => rfl) hm
  have hsubject := hsingle .subjectType (by decide) .subjectType (by decide)
  have hmethod := hsingle .tokenEndpointAuthMethod (by decide) .tokenEndpointAuthMethod (by decide)
  have houtputs := hsingle .outputParameters (by decide)
  subst hr
  exact ⟨_, rfl, Policy.requiresTexts_stock, hprintable, hnone, happ, huris, hsubject, hmethod,
    hresponse, hgrant, houtputs⟩

end Review

end Registration
