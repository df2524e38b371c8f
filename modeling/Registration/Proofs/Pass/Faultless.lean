import Registration.Proofs.Pass.Acceptance
import Registration.Proofs.Review.Printable
import Registration.Proofs.Rule.Rejection

/-!
# Passes without faults

A rejection has to be described, and this is the one thing that can go wrong
with a rule on a single field. The match has to ask for what response types
require. This goes wrong only if it comes upon ones that their own rule has not
let through, or upon requirements that are no map of texts:

* `Policy.RequiresTexts`: requirements that are such a map;
* `exists_of_objection?_fault`: a fault of another rule, and what it comes from;
* `objection?_match_ne_fault`: the match has none if the response types are
  permitted;
* `Pass.lenient_failure_eq_none_iff`: a lenient pass stands and falls with the
  faults of its rules;
* `exists_of_strictPass_fault`, `lenientPass_failure_eq_none`: a pass puts the
  rule on response types in front of the match;
* `passes_end_without_fault`: the two passes after any steps.
-/

namespace Registration

theorem Entries.mem_of_lookup {key : String} {es : Entries} {v : Value}
    (h : es.lookup key = some v) : (key, v) ∈ es := by
  induction es with
  | nil => cases h
  | cons e es ih =>
    obtain ⟨k, w⟩ := e
    rw [lookup] at h
    split at h
    · rename_i hk
      rw [← hk, ← Option.some.inj h]
      exact List.mem_cons_self ..
    · exact List.mem_cons_of_mem _ (ih h)

/-- The grant types that a policy requires are given by a map from texts to texts. -/
def Policy.RequiresTexts (policy : Policy) : Prop :=
  ∃ es, policy.requirements = .map es ∧ ∀ e ∈ es, e.2.text?.isSome

theorem Policy.requiresTexts_stock : Policy.stock.RequiresTexts :=
  ⟨_, rfl, by decide⟩

/-- A text requires a text or nothing. -/
theorem Policy.RequiresTexts.grantTypeFor_str {policy : Policy} (h : policy.RequiresTexts)
    (s : String) :
    policy.grantTypeFor (.str s) = .ok .null ∨
      ∃ t, policy.grantTypeFor (.str s) = .ok (.str t) := by
  obtain ⟨es, hes, htexts⟩ := h
  have hfor : policy.grantTypeFor (.str s) = .ok ((Entries.lookup s es).getD .null) := by
    rw [grantTypeFor, hes]
  rw [hfor]
  cases hl : Entries.lookup s es with
  | none => exact .inl rfl
  | some v =>
    obtain ⟨t, ht⟩ := Option.isSome_iff_exists.mp (htexts _ (Entries.mem_of_lookup hl))
    exact .inr ⟨t, congrArg Except.ok (Value.eq_str_of_text? ht)⟩

namespace Rule

variable {policy : Policy} {d : Draft}

/-! ## Rules -/

/-- It can always be told of a text what is missing, and this is a text. -/
theorem missingGrant?_str (h : policy.RequiresTexts) (grants : List String) (s : String) :
    missingGrant? policy grants (.str s) = .ok none ∨
      ∃ t, missingGrant? policy grants (.str s) = .ok (some (.str t)) := by
  rw [missingGrant?]
  obtain hn | ⟨t, ht⟩ := h.grantTypeFor_str s
  · rw [hn]
    exact .inl rfl
  · rw [ht]
    simp only [isMissing, Except.map]
    split
    · exact .inr ⟨t, rfl⟩
    · exact .inl rfl

/-- By what the match stops at: a text, of which the map can be asked. -/
theorem grantMatch_ne_fault (h : policy.RequiresTexts) {grants : List String} {vs : List Value}
    (hvs : ∀ v ∈ vs, v.text?.isSome) (e : Fault) :
    grantMatch policy grants vs ≠ .error (.fault e) := by
  intro he
  obtain ⟨before, w, after, rfl, -, hw⟩ := exists_of_grantMatch_error he
  obtain ⟨s, hs⟩ := Option.isSome_iff_exists.mp (hvs w (by simp))
  obtain rfl := Value.eq_str_of_text? hs
  obtain ⟨required, hrequired, hrefuse⟩ | ⟨_, hfault, -⟩ := hw
  · obtain hn | ⟨t, ht⟩ := missingGrant?_str h grants s
    · rw [hn] at hrequired
      cases hrequired
    · rw [ht] at hrequired
      cases hrequired
      cases hrefuse
  · obtain hn | ⟨t, ht⟩ := missingGrant?_str h grants s
    · rw [hn] at hfault
      cases hfault
    · rw [ht] at hfault
      cases hfault

theorem objection?_match_ne_fault (h : policy.RequiresTexts) (hp : responseTypes.Permits policy d)
    (e : Fault) : responseAndGrantMatch.objection? policy d ≠ some (.fault e) := by
  rw [objection?_eq, Ne, failureOf?_eq_some_iff]
  obtain hempty | hc := hp
  · simp [responseMatch, hempty]
  · have helements := Value.elements?_eq_items hc.isSequence
    simp only [responseMatch, helements]
    split
    · simp
    · exact grantMatch_ne_fault h (fun v hv => text?_isSome_of_accepts (hc.all v hv)) e

end Rule

namespace Violation

variable {policy : Policy} {r : Record} {x : Violation}

theorem OfList.reason_ne_mismatch {nonList : Reason} {flaw : Reason → Value → Prop} {v : Value}
    {required : Value} (h : x.OfList nonList flaw v)
    (hn : nonList ≠ .grantResponseMismatch required)
    (hf : ∀ w, ¬ flaw (.grantResponseMismatch required) w) :
    x.reason ≠ .grantResponseMismatch required := by
  intro hr
  rw [OfList, hr] at h
  split at h
  · exact hn h.2.symm
  · obtain ⟨w, -, hflaw | ⟨hduplicate, -⟩⟩ := h
    · exact hf w hflaw
    · cases hduplicate

/-- Only the match tells what is required. -/
theorem Occurs.reason_ne_mismatch (h : x.Occurs policy r)
    (hm : x.criterion ≠ .responseAndGrantMatch) (required : Value) :
    x.reason ≠ .grantResponseMismatch required := by
  obtain ⟨c, item, reason⟩ := x
  cases c with
  | applicationType | subjectType | tokenEndpointAuthMethod | clientIdIssuedAt
  | clientSecretExpiresAt =>
    obtain ⟨-, -, -, rfl : reason = _⟩ := h
    exact nofun
  | registrationClientUri =>
    obtain ⟨-, -, rfl : reason = _⟩ := h
    exact nofun
  | responseAndGrantMatch => exact absurd rfl hm
  | responseTypes | grantTypes | functionalUserGroupIds =>
    exact h.2.reason_ne_mismatch nofun (by rintro w ⟨⟨⟩, -⟩)
  | redirectUris | postLogoutRedirectUris | trustedUriPrefixes =>
    exact h.2.reason_ne_mismatch nofun nofun

theorem isPrintable_value (h : (r.value x.criterion.field).isPrintable = true) :
    (x.value r).isPrintable = true := by
  rw [value]
  split
  · exact h
  · rename_i i _
    rw [List.getD_eq_getElem?_getD]
    cases hw : (r.value x.criterion.field).items[i]? with
    | none => rfl
    | some w => exact Value.isPrintable_of_mem_items h (List.mem_of_getElem? hw)

/-- What is told of a violation can be told if the field may be written out. -/
theorem failure_eq_rejected (hv : (r.value x.criterion.field).isPrintable = true)
    (hr : ∀ required, x.reason ≠ .grantResponseMismatch required) :
    x.failure r = .rejected (x.rejection r) :=
  Failure.refuse_of_isPrintable (isPrintable_value hv) fun required h => absurd h (hr required)

end Violation

theorem Criterion.field_mem_changes (c : Criterion) : c.field ∈ c.rule.changes :=
  (by decide : ∀ c ∈ all, c.field ∈ c.rule.changes) c (mem_all c)

namespace Rule

variable {policy : Policy} {d : Draft}

/-- A rule on a single field has a fault only if a value of it cannot be written out. -/
theorem exists_of_objection?_fault {rule : Rule} {e : Fault} (hm : rule ≠ responseAndGrantMatch)
    (h : rule.objection? policy d = some (.fault e)) :
    e = .unprintable ∧ ∃ f ∈ rule.changes, (d.record.value f).isPrintable = false := by
  have hdraft : rule.objection? policy d = rule.objection? policy d.record.draft :=
    objection?_congr (fun _ _ => rfl) fun hr => absurd hr hm
  rw [hdraft] at h
  obtain ⟨c, rfl, ⟨x, hx, hfailure⟩, -⟩ :=
    exists_tells_of_objection h fun hr => absurd hr hm
  obtain ⟨rfl, hoccurs⟩ := hx.holds
  refine ⟨(Failure.of_ofRejection_eq_fault hfailure.symm).1, _, Criterion.field_mem_changes _, ?_⟩
  rw [← Bool.not_eq_true]
  intro hprintable
  have hc : x.criterion ≠ .responseAndGrantMatch := fun hc => hm (congrArg Criterion.rule hc)
  rw [Violation.failure_eq_rejected hprintable (hoccurs.reason_ne_mismatch hc)] at hfailure
  cases hfailure

end Rule

/-! ## Passes -/

/-- By induction on the rules. A fault is met on the draft that the rules before have handled. -/
theorem Pass.lenient_failure_eq_none_iff {policy : Policy} {defaults : Defaults}
    {rules : List Rule} {d : Draft} :
    (lenient policy defaults rules d).failure = none ↔
      ∀ before rule after, rules = before ++ rule :: after →
        ∀ e, rule.objection? policy (handled policy defaults before d) ≠ some (.fault e) := by
  induction rules generalizing d with
  | nil => simp [lenient]
  | cons rule rules ih =>
    have hsplit : (∀ before other after, rule :: rules = before ++ other :: after →
          ∀ e, other.objection? policy (handled policy defaults before d) ≠ some (.fault e)) ↔
        (∀ e, rule.objection? policy d ≠ some (.fault e)) ∧
          (lenient policy defaults rules (rule.handle policy defaults d)).failure = none := by
      rw [ih]
      constructor
      · intro h
        exact ⟨h [] rule rules rfl, fun before other after hrules =>
          h (rule :: before) other after (congrArg (rule :: ·) hrules)⟩
      · rintro ⟨hrule, hrest⟩ before other after hrules
        cases before with
        | nil =>
          obtain ⟨rfl, -⟩ := List.cons.inj hrules
          exact hrule
        | cons first before =>
          obtain ⟨rfl, htail⟩ := List.cons.inj hrules
          exact hrest before other after htail
    rw [hsplit, lenient, Rule.apply_eq, Rule.handle]
    cases ho : rule.objection? policy d with
    | none => simp
    | some e => cases e <;> simp

namespace Review

variable {v : Review}

/-- The only fault of a strict pass is that the value of a field cannot be written out. -/
theorem exists_of_strictPass_fault (h : v.policy.RequiresTexts) {e : Fault}
    (hf : v.strictPass.failure = some (.fault e)) :
    e = .unprintable ∧ ∃ f, (v.record.value f).isPrintable = false := by
  obtain ⟨rule, hobjection, hbefore⟩ := exists_objection_of_failure hf
  by_cases hm : rule = .responseAndGrantMatch
  · subst hm
    have hp : Rule.responseTypes.Permits v.policy v.record.draft := hbefore _ (by decide)
    exact absurd hobjection (Rule.objection?_match_ne_fault h hp e)
  · obtain ⟨he, f, -, hvalue⟩ := Rule.exists_of_objection?_fault hm hobjection
    exact ⟨he, f, hvalue⟩

theorem strictPass_failure_ne_fault (h : v.policy.RequiresTexts) (hr : v.record.IsPrintable)
    (e : Fault) : v.strictPass.failure ≠ some (.fault e) := by
  intro hf
  obtain ⟨-, f, hvalue⟩ := exists_of_strictPass_fault h hf
  rw [hr f] at hvalue
  cases hvalue

/-- A lenient pass ends without a fault unless a rule has one. -/
theorem lenientPass_failure_eq_none_iff :
    v.lenientPass.failure = none ↔
      ∀ rule e, Rule.objection? v.policy rule (Pass.handled v.policy v.defaults
        rule.before ⟨v.record, []⟩) ≠ some (.fault e) := by
  rw [lenientPass, Pass.lenient_failure_eq_none_iff]
  constructor
  · exact fun h rule => h rule.before rule rule.after rule.all_eq
  · rintro h before rule after hall
    rw [← Rule.before_eq hall]
    exact h rule

/-- What a rule judges is as it was in the record, unless it is the match. -/
theorem not_mem_changes_of_mem_before {rule other : Rule} (hm : rule ≠ .responseAndGrantMatch)
    (ho : other ∈ rule.before) {f : Field} (hf : f ∈ rule.changes) : f ∉ other.changes :=
  (by decide : ∀ rule : Rule, rule ≠ .responseAndGrantMatch → ∀ other ∈ rule.before,
    ∀ f ∈ rule.changes, f ∉ other.changes) rule hm other ho f hf

theorem lenientPass_failure_eq_none (h : v.policy.RequiresTexts) (hr : v.record.IsPrintable) :
    v.lenientPass.failure = none := by
  rw [lenientPass_failure_eq_none_iff]
  intro rule e hobjection
  by_cases hm : rule = .responseAndGrantMatch
  · subst hm
    exact Rule.objection?_match_ne_fault h (Pass.permits_before_match (.inl rfl) _) e hobjection
  · obtain ⟨-, f, hf, hvalue⟩ := Rule.exists_of_objection?_fault hm hobjection
    rw [Pass.value_handled (fun _ ho => not_mem_changes_of_mem_before hm ho hf), hr f] at hvalue
    cases hvalue

/-! ## Steps -/

/-- By induction on the steps. -/
theorem policy_run (v : Review) (ss : List Step) : (v.run ss).policy = v.policy := by
  induction ss generalizing v with
  | nil => rfl
  | cons s ss ih => rw [run, ih, (v.policy_step s).1]

/-- Whatever has been done with a record: if all that it holds may be written out, then by a policy
that requires texts of texts, a strict pass gives the record or a rejection, and a lenient one gives
the record. The defaults may be any values. What may not be written out has to be put in from
outside. -/
theorem passes_end_without_fault (h : v.policy.RequiresTexts) (ss : List Step) :
    ((v.run ss).record.IsPrintable →
      (((v.run ss).step .strict).reply = .ok .record ∨
          ∃ e, ((v.run ss).step .strict).reply = .error (.rejected e)) ∧
        ((v.run ss).step .lenient).reply = .ok .record) ∧
      (v.record.IsPrintable → v.defaults.IsPrintable → (∀ s ∈ ss, s.IsPrintable) →
        (v.run ss).record.IsPrintable) := by
  have hrun : (v.run ss).policy.RequiresTexts := by rwa [policy_run]
  refine ⟨fun hr => ⟨?_, ?_⟩, fun hr hd hs => isPrintable_run hr hd hs⟩
  · rw [step, finish]
    cases hs : (v.run ss).strictPass.failure with
    | none => exact .inl rfl
    | some e =>
      cases e with
      | rejected e => exact .inr ⟨e, rfl⟩
      | fault e => exact absurd hs (strictPass_failure_ne_fault hrun hr e)
  · rw [step, finish, lenientPass_failure_eq_none hrun hr]

/-- Response types that cannot be asked for, in a record that is put back, changed, and filled with
defaults that no policy supports. -/
theorem passes_end_without_fault_of_hostile_record :
    ∃ (v : Review) (ss : List Step), v = ⟨.ofEntries [
        ("response_types", .tuple [.list [.null], .map [("a", .set [])]]),
        ("grant_types", .map [("code", .real "nan")]), ("trusted_uri_prefixes", .set [.int 1])],
        .stock, ⟨.list [], .map [], .set [], .null⟩⟩ ∧
      ss = [.lenient, .insert "response_types" (.str "code"), .fillDefaults] ∧
      v.policy.RequiresTexts ∧ v.record.IsPrintable ∧ v.defaults.IsPrintable ∧
      (∀ s ∈ ss, s.IsPrintable) ∧
      (((v.run ss).step .strict).reply = .ok .record ∨
        ∃ e, ((v.run ss).step .strict).reply = .error (.rejected e)) ∧
      ((v.run ss).step .lenient).reply = .ok .record := by
  have hrecord : (Record.ofEntries [
      ("response_types", .tuple [.list [.null], .map [("a", .set [])]]),
      ("grant_types", .map [("code", .real "nan")]),
      ("trusted_uri_prefixes", .set [.int 1])]).IsPrintable := by
    intro f
    cases f <;> decide +kernel
  have hdefaults : (Defaults.mk (.list []) (.map []) (.set []) .null).IsPrintable :=
    ⟨rfl, rfl, rfl, rfl⟩
  have hsteps : ∀ s ∈ [Step.lenient, .insert "response_types" (.str "code"), .fillDefaults],
      s.IsPrintable := by
    simp [Step.IsPrintable, Value.isPrintable]
  refine ⟨_, _, rfl, rfl, Policy.requiresTexts_stock, hrecord, hdefaults, hsteps, ?_⟩
  exact (passes_end_without_fault Policy.requiresTexts_stock _).1
    ((passes_end_without_fault Policy.requiresTexts_stock _).2 hrecord hdefaults hsteps)

end Review

end Registration
