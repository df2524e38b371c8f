import Registration.Proofs.Pass.Repeated
import Registration.Proofs.Submission.Atomic

/-!
# Validating a submission again

The record of a validated submission is validated as if it had just been sent,
with a name that is still encoded:

* `acceptable_settleFields_iff`: a settled record is acceptable unless trusted
  prefixes have become the same;
* `validate_validate_eq_ok_iff`, `record_validate_validate`: a second validation
  and what it leaves;
* `validate_again`: both, and the names that survive it.
-/

namespace Registration

variable {policy : Policy} {r : Record}

/-- Permitted prefixes of which none is given both with and without a slash stay distinct. -/
theorem Record.prefixesStayDistinct_of_not_repeatsPrefix
    (hp : Rule.trustedUriPrefixes.Permits policy r.draft) (h : ¬ r.RepeatsPrefix) :
    r.PrefixesStayDistinct := by
  intro ss hss
  have hdistinct := (hasDistinctItems_withFinalSlash_iff (r := r) hp).mpr h
  have htexts : (r.value .trustedUriPrefixes).texts = ss := by
    rw [Value.texts, Value.items_of_sequence? hss, Value.filterMap_text?_map_str]
  rwa [hasDistinctItems_withFinalSlash (v := r.value .trustedUriPrefixes) hp, htexts] at hdistinct

/-- What a strict pass leaves of an acceptable record is acceptable unless prefixes are repeated. -/
theorem acceptable_settleFields_iff (ha : Acceptable policy r) :
    Acceptable policy (r.settleFields Field.optionalLists) ↔ ¬ r.RepeatsPrefix := by
  have hp : Rule.trustedUriPrefixes.Permits policy r.draft := ha .trustedUriPrefixes
  constructor
  · intro h
    have hsettled := Rule.hasDistinctItems_of_permits rfl (h .trustedUriPrefixes)
    rw [Record.draft, Record.value_settleFields_of_mem r (by decide), Field.settled] at hsettled
    exact (hasDistinctItems_withFinalSlash_iff (r := r) hp).mp hsettled
  · intro h rule
    exact Rule.permits_settleFields (Record.prefixesStayDistinct_of_not_repeatsPrefix hp h)
      (fun other _ => ha other) (Rule.mem_all rule)

namespace Submission

open Text.Form (decode)

variable {s : Submission}

/-- A second validation takes its policy from the same metadata. -/
theorem validate_validate_eq_ok_iff (h : s.validate.2.2 = .ok ()) :
    s.validate.1.validate.2.2 = .ok () ↔ ¬ s.record.RepeatsPrefix := by
  obtain ⟨policy, hp, ha⟩ := result_eq_ok_iff_acceptable.mp h
  have hp' : s.validate.1.policy = .ok policy := by
    rw [record_validate h]
    exact hp
  rw [← acceptable_settleFields_iff ha, ← acceptable_decodeName_iff, result_eq_ok_iff_acceptable,
    hp', record_validate h]
  simp

theorem record_validate_validate (h : s.validate.2.2 = .ok ())
    (h' : s.validate.1.validate.2.2 = .ok ()) :
    s.validate.1.validate.1 = { s.validate.1 with record := s.validate.1.record.decodeName.1 } := by
  have hsettled : s.validate.1.record.settleFields Field.optionalLists = s.validate.1.record := by
    rw [record_validate h]
    have hcomm : (s.record.settleFields Field.optionalLists).decodeName =
        (s.record.decodeName.1.settleFields Field.optionalLists, s.record.decodeName.2) :=
      Record.decodeName_settleFields s.record (by decide)
    simp only [hcomm, Record.settleFields_idem]
  rw [record_validate h', hsettled]

/-- A second validation fails if the first one has made two trusted prefixes the same, and leaves
the submission as it is. Else it decodes the name of the client once more, and changes nothing
else. So the name survives unless there is something in it to be decoded. -/
theorem validate_again (h : s.validate.2.2 = .ok ()) :
    (s.record.RepeatsPrefix → s.validate.1.validate.1 = s.validate.1) ∧
    (¬ s.record.RepeatsPrefix → s.validate.1.validate.2.2 = .ok () ∧
      s.validate.1.validate.1 =
        { s.validate.1 with record := s.validate.1.record.decodeName.1 }) ∧
    (s.validate.1.validate.1.record.registered .clientName =
        s.validate.1.record.registered .clientName ↔
      s.record.RepeatsPrefix ∨
        ∀ t, s.validate.1.record.registered .clientName = some (.str t) →
          (∃ e, decode .utf8 t = .error e) ∨ '%' ∉ t.toList ∧ '+' ∉ t.toList) := by
  have hkept (hr : s.record.RepeatsPrefix) : s.validate.1.validate.1 = s.validate.1 := by
    cases hs : s.validate.1.validate.2.2 with
    | ok => exact absurd hr ((validate_validate_eq_ok_iff h).mp hs)
    | error e => exact submission_of_rejected hs
  have hdecoded (hr : ¬ s.record.RepeatsPrefix) : s.validate.1.validate.2.2 = .ok () ∧
      s.validate.1.validate.1 =
        { s.validate.1 with record := s.validate.1.record.decodeName.1 } :=
    have hs := (validate_validate_eq_ok_iff h).mpr hr
    ⟨hs, record_validate_validate h hs⟩
  refine ⟨hkept, hdecoded, ?_⟩
  by_cases hr : s.record.RepeatsPrefix
  · rw [hkept hr]
    exact iff_of_true rfl (.inl hr)
  · rw [(hdecoded hr).2, or_iff_right hr]
    exact s.validate.1.record.registered_decodeName_eq_iff

/-- A percent sign that no digits follow cannot be decoded again. -/
theorem validate_again_of_lone_percent :
    ∃ s : Submission, s = ⟨.ofEntries [("client_name", .str "100%25")], .map [], .map [],
        .map [("grant_types_supported", .ofTexts ["implicit"])]⟩ ∧
      s.validate.2.2 = .ok () ∧
      s.validate.1.record.registered .clientName = some (.str "100%") ∧
      s.validate.1.validate.1.record.registered .clientName = some (.str "100%") := by
  refine ⟨_, rfl, rfl, rfl, ((validate_again rfl).2.2.mpr (.inr fun t ht => .inl ?_)).trans rfl⟩
  cases ht
  exact ⟨.malformedEscape, rfl⟩

/-- The plus signs of a name are lost when it is validated again. -/
theorem validate_again_loses_plus_signs :
    ∃ s : Submission, s = ⟨.ofEntries [("client_name", .str "C%2B%2B")], .map [], .map [],
        .map []⟩ ∧
      s.validate.2.2 = .ok () ∧ s.validate.1.validate.2.2 = .ok () ∧
      s.validate.1.record.registered .clientName = some (.str "C++") ∧
      s.validate.1.validate.1.record.registered .clientName = some (.str "C  ") :=
  ⟨_, rfl, rfl, rfl, rfl, rfl⟩

end Submission

end Registration
