import Registration.Proofs.Policy.Narrower
import Registration.Proofs.Submission.Atomic

/-!
# What narrower policies accept

A record that a narrower policy accepts is accepted by a wider one, and comes
to the same:

* `strictPass_of_narrows`: strict passes by two policies;
* `narrows_stock_of_policy`: the policy of a submission narrows the stock one;
* `validate_without_metadata`: an accepted submission with nothing said of the
  server;
* `narrower_policies_accept_no_more`: both, with the policies of servers.
-/

namespace Registration

namespace Review

/-- What a pass settles does not depend on the policy that accepts the record. -/
theorem strictPass_of_narrows {v : Review} {q : Policy} (h : v.policy.Narrows q)
    (ha : v.strictPass.failure = none) :
    ({ v with policy := q } : Review).strictPass = v.strictPass := by
  have hnarrow : Acceptable v.policy v.record := (strictPass_failure_eq_none_iff v).mp ha
  have hwide : Acceptable q v.record := h.acceptable hnarrow
  rw [strictPass_eq_of_acceptable hnarrow,
    strictPass_eq_of_acceptable (v := { v with policy := q }) hwide]

end Review

namespace Submission

variable {s : Submission} {policy : Policy}

theorem narrows_stock_of_policy (h : s.policy = .ok policy) : policy.Narrows .stock := by
  rw [policy_eq] at h
  split at h
  · -- Only a map makes a policy.
    cases hm : s.serverMetadata with
    | map metadata =>
      rw [hm] at h
      obtain ⟨q, hq, hn⟩ := Policy.exists_narrows_of_ofServerMetadata h
      rw [Policy.ofOptions_stock] at hq
      cases hq
      exact hn
    | _ =>
      rw [hm] at h
      cases h
  · cases h
    exact .refl _

/-- An accepted submission is accepted as well if nothing is said of the server, and leaves the same
record. -/
theorem validate_without_metadata (h : s.validate.2.2 = .ok ()) {w : Value}
    (hw : w.isTruthy = false) :
    ({ s with serverMetadata := w } : Submission).validate.2.2 = .ok () ∧
      ({ s with serverMetadata := w } : Submission).validate.1.record = s.validate.1.record := by
  obtain ⟨policy, hp, ha⟩ := result_eq_ok_iff_acceptable.mp h
  have hstock : ({ s with serverMetadata := w } : Submission).policy = .ok .stock := by
    rw [policy_eq]
    exact if_neg (Bool.eq_false_iff.mp hw)
  have hok : ({ s with serverMetadata := w } : Submission).validate.2.2 = .ok () :=
    result_eq_ok_iff_acceptable.mpr ⟨_, hstock, (narrows_stock_of_policy hp).acceptable ha⟩
  refine ⟨hok, ?_⟩
  rw [record_validate hok, record_validate h]

/-- A strict pass by a policy that supports more, and requires the same grant types, accepts
whatever the pass by the narrower one accepts, and ends in the same way. The policy of a server is
narrower than that of the whole catalogue, whatever the server advertises, so a submission that is
accepted with the server's metadata is accepted without, and leaves the same record. -/
theorem narrower_policies_accept_no_more :
    (∀ (v : Review) (q : Policy), v.policy.Narrows q → v.strictPass.failure = none →
      ({ v with policy := q } : Review).strictPass = v.strictPass) ∧
    (∀ (c : Catalogue) (metadata : Entries) (p : Policy),
      Policy.ofServerMetadata c (.map metadata) = .ok p →
        ∃ q, Policy.ofOptions c [] = .ok q ∧ p.Narrows q) ∧
    ∀ s : Submission, s.validate.2.2 = .ok () → ∀ w : Value, w.isTruthy = false →
      ({ s with serverMetadata := w } : Submission).validate.2.2 = .ok () ∧
        ({ s with serverMetadata := w } : Submission).validate.1.record = s.validate.1.record :=
  ⟨fun _ _ => Review.strictPass_of_narrows,
    fun _ _ _ => Policy.exists_narrows_of_ofServerMetadata,
    fun _ h _ => validate_without_metadata h⟩

/-- A server that advertises its grant types and its response types each as one text, and a record
with a name that is decoded and a prefix that gets a slash. -/
theorem narrower_policies_accept_no_more_of_advertised_texts :
    ∃ (metadata : Entries) (p q : Policy) (v : Review) (s : Submission),
      metadata = [("grant_types_supported", .str "implicit authorization_code"),
        ("response_types_supported", .str "magic code")] ∧
      s = ⟨.ofEntries [("client_name", .str "A%2BB"), ("response_types", .ofTexts ["code"]),
        ("grant_types", .ofTexts ["authorization_code"]),
        ("trusted_uri_prefixes", .ofTexts ["https://a.test/x"])], .map [], .map [],
        .map metadata⟩ ∧
      Policy.ofServerMetadata .stock (.map metadata) = .ok p ∧
      Policy.ofOptions .stock [] = .ok q ∧ p.Narrows q ∧
      p.accepts .responseTypes (.str "token") = false ∧
      v = ⟨s.record, p, .stock⟩ ∧ v.strictPass.failure = none ∧
      ({ v with policy := q } : Review).strictPass = v.strictPass ∧
      s.validate.2.2 = .ok () ∧
      ({ s with serverMetadata := .map [] } : Submission).validate.2.2 = .ok () ∧
      ({ s with serverMetadata := .map [] } : Submission).validate.1.record =
        s.validate.1.record := by
  obtain ⟨hpasses, hservers, hsubmissions⟩ := narrower_policies_accept_no_more
  obtain ⟨q, hq, hn⟩ := hservers .stock
    [("grant_types_supported", .str "implicit authorization_code"),
      ("response_types_supported", .str "magic code")] _ rfl
  obtain ⟨hok, hrecord⟩ := hsubmissions ⟨.ofEntries [("client_name", .str "A%2BB"),
    ("response_types", .ofTexts ["code"]), ("grant_types", .ofTexts ["authorization_code"]),
    ("trusted_uri_prefixes", .ofTexts ["https://a.test/x"])], .map [], .map [],
    .map [("grant_types_supported", .str "implicit authorization_code"),
      ("response_types_supported", .str "magic code")]⟩ rfl (.map []) rfl
  exact ⟨_, _, q, _, _, rfl, rfl, rfl, hq, hn, rfl, rfl, rfl, hpasses _ q hn rfl, rfl, hok, hrecord⟩

end Submission

end Registration
