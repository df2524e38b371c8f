import Registration.Proofs.Pass.Restored
import Registration.Proofs.Uri.Prefix

/-!
# Trusted prefixes

What references that start with a trusted prefix have in common:

* `isReference_of_mem_trustedUriPrefixes`: the prefixes that a strict pass
  leaves are absolute references with a slash at their end;
* `trusted_prefix_pins`: such a prefix pins the scheme, and the authority unless
  it is a scheme root;
* `scheme_root_pins_no_authority`: a scheme root can be a trusted prefix.
-/

namespace Registration.Review

theorem isReference_of_mem_trustedUriPrefixes {v : Review} (h : v.strictPass.failure = none)
    {w : Value} (hw : w ∈ (v.strictPass.record.value .trustedUriPrefixes).items) :
    ∃ p u, w = .str p ∧ p.toList.getLast? = some '/' ∧ Uri.parse p = .ok u ∧
      u.scheme.isSome = true := by
  have ha := v.strictPass_failure_eq_none_iff.mp h
  rw [strictPass_eq_of_acceptable ha, Record.value_settleFields_of_mem _ (by decide),
    Field.settled, Value.items_list] at hw
  obtain ⟨given, hgiven, rfl⟩ := List.mem_map.mp hw
  have href : Rule.IsReference true given := (ha .trustedUriPrefixes).of_mem_items hgiven
  obtain ⟨s, hs⟩ := Option.isSome_iff_exists.mp href.text?_isSome
  obtain rfl := Value.eq_str_of_text? hs
  obtain ⟨u, hu, hscheme⟩ := Rule.isReference_withFinalSlash href
  refine ⟨Uri.withFinalSlash s, u, rfl, Uri.getLast?_withFinalSlash s, hu, ?_⟩
  cases hs : u.scheme with
  | none => exact absurd (by rw [hs]; rfl) (hscheme rfl)
  | some t => rfl

/-- A trusted prefix that a strict pass leaves is a reference, and all references that start with
it have its scheme. They have its authority as well, except those that name one behind a prefix
that is nothing but a scheme and one slash. -/
theorem trusted_prefix_pins {v : Review} (h : v.strictPass.failure = none) {w : Value}
    (hw : w ∈ (v.strictPass.record.value .trustedUriPrefixes).items) :
    ∃ p u, w = .str p ∧ Uri.parse p = .ok u ∧
      ∀ s u', Uri.parse s = .ok u' → p.toList <+: s.toList →
        u'.scheme = u.scheme ∧
          (u'.authority.getD "" ≠ u.authority.getD "" ↔
            Uri.IsSchemeRoot p.toList ∧ u'.authority.getD "" ≠ "") := by
  obtain ⟨p, u, rfl, hl, hu, hscheme⟩ := isReference_of_mem_trustedUriPrefixes h hw
  exact ⟨p, u, rfl, hu, fun s u' hs hstarts => Uri.parse_of_prefix hu hs hscheme hl hstarts⟩

/-- The slash that is added ends a host given without a path. -/
theorem trusted_prefix_pins_of_bare_host :
    (stock (Record.empty.put .trustedUriPrefixes
      (.ofTexts ["HTTPS://a.test"]))).strictPass.failure = none ∧
    Value.str "HTTPS://a.test/" ∈ ((stock (Record.empty.put .trustedUriPrefixes
      (.ofTexts ["HTTPS://a.test"]))).strictPass.record.value .trustedUriPrefixes).items ∧
    Uri.parse "HTTPS://a.test//b.test/@c?d" =
      .ok ⟨some "https", some "a.test", "//b.test/@c", some "d", none⟩ ∧
    "HTTPS://a.test/".toList <+: "HTTPS://a.test//b.test/@c?d".toList ∧
    ∃ u, Uri.parse "HTTPS://a.test/" = .ok u ∧ some "https" = u.scheme ∧
      "a.test" = u.authority.getD "" := by
  have hmem : Value.str "HTTPS://a.test/" ∈ ((stock (Record.empty.put .trustedUriPrefixes
      (.ofTexts ["HTTPS://a.test"]))).strictPass.record.value .trustedUriPrefixes).items :=
    List.mem_singleton.mpr rfl
  obtain ⟨p, u, hp, hu, hall⟩ := trusted_prefix_pins rfl hmem
  obtain rfl := Value.str.inj hp
  have hstarts : "HTTPS://a.test/".toList <+: "HTTPS://a.test//b.test/@c?d".toList := by decide
  obtain ⟨hscheme, hauthority⟩ := hall "HTTPS://a.test//b.test/@c?d"
    ⟨some "https", some "a.test", "//b.test/@c", some "d", none⟩ rfl hstarts
  have hroot : ¬ Uri.IsSchemeRoot "HTTPS://a.test/".toList := fun ⟨_, hs⟩ =>
    absurd hs.schemeText?_and_hierarchy.2 (by decide)
  exact ⟨rfl, hmem, rfl, hstarts, u, hu, hscheme,
    Classical.not_not.mp fun hne => hroot (hauthority.mp hne).1⟩

/-- Any authority may follow a scheme root. -/
theorem scheme_root_pins_no_authority :
    (stock (Record.empty.put .trustedUriPrefixes (.ofTexts ["https:/"]))).strictPass.failure =
      none ∧
    Value.str "https:/" ∈ ((stock (Record.empty.put .trustedUriPrefixes
      (.ofTexts ["https:/"]))).strictPass.record.value .trustedUriPrefixes).items ∧
    "https:/".toList <+: "https://b.test/".toList ∧
    Uri.parse "https:/" = .ok ⟨some "https", none, "/", none, none⟩ ∧
    Uri.parse "https://b.test/" = .ok ⟨some "https", some "b.test", "/", none, none⟩ :=
  ⟨rfl, List.mem_singleton.mpr rfl, by decide, rfl, rfl⟩

end Registration.Review
