import Mathlib.Data.List.Nodup
import Registration.Proofs.Pass.Acceptance
import Registration.Proofs.Pass.Lenient

/-!
# Collections after a pass

The items of a collection are compared before the trusted prefixes among them
are made to end with a slash:

* `hasDistinctItems_handle`, `hasDistinctItems_handle_of_ne`: the other
  collections have distinct items after their own rule, and keep them after the
  others;
* `nodup_map_withFinalSlash_iff`, `hasDistinctItems_withFinalSlash`,
  `hasDistinctItems_withFinalSlash_iff`: accepted prefixes stay distinct unless
  one is given both with and without a slash;
* `collections_distinct_iff`: the collections of a finished pass.
-/

namespace Registration

/-- The fields that hold several values, each at most once. -/
def Field.collections : List Field :=
  [responseTypes, grantTypes, redirectUris, postLogoutRedirectUris, trustedUriPrefixes,
   functionalUserGroupIds]

/-- A trusted prefix is given both with and without a slash at its end. -/
def Record.RepeatsPrefix (r : Record) : Prop :=
  ∃ s : String, s.toList.getLast? ≠ some '/' ∧ .str s ∈ (r.value .trustedUriPrefixes).items ∧
    .str (s ++ "/") ∈ (r.value .trustedUriPrefixes).items

namespace Rule

variable {policy : Policy} {defaults : Defaults}

theorem IsEmptyOr.hasDistinctItems {p : Value → Prop} {v : Value}
    (h : IsEmptyOr (Value.IsCollection p) v) : v.HasDistinctItems :=
  h.elim (fun he => Value.hasDistinctItems_of_items_eq_nil (Value.items_of_isEmpty he))
    fun hc => hc.distinct

theorem IsNullOr.hasDistinctItems {p : Value → Prop} {v : Value}
    (h : IsNullOr (Value.IsCollection p) v) : v.HasDistinctItems :=
  h.elim (fun hn => Value.eq_null_of_isNull hn ▸ Value.hasDistinctItems_of_items_eq_nil rfl)
    fun hc => hc.distinct

theorem hasDistinctItems_of_permits {rule : Rule} {f : Field} (hf : rule.collection? = some f)
    {d : Draft} (h : rule.Permits policy d) : (d.record.value f).HasDistinctItems := by
  cases rule with
  | responseTypes | grantTypes =>
    cases hf
    exact IsEmptyOr.hasDistinctItems h
  | redirectUris | postLogoutRedirectUris | trustedUriPrefixes | functionalUserGroupIds =>
    cases hf
    exact IsNullOr.hasDistinctItems h
  | _ => cases hf

theorem hasDistinctItems_orEmptyList {v : Value} (h : v.HasDistinctItems) :
    v.orEmptyList.HasDistinctItems := by
  rw [Value.orEmptyList]
  split
  · exact Value.hasDistinctItems_of_items_eq_nil rfl
  · exact h

/-- Settling a list other than the trusted prefixes keeps its items. -/
theorem hasDistinctItems_settled {f : Field} (hf : f ≠ .trustedUriPrefixes) {v : Value}
    (h : v.HasDistinctItems) : (f.settled v).HasDistinctItems := by
  cases f with
  | trustedUriPrefixes => exact absurd rfl hf
  | _ => exact hasDistinctItems_orEmptyList h

/-- The rule of a collection leaves distinct items in it. -/
theorem hasDistinctItems_handle {rule : Rule} {f : Field} (hc : rule.collection? = some f)
    (hf : f ≠ .trustedUriPrefixes) (d : Draft) :
    ((rule.handle policy defaults d).record.value f).HasDistinctItems := by
  by_cases hp : rule.Permits policy d
  · rw [handle_of_permits hp]
    by_cases hw : f ∈ rule.writes
    · rw [value_settle_of_mem hw]
      exact hasDistinctItems_settled hf (hasDistinctItems_of_permits hc hp)
    · rw [value_settle_of_not_mem hw]
      exact hasDistinctItems_of_permits hc hp
  · rw [handle_of_not_permits hp, value_reset_of_collection hc]
    exact Value.hasDistinctItems_of_items_eq_nil rfl

theorem collections_eq : Field.collections = all.filterMap collection? := rfl

/-- Only the match changes collections of other rules. -/
theorem eq_match_of_mem_changes {rule other : Rule} (hne : other ≠ rule) {f : Field}
    (hc : rule.collection? = some f) (hm : f ∈ other.changes) : other = responseAndGrantMatch :=
  (by decide : ∀ rule other : Rule, other ≠ rule → ∀ f ∈ rule.collection?,
    f ∈ other.changes → other = responseAndGrantMatch) rule other hne f hc hm

/-- No other rule undoes this: the match leaves collections alone or with a single item each. -/
theorem hasDistinctItems_handle_of_ne {rule other : Rule} (hne : other ≠ rule) {f : Field}
    (hc : rule.collection? = some f) {d : Draft} (h : (d.record.value f).HasDistinctItems) :
    ((other.handle policy defaults d).record.value f).HasDistinctItems := by
  by_cases hm : f ∈ other.changes
  · obtain rfl := eq_match_of_mem_changes hne hc hm
    by_cases hp : responseAndGrantMatch.Permits policy d
    · rwa [handle_of_permits hp, settle_responseAndGrantMatch]
    · rw [handle_of_not_permits hp]
      obtain rfl | hm := List.mem_cons.mp hm
      · rw [responseTypes_reset_match]
        exact Value.hasDistinctItems_singleton _
      · rw [List.mem_singleton.mp hm, grantTypes_reset_match]
        exact Value.hasDistinctItems_singleton _
  · rwa [value_handle hm]

end Rule

/-! ## Trusted prefixes -/

theorem ne_append_slash (s : String) : s ≠ s ++ "/" := by
  intro h
  have hlength := congrArg (fun t : String => t.toList.length) h
  simp at hlength

/-- Different texts stay different unless a slash is added to one that is given with it too. -/
theorem nodup_map_withFinalSlash_iff {ss : List String} (hn : ss.Nodup) :
    (ss.map Uri.withFinalSlash).Nodup ↔
      ¬ ∃ s : String, s.toList.getLast? ≠ some '/' ∧ s ∈ ss ∧ s ++ "/" ∈ ss := by
  rw [List.nodup_map_iff_inj_on hn]
  constructor
  · rintro hinj ⟨s, hl, hs, ht⟩
    have hsame : Uri.withFinalSlash s = Uri.withFinalSlash (s ++ "/") :=
      (Uri.withFinalSlash_eq_iff (ne_append_slash s)).mpr (.inl ⟨hl, rfl⟩)
    exact ne_append_slash s (hinj s hs _ ht hsame)
  · intro hno s hs t ht hst
    by_contra hne
    obtain ⟨hl, rfl⟩ | ⟨hl, rfl⟩ := (Uri.withFinalSlash_eq_iff hne).mp hst
    · exact hno ⟨s, hl, hs, ht⟩
    · exact hno ⟨t, hl, ht, hs⟩

/-- The items of accepted prefixes are different texts. -/
theorem items_eq_texts_of_isReference {v : Value}
    (h : Rule.IsNullOr (Value.IsCollection (Rule.IsReference true)) v) :
    v.items = v.texts.map .str ∧ v.texts.Nodup := by
  obtain hnull | hc := h
  · rw [Value.eq_null_of_isNull hnull]
    exact ⟨rfl, List.nodup_nil⟩
  · have htext : ∀ w, Rule.IsReference true w → w.text?.isSome :=
      fun _ => Rule.IsReference.text?_isSome
    exact ⟨hc.items_eq_map_texts htext, ((Value.isCollection_iff_texts htext).mp hc).2.1⟩

/-- Accepted prefixes stay distinct if their texts do. -/
theorem hasDistinctItems_withFinalSlash {v : Value}
    (h : Rule.IsNullOr (Value.IsCollection (Rule.IsReference true)) v) :
    (Value.list (v.items.map Value.withFinalSlash)).HasDistinctItems ↔
      (v.texts.map Uri.withFinalSlash).Nodup := by
  have hmap : v.items.map Value.withFinalSlash =
      (v.texts.map Uri.withFinalSlash).map Value.str := by
    rw [(items_eq_texts_of_isReference h).1, List.map_map, List.map_map]
    rfl
  rw [hmap, Value.hasDistinctItems_list_str]

/-- Distinct prefixes stay distinct unless one is given both with and without a slash. -/
theorem hasDistinctItems_withFinalSlash_iff {r : Record}
    (h : Rule.IsNullOr (Value.IsCollection (Rule.IsReference true))
      (r.value .trustedUriPrefixes)) :
    (Value.list ((r.value .trustedUriPrefixes).items.map Value.withFinalSlash)).HasDistinctItems ↔
      ¬ r.RepeatsPrefix := by
  obtain ⟨-, hn⟩ := items_eq_texts_of_isReference h
  rw [hasDistinctItems_withFinalSlash h, nodup_map_withFinalSlash_iff hn]
  simp only [Record.RepeatsPrefix, ← Value.mem_texts]

namespace Review

open Pass (handled)

/-- After a lenient pass the trusted prefixes are those given, each with a slash at its end, or
none. -/
theorem lenientPass_trustedUriPrefixes {v : Review} (h : v.lenientPass.failure = none) :
    (Rule.trustedUriPrefixes.Permits v.policy v.record.draft →
        v.lenientPass.record.value .trustedUriPrefixes =
          .list ((v.record.value .trustedUriPrefixes).items.map Value.withFinalSlash)) ∧
      (¬ Rule.trustedUriPrefixes.Permits v.policy v.record.draft →
        v.lenientPass.record.value .trustedUriPrefixes = .list []) := by
  have hbefore : (handled v.policy v.defaults Rule.trustedUriPrefixes.before
      ⟨v.record, []⟩).record.value .trustedUriPrefixes = v.record.value .trustedUriPrefixes :=
    Pass.value_handled (by decide) _
  have hpermits : Rule.trustedUriPrefixes.Permits v.policy
      (handled v.policy v.defaults Rule.trustedUriPrefixes.before ⟨v.record, []⟩) ↔
        Rule.trustedUriPrefixes.Permits v.policy v.record.draft :=
    Pass.permits_handled_iff (by decide) (by decide) _
  rw [lenientPass, Pass.lenient_record h, Pass.handled_all .trustedUriPrefixes,
    Pass.value_handled (by decide), ← hpermits]
  refine ⟨fun hp => ?_, fun hp => ?_⟩
  · rw [Rule.handle_of_permits hp, Rule.value_settle_of_mem (by decide), Field.settled, hbefore]
  · rw [Rule.handle_of_not_permits hp]
    exact Rule.value_reset_of_collection rfl _

/-- The collections other than the trusted prefixes after a finished pass. -/
theorem hasDistinctItems_of_finished {v : Review} {p : Pass}
    (hp : p = v.strictPass ∨ p = v.lenientPass) (h : p.failure = none) {f : Field}
    (hm : f ∈ Field.collections) (hf : f ≠ .trustedUriPrefixes) :
    (p.record.value f).HasDistinctItems := by
  obtain ⟨rule, hrule, hc⟩ := List.mem_filterMap.mp (Rule.collections_eq ▸ hm)
  obtain rfl | rfl := hp
  · have ha := v.strictPass_failure_eq_none_iff.mp h
    have hd := Rule.hasDistinctItems_of_permits hc (ha rule)
    rw [strictPass_eq_of_acceptable ha]
    by_cases hl : f ∈ Field.optionalLists
    · rw [Record.value_settleFields_of_mem _ hl]
      exact Rule.hasDistinctItems_settled hf hd
    · rwa [Record.value_settleFields_of_not_mem _ hl]
  · rw [lenientPass, Pass.lenient_record h]
    exact Pass.handled_of_established (P := fun d => (d.record.value f).HasDistinctItems) hrule
      (Rule.hasDistinctItems_handle hc hf)
      (fun _ _ hne hd => Rule.hasDistinctItems_handle_of_ne hne hc hd) _

/-- The trusted prefixes of a finished pass, of which equal ones have been made so by a slash. -/
theorem hasDistinctItems_trustedUriPrefixes_iff {v : Review} {p : Pass}
    (hp : p = v.strictPass ∨ p = v.lenientPass) (h : p.failure = none) :
    (p.record.value .trustedUriPrefixes).HasDistinctItems ↔
      ¬ (Rule.trustedUriPrefixes.Permits v.policy v.record.draft ∧ v.record.RepeatsPrefix) := by
  obtain ⟨hkept, hreset⟩ : (Rule.trustedUriPrefixes.Permits v.policy v.record.draft →
      p.record.value .trustedUriPrefixes =
        .list ((v.record.value .trustedUriPrefixes).items.map Value.withFinalSlash)) ∧
      (¬ Rule.trustedUriPrefixes.Permits v.policy v.record.draft →
        p.record.value .trustedUriPrefixes = .list []) := by
    obtain rfl | rfl := hp
    · have ha := v.strictPass_failure_eq_none_iff.mp h
      refine ⟨fun _ => ?_, fun hn => absurd (ha .trustedUriPrefixes) hn⟩
      rw [strictPass_eq_of_acceptable ha, Record.value_settleFields_of_mem _ (by decide)]
      rfl
    · exact lenientPass_trustedUriPrefixes h
  by_cases hpermits : Rule.trustedUriPrefixes.Permits v.policy v.record.draft
  · rw [hkept hpermits]
    exact (hasDistinctItems_withFinalSlash_iff hpermits).trans
      (not_congr (and_iff_right hpermits).symm)
  · rw [hreset hpermits]
    exact iff_of_true (Value.hasDistinctItems_of_items_eq_nil rfl) fun hn => hpermits hn.1

/-- After a finished pass all collections other than the trusted prefixes have distinct items, and
all of them have unless a prefix was accepted both with and without a slash. -/
theorem collections_distinct_iff {v : Review} {p : Pass}
    (hp : p = v.strictPass ∨ p = v.lenientPass) (h : p.failure = none) :
    (∀ f ∈ Field.collections, f ≠ .trustedUriPrefixes → (p.record.value f).HasDistinctItems) ∧
      ((∀ f ∈ Field.collections, (p.record.value f).HasDistinctItems) ↔
        ¬ (Rule.trustedUriPrefixes.Permits v.policy v.record.draft ∧ v.record.RepeatsPrefix)) := by
  refine ⟨fun f hm hf => hasDistinctItems_of_finished hp h hm hf, ?_⟩
  rw [← hasDistinctItems_trustedUriPrefixes_iff hp h]
  refine ⟨fun hall => hall _ (by decide), fun ht f hm => ?_⟩
  by_cases hf : f = .trustedUriPrefixes
  · exact hf ▸ ht
  · exact hasDistinctItems_of_finished hp h hm hf

/-- A lenient pass drops groups that are repeated and keeps different prefixes. -/
theorem collections_distinct_of_repeated_group :
    (stock ((Record.empty.put .functionalUserGroupIds (.ofTexts ["a", "a"])).put
      .trustedUriPrefixes (.tuple [.str "https://a.test/x"]))).lenientPass.failure = none ∧
    ∀ f ∈ Field.collections, f ≠ .trustedUriPrefixes →
      ((stock ((Record.empty.put .functionalUserGroupIds (.ofTexts ["a", "a"])).put
        .trustedUriPrefixes (.tuple [.str "https://a.test/x"]))).lenientPass.record.value
          f).HasDistinctItems :=
  ⟨rfl, (collections_distinct_iff (.inr rfl) rfl).1⟩

/-- A prefix given with and without a slash is accepted, and then stands there twice. -/
theorem repeated_prefix_not_distinct :
    (stock (Record.empty.put .trustedUriPrefixes
      (.ofTexts ["https://a.test/x", "https://a.test/x/"]))).strictPass.failure = none ∧
    (stock (Record.empty.put .trustedUriPrefixes
      (.ofTexts ["https://a.test/x", "https://a.test/x/"]))).strictPass.record.value
        .trustedUriPrefixes = .ofTexts ["https://a.test/x/", "https://a.test/x/"] ∧
    ¬ (Value.ofTexts ["https://a.test/x/", "https://a.test/x/"]).HasDistinctItems :=
  ⟨rfl, rfl, fun h => absurd (Value.hasDistinctItems_list_str.mp h) (by decide)⟩

end Review

end Registration
