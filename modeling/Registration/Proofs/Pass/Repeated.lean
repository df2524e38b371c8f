import Registration.Proofs.Pass.Agreement
import Registration.Proofs.Pass.Distinct
import Registration.Proofs.Pass.Restored

/-!
# Passes after a strict one

A strict pass that fails leaves a record that is settled in part: the rules in
front of the violation have settled their fields, and no other field has
changed. A pass over that record meets no objection in these rules again, and
comes to the rest of them with the draft that the first pass came with:

* `Record.PrefixesStayDistinct`: no two trusted prefixes become the same by a
  slash at the end;
* `strict_failure_of_accepted`, `handled_of_accepted`: rules that have no
  objection to a record which is shown to them, and the draft after them;
* `permits_settleFields`: rules that permit a record permit it settled by them;
* `passes_eq_of_accepted`, `passes_after_strictPass`: both passes go on from
  there, and so come to the same end;
* `step_after_strict`: a strict or lenient pass that comes after a strict one.
-/

namespace Registration

/-- Trusted prefixes, if they are a list or tuple of texts, differ also once each of them ends with
a slash. -/
def Record.PrefixesStayDistinct (r : Record) : Prop :=
  ∀ ss : List String, (r.value .trustedUriPrefixes).sequence? = some (ss.map .str) →
    (ss.map Uri.withFinalSlash).Nodup

theorem Record.prefixesStayDistinct_of_texts {r : Record} {ss : List String}
    (hr : r.value .trustedUriPrefixes = .ofTexts ss) (hn : (ss.map Uri.withFinalSlash).Nodup) :
    r.PrefixesStayDistinct := by
  intro ts hts
  rw [hr] at hts
  have hinjective : Function.Injective Value.str := fun _ _ h => Value.str.inj h
  have heq : ss = ts := hinjective.list_map (Option.some.inj hts)
  rwa [← heq]

/-- No rule settles the grant types, from which the match takes what it looks for. -/
theorem Rule.grantTypes_not_mem_writes (rule : Rule) : .grantTypes ∉ rule.writes := by
  cases rule <;> decide

namespace Pass

variable {policy : Policy} {defaults : Defaults}

variable {rules rest : List Rule} {d : Draft} {r : Record}

/-- By induction on the first rules: each meets the record as it was. -/
theorem strict_failure_of_accepted (hs : Shows d r (rules ++ rest)) (hn : (rules ++ rest).Nodup)
    (ho : ∀ rule ∈ rules, rule.objection? policy r.draft = none) :
    (strict policy rules d).failure = none := by
  induction rules generalizing d with
  | nil => rfl
  | cons rule rules ih =>
    obtain ⟨hr, hn⟩ := List.nodup_cons.mp hn
    rw [strict, Rule.apply_eq, hs.objection?_eq policy, ho rule (List.mem_cons_self ..)]
    exact ih (hs.settle hr) hn fun other hm => ho other (List.mem_cons_of_mem _ hm)

/-- By the same induction: each settles its fields, and the one on grant types finds these. -/
theorem handled_of_accepted (hs : Shows d r (rules ++ rest)) (hn : (rules ++ rest).Nodup)
    (ho : ∀ rule ∈ rules, rule.objection? policy r.draft = none) :
    handled policy defaults rules d =
      { record := d.record.settleFields (rules.flatMap Rule.writes)
        grants :=
          if Rule.grantTypes ∈ rules then (d.record.value .grantTypes).texts else d.grants } := by
  induction rules generalizing d with
  | nil => simp [handled]
  | cons rule rules ih =>
    obtain ⟨hr, hn⟩ := List.nodup_cons.mp hn
    have hhandle : rule.handle policy defaults d = rule.settle d := by
      rw [Rule.handle, hs.objection?_eq policy, ho rule (List.mem_cons_self ..)]
      rfl
    have hgrants : (rule.settle d).record.value .grantTypes = d.record.value .grantTypes :=
      Rule.value_settle_of_not_mem rule.grantTypes_not_mem_writes d
    rw [handled, List.foldl_cons, hhandle]
    refine (ih (hs.settle hr) hn fun other hm => ho other (List.mem_cons_of_mem _ hm)).trans ?_
    rw [hgrants, Rule.settle, Record.settleFields_settleFields, List.flatMap_cons]
    congr 1
    by_cases hm : Rule.grantTypes ∈ rules
    · rw [if_pos hm, if_pos (List.mem_cons_of_mem _ hm)]
    · rw [if_neg hm]
      simp [hm, eq_comm]

end Pass

namespace Rule

variable {policy : Policy}

theorem value_grantTypes_settleFields (r : Record) (rules : List Rule) :
    (r.settleFields (rules.flatMap writes)).value .grantTypes = r.value .grantTypes := by
  refine Record.value_settleFields_of_not_mem r fun hw => ?_
  obtain ⟨rule, -, hr⟩ := List.mem_flatMap.mp hw
  exact rule.grantTypes_not_mem_writes hr

/-- Trusted prefixes that are permitted are still distinct when they are settled. -/
theorem hasDistinctItems_settle_trustedUriPrefixes {r : Record} (h : r.PrefixesStayDistinct)
    (hp : trustedUriPrefixes.Permits policy r.draft) :
    ((trustedUriPrefixes.settle r.draft).record.value .trustedUriPrefixes).HasDistinctItems := by
  have hvalue : (trustedUriPrefixes.settle r.draft).record.value .trustedUriPrefixes =
      .list ((r.value .trustedUriPrefixes).items.map Value.withFinalSlash) :=
    value_settle_of_mem (by decide) r.draft
  rw [hvalue]
  refine (hasDistinctItems_withFinalSlash (v := r.value .trustedUriPrefixes) hp).mpr ?_
  obtain hnull | hc := hp
  · have htexts : (r.value .trustedUriPrefixes).texts = [] := by
      rw [Value.eq_null_of_isNull (v := r.value .trustedUriPrefixes) hnull]
      rfl
    rw [htexts]
    exact List.nodup_nil
  · exact h _ ((Value.isCollection_iff_texts fun _ => IsReference.text?_isSome).mp hc).1

/-- Settling the fields of rules that permit a record leaves one that they permit. -/
theorem permits_settleFields {r : Record} (h : r.PrefixesStayDistinct) {rules : List Rule}
    (hp : ∀ rule ∈ rules, rule.Permits policy r.draft) {rule : Rule} (hm : rule ∈ rules) :
    rule.Permits policy (r.settleFields (rules.flatMap writes)).draft := by
  have hsettled : rule.Permits policy (rule.settle r.draft) := by
    refine permits_settle (hp rule hm) ?_
    by_cases ht : rule = trustedUriPrefixes
    · subst ht
      exact .inr (hasDistinctItems_settle_trustedUriPrefixes h (hp _ hm))
    · exact .inl ht
  -- What the rule reads has been settled by itself or by no rule.
  have hvalue : ∀ f ∈ rule.reads, (r.settleFields (rules.flatMap writes)).value f =
      (rule.settle r.draft).record.value f := by
    intro f hf
    by_cases hw : f ∈ rule.writes
    · rw [value_settle_of_mem hw]
      exact Record.value_settleFields_of_mem r (List.mem_flatMap.mpr ⟨rule, hm, hw⟩)
    · rw [value_settle_of_not_mem hw]
      refine Record.value_settleFields_of_not_mem r fun hws => ?_
      obtain ⟨other, -, ho⟩ := List.mem_flatMap.mp hws
      have hne : rule ≠ other := fun he => hw (he ▸ ho)
      exact not_mem_writes_of_mem_reads hne hf ho
  refine (permits_congr hvalue fun hr => ?_).mpr hsettled
  subst hr
  exact congrArg Value.texts (value_grantTypes_settleFields r rules)

end Rule

namespace Review

variable {v : Review}

/-- A review whose record is accepted by the first rules goes on with the draft that these leave. -/
theorem passes_eq_of_accepted {rules rest : List Rule} (hall : Rule.all = rules ++ rest)
    (ho : ∀ rule ∈ rules, rule.objection? v.policy v.record.draft = none) :
    v.strictPass = Pass.strict v.policy rest
        (Pass.handled v.policy v.defaults rules ⟨v.record, []⟩) ∧
      v.lenientPass = Pass.lenient v.policy v.defaults rest
        (Pass.handled v.policy v.defaults rules ⟨v.record, []⟩) := by
  have hstrict : (Pass.strict v.policy rules ⟨v.record, []⟩).failure = none :=
    Pass.strict_failure_of_accepted (hall ▸ shows_record v.record) (hall ▸ by decide) ho
  have hsame : Pass.lenient v.policy v.defaults rules ⟨v.record, []⟩ =
      Pass.strict v.policy rules ⟨v.record, []⟩ :=
    Pass.lenient_eq_strict fun e he => by rw [hstrict] at he; cases he
  have hlog : (Pass.lenient v.policy v.defaults rules ⟨v.record, []⟩).log = [] := by
    rw [hsame, Pass.strict_log, hstrict]
    rfl
  constructor
  · rw [strictPass, hall, Pass.strict_append v.defaults hstrict]
  · rw [lenientPass, hall, Pass.lenient_append (hsame ▸ hstrict), hlog, List.nil_append]

/-- Both passes over the record that a strict pass leaves are those over the record that it was
given. -/
theorem passes_after_strictPass (h : v.record.PrefixesStayDistinct) :
    ({ v with record := v.strictPass.record } : Review).strictPass = v.strictPass ∧
      ({ v with record := v.strictPass.record } : Review).lenientPass = v.lenientPass := by
  obtain ⟨rest, hall⟩ : ∃ rest, Rule.all = Pass.accepted v.policy v.record Rule.all ++ rest :=
    ⟨_, List.takeWhile_append_dropWhile.symm⟩
  have ho : ∀ rule ∈ Pass.accepted v.policy v.record Rule.all,
      rule.objection? v.policy v.record.draft = none := fun _ => Pass.objection?_of_mem_accepted
  have hrecord : v.strictPass.record =
      v.record.settleFields ((Pass.accepted v.policy v.record Rule.all).flatMap Rule.writes) := by
    rw [strictPass_eq]
  have ho' : ∀ rule ∈ Pass.accepted v.policy v.record Rule.all,
      rule.objection? v.policy v.strictPass.record.draft = none := by
    intro rule hm
    rw [hrecord, Rule.objection?_eq_none_iff]
    exact Rule.permits_settleFields h
      (fun other ho' => Rule.objection?_eq_none_iff.mp (ho other ho')) hm
  -- Both passes come to the rest of the rules with the same draft.
  have hdraft : Pass.handled v.policy v.defaults (Pass.accepted v.policy v.record Rule.all)
        ⟨v.strictPass.record, []⟩ =
      Pass.handled v.policy v.defaults (Pass.accepted v.policy v.record Rule.all)
        ⟨v.record, []⟩ := by
    have hshows (r : Record) := hall ▸ shows_record r
    have hnodup := hall ▸ (by decide : Rule.all.Nodup)
    rw [Pass.handled_of_accepted (hshows v.strictPass.record) hnodup ho',
      Pass.handled_of_accepted (hshows v.record) hnodup ho]
    simp only [hrecord, Record.settleFields_idem, Rule.value_grantTypes_settleFields]
  obtain ⟨hstrict, hlenient⟩ := passes_eq_of_accepted (v := v) hall ho
  obtain ⟨hstrict', hlenient'⟩ :=
    passes_eq_of_accepted (v := { v with record := v.strictPass.record }) hall ho'
  exact ⟨hstrict'.trans ((congrArg _ hdraft).trans hstrict.symm),
    hlenient'.trans ((congrArg _ hdraft).trans hlenient.symm)⟩

/-- After a strict pass, whether it has failed or not, another one leaves the record alone and has
the same outcome, and a lenient one leaves and gives what it would have without the first. -/
theorem step_after_strict (h : v.record.PrefixesStayDistinct) :
    (v.step .strict).review.step .strict = v.step .strict ∧
      (v.step .strict).review.step .lenient = v.step .lenient := by
  obtain ⟨hstrict, hlenient⟩ := passes_after_strictPass h
  exact ⟨congrArg v.finish hstrict, congrArg v.finish hlenient⟩

/-- A prefix has got its slash when the pass fails with a group that is given twice. -/
theorem step_after_strict_of_repeated_group :
    ∃ v : Review, v = stock (.ofEntries [("trusted_uri_prefixes", .ofTexts ["https://a.test/x"]),
        ("functional_user_groupIds", .ofTexts ["a", "a"])]) ∧
      v.record.PrefixesStayDistinct ∧
      (v.step .strict).review.record.value .trustedUriPrefixes = .ofTexts ["https://a.test/x/"] ∧
      (v.step .strict).review.step .strict = v.step .strict ∧
      (v.step .strict).review.step .lenient = v.step .lenient :=
  have h : (stock (.ofEntries [("trusted_uri_prefixes", .ofTexts ["https://a.test/x"]),
      ("functional_user_groupIds", .ofTexts ["a", "a"])])).record.PrefixesStayDistinct :=
    Record.prefixesStayDistinct_of_texts rfl (List.nodup_singleton _)
  ⟨_, rfl, h, rfl, step_after_strict h⟩

end Review

end Registration
