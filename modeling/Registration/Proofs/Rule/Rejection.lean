import Registration.Proofs.Rule.Violation

/-!
# What rules reject

A check that fails has found the first violation of what it checks, and tells
that one:

* `ItemCheck`: an item check by what it accepts and what it refuses;
* `exists_of_distinct_error`, `exists_of_grantMatch_error`: where the walks
  through a list stop;
* `IsFirst.of_item`: how a violation at some item is the first one;
* `exists_isFirst_of_texts_error`, `exists_isFirst_of_responseMatch_rejected`: a
  list check and the match tell their first violation;
* `Criterion.Tells`: a failure tells the first violation of a criterion;
* `exists_tells_of_objection`: the failure of a rule tells the first violation
  of one of its criteria, and no criterion before that one is violated.
-/

namespace Registration

namespace Rule

variable {judge : Value → Except Failure String} {f : Field} {p : Value → Prop}
  {flaw : Reason → Value → Prop} {policy : Policy} {w : Value} {e : Failure}

/-! ## Items -/

/-- An item check accepts the items that satisfy a condition, all of them texts. Any other item has
a flaw, for which it is refused. -/
structure ItemCheck (judge : Value → Except Failure String) (f : Field) (p : Value → Prop)
    (flaw : Reason → Value → Prop) : Prop where
  judges : Judges judge p
  text?_isSome : ∀ w, p w → w.text?.isSome
  exists_flaw : ∀ w, ¬ p w → ∃ reason, flaw reason w
  reason_unique : ∀ reason other w, flaw reason w → flaw other w → reason = other
  refuses : ∀ reason w, flaw reason w → judge w = .error (.refuse reason f w)
  rank_lt : ∀ reason w, flaw reason w → reason.rank < Reason.rank .duplicateValue

namespace ItemCheck

theorem eq_ok (h : ItemCheck judge f p flaw) (hp : p w) : ∃ s, judge w = .ok s := by
  obtain ⟨s, hs⟩ := Option.isSome_iff_exists.mp (h.text?_isSome w hp)
  exact ⟨s, (h.judges w s).mpr ⟨Value.eq_str_of_text? hs, hp⟩⟩

theorem not_of_flaw (h : ItemCheck judge f p flaw) {reason : Reason} (hf : flaw reason w) :
    ¬ p w := by
  intro hp
  obtain ⟨s, hs⟩ := h.eq_ok hp
  rw [h.refuses reason w hf] at hs
  cases hs

/-- An item that is refused is refused for its flaw. -/
theorem flaw_of_error (h : ItemCheck judge f p flaw) (he : judge w = .error e) :
    ∃ reason, flaw reason w ∧ e = .refuse reason f w := by
  have hp : ¬ p w := by
    intro hp
    obtain ⟨s, hs⟩ := h.eq_ok hp
    rw [he] at hs
    cases hs
  obtain ⟨reason, hf⟩ := h.exists_flaw w hp
  exact ⟨reason, hf, Except.error.inj (he.symm.trans (h.refuses reason w hf))⟩

end ItemCheck

/-- A check whose only flaw is that a value is not supported. -/
theorem itemCheck_of_supported {supported : Value → Bool} (hj : Judges judge (supported · = true))
    (ht : ∀ w, supported w = true → w.text?.isSome)
    (hr : ∀ w, supported w = false → judge w = .error (.refuse .unsupportedValue f w)) :
    ItemCheck judge f (supported · = true) (Violation.Unsupported supported) where
  judges := hj
  text?_isSome := ht
  exists_flaw w hp := ⟨.unsupportedValue, rfl, Bool.eq_false_iff.mpr hp⟩
  reason_unique := by
    rintro _ _ w ⟨rfl, -⟩ ⟨rfl, -⟩
    rfl
  refuses := by
    rintro _ w ⟨rfl, hw⟩
    exact hr w hw
  rank_lt := by
    rintro _ w ⟨rfl, -⟩
    decide

theorem itemCheck_check (policy : Policy) (en : Enumerated) :
    ItemCheck (policy.check en) en.field (policy.accepts en · = true)
      (Violation.Unsupported (policy.accepts en)) :=
  itemCheck_of_supported (judges_check policy en) (fun _ => text?_isSome_of_accepts) fun w hw => by
    rw [Policy.accepts] at hw
    cases w with
    | str s =>
      rw [Policy.check] at hw ⊢
      split at hw
      · rw [if_pos ‹_›]
      · split at hw
        · cases hw
        · rw [if_neg ‹_›, if_neg ‹_›]
    | _ => rfl

theorem itemCheck_identifier (f : Field) :
    ItemCheck (identifier f) f (·.text?.isSome = true)
      (Violation.Unsupported (·.text?.isSome)) :=
  itemCheck_of_supported (judges_identifier f) (fun _ h => h) fun w hw => by
    cases w with
    | str s => cases hw
    | _ => rfl

theorem itemCheck_uri (f : Field) (absolute : Bool) :
    ItemCheck (uri f absolute) f (IsReference absolute) (Violation.UriFlaw absolute) where
  judges := judges_uri f absolute
  text?_isSome _ := IsReference.text?_isSome
  exists_flaw w hp := by
    by_cases hu : ∃ u, Uri.ofValue w = .ok u
    · obtain ⟨u, hu⟩ := hu
      have hs : absolute = true ∧ u.scheme.getD "" = "" := by
        by_contra hs
        exact hp ⟨u, hu, not_and.mp hs⟩
      exact ⟨_, .relative hs.1 hu hs.2⟩
    · exact ⟨_, .malformed (not_exists.mp hu)⟩
  reason_unique := by
    rintro _ _ w (hu | ⟨-, hu, -⟩) (hu' | ⟨-, hu', -⟩)
    · rfl
    · exact absurd hu' (hu _)
    · exact absurd hu (hu' _)
    · rfl
  refuses := by
    rintro _ w (hu | ⟨rfl, hu, hs⟩)
    · cases w with
      | str s =>
        cases hp : Uri.parse s with
        | error _ => simp only [uri, hp]
        | ok u => exact absurd hp (hu u)
      | _ => rfl
    · obtain ⟨s, rfl, hp⟩ := Uri.ofValue_eq_ok_iff.mp hu
      rename_i u
      have hnone : u.scheme.isNone = true := by
        cases ht : u.scheme with
        | none => rfl
        | some scheme =>
          rw [ht] at hs
          exact absurd hs (Uri.scheme_ne_empty_of_parse hp ht)
      simp [uri, hp, hnone]
  rank_lt := by
    rintro _ w (_ | _) <;> decide

/-! ## Where a walk stops -/

/-- A list check stops at an item that it refuses, or that it has seen before. -/
theorem exists_of_distinct_error (hj : Judges judge p) {seen vs : List Value}
    (h : distinct judge f seen vs = .error e) :
    ∃ before w after ss, vs = before ++ w :: after ∧ distinct judge f seen before = .ok ss ∧
      (judge w = .error e ∨
        p w ∧ (∃ u ∈ seen ++ before, u.same w = true) ∧ e = .refuse .duplicateValue f w) := by
  induction vs generalizing seen with
  | nil => cases h
  | cons v vs ih =>
    rw [distinct] at h
    split at h
    · rename_i e' hv
      cases h
      exact ⟨[], v, vs, [], rfl, rfl, .inl hv⟩
    · rename_i s hv
      obtain ⟨rfl, hp⟩ := (hj v s).mp hv
      split at h
      · rename_i e' hseen
        cases h
        obtain ⟨⟨u, hu, hsame⟩, rfl⟩ := remember_str_eq_error hseen
        exact ⟨[], _, vs, [], rfl, rfl,
          .inr ⟨hp, ⟨u, List.mem_append_left [] hu, hsame⟩, rfl⟩⟩
      · rename_i seen' hseen
        obtain ⟨hnew, rfl⟩ := remember_str_eq_ok_iff.mp hseen
        obtain ⟨before, w, after, ss, rfl, hss, hw⟩ := ih (map_eq_error_iff.mp h)
        refine ⟨.str s :: before, w, after, s :: ss, rfl,
          (distinct_cons_eq_ok_iff hj).mpr ⟨s, ss, rfl, rfl, hp, hnew, hss⟩, ?_⟩
        obtain hw | ⟨hp, ⟨u, hu, hsame⟩, he⟩ := hw
        · exact .inl hw
        · have hu : u ∈ seen ++ .str s :: before := List.perm_middle.symm.mem_iff.mp hu
          exact .inr ⟨hp, ⟨u, hu, hsame⟩, he⟩

theorem of_isMissing_eq_ok_true {grants : List String} {required : Value}
    (h : isMissing grants required = .ok true) :
    required.isTruthy = true ∧ ∀ s ∈ grants, required ≠ .str s := by
  have hnot : ¬ (required.isTruthy = true → ∃ s ∈ grants, required = .str s) := by
    rw [← isMissing_eq_ok_false_iff, h]
    exact nofun
  simpa using hnot

theorem of_missingGrant?_eq_ok_some {grants : List String} {v required : Value}
    (h : missingGrant? policy grants v = .ok (some required)) :
    policy.grantTypeFor v = .ok required ∧ required.isTruthy = true ∧
      ∀ s ∈ grants, required ≠ .str s := by
  rw [missingGrant?] at h
  split at h
  · cases h
  · rename_i required' hg
    cases hm : isMissing grants required' with
    | error e => rw [hm] at h; cases h
    | ok missing =>
      rw [hm] at h
      cases missing with
      | false => cases h
      | true =>
        cases h
        exact ⟨hg, of_isMissing_eq_ok_true hm⟩

/-- The match stops at a response type without the grant type that it requires, or for which none
can be told. -/
theorem exists_of_grantMatch_error {grants : List String} {vs : List Value}
    (h : grantMatch policy grants vs = .error e) :
    ∃ before w after, vs = before ++ w :: after ∧ (∀ u ∈ before, HasGrant policy grants u) ∧
      ((∃ required, missingGrant? policy grants w = .ok (some required) ∧
          e = .refuse (.grantResponseMismatch required) .responseTypes w) ∨
        ∃ fault, missingGrant? policy grants w = .error fault ∧ e = .fault fault) := by
  induction vs with
  | nil => cases h
  | cons v vs ih =>
    rw [grantMatch] at h
    split at h
    · rename_i fault hm
      exact ⟨[], v, vs, rfl, List.forall_mem_nil _,
        .inr ⟨fault, hm, (Except.error.inj h).symm⟩⟩
    · rename_i required hm
      exact ⟨[], v, vs, rfl, List.forall_mem_nil _,
        .inl ⟨required, hm, (Except.error.inj h).symm⟩⟩
    · rename_i hm
      obtain ⟨before, w, after, rfl, hb, hw⟩ := ih h
      exact ⟨v :: before, w, after, rfl,
        List.forall_mem_cons.mpr ⟨missingGrant?_eq_ok_none_iff.mp hm, hb⟩, hw⟩

/-- The item at which a list check stops has a flaw or else repeats another one, and those before
it are in order. -/
theorem ItemCheck.exists_of_distinct_error (h : ItemCheck judge f p flaw) {vs : List Value}
    (he : distinct judge f [] vs = .error e) :
    ∃ before w after reason, vs = before ++ w :: after ∧ (Value.list before).IsCollection p ∧
      (flaw reason w ∨ reason = .duplicateValue ∧ ∃ u ∈ before, u.same w = true) ∧
      e = .refuse reason f w ∧
      ∀ other, flaw other w ∨ other = .duplicateValue →
        other = reason ∨ reason.rank < other.rank := by
  obtain ⟨before, w, after, ss, rfl, hss, hw⟩ := Rule.exists_of_distinct_error h.judges he
  have htexts : texts judge .unsupportedValue f (.list before) = .ok ss := hss
  obtain ⟨hbefore, -⟩ := (texts_eq_ok_iff h.judges h.text?_isSome).mp htexts
  obtain hw | ⟨hp, hu, rfl⟩ := hw
  · obtain ⟨reason, hf, rfl⟩ := h.flaw_of_error hw
    refine ⟨before, w, after, reason, rfl, hbefore, .inl hf, rfl, fun other ho => ?_⟩
    obtain ho | rfl := ho
    · exact .inl (h.reason_unique _ _ w ho hf)
    · exact .inr (h.rank_lt reason w hf)
  · refine ⟨before, w, after, .duplicateValue, rfl, hbefore, .inr ⟨rfl, hu⟩, rfl,
      fun other ho => .inl ?_⟩
    exact ho.resolve_left fun hf => h.not_of_flaw hf hp

end Rule

namespace Violation

variable {policy : Policy} {r : Record} {c : Criterion} {x : Violation} {e : Failure}

/-! ## First violations -/

theorem IsFirst.of_iff {q q' : Violation → Prop} (h : IsFirst q x) (hq : ∀ y, q y ↔ q' y) :
    IsFirst q' x where
  holds := (hq x).mp h.holds
  rank_lt y hy := h.rank_lt y ((hq y).mpr hy)

/-- A violation at an item is the first one if the others are at later items, or there for reasons
that count less. -/
theorem IsFirst.of_item {q : Violation → Prop} {i : Nat} {reason : Reason}
    (hx : q ⟨c, some i, reason⟩)
    (h : ∀ y, y.criterion = c → q y →
      ∃ j, y.item = some j ∧ i ≤ j ∧ (j = i → y.reason = reason ∨ reason.rank < y.reason.rank)) :
    IsFirst (fun y => y.criterion = c ∧ q y) ⟨c, some i, reason⟩ where
  holds := ⟨rfl, hx⟩
  rank_lt y hy hne := by
    obtain ⟨j, hj, hij, hreason⟩ := h y hy.1 hy.2
    obtain ⟨_, _, other⟩ := y
    obtain ⟨rfl, -⟩ := hy
    obtain rfl := hj
    rcases Nat.lt_or_eq_of_le hij with hlt | rfl
    · exact rank_lt_of_item rfl (Nat.succ_lt_succ hlt)
    · obtain rfl | hlt := hreason rfl
      · exact absurd rfl hne
      · exact rank_lt_of_reason rfl rfl hlt

theorem value_of_item {before after : List Value} {w : Value} {reason : Reason}
    (h : (r.value c.field).items = before ++ w :: after) :
    (Violation.mk c (some before.length) reason).value r = w := by
  simp [value, h]

section List

variable {judge : Value → Except Failure String} {p : Value → Prop}
  {flaw : Reason → Value → Prop} {nonList : Reason}

/-- A value that is no list violates nothing else before that. -/
theorem isFirst_of_not_sequence {v : Value} (hs : v.sequence? = none) :
    IsFirst (fun y => y.criterion = c ∧ y.OfList nonList flaw v) ⟨c, none, nonList⟩ where
  holds := ⟨rfl, hs, rfl⟩
  rank_lt := by
    rintro ⟨_, item, reason⟩ ⟨rfl, hy⟩ hne
    cases item with
    | none =>
      obtain ⟨-, rfl⟩ := hy
      exact absurd rfl hne
    | some i => exact rank_lt_of_item rfl (Nat.succ_pos i)

/-- The first item that is not in order violates the list first. -/
theorem isFirst_of_sequence (h : Rule.ItemCheck judge c.field p flaw) {v w : Value}
    {before after : List Value} {reason : Reason} (hs : v.sequence? = some (before ++ w :: after))
    (hbefore : (Value.list before).IsCollection p)
    (hw : flaw reason w ∨ reason = .duplicateValue ∧ ∃ u ∈ before, u.same w = true)
    (hcount : ∀ other, flaw other w ∨ other = .duplicateValue →
      other = reason ∨ reason.rank < other.rank) :
    IsFirst (fun y => y.criterion = c ∧ y.OfList nonList flaw v)
      ⟨c, some before.length, reason⟩ := by
  have hitems := Value.items_of_sequence? hs
  refine .of_item ⟨w, by simp [hitems], by simpa [hitems] using hw⟩ fun y _ hy => ?_
  rw [OfList] at hy
  split at hy
  · rw [hs] at hy
    cases hy.1
  · rename_i j hj
    obtain ⟨u, hu, hflaw⟩ := hy
    rw [hitems] at hu hflaw
    refine ⟨j, hj, ?_, ?_⟩
    · -- The items before are a collection, with no violation among them.
      by_contra hlt
      rw [Nat.not_le] at hlt
      have hy : y.OfList nonList flaw (.list before) := by
        rw [OfList, hj]
        rw [List.getElem?_append_left hlt] at hu
        rw [List.take_append_of_le_length hlt.le] at hflaw
        exact ⟨u, hu, hflaw⟩
      exact hy.not_isCollection (fun _ _ hf => h.not_of_flaw hf) hbefore
    · rintro rfl
      obtain rfl : w = u := by simpa using hu
      exact hcount _ (hflaw.imp_right And.left)

/-- A list check tells the first violation of the list. -/
theorem exists_isFirst_of_texts_error (h : Rule.ItemCheck judge c.field p flaw)
    (he : Rule.texts judge nonList c.field (r.value c.field) = .error e) :
    ∃ x, IsFirst (fun y => y.criterion = c ∧ y.OfList nonList flaw (r.value c.field)) x ∧
      e = x.failure r := by
  rw [Rule.texts] at he
  cases hs : (r.value c.field).sequence? with
  | none =>
    rw [hs] at he
    exact ⟨_, isFirst_of_not_sequence hs, (Except.error.inj he).symm⟩
  | some vs =>
    rw [hs] at he
    obtain ⟨before, w, after, reason, rfl, hbefore, hw, rfl, hcount⟩ :=
      h.exists_of_distinct_error he
    refine ⟨_, isFirst_of_sequence h hs hbefore hw hcount, ?_⟩
    rw [failure, value_of_item (Value.items_of_sequence? hs)]

end List

/-- The match tells the first response type without its grant type. -/
theorem exists_isFirst_of_responseMatch_rejected {e : Rejection}
    (hp : Rule.responseTypes.Permits policy r.draft)
    (he : Rule.responseMatch policy r.draft = .error (.rejected e)) :
    ∃ x, IsFirst (fun y => y.criterion = .responseAndGrantMatch ∧ y.OfMatch policy r) x ∧
      .rejected e = x.failure r := by
  obtain hempty | hc := hp
  · have hempty : (r.value .responseTypes).isEmpty = true := hempty
    simp only [Rule.responseMatch, Record.draft, hempty, if_true] at he
    cases he
  · have helements := Value.elements?_eq_items hc.isSequence
    simp only [Rule.responseMatch, helements] at he
    split at he
    · cases he
    obtain ⟨before, w, after, hitems, hbefore, ⟨required, hrequired, he⟩ | ⟨_, -, he⟩⟩ :=
      Rule.exists_of_grantMatch_error he
    on_goal 2 => cases he
    obtain ⟨hg, hmissing⟩ := Rule.of_missingGrant?_eq_ok_some hrequired
    have hitems : (r.value .responseTypes).items = before ++ w :: after := hitems
    refine ⟨⟨.responseAndGrantMatch, some before.length, .grantResponseMismatch required⟩,
      IsFirst.of_item ?_ fun y _ hy => ?_, ?_⟩
    · exact ⟨before.length, w, required, rfl, rfl, by simp [hitems], hg, hmissing⟩
    · obtain ⟨j, u, other, hj, hreason, hu, hgu, ht, hnone⟩ := hy
      rw [hitems] at hu
      refine ⟨j, hj, ?_, ?_⟩
      · -- The items before have their grant types.
        by_contra hlt
        rw [List.getElem?_append_left (Nat.not_le.mp hlt)] at hu
        obtain ⟨s, hs, rfl⟩ := (hbefore u (List.mem_of_getElem? hu)).exists_of_isTruthy hgu ht
        exact hnone s hs rfl
      · rintro rfl
        obtain rfl : w = u := by simpa using hu
        obtain rfl : required = other := Except.ok.inj (hg.symm.trans hgu)
        exact .inl hreason
    · rw [failure, value_of_item hitems]
      exact he

end Violation

/-! ## Rules -/

/-- A failure tells the first violation of a criterion, if that can be told. -/
def Criterion.Tells (policy : Policy) (r : Record) (c : Criterion) (e : Failure) : Prop :=
  ∃ x, Violation.IsFirst (fun y => y.criterion = c ∧ y.Occurs policy r) x ∧ e = x.failure r

namespace Criterion

variable {policy : Policy} {r : Record} {c : Criterion} {e : Failure}

theorem Tells.of_iff {q : Violation → Prop}
    (hq : ∀ item reason, q ⟨c, item, reason⟩ ↔ Violation.Occurs policy r ⟨c, item, reason⟩)
    (h : ∃ x, Violation.IsFirst (fun y => y.criterion = c ∧ q y) x ∧ e = x.failure r) :
    c.Tells policy r e := by
  obtain ⟨x, hx, rfl⟩ := h
  refine ⟨x, hx.of_iff ?_, rfl⟩
  rintro ⟨c', item, reason⟩
  refine and_congr_right ?_
  rintro rfl
  exact hq item reason

/-- A field that is at fault as a whole has one violation. -/
theorem Tells.of_field {due : Reason}
    (hq : ∀ item reason, Violation.OfField due ⟨c, item, reason⟩ ↔
      Violation.Occurs policy r ⟨c, item, reason⟩) :
    c.Tells policy r (.refuse due c.field (r.value c.field)) := by
  refine .of_iff hq ⟨⟨c, none, due⟩, ⟨⟨rfl, rfl, rfl⟩, ?_⟩, rfl⟩
  rintro ⟨_, _, _⟩ ⟨rfl, rfl, rfl⟩ hne
  exact absurd rfl hne

/-- A list that is given, and so is checked, has the violations of lists. -/
theorem Tells.of_texts {judge : Value → Except Failure String} {p : Value → Prop}
    {flaw : Reason → Value → Prop} {nonList : Reason} {given : Prop}
    (hi : Rule.ItemCheck judge c.field p flaw)
    (hq : ∀ item reason, Violation.Occurs policy r ⟨c, item, reason⟩ ↔
      given ∧ Violation.OfList nonList flaw (r.value c.field) ⟨c, item, reason⟩)
    (h : given ∧ Rule.texts judge nonList c.field (r.value c.field) = .error e) :
    c.Tells policy r e :=
  .of_iff (fun item reason => ((hq item reason).trans (and_iff_right h.1)).symm)
    (Violation.exists_isFirst_of_texts_error hi h.2)

/-- Only output parameters have several criteria in one rule. -/
theorem rank_le_of_rule_eq {c' : Criterion} (h : c'.rule = c.rule)
    (hc : c.rule ≠ .outputParameters) : c.rank ≤ c'.rank :=
  (by decide : ∀ c ∈ all, ∀ c' ∈ all, c'.rule = c.rule → c.rule ≠ .outputParameters →
    c.rank ≤ c'.rank) c (mem_all c) c' (mem_all c') h hc

end Criterion

namespace Rule

variable {policy : Policy} {r : Record} {e : Failure}

theorem failureOf?_eq_some_iff {α : Type} {verdict : Except Failure α} :
    failureOf? verdict = some e ↔ verdict = .error e := by
  cases verdict <;> simp [failureOf?]

theorem failureOfList?_eq_some_iff {find : Value → Except Failure (List String)} {v : Value} :
    failureOfList? find v = some e ↔ v.isNull = false ∧ find v = .error e := by
  rw [failureOfList?]
  split <;> simp_all [failureOf?_eq_some_iff]

theorem scalar_eq_error {en : Enumerated} (h : scalar policy en r = .error e) :
    (r.value en.field).isEmpty = false ∧ policy.accepts en (r.value en.field) = false ∧
      e = .refuse .unsupportedValue en.field (r.value en.field) := by
  rw [scalar] at h
  split at h
  · cases h
  · rename_i hempty
    cases hc : policy.check en (r.value en.field) with
    | ok s => rw [hc] at h; cases h
    | error e' =>
      rw [hc] at h
      obtain rfl : e' = e := Except.error.inj h
      obtain ⟨_, ⟨rfl, hs⟩, rfl⟩ := (itemCheck_check policy en).flaw_of_error hc
      exact ⟨Bool.eq_false_iff.mpr hempty, hs, rfl⟩

theorem enumerated_eq_error {en : Enumerated} (h : enumerated policy en r = .error e) :
    (r.value en.field).isEmpty = false ∧
      texts (policy.check en) .unsupportedValue en.field (r.value en.field) = .error e := by
  rw [enumerated] at h
  split at h
  · cases h
  · rename_i hempty
    exact ⟨Bool.eq_false_iff.mpr hempty, h⟩

theorem unassignedTime_eq_error {f : Field} (h : unassignedTime f r = .error e) :
    (r.value f).isNull = false ∧ (r.value f).isZero = false ∧
      e = .refuse .outputParameterNotAllowed f (r.value f) := by
  rw [unassignedTime] at h
  split at h
  · cases h
  · rename_i hsent
    rw [Bool.or_eq_true, not_or, Bool.not_eq_true, Bool.not_eq_true] at hsent
    exact ⟨hsent.1, hsent.2, (Except.error.inj h).symm⟩

/-- Output parameters are looked at one after the other. -/
theorem outputs_eq_error (h : outputs r = .error e) :
    unassignedTime .clientIdIssuedAt r = .error e ∨
      unassignedTime .clientIdIssuedAt r = .ok () ∧
        (unassignedTime .clientSecretExpiresAt r = .error e ∨
          unassignedTime .clientSecretExpiresAt r = .ok () ∧
            (r.value .registrationClientUri).isEmpty = false ∧
              e = .refuse .outputParameterNotAllowed .registrationClientUri
                (r.value .registrationClientUri)) := by
  rw [outputs] at h
  cases hi : unassignedTime .clientIdIssuedAt r with
  | error _ =>
    rw [hi] at h
    exact .inl h
  | ok _ =>
    cases hs : unassignedTime .clientSecretExpiresAt r with
    | error _ =>
      rw [hi, hs] at h
      exact .inr ⟨rfl, .inl h⟩
    | ok _ =>
      rw [hi, hs] at h
      refine .inr ⟨rfl, .inr ⟨rfl, ?_⟩⟩
      simp only at h
      split at h
      · cases h
      · rename_i hempty
        exact ⟨Bool.eq_false_iff.mpr hempty, (Except.error.inj h).symm⟩

/-- A time that may be sent violates nothing. -/
theorem criterion_ne_of_unassignedTime {c : Criterion} {x : Violation}
    (hc : c = .clientIdIssuedAt ∨ c = .clientSecretExpiresAt)
    (h : unassignedTime c.field r = .ok ()) (hx : x.Occurs policy r) : x.criterion ≠ c := by
  obtain ⟨_, item, reason⟩ := x
  rintro rfl
  obtain rfl | rfl := hc <;>
  · obtain ⟨hn, hz, -⟩ := hx
    exact Violation.not_isNullOr hn (Bool.eq_false_iff.mp hz) (unassignedTime_eq_ok_iff.mp h)

theorem criterion_of_rule_eq_outputParameters {c : Criterion} (h : c.rule = .outputParameters) :
    c = .clientIdIssuedAt ∨ c = .clientSecretExpiresAt ∨ c = .registrationClientUri := by
  cases c <;> first | decide | cases h

theorem exists_tells_of_outputs (h : outputs r = .error e) :
    ∃ c : Criterion, c.rule = .outputParameters ∧ c.Tells policy r e ∧
      ∀ y : Violation, y.Occurs policy r → y.criterion.rule = .outputParameters →
        c.rank ≤ y.criterion.rank := by
  obtain hi | ⟨hi, hs | ⟨hs, hu, rfl⟩⟩ := outputs_eq_error h
  · obtain ⟨hn, hz, rfl⟩ := unassignedTime_eq_error hi
    refine ⟨.clientIdIssuedAt, rfl, .of_field fun _ _ => ?_, fun y _ hr => ?_⟩
    · exact ⟨fun hf => ⟨hn, hz, hf⟩, fun hf => hf.2.2⟩
    · obtain hc | hc | hc := criterion_of_rule_eq_outputParameters hr <;> rw [hc] <;> decide
  · obtain ⟨hn, hz, rfl⟩ := unassignedTime_eq_error hs
    refine ⟨.clientSecretExpiresAt, rfl, .of_field fun _ _ => ?_, fun y hy hr => ?_⟩
    · exact ⟨fun hf => ⟨hn, hz, hf⟩, fun hf => hf.2.2⟩
    · obtain hc | hc | hc := criterion_of_rule_eq_outputParameters hr
      · exact absurd hc (criterion_ne_of_unassignedTime (.inl rfl) hi hy)
      · rw [hc]
      · rw [hc]
        decide
  · refine ⟨.registrationClientUri, rfl, .of_field fun _ _ => ?_, fun y hy hr => ?_⟩
    · exact ⟨fun hf => ⟨hu, hf⟩, fun hf => hf.2⟩
    · obtain hc | hc | hc := criterion_of_rule_eq_outputParameters hr
      · exact absurd hc (criterion_ne_of_unassignedTime (.inl rfl) hi hy)
      · exact absurd hc (criterion_ne_of_unassignedTime (.inr rfl) hs hy)
      · rw [hc]

theorem tells_of_scalar {c : Criterion} {en : Enumerated} (hf : c.field = en.field)
    (hq : ∀ item reason, Violation.Occurs policy r ⟨c, item, reason⟩ ↔
      (r.value en.field).isEmpty = false ∧ policy.accepts en (r.value en.field) = false ∧
        Violation.OfField .unsupportedValue ⟨c, item, reason⟩)
    (h : scalar policy en r = .error e) : c.Tells policy r e := by
  obtain ⟨hempty, hs, rfl⟩ := scalar_eq_error h
  rw [← hf]
  exact .of_field fun item reason =>
    ⟨fun ho => (hq item reason).mpr ⟨hempty, hs, ho⟩, fun ho => ((hq item reason).mp ho).2.2⟩

/-- Of a rule on one criterion it is enough that its failure tells the first violation of that. -/
theorem exists_tells_of_tells {c : Criterion} (ht : c.Tells policy r e)
    (hc : c.rule ≠ .outputParameters) :
    ∃ c' : Criterion, c'.rule = c.rule ∧ c'.Tells policy r e ∧
      ∀ y : Violation, y.Occurs policy r → y.criterion.rule = c.rule →
        c'.rank ≤ y.criterion.rank :=
  ⟨c, rfl, ht, fun _ _ hr => Criterion.rank_le_of_rule_eq hr hc⟩

/-- The failure of a rule tells the first violation of one of its criteria, and no violation of
an earlier one occurs. Of the match only rejections do, when it meets response types in order. -/
theorem exists_tells_of_objection {rule : Rule} (h : rule.objection? policy r.draft = some e)
    (hp : rule = .responseAndGrantMatch →
      responseTypes.Permits policy r.draft ∧ ∃ e', e = .rejected e') :
    ∃ c : Criterion, c.rule = rule ∧ c.Tells policy r e ∧
      ∀ y : Violation, y.Occurs policy r → y.criterion.rule = rule →
        c.rank ≤ y.criterion.rank := by
  rw [objection?_eq] at h
  cases rule with
  | applicationType =>
    have he := failureOf?_eq_some_iff.mp h
    have ht : Criterion.applicationType.Tells policy r e :=
      tells_of_scalar rfl (fun _ _ => Iff.rfl) he
    exact exists_tells_of_tells ht nofun
  | subjectType =>
    have he := failureOf?_eq_some_iff.mp h
    have ht : Criterion.subjectType.Tells policy r e :=
      tells_of_scalar rfl (fun _ _ => Iff.rfl) he
    exact exists_tells_of_tells ht nofun
  | tokenEndpointAuthMethod =>
    have he := failureOf?_eq_some_iff.mp h
    have ht : Criterion.tokenEndpointAuthMethod.Tells policy r e :=
      tells_of_scalar rfl (fun _ _ => Iff.rfl) he
    exact exists_tells_of_tells ht nofun
  | responseTypes =>
    have he := enumerated_eq_error (failureOf?_eq_some_iff.mp h)
    have ht : Criterion.responseTypes.Tells policy r e :=
      .of_texts (itemCheck_check policy .responseTypes) (fun _ _ => Iff.rfl) he
    exact exists_tells_of_tells ht nofun
  | grantTypes =>
    have he := enumerated_eq_error (failureOf?_eq_some_iff.mp h)
    have ht : Criterion.grantTypes.Tells policy r e :=
      .of_texts (itemCheck_check policy .grantTypes) (fun _ _ => Iff.rfl) he
    exact exists_tells_of_tells ht nofun
  | responseAndGrantMatch =>
    obtain ⟨hpermits, e', rfl⟩ := hp rfl
    have hfirst := Violation.exists_isFirst_of_responseMatch_rejected hpermits
      (failureOf?_eq_some_iff.mp h)
    have ht : Criterion.responseAndGrantMatch.Tells policy r (.rejected e') :=
      .of_iff (q := (·.OfMatch policy r)) (fun _ _ => Iff.rfl) hfirst
    exact exists_tells_of_tells ht nofun
  | redirectUris =>
    have he := failureOfList?_eq_some_iff.mp h
    have ht : Criterion.redirectUris.Tells policy r e :=
      .of_texts (itemCheck_uri .redirectUris _) (fun _ _ => Iff.rfl) he
    exact exists_tells_of_tells ht nofun
  | postLogoutRedirectUris =>
    have he := failureOfList?_eq_some_iff.mp h
    have ht : Criterion.postLogoutRedirectUris.Tells policy r e :=
      .of_texts (itemCheck_uri .postLogoutRedirectUris _) (fun _ _ => Iff.rfl) he
    exact exists_tells_of_tells ht nofun
  | trustedUriPrefixes =>
    have he := failureOfList?_eq_some_iff.mp h
    have ht : Criterion.trustedUriPrefixes.Tells policy r e :=
      .of_texts (itemCheck_uri .trustedUriPrefixes _) (fun _ _ => Iff.rfl) he
    exact exists_tells_of_tells ht nofun
  | functionalUserGroupIds =>
    have he := failureOfList?_eq_some_iff.mp h
    have ht : Criterion.functionalUserGroupIds.Tells policy r e :=
      .of_texts (itemCheck_identifier .functionalUserGroupIds) (fun _ _ => Iff.rfl) he
    exact exists_tells_of_tells ht nofun
  | outputParameters => exact exists_tells_of_outputs (failureOf?_eq_some_iff.mp h)
  | scope | preauthorizedScope => cases h

end Rule

end Registration
