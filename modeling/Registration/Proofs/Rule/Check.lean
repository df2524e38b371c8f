import Registration.Proofs.Uri.Parse
import Registration.Proofs.Value.Items
import Registration.Rule.Basic

/-!
# When checks succeed

Each check succeeds exactly on the values of a language that is said without
it, and what it gives are the texts of the value:

* `Judges`: an item check accepts the texts that satisfy a condition;
* `IsReference`: what the check of a URI accepts;
* `IsEmptyOr`, `IsNullOr`: the two ways in which a field may be omitted;
* `distinct_cons_eq_ok_iff`, `distinct_eq_ok_iff`: one item of a list, and by
  induction all of them;
* `scalar_eq_ok_iff` … `identifiers_eq_ok_iff`: the checks of one field;
* `terminatedPrefixes_eq`: the prefixes that are settled have an end that can be
  looked at;
* `responseMatch_eq_ok_iff`: the check of response types with grant types.
-/

namespace Registration.Rule

/-- An item check accepts the texts that satisfy a condition, and gives the text. -/
def Judges (judge : Value → Except Failure String) (p : Value → Prop) : Prop :=
  ∀ v s, judge v = .ok s ↔ v = .str s ∧ p v

/-- A text that reads as a URI reference, with a scheme where it has to be `absolute`. -/
def IsReference (absolute : Bool) (v : Value) : Prop :=
  ∃ u, Uri.ofValue v = .ok u ∧ (absolute = true → u.scheme.getD "" ≠ "")

/-- A field that may be empty, of any kind. -/
def IsEmptyOr (p : Value → Prop) (v : Value) : Prop :=
  v.isEmpty = true ∨ p v

/-- A field that may be absent or null. -/
def IsNullOr (p : Value → Prop) (v : Value) : Prop :=
  v.isNull = true ∨ p v

/-! ## Results -/

theorem map_eq_ok_iff {α β : Type} {verdict : Except Failure α} {g : α → β} {b : β} :
    verdict.map g = .ok b ↔ ∃ a, verdict = .ok a ∧ g a = b := by
  cases verdict <;> simp [Except.map]

theorem map_eq_error_iff {α β : Type} {verdict : Except Failure α} {g : α → β} {e : Failure} :
    verdict.map g = .error e ↔ verdict = .error e := by
  cases verdict <;> simp [Except.map]

/-! ## Items -/

theorem judges_check (policy : Policy) (e : Enumerated) :
    Judges (policy.check e) fun v => policy.accepts e v = true := by
  intro v s
  simp only [Policy.accepts]
  cases v with
  | str t =>
    simp only [Policy.check]
    split
    · simp [Except.isOk, Except.toBool]
    · split <;> simp [Except.isOk, Except.toBool]
  | _ => simp [Policy.check]

theorem judges_uri (f : Field) (absolute : Bool) :
    Judges (uri f absolute) (IsReference absolute) := by
  intro v s
  cases v with
  | str t =>
    simp only [uri, IsReference, Uri.ofValue]
    cases hu : Uri.parse t with
    | error e => simp
    | ok u =>
      have hs : u.scheme.isNone = true ↔ u.scheme.getD "" = "" := by
        cases ht : u.scheme with
        | none => simp
        | some scheme => simpa using Uri.scheme_ne_empty_of_parse hu ht
      cases absolute with
      | false => simp
      | true => by_cases hn : u.scheme.isNone = true <;> simp [hn, ← hs]
  | _ => simp [uri, IsReference, Uri.ofValue]

theorem judges_identifier (f : Field) :
    Judges (identifier f) fun v => v.text?.isSome = true := by
  intro v s
  cases v <;> simp [identifier, Value.text?]

theorem Judges.map_unit_eq_ok_iff {judge : Value → Except Failure String} {p : Value → Prop}
    (hj : Judges judge p) (hp : ∀ w, p w → w.text?.isSome) {v : Value} :
    (judge v).map (fun _ => ()) = .ok () ↔ p v := by
  constructor
  · intro h
    cases hv : judge v with
    | ok s => exact ((hj v s).mp hv).2
    | error e => rw [hv] at h; cases h
  · intro h
    obtain ⟨s, hs⟩ := Option.isSome_iff_exists.mp (hp v h)
    rw [(hj v s).mpr ⟨Value.eq_str_of_text? hs, h⟩]
    rfl

/-! ## Lists -/

/-- A text may be a key, so it is remembered unless it is known. -/
theorem remember_str_eq_ok_iff {f : Field} {seen seen' : List Value} {s : String} :
    remember f seen (.str s) = .ok seen' ↔
      (∀ w ∈ seen, w.same (.str s) = false) ∧ seen' = .str s :: seen := by
  rw [remember, if_neg (by simp [Value.isHashable])]
  split
  · rename_i h
    obtain ⟨w, hw, hsame⟩ := List.any_eq_true.mp h
    refine iff_of_false nofun fun hnew => ?_
    rw [hnew.1 w hw] at hsame
    cases hsame
  · rename_i h
    have hnew : ∀ w ∈ seen, w.same (.str s) = false := by simpa using h
    rw [and_iff_right hnew, Except.ok.injEq, eq_comm]

/-- A text that is known is refused. -/
theorem remember_str_eq_error {f : Field} {seen : List Value} {s : String} {e : Failure}
    (h : remember f seen (.str s) = .error e) :
    (∃ w ∈ seen, w.same (.str s) = true) ∧ e = .refuse .duplicateValue f (.str s) := by
  rw [remember, if_neg (by simp [Value.isHashable])] at h
  split at h
  · rename_i hknown
    exact ⟨List.any_eq_true.mp hknown, (Except.error.inj h).symm⟩
  · cases h

section distinct

variable {judge : Value → Except Failure String} {p : Value → Prop} {f : Field}

/-- One item of a list that is walked through. -/
theorem distinct_cons_eq_ok_iff (hj : Judges judge p) {seen : List Value} {v : Value}
    {vs : List Value} {ss : List String} :
    distinct judge f seen (v :: vs) = .ok ss ↔
      ∃ s rest, ss = s :: rest ∧ v = .str s ∧ p v ∧ (∀ w ∈ seen, w.same v = false) ∧
        distinct judge f (v :: seen) vs = .ok rest := by
  rw [distinct]
  constructor
  · intro h
    split at h
    · cases h
    · rename_i s hs
      obtain ⟨rfl, hp⟩ := (hj v s).mp hs
      split at h
      · cases h
      · rename_i seen' hseen
        obtain ⟨hnew, rfl⟩ := remember_str_eq_ok_iff.mp hseen
        obtain ⟨rest, hrest, rfl⟩ := map_eq_ok_iff.mp h
        exact ⟨s, rest, rfl, rfl, hp, hnew, hrest⟩
  · rintro ⟨s, rest, rfl, rfl, hp, hnew, hrest⟩
    simp only [(hj _ s).mpr ⟨rfl, hp⟩, remember_str_eq_ok_iff.mpr ⟨hnew, rfl⟩, hrest]
    rfl

/-- By induction on the list. What has been seen at an item is what stands in front of it. -/
theorem distinct_eq_ok_iff (hj : Judges judge p) {seen vs : List Value} {ss : List String} :
    distinct judge f seen vs = .ok ss ↔
      vs = ss.map .str ∧ (∀ v ∈ vs, p v) ∧ vs.Pairwise (fun a b => a.same b = false) ∧
        ∀ w ∈ seen, ∀ v ∈ vs, w.same v = false := by
  induction vs generalizing seen ss with
  | nil => cases ss <;> simp [distinct]
  | cons v vs ih =>
    rw [distinct_cons_eq_ok_iff hj]
    constructor
    · rintro ⟨s, rest, rfl, rfl, hp, hnew, hrest⟩
      obtain ⟨rfl, hall, hpairs, hseen⟩ := ih.mp hrest
      refine ⟨rfl, List.forall_mem_cons.mpr ⟨hp, hall⟩,
        List.pairwise_cons.mpr ⟨hseen _ List.mem_cons_self, hpairs⟩, fun w hw => ?_⟩
      exact List.forall_mem_cons.mpr ⟨hnew w hw, hseen w (List.mem_cons_of_mem _ hw)⟩
    · rintro ⟨hvs, hall, hpairs, hseen⟩
      obtain ⟨s, rest, rfl⟩ : ∃ s rest, ss = s :: rest := by
        cases ss with
        | nil => cases hvs
        | cons s rest => exact ⟨s, rest, rfl⟩
      obtain ⟨hv, hvs⟩ := List.cons.inj hvs
      obtain ⟨hp, hall⟩ := List.forall_mem_cons.mp hall
      obtain ⟨hfirst, hpairs⟩ := List.pairwise_cons.mp hpairs
      refine ⟨s, rest, rfl, hv, hp, fun w hw => hseen w hw v List.mem_cons_self, ?_⟩
      exact ih.mpr ⟨hvs, hall, hpairs, List.forall_mem_cons.mpr
        ⟨hfirst, fun w hw u hu => hseen w hw u (List.mem_cons_of_mem _ hu)⟩⟩

/-- A list check accepts the collections of what its item check accepts. -/
theorem texts_eq_ok_iff (hj : Judges judge p) (hp : ∀ w, p w → w.text?.isSome) {nonList : Reason}
    {v : Value} {ss : List String} :
    texts judge nonList f v = .ok ss ↔ v.IsCollection p ∧ ss = v.texts := by
  rw [texts]
  cases hv : v.sequence? with
  | none =>
    refine iff_of_false nofun fun h => ?_
    have hsequence := h.1.isSequence
    rw [hv] at hsequence
    cases hsequence
  | some vs =>
    obtain rfl := Value.items_of_sequence? hv
    simp only [distinct_eq_ok_iff hj, List.not_mem_nil, false_implies, implies_true, and_true]
    constructor
    · rintro ⟨hitems, hall, hpairs⟩
      refine ⟨⟨by rw [hv]; rfl, hpairs, hall⟩, ?_⟩
      rw [Value.texts, hitems, Value.filterMap_text?_map_str]
    · rintro ⟨h, rfl⟩
      exact ⟨h.items_eq_map_texts hp, h.all, h.distinct⟩

end distinct

/-! ## Fields -/

theorem text?_isSome_of_accepts {policy : Policy} {e : Enumerated} {v : Value}
    (h : policy.accepts e v = true) : v.text?.isSome := by
  obtain ⟨s, hs⟩ : ∃ s, policy.check e v = .ok s := by
    rw [Policy.accepts] at h
    cases hc : policy.check e v with
    | ok s => exact ⟨s, rfl⟩
    | error e => rw [hc] at h; cases h
  obtain ⟨rfl, -⟩ := (judges_check policy e v s).mp hs
  rfl

theorem IsReference.text?_isSome {absolute : Bool} {v : Value} (h : IsReference absolute v) :
    v.text?.isSome := by
  obtain ⟨u, hu, -⟩ := h
  obtain ⟨s, rfl, -⟩ := Uri.ofValue_eq_ok_iff.mp hu
  rfl

theorem scalar_congr {policy : Policy} {e : Enumerated} {r r' : Record}
    (h : r.value e.field = r'.value e.field) : scalar policy e r = scalar policy e r' := by
  rw [scalar, scalar, h]

theorem enumerated_congr {policy : Policy} {e : Enumerated} {r r' : Record}
    (h : r.value e.field = r'.value e.field) : enumerated policy e r = enumerated policy e r' := by
  rw [enumerated, enumerated, h]

theorem scalar_eq_ok_iff {policy : Policy} {e : Enumerated} {r : Record} :
    scalar policy e r = .ok () ↔ IsEmptyOr (policy.accepts e · = true) (r.value e.field) := by
  rw [scalar, IsEmptyOr]
  split
  · rename_i h
    exact iff_of_true rfl (.inl h)
  · rename_i h
    rw [(judges_check policy e).map_unit_eq_ok_iff fun _ => text?_isSome_of_accepts,
      or_iff_right h]

theorem enumerated_eq_ok_iff {policy : Policy} {e : Enumerated} {r : Record} {ss : List String} :
    enumerated policy e r = .ok ss ↔
      IsEmptyOr (Value.IsCollection (policy.accepts e · = true)) (r.value e.field) ∧
        ss = (r.value e.field).texts := by
  rw [enumerated, IsEmptyOr]
  split
  · rename_i h
    rw [Value.texts_of_items_eq_nil (Value.items_of_isEmpty h), Except.ok.injEq, eq_comm]
    exact (and_iff_right (.inl h)).symm
  · rename_i h
    rw [texts_eq_ok_iff (judges_check policy e) fun _ => text?_isSome_of_accepts, or_iff_right h]

theorem uris_eq_ok_iff {f : Field} {absolute : Bool} {v : Value} {ss : List String} :
    uris f absolute v = .ok ss ↔ v.IsCollection (IsReference absolute) ∧ ss = v.texts :=
  texts_eq_ok_iff (judges_uri f absolute) fun _ => IsReference.text?_isSome

theorem identifiers_eq_ok_iff {f : Field} {v : Value} {ss : List String} :
    identifiers f v = .ok ss ↔
      v.IsCollection (fun w => w.text?.isSome = true) ∧ ss = v.texts :=
  texts_eq_ok_iff (judges_identifier f) fun _ h => h

theorem slashTerminated_map_str (ss : List String) :
    slashTerminated (ss.map .str) = .ok (ss.map fun s => .str (Uri.withFinalSlash s)) := by
  induction ss with
  | nil => rfl
  | cons s ss ih =>
    rw [List.map_cons, slashTerminated, ih]
    rfl

/-- A field found in order can be walked through once more, and holds texts only. -/
theorem terminatedPrefixes_eq (r : Record) (v : Value) :
    terminatedPrefixes r v =
      (uris .trustedUriPrefixes true v).map fun ss =>
        r.put .trustedUriPrefixes (.list (ss.map fun s => .str (Uri.withFinalSlash s))) := by
  rw [terminatedPrefixes]
  cases hu : uris .trustedUriPrefixes true v with
  | error e => rfl
  | ok ss =>
    obtain ⟨hc, rfl⟩ := uris_eq_ok_iff.mp hu
    have helements : v.elements? = some (v.texts.map .str) := by
      rw [Value.elements?_eq_items hc.isSequence,
        hc.items_eq_map_texts fun _ => IsReference.text?_isSome]
    simp only [helements, slashTerminated_map_str]
    rfl

/-- A time that the server assigns must not be sent, unless as zero. -/
theorem unassignedTime_eq_ok_iff {f : Field} {r : Record} :
    unassignedTime f r = .ok () ↔ IsNullOr (·.isZero = true) (r.value f) := by
  rw [unassignedTime, IsNullOr]
  split <;> simp_all

theorem outputs_eq_ok_iff {r : Record} :
    outputs r = .ok () ↔
      IsNullOr (·.isZero = true) (r.value .clientIdIssuedAt) ∧
        IsNullOr (·.isZero = true) (r.value .clientSecretExpiresAt) ∧
        (r.value .registrationClientUri).isEmpty = true := by
  rw [outputs, ← unassignedTime_eq_ok_iff, ← unassignedTime_eq_ok_iff]
  split
  · simp_all
  · simp_all
  · rename_i h₁ h₂
    have ok₁ : unassignedTime .clientIdIssuedAt r = .ok () := by
      cases h : unassignedTime .clientIdIssuedAt r with
      | ok => rfl
      | error e => exact (h₁ e h).elim
    have ok₂ : unassignedTime .clientSecretExpiresAt r = .ok () := by
      cases h : unassignedTime .clientSecretExpiresAt r with
      | ok => rfl
      | error e => exact (h₂ e h).elim
    split <;> simp_all

/-! ## Response types with grant types -/

/-- The grant type that goes with a response type is known, and given if there is any. -/
def HasGrant (policy : Policy) (grants : List String) (v : Value) : Prop :=
  ∃ required, policy.grantTypeFor v = .ok required ∧
    (required.isTruthy = true → ∃ s ∈ grants, required = .str s)

theorem HasGrant.exists_of_isTruthy {policy : Policy} {grants : List String} {v required : Value}
    (h : HasGrant policy grants v) (hr : policy.grantTypeFor v = .ok required)
    (ht : required.isTruthy = true) : ∃ s ∈ grants, required = .str s := by
  obtain ⟨required', hr', hs⟩ := h
  obtain rfl : required = required' := Except.ok.inj (hr.symm.trans hr')
  exact hs ht

theorem isMissing_eq_ok_false_iff {grants : List String} {required : Value} :
    isMissing grants required = .ok false ↔
      (required.isTruthy = true → ∃ s ∈ grants, required = .str s) := by
  cases required with
  | str s =>
    by_cases h : s.isEmpty = true <;>
      simp [isMissing, Value.isTruthy, Value.isEmpty, Value.isZero, h]
  | set items => simp [isMissing, Value.isTruthy, Value.isEmpty, Value.isZero]
  | _ =>
    rw [isMissing]
    · split <;> simp_all
    all_goals
      intro _ h
      cases h

theorem missingGrant?_eq_ok_none_iff {policy : Policy} {grants : List String} {v : Value} :
    missingGrant? policy grants v = .ok none ↔ HasGrant policy grants v := by
  simp only [missingGrant?, HasGrant, ← isMissing_eq_ok_false_iff]
  cases policy.grantTypeFor v with
  | error e => simp
  | ok required =>
    cases hm : isMissing grants required with
    | error e => simp [hm, Except.map]
    | ok missing => cases missing <;> simp [hm, Except.map]

theorem grantMatch_eq_ok_iff {policy : Policy} {grants : List String} {vs : List Value} :
    grantMatch policy grants vs = .ok () ↔ ∀ v ∈ vs, HasGrant policy grants v := by
  induction vs with
  | nil => simp [grantMatch]
  | cons v vs ih =>
    simp only [grantMatch, List.mem_cons, forall_eq_or_imp, ← missingGrant?_eq_ok_none_iff]
    cases hm : missingGrant? policy grants v with
    | error e => simp
    | ok missing =>
      cases missing with
      | some required => simp
      | none => simp [ih, missingGrant?_eq_ok_none_iff]

theorem responseMatch_eq_ok_iff {policy : Policy} {d : Draft} :
    responseMatch policy d = .ok () ↔
      IsEmptyOr (fun v => ∃ vs, v.elements? = some vs ∧ ∀ w ∈ vs, HasGrant policy d.grants w)
        (d.record.value .responseTypes) := by
  simp only [responseMatch, IsEmptyOr]
  split
  · simp_all
  · rename_i h
    cases he : (d.record.value .responseTypes).elements? with
    | none => simp [h]
    | some vs => simp [h, grantMatch_eq_ok_iff]

end Registration.Rule
