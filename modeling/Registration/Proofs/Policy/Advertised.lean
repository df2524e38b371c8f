import Mathlib.Tactic.Choose
import Registration.Policy.Build
import Registration.Proofs.Rule.Check

/-!
# What servers advertise

The values of a catalogue of texts, as far as a server advertises them:

* `Catalogue.ofTexts`: such a catalogue;
* `States`, `Silent`, `Withholds`: what a server says of a field;
* `accepts_str_iff`: what a policy accepts, whatever compares texts with options;
* `select_ofTexts`, `narrow_ofTexts`: the advertised texts of a list are a part
  of it;
* `Takes`, `takes_of_silent`, `takes_of_states`: the values that a field is given,
  or keeps if it is given none;
* `ofServerMetadata_eq_ok_iff`: every field of a policy is narrowed on its own;
* `accepts_iff_not_withholds`: the texts of the catalogue that stay accepted;
* `check_of_ofServerMetadata`: what the narrowed policies accept, and when there
  is one.
-/

namespace Registration

/-- The catalogue with the given texts for every field. -/
def Catalogue.ofTexts (names : Enumerated → List String) (requirements : Value)
    (optionCheck : OptionCheck) : Catalogue :=
  ⟨fun e => .ofTexts (names e), requirements, optionCheck⟩

/-- The texts among the values for a field. -/
def Policy.supportedTexts (policy : Policy) (e : Enumerated) : List String :=
  (policy.supported e).filterMap Value.text?

theorem Catalogue.stock_eq_ofTexts :
    stock = ofTexts Policy.stock.supportedTexts stock.requirements stock.optionCheck := by
  rw [ofTexts, stock]
  congr 1
  funext e
  cases e <;> rfl

namespace Policy

/-- A server gives a list of texts under the key of a field. -/
def States (metadata : Entries) (e : Enumerated) (ss : List String) : Prop :=
  ∃ name ∈ advertisedName? e, metadata.lookup name = some (.ofTexts ss)

/-- A server says nothing of a field: its key is absent or null, or it has no key. -/
def Silent (metadata : Entries) (e : Enumerated) : Prop :=
  ∀ name ∈ advertisedName? e, (metadata.lookup name).getD .null = .null

/-- A server gives texts under the key of a field, but not this one. -/
def Withholds (metadata : Entries) (e : Enumerated) (s : String) : Prop :=
  ∃ ss, States metadata e ss ∧ ss ≠ [] ∧ s ∉ ss

theorem States.unique {metadata : Entries} {e : Enumerated} {ss ss' : List String}
    (h : States metadata e ss) (h' : States metadata e ss') : ss = ss' := by
  obtain ⟨name, hname, hl⟩ := h
  obtain ⟨name', hname', hl'⟩ := h'
  obtain rfl := Option.mem_unique hname hname'
  rw [hl, Option.some.injEq, Value.ofTexts, Value.ofTexts, Value.list.injEq] at hl'
  rw [← Value.filterMap_text?_map_str ss, hl', Value.filterMap_text?_map_str]

theorem States.not_silent {metadata : Entries} {e : Enumerated} {ss : List String}
    (h : States metadata e ss) : ¬ Silent metadata e := by
  obtain ⟨name, hname, hl⟩ := h
  intro hs
  have hnull := hs name hname
  rw [hl] at hnull
  cases hnull

/-! ## Options -/

/-- An option that supports a text has values, so the texts that pass are among them. -/
theorem accepts_str_iff {policy : Policy} {e : Enumerated} {s : String} :
    policy.accepts e (.str s) = true ↔ s ≠ "" ∧ .str s ∈ policy.supported e := by
  rw [accepts, check]
  split
  · rename_i hempty
    rw [List.isEmpty_iff.mp hempty]
    simp [Except.isOk, Except.toBool]
  · rename_i hvalues
    have hvs : policy.supported e ≠ [] := mt List.isEmpty_iff.mpr hvalues
    by_cases hs : s = ""
    · subst hs
      simp [policy.optionCheck.passes_empty, Except.isOk, Except.toBool]
    · rw [← policy.optionCheck.passes_iff hvs hs, and_iff_right hs]
      split <;> simp_all [Except.isOk, Except.toBool]

/-- Where nothing is supported, any text would pass, and the policy still accepts none. -/
theorem passes_of_no_values {policy : Policy} {e : Enumerated} {s : String}
    (h : policy.supported e = []) (hs : s ≠ "") :
    policy.optionCheck.passes (policy.supported e) s = true ∧
      policy.accepts e (.str s) = false := by
  rw [← Bool.not_eq_true, accepts_str_iff, h]
  exact ⟨policy.optionCheck.passes_of_no_values hs, fun ha => List.not_mem_nil ha.2⟩

/-! ## Parts of a list -/

theorem advertises_ofTexts (ss : List String) (s : String) :
    advertises (.ofTexts ss) (.str s) = .ok (decide (s ∈ ss)) := by
  rw [Value.ofTexts, advertises, List.any_map, Except.ok.injEq, Bool.eq_iff_iff]
  simp [Value.same_str]

/-- By induction on the list: its order is kept. -/
theorem select_ofTexts (ss names : List String) :
    select (.ofTexts ss) (names.map .str) = .ok ((names.filter (· ∈ ss)).map .str) := by
  induction names with
  | nil => rfl
  | cons s names ih =>
    rw [List.map_cons, select, advertises_ofTexts, ih, List.filter_cons]
    by_cases hs : s ∈ ss <;> simp [hs]

theorem narrow_ofTexts {ss : List String} (h : ss ≠ []) (names : List String) :
    narrow (.ofTexts names) (.ofTexts ss) = .ok (.ofTexts (names.filter (· ∈ ss))) := by
  have htruthy : (Value.ofTexts ss).isTruthy = true := by
    cases ss with
    | nil => exact absurd rfl h
    | cons s ss => rfl
  rw [narrow, if_pos htruthy]
  simp only [Value.ofTexts, Value.elements?]
  rw [← Value.ofTexts, select_ofTexts]
  rfl

/-! ## Fields -/

section

variable {names : Enumerated → List String} {requirements : Value} {optionCheck : OptionCheck}
  {metadata : Entries} {e : Enumerated} {ss : List String}

/-- The values of a field when it is given some, or `null`. -/
def valuesGiven (c : Catalogue) (e : Enumerated) (given : Value) : Value :=
  if given.isNull then c.values e else given

/-- The values that a field has after the server's are given to it. -/
def Takes (c : Catalogue) (metadata : Entries) (e : Enumerated) (v : Value) : Prop :=
  ∃ given, narrowed c metadata e = .ok given ∧ valuesGiven c e given = v

theorem narrowed_eq_narrow {name : String} (h : name ∈ advertisedName? e) (c : Catalogue)
    (metadata : Entries) :
    narrowed c metadata e = narrow (c.values e) ((metadata.lookup name).getD .null) := by
  rw [narrowed, Option.mem_def.mp h]

theorem takes_of_silent (h : Silent metadata e) (c : Catalogue) :
    Takes c metadata e (c.values e) := by
  refine ⟨.null, ?_, rfl⟩
  cases ha : advertisedName? e with
  | none => rw [narrowed, ha]
  | some name =>
    rw [narrowed_eq_narrow ha, h name ha]
    rfl

/-- An empty list says as much as no list. -/
theorem takes_of_states (h : States metadata e ss) :
    Takes (.ofTexts names requirements optionCheck) metadata e
      (.ofTexts ((names e).filter fun s => ss = [] ∨ s ∈ ss)) := by
  obtain ⟨name, hname, hl⟩ := h
  rw [Takes, narrowed_eq_narrow hname, hl, Option.getD_some, Catalogue.ofTexts]
  by_cases hs : ss = []
  · subst hs
    refine ⟨.null, rfl, ?_⟩
    rw [List.filter_eq_self.mpr fun _ _ => by simp]
    rfl
  · refine ⟨_, narrow_ofTexts hs _, ?_⟩
    simp only [hs, false_or]
    rfl

/-! ## Policies -/

theorem ofValues_eq_ok_iff {c : Catalogue} {values : Enumerated → Value} {policy : Policy} :
    ofValues c values = .ok policy ↔
      (policy.requirements = c.requirements ∧ policy.optionCheck = c.optionCheck) ∧
        ∀ e, (values e).elements? = some (policy.supported e) := by
  rw [ofValues]
  split
  · rename_i h
    have hsome (e : Enumerated) : (values e).elements? = some ((values e).elements?.getD []) := by
      obtain ⟨vs, hv⟩ := Option.isSome_iff_exists.mp (List.all_eq_true.mp h e e.mem_all)
      rw [hv, Option.getD_some]
    rw [Except.ok.injEq]
    constructor
    · rintro rfl
      exact ⟨⟨rfl, rfl⟩, hsome⟩
    · rintro ⟨⟨hr, ho⟩, hs⟩
      obtain ⟨supported, requirements, optionCheck⟩ := policy
      obtain rfl : requirements = _ := hr
      obtain rfl : optionCheck = _ := ho
      congr 1
      funext e
      exact Option.some.inj ((hsome e).symm.trans (hs e))
  · rename_i h
    refine iff_of_false nofun fun hs => h (List.all_eq_true.mpr fun e _ => ?_)
    rw [hs.2 e, Option.isSome_some]

theorem exists_of_bind_eq_ok {α β : Type} {x : Except Fault α} {f : α → Except Fault β} {b : β}
    (h : x >>= f = .ok b) : ∃ a, x = .ok a ∧ f a = .ok b := by
  cases x with
  | error e => cases h
  | ok a => exact ⟨a, rfl, h⟩

/-- Each field of a policy takes its values on its own. -/
theorem ofServerMetadata_eq_ok_iff {c : Catalogue} {policy : Policy} :
    ofServerMetadata c (.map metadata) = .ok policy ↔
      (policy.requirements = c.requirements ∧ policy.optionCheck = c.optionCheck) ∧
        ∀ e, ∃ v, Takes c metadata e v ∧ v.elements? = some (policy.supported e) := by
  constructor
  · intro h
    obtain ⟨applicationTypes, hApplication, h⟩ := exists_of_bind_eq_ok h
    obtain ⟨responseTypes, hResponse, h⟩ := exists_of_bind_eq_ok h
    obtain ⟨grantTypes, hGrant, h⟩ := exists_of_bind_eq_ok h
    obtain ⟨subjectTypes, hSubject, h⟩ := exists_of_bind_eq_ok h
    obtain ⟨authMethods, hAuth, h⟩ := exists_of_bind_eq_ok h
    obtain ⟨hc, hs⟩ := ofValues_eq_ok_iff.mp h
    refine ⟨hc, fun e => ?_⟩
    cases e with
    | applicationType => exact ⟨_, ⟨_, hApplication, rfl⟩, hs .applicationType⟩
    | responseTypes => exact ⟨_, ⟨_, hResponse, rfl⟩, hs .responseTypes⟩
    | grantTypes => exact ⟨_, ⟨_, hGrant, rfl⟩, hs .grantTypes⟩
    | subjectType => exact ⟨_, ⟨_, hSubject, rfl⟩, hs .subjectType⟩
    | tokenEndpointAuthMethod => exact ⟨_, ⟨_, hAuth, rfl⟩, hs .tokenEndpointAuthMethod⟩
  · rintro ⟨hc, hs⟩
    choose values hv he using hs
    choose given hgiven htaken using hv
    simp only [ofServerMetadata, hgiven]
    refine ofValues_eq_ok_iff.mpr ⟨hc, fun e => ?_⟩
    rw [← he e, ← htaken e]
    cases e <;> rfl

/-- A check accepts the texts that are supported, other than the empty one. -/
theorem check_eq_ok_iff {policy : Policy} (h : policy.supported e = ss.map .str) {v : Value}
    {s : String} : policy.check e v = .ok s ↔ v = .str s ∧ s ≠ "" ∧ s ∈ ss := by
  rw [Rule.judges_check]
  refine and_congr_right ?_
  rintro rfl
  simp [accepts_str_iff, h]

theorem check_of_takes {c : Catalogue} {policy : Policy}
    (h : ofServerMetadata c (.map metadata) = .ok policy)
    (ht : Takes c metadata e (.ofTexts ss)) {v : Value} {s : String} :
    policy.check e v = .ok s ↔ v = .str s ∧ s ≠ "" ∧ s ∈ ss := by
  obtain ⟨w, ⟨given, hgiven, rfl⟩, hs⟩ := (ofServerMetadata_eq_ok_iff.mp h).2 e
  obtain ⟨given', hgiven', htaken⟩ := ht
  obtain rfl : given = given' := Except.ok.inj (hgiven.symm.trans hgiven')
  rw [htaken] at hs
  exact check_eq_ok_iff (Option.some.inj hs).symm

theorem accepts_of_takes {c : Catalogue} {policy : Policy}
    (h : ofServerMetadata c (.map metadata) = .ok policy)
    (ht : Takes c metadata e (.ofTexts ss)) {s : String} :
    policy.accepts e (.str s) = true ↔ s ≠ "" ∧ s ∈ ss := by
  have hcheck : policy.check e (.str s) = .ok s ↔ policy.accepts e (.str s) = true :=
    (Rule.judges_check policy e _ s).trans (and_iff_right rfl)
  rw [← hcheck, check_of_takes h ht, and_iff_right rfl]

/-- A text of the catalogue is accepted unless the server advertises others without it. -/
theorem accepts_iff_not_withholds {policy : Policy}
    (h : ofServerMetadata (.ofTexts names requirements optionCheck) (.map metadata) = .ok policy)
    (hs : Silent metadata e ∨ ∃ ss, States metadata e ss) {s : String} (hne : s ≠ "")
    (hm : s ∈ names e) : policy.accepts e (.str s) = true ↔ ¬ Withholds metadata e s := by
  obtain hs | ⟨ss, hs⟩ := hs
  · rw [accepts_of_takes h (takes_of_silent hs _)]
    exact iff_of_true ⟨hne, hm⟩ fun ⟨_, hw, _⟩ => hw.not_silent hs
  · rw [accepts_of_takes h (takes_of_states hs), and_iff_right hne, List.mem_filter,
      and_iff_right hm, decide_eq_true_eq]
    constructor
    · rintro ho ⟨ss', hw, hne', hn⟩
      obtain rfl := hs.unique hw
      exact ho.elim hne' hn
    · intro hn
      by_contra ho
      obtain ⟨hne', hn'⟩ := not_or.mp ho
      exact hn ⟨ss, hs, hne', hn'⟩

theorem exists_ofServerMetadata
    (h : ∀ e, Silent metadata e ∨ ∃ ss, States metadata e ss) :
    ∃ policy, ofServerMetadata (.ofTexts names requirements optionCheck) (.map metadata) =
      .ok policy := by
  have htexts (e : Enumerated) : ∃ ss,
      Takes (.ofTexts names requirements optionCheck) metadata e (.ofTexts ss) := by
    obtain hs | ⟨ss, hs⟩ := h e
    · exact ⟨_, takes_of_silent hs _⟩
    · exact ⟨_, takes_of_states hs⟩
  choose texts ht using htexts
  exact ⟨⟨fun e => (texts e).map .str, requirements, optionCheck⟩,
    ofServerMetadata_eq_ok_iff.mpr ⟨⟨rfl, rfl⟩, fun e => ⟨_, ht e, rfl⟩⟩⟩

end

/-- From any catalogue of texts there is a policy for a server that gives lists of texts or nothing,
however texts are compared with options.
Of a field of which the server says nothing, such as the application type, a policy accepts the
texts of the catalogue, apart from the empty one; of a field with a list it accepts those that are
in it, or all of them if the list is empty. -/
theorem check_of_ofServerMetadata (names : Enumerated → List String) (requirements : Value)
    (optionCheck : OptionCheck) (metadata : Entries) :
    let c : Catalogue := .ofTexts names requirements optionCheck
    ((∀ e, Silent metadata e ∨ ∃ ss, States metadata e ss) →
      ∃ policy, ofServerMetadata c (.map metadata) = .ok policy) ∧
    ∀ policy, ofServerMetadata c (.map metadata) = .ok policy →
      ∀ e v s,
        (Silent metadata e →
          (policy.check e v = .ok s ↔ v = .str s ∧ s ≠ "" ∧ s ∈ names e)) ∧
        ∀ ss, States metadata e ss →
          (policy.check e v = .ok s ↔
            v = .str s ∧ s ≠ "" ∧ s ∈ names e ∧ (ss = [] ∨ s ∈ ss)) := by
  refine ⟨exists_ofServerMetadata, fun policy h e v s => ⟨fun hs => ?_, fun ss hs => ?_⟩⟩
  · exact check_of_takes h (takes_of_silent hs _)
  · rw [check_of_takes h (takes_of_states hs), List.mem_filter, decide_eq_true_eq]

/-- Of two grant types that are advertised, the one is accepted that the catalogue has, and no other
one of the catalogue is; the authentication methods are left as they are. -/
theorem check_of_ofServerMetadata_of_two_grant_types :
    ∃ (metadata : Entries) (policy : Policy),
      metadata = [("grant_types_supported", .ofTexts ["magic", "implicit"])] ∧
      ofServerMetadata (.ofTexts stock.supportedTexts .null .membership) (.map metadata) =
        .ok policy ∧
      policy.check .grantTypes (.str "implicit") = .ok "implicit" ∧
      policy.check .grantTypes (.str "password") ≠ .ok "password" ∧
      policy.check .tokenEndpointAuthMethod (.str "none") = .ok "none" := by
  obtain ⟨metadata, hm⟩ : ∃ metadata : Entries,
      metadata = [("grant_types_supported", .ofTexts ["magic", "implicit"])] := ⟨_, rfl⟩
  obtain ⟨hexists, haccepts⟩ :=
    check_of_ofServerMetadata stock.supportedTexts .null .membership metadata
  have hstates : States metadata .grantTypes ["magic", "implicit"] := hm ▸ ⟨_, rfl, rfl⟩
  have hsilent (e : Enumerated) (he : e ≠ .grantTypes) : Silent metadata e := by
    rintro name hname
    cases e with
    | grantTypes => exact absurd rfl he
    | _ => cases hname <;> exact hm ▸ rfl
  obtain ⟨policy, hp⟩ := hexists fun e =>
    if he : e = .grantTypes then .inr ⟨_, he ▸ hstates⟩ else .inl (hsilent e he)
  refine ⟨metadata, policy, hm, hp, ?_, fun h => ?_, ?_⟩
  · exact ((haccepts policy hp _ _ _).2 _ hstates).mpr ⟨rfl, by decide⟩
  · exact absurd (((haccepts policy hp _ _ _).2 _ hstates).mp h).2.2 (by decide)
  · exact ((haccepts policy hp _ _ _).1 (hsilent .tokenEndpointAuthMethod nofun)).mpr
      ⟨rfl, by decide⟩

/-- A server that advertises no grant type at all is taken for one that says nothing of them. -/
theorem check_beside_empty_list :
    ∃ (metadata : Entries) (policy : Policy), States metadata .grantTypes [] ∧
      ofServerMetadata .stock (.map metadata) = .ok policy ∧
      policy.check .grantTypes (.str "implicit") = .ok "implicit" :=
  ⟨[("grant_types_supported", .list [])], _, ⟨_, rfl, rfl⟩, rfl, rfl⟩

end Policy

end Registration
