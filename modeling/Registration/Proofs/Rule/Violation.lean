import Mathlib.Data.List.Basic
import Mathlib.Data.Prod.Lex
import Registration.Proofs.Rule.Acceptance

/-!
# Violations

All that is wrong with a record, said without the checks that find it, and the
order in which it counts:

* `Criterion`, `Violation`: what can be violated, and where and why it is;
* `Violation.rank`: the order, by criterion, then by item, then by reason;
* `Violation.rejection`, `Violation.failure`: what is told of a violation, if it
  can be;
* `Violation.Occurs`: the violations of a record;
* `Occurs.not_permits`: a rule does not permit a record that violates it;
* `IsFirst`: the violation that comes before all others of its kind;
* `IsFirst.of_criterion`: the first one of the first criterion is the first.
-/

namespace Registration

/-- What a record can violate. Each output parameter counts for itself. -/
inductive Criterion where
  | applicationType
  | responseTypes
  | grantTypes
  | responseAndGrantMatch
  | redirectUris
  | subjectType
  | tokenEndpointAuthMethod
  | postLogoutRedirectUris
  | trustedUriPrefixes
  | functionalUserGroupIds
  | clientIdIssuedAt
  | clientSecretExpiresAt
  | registrationClientUri
  deriving DecidableEq

namespace Criterion

/-- The criteria in the order in which they count. -/
def all : List Criterion :=
  [applicationType, responseTypes, grantTypes, responseAndGrantMatch, redirectUris, subjectType,
   tokenEndpointAuthMethod, postLogoutRedirectUris, trustedUriPrefixes, functionalUserGroupIds,
   clientIdIssuedAt, clientSecretExpiresAt, registrationClientUri]

/-- The field that is at fault. -/
def field : Criterion → Field
  | applicationType => .applicationType
  | responseTypes | responseAndGrantMatch => .responseTypes
  | grantTypes => .grantTypes
  | redirectUris => .redirectUris
  | subjectType => .subjectType
  | tokenEndpointAuthMethod => .tokenEndpointAuthMethod
  | postLogoutRedirectUris => .postLogoutRedirectUris
  | trustedUriPrefixes => .trustedUriPrefixes
  | functionalUserGroupIds => .functionalUserGroupIds
  | clientIdIssuedAt => .clientIdIssuedAt
  | clientSecretExpiresAt => .clientSecretExpiresAt
  | registrationClientUri => .registrationClientUri

/-- The rule that looks for violations of the criterion. -/
def rule : Criterion → Rule
  | applicationType => .applicationType
  | responseTypes => .responseTypes
  | grantTypes => .grantTypes
  | responseAndGrantMatch => .responseAndGrantMatch
  | redirectUris => .redirectUris
  | subjectType => .subjectType
  | tokenEndpointAuthMethod => .tokenEndpointAuthMethod
  | postLogoutRedirectUris => .postLogoutRedirectUris
  | trustedUriPrefixes => .trustedUriPrefixes
  | functionalUserGroupIds => .functionalUserGroupIds
  | clientIdIssuedAt | clientSecretExpiresAt | registrationClientUri => .outputParameters

theorem mem_all (c : Criterion) : c ∈ all := by
  cases c <;> decide

/-- The position in the order. -/
def rank (c : Criterion) : Nat :=
  all.idxOf c

theorem rank_injective : Function.Injective rank :=
  fun c _ h => (List.idxOf_inj (mem_all c)).mp h

end Criterion

/-- What is wrong with an item on its own counts before a repetition of another one. -/
def Reason.rank : Reason → Nat
  | notAbsoluteUri => 1
  | duplicateValue => 2
  | _ => 0

structure Violation where
  criterion : Criterion
  /-- The position of the item at fault; none if it is the whole field. -/
  item : Option Nat
  reason : Reason

namespace Violation

variable {policy : Policy} {r : Record} {c : Criterion} {x y : Violation} {v : Value}

/-! ## The order of violations -/

/-- The whole field counts before its items. -/
def itemRank (x : Violation) : Nat :=
  x.item.elim 0 (· + 1)

def rank (x : Violation) : ℕ ×ₗ ℕ ×ₗ ℕ :=
  toLex (x.criterion.rank, toLex (x.itemRank, x.reason.rank))

theorem rank_lt_of_criterion (h : x.criterion.rank < y.criterion.rank) : x.rank < y.rank :=
  Prod.Lex.toLex_lt_toLex.mpr (.inl h)

theorem rank_lt_of_item (hc : x.criterion = y.criterion) (h : x.itemRank < y.itemRank) :
    x.rank < y.rank :=
  Prod.Lex.toLex_lt_toLex.mpr
    (.inr ⟨congrArg Criterion.rank hc, Prod.Lex.toLex_lt_toLex.mpr (.inl h)⟩)

theorem rank_lt_of_reason (hc : x.criterion = y.criterion) (hi : x.item = y.item)
    (h : x.reason.rank < y.reason.rank) : x.rank < y.rank :=
  Prod.Lex.toLex_lt_toLex.mpr (.inr ⟨congrArg Criterion.rank hc,
    Prod.Lex.toLex_lt_toLex.mpr (.inr ⟨congrArg (·.elim 0 (· + 1)) hi, h⟩)⟩)

/-- The violation among those that satisfy a condition which comes before all the others. -/
structure IsFirst (p : Violation → Prop) (x : Violation) : Prop where
  holds : p x
  rank_lt : ∀ y, p y → y ≠ x → x.rank < y.rank

/-- The first violation of a criterion is the first of all if no earlier criterion is violated. -/
theorem IsFirst.of_criterion {p : Violation → Prop} (hc : ∀ y, p y → c.rank ≤ y.criterion.rank)
    (h : IsFirst (fun y => y.criterion = c ∧ p y) x) : IsFirst p x where
  holds := h.holds.2
  rank_lt y hy hne := by
    by_cases heq : y.criterion = c
    · exact h.rank_lt y ⟨heq, hy⟩ hne
    · refine rank_lt_of_criterion (h.holds.1 ▸ lt_of_le_of_ne (hc y hy) fun hr => ?_)
      exact heq (Criterion.rank_injective hr).symm

/-! ## What is told of a violation -/

/-- The item at fault, or the value of the whole field. -/
def value (x : Violation) (r : Record) : Value :=
  match x.item with
  | none => r.value x.criterion.field
  | some i => (r.value x.criterion.field).items.getD i .null

def rejection (x : Violation) (r : Record) : Rejection :=
  .ofField x.reason x.criterion.field (x.value r)

/-- The end of a check that finds the violation. -/
def failure (x : Violation) (r : Record) : Failure :=
  .refuse x.reason x.criterion.field (x.value r)

theorem eq_rejection_of_failure {e : Rejection} (h : .rejected e = x.failure r) :
    e = x.rejection r :=
  (Failure.eq_of_ofRejection_eq_rejected h.symm).symm

/-- A redirection URI that cannot be read, or is relative where it must not be. -/
def SpoilsRedirection (x : Violation) : Prop :=
  x.criterion = .redirectUris ∧ (x.reason = .malformedUri ∨ x.reason = .notAbsoluteUri)

/-- There are two error codes, of which one is for unusable redirections. -/
theorem code_rejection (x : Violation) (r : Record) :
    ((x.rejection r).code = "invalid_redirect_uri" ↔ x.SpoilsRedirection) ∧
      ((x.rejection r).code = "invalid_client_metadata" ↔ ¬ x.SpoilsRedirection) := by
  have hfield : (Value.str x.criterion.field.name).text? = some Field.redirectUris.name ↔
      x.criterion = .redirectUris := by
    cases x.criterion <;> decide
  have hreason : x.reason.concernsUri = true ↔
      x.reason = .malformedUri ∨ x.reason = .notAbsoluteUri := by
    cases x.reason <;> simp [Reason.concernsUri]
  have hspoils : (x.reason.concernsUri = true ∧
      (Value.str x.criterion.field.name).text? = some Field.redirectUris.name) ↔
        x.SpoilsRedirection := by
    rw [SpoilsRedirection, hfield, hreason, and_comm]
  have hcode : (x.rejection r).code =
      if x.reason.concernsUri ∧
          (Value.str x.criterion.field.name).text? = some Field.redirectUris.name then
        "invalid_redirect_uri"
      else "invalid_client_metadata" := rfl
  rw [hcode]
  split
  · rename_i h
    exact ⟨iff_of_true rfl (hspoils.mp h), iff_of_false (by decide) (not_not.mpr (hspoils.mp h))⟩
  · rename_i h
    have hnot := mt hspoils.mpr h
    exact ⟨iff_of_false (by decide) hnot, iff_of_true rfl hnot⟩

/-! ## The violations of a record -/

/-- A field without parts is at fault as a whole, for one reason. -/
def OfField (due : Reason) (x : Violation) : Prop :=
  x.item = none ∧ x.reason = due

/-- A value that should be a list may be none. An item may have flaws of its own, and may repeat one
that stands before it. -/
def OfList (nonList : Reason) (flaw : Reason → Value → Prop) (v : Value) (x : Violation) : Prop :=
  match x.item with
  | none => v.sequence? = none ∧ x.reason = nonList
  | some i => ∃ w, v.items[i]? = some w ∧
      (flaw x.reason w ∨ x.reason = .duplicateValue ∧ ∃ u ∈ v.items.take i, u.same w = true)

/-- A response type may require a grant type that is not among those of the record. -/
def OfMatch (policy : Policy) (r : Record) (x : Violation) : Prop :=
  ∃ i w required, x.item = some i ∧ x.reason = .grantResponseMismatch required ∧
    (r.value .responseTypes).items[i]? = some w ∧ policy.grantTypeFor w = .ok required ∧
    required.isTruthy = true ∧ ∀ s ∈ (r.value .grantTypes).texts, required ≠ .str s

/-- A value that is not among the supported ones. -/
def Unsupported (supported : Value → Bool) (reason : Reason) (v : Value) : Prop :=
  reason = .unsupportedValue ∧ supported v = false

/-- A URI may be malformed, or else relative where it has to be `absolute`. -/
inductive UriFlaw (absolute : Bool) : Reason → Value → Prop
  | malformed {v : Value} (h : ∀ u, Uri.ofValue v ≠ .ok u) : UriFlaw absolute .malformedUri v
  | relative {v : Value} {u : Uri} (ha : absolute = true) (hu : Uri.ofValue v = .ok u)
    (hs : u.scheme.getD "" = "") : UriFlaw absolute .notAbsoluteUri v

/-- Enumerated fields may be empty, and the other lists absent or null. Output parameters may be
sent as if they were not assigned. -/
def Occurs (policy : Policy) (r : Record) (x : Violation) : Prop :=
  let v := r.value x.criterion.field
  match x.criterion with
  | .applicationType =>
    v.isEmpty = false ∧ policy.accepts .applicationType v = false ∧ x.OfField .unsupportedValue
  | .responseTypes =>
    v.isEmpty = false ∧
      x.OfList .unsupportedValue (Unsupported (policy.accepts .responseTypes)) v
  | .grantTypes =>
    v.isEmpty = false ∧ x.OfList .unsupportedValue (Unsupported (policy.accepts .grantTypes)) v
  | .responseAndGrantMatch => x.OfMatch policy r
  | .redirectUris =>
    v.isNull = false ∧ x.OfList .malformedUri (UriFlaw (Rule.needsAbsoluteUris r)) v
  | .subjectType =>
    v.isEmpty = false ∧ policy.accepts .subjectType v = false ∧ x.OfField .unsupportedValue
  | .tokenEndpointAuthMethod =>
    v.isEmpty = false ∧ policy.accepts .tokenEndpointAuthMethod v = false ∧
      x.OfField .unsupportedValue
  | .postLogoutRedirectUris | .trustedUriPrefixes =>
    v.isNull = false ∧ x.OfList .malformedUri (UriFlaw true) v
  | .functionalUserGroupIds =>
    v.isNull = false ∧ x.OfList .unsupportedValue (Unsupported (·.text?.isSome)) v
  | .clientIdIssuedAt | .clientSecretExpiresAt =>
    v.isNull = false ∧ v.isZero = false ∧ x.OfField .outputParameterNotAllowed
  | .registrationClientUri => v.isEmpty = false ∧ x.OfField .outputParameterNotAllowed

theorem OfList.getElem?_items {nonList : Reason} {flaw : Reason → Value → Prop} {i : Nat}
    (h : x.OfList nonList flaw v) (hi : x.item = some i) : ∃ w, v.items[i]? = some w := by
  rw [OfList, hi] at h
  exact h.imp fun _ => And.left

/-- A violation at an item is at one that the field has. -/
theorem Occurs.getElem?_items {i : Nat} (h : x.Occurs policy r) (hi : x.item = some i) :
    (r.value x.criterion.field).items[i]? = some (x.value r) := by
  have hw : ∃ w, (r.value x.criterion.field).items[i]? = some w := by
    obtain ⟨c, item, reason⟩ := x
    obtain rfl := hi
    cases c with
    | applicationType | subjectType | tokenEndpointAuthMethod | clientIdIssuedAt
    | clientSecretExpiresAt => cases h.2.2.1
    | registrationClientUri => cases h.2.1
    | responseAndGrantMatch =>
      obtain ⟨j, w, -, hj, -, hw, -⟩ := h
      obtain rfl := Option.some.inj hj
      exact ⟨w, hw⟩
    | responseTypes | grantTypes | redirectUris | postLogoutRedirectUris | trustedUriPrefixes
    | functionalUserGroupIds => exact h.2.getElem?_items rfl
  obtain ⟨w, hw⟩ := hw
  rw [hw, value, hi]
  simp [hw]

/-! ## Violations are not permitted -/

/-- No item of a collection has a flaw that its items must not have, or repeats another one. -/
theorem OfList.not_isCollection {nonList : Reason} {flaw : Reason → Value → Prop}
    {p : Value → Prop} (hp : ∀ reason w, flaw reason w → ¬ p w) (h : x.OfList nonList flaw v) :
    ¬ v.IsCollection p := by
  rintro ⟨hs, hd, ha⟩
  rw [OfList] at h
  split at h
  · rw [h.1] at hs
    cases hs
  · obtain ⟨w, hw, hflaw | ⟨-, u, hu, hsame⟩⟩ := h
    · exact hp _ w hflaw (ha w (List.mem_of_getElem? hw))
    · rename_i i _
      obtain ⟨hi, rfl⟩ := List.getElem?_eq_some_iff.mp hw
      obtain ⟨j, hj, rfl⟩ := List.mem_take_iff_getElem.mp hu
      have hne := List.pairwise_iff_getElem.mp hd j i (by omega) hi (by omega)
      rw [hsame] at hne
      cases hne

theorem Unsupported.not_supported {supported : Value → Bool} {reason : Reason}
    (h : Unsupported supported reason v) : ¬ supported v = true :=
  Bool.eq_false_iff.mp h.2

theorem UriFlaw.not_isReference {absolute : Bool} {reason : Reason}
    (h : UriFlaw absolute reason v) : ¬ Rule.IsReference absolute v := by
  rintro ⟨u, hu, hscheme⟩
  cases h with
  | malformed h => exact h u hu
  | relative ha hu' hs =>
    obtain rfl : u = _ := Except.ok.inj (hu.symm.trans hu')
    exact hscheme ha hs

theorem not_isEmptyOr {p : Value → Prop} (he : v.isEmpty = false) (hp : ¬ p v) :
    ¬ Rule.IsEmptyOr p v :=
  not_or.mpr ⟨Bool.eq_false_iff.mp he, hp⟩

theorem not_isNullOr {p : Value → Prop} (hn : v.isNull = false) (hp : ¬ p v) :
    ¬ Rule.IsNullOr p v :=
  not_or.mpr ⟨Bool.eq_false_iff.mp hn, hp⟩

theorem OfMatch.not_permits (h : x.OfMatch policy r) :
    ¬ Rule.responseAndGrantMatch.Permits policy r.draft := by
  obtain ⟨i, w, required, -, -, hw, hg, ht, hmissing⟩ := h
  have hmem : w ∈ (r.value .responseTypes).items := List.mem_of_getElem? hw
  rintro (he | ⟨vs, hvs, ha⟩)
  · rw [Value.items_of_isEmpty (v := r.value .responseTypes) he] at hmem
    cases hmem
  · have helements := Value.elements?_eq_items (Value.sequence?_isSome_of_mem_items hmem)
    obtain rfl : (r.value .responseTypes).items = vs := Option.some.inj (helements.symm.trans hvs)
    obtain ⟨s, hs, rfl⟩ := (ha w hmem).exists_of_isTruthy hg ht
    exact hmissing s hs rfl

theorem Occurs.not_permits (h : x.Occurs policy r) :
    ¬ x.criterion.rule.Permits policy r.draft := by
  obtain ⟨c, item, reason⟩ := x
  cases c with
  | applicationType | subjectType | tokenEndpointAuthMethod =>
    exact not_isEmptyOr (p := (policy.accepts _ · = true)) h.1 (Bool.eq_false_iff.mp h.2.1)
  | responseTypes | grantTypes =>
    exact not_isEmptyOr h.1 (h.2.not_isCollection fun _ _ => Unsupported.not_supported)
  | responseAndGrantMatch => exact OfMatch.not_permits h
  | redirectUris | postLogoutRedirectUris | trustedUriPrefixes =>
    exact not_isNullOr h.1 (h.2.not_isCollection fun _ _ => UriFlaw.not_isReference)
  | functionalUserGroupIds =>
    exact not_isNullOr h.1 (h.2.not_isCollection fun _ _ => Unsupported.not_supported)
  | clientIdIssuedAt =>
    exact fun hp => not_isNullOr h.1 (Bool.eq_false_iff.mp h.2.1) hp.1
  | clientSecretExpiresAt =>
    exact fun hp => not_isNullOr h.1 (Bool.eq_false_iff.mp h.2.1) hp.2.1
  | registrationClientUri => exact fun hp => (Bool.eq_false_iff.mp h.1) hp.2.2

end Violation

end Registration
