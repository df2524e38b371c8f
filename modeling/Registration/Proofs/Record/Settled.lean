import Registration.Proofs.Uri.FinalSlash
import Registration.Proofs.Value.Items
import Registration.Rule.Basic

/-!
# Settled records

What an omitted or accepted field comes to mean:

* `Field.optionalLists`, `Field.settled`: the lists that become empty if they
  are omitted, and the value of each that is meant;
* `Record.settleFields`: a record with some of these lists settled;
* `settleFields_settleFields`: settling lists one after the other settles them
  all, each once;
* `settleFields_eq_self`, `settleFields_idem`: a settled record does not change.
-/

namespace Registration

/-- A text as a prefix that ends with a path segment. -/
def Value.withFinalSlash : Value → Value
  | .str s => .str (Uri.withFinalSlash s)
  | v => v

theorem Value.withFinalSlash_idem (v : Value) :
    v.withFinalSlash.withFinalSlash = v.withFinalSlash := by
  cases v with
  | str s => simp only [withFinalSlash, Uri.withFinalSlash_idem]
  | _ => rfl

theorem Value.eq_null_of_isNull {v : Value} (h : v.isNull = true) : v = .null := by
  cases v with
  | null => rfl
  | _ => exact absurd h Bool.false_ne_true

/-- An omitted list is the empty one. -/
def Value.orEmptyList (v : Value) : Value :=
  if v.isNull then .list [] else v

theorem Value.isNull_orEmptyList (v : Value) : v.orEmptyList.isNull = false := by
  rw [orEmptyList]
  split
  · rfl
  · exact Bool.eq_false_iff.mpr ‹_›

theorem Value.orEmptyList_of_isNull_eq_false {v : Value} (h : v.isNull = false) :
    v.orEmptyList = v := by
  rw [orEmptyList, h, if_neg Bool.false_ne_true]

namespace Field

/-- The lists of which an omitted one becomes empty. -/
def optionalLists : List Field :=
  [redirectUris, postLogoutRedirectUris, trustedUriPrefixes, functionalUserGroupIds]

/-- The value to which one of the optional lists is settled. -/
def settled : Field → Value → Value
  | trustedUriPrefixes, v => .list (v.items.map Value.withFinalSlash)
  | _, v => v.orEmptyList

theorem settled_empty (f : Field) : f.settled (.list []) = .list [] := by
  cases f <;> rfl

theorem settled_null (f : Field) : f.settled .null = .list [] := by
  cases f <;> rfl

theorem settled_idem (f : Field) (v : Value) : f.settled (f.settled v) = f.settled v := by
  have hlist : v.orEmptyList.orEmptyList = v.orEmptyList :=
    Value.orEmptyList_of_isNull_eq_false v.isNull_orEmptyList
  cases f with
  | trustedUriPrefixes =>
    simp only [settled, Value.items_list, List.map_map]
    congr 2
    funext w
    exact w.withFinalSlash_idem
  | _ => exact hlist

end Field

namespace Record

/-- The record as a draft, with the grant types that it names itself. -/
def draft (r : Record) : Draft :=
  ⟨r, (r.value .grantTypes).texts⟩

/-- The record with some of its optional lists settled. -/
def settleFields (fs : List Field) (r : Record) : Record :=
  { r with registered := fun f =>
      if f ∈ fs then some (f.settled (r.value f)) else r.registered f }

@[simp]
theorem settleFields_nil (r : Record) : r.settleFields [] = r := by
  simp [settleFields]

theorem registered_settleFields_of_mem (r : Record) {fs : List Field} {f : Field} (h : f ∈ fs) :
    (r.settleFields fs).registered f = some (f.settled (r.value f)) :=
  if_pos h

theorem registered_settleFields_of_not_mem (r : Record) {fs : List Field} {f : Field}
    (h : f ∉ fs) : (r.settleFields fs).registered f = r.registered f :=
  if_neg h

theorem value_settleFields_of_mem (r : Record) {fs : List Field} {f : Field} (h : f ∈ fs) :
    (r.settleFields fs).value f = f.settled (r.value f) := by
  rw [value, registered_settleFields_of_mem r h, Option.getD_some]

theorem value_settleFields_of_not_mem (r : Record) {fs : List Field} {f : Field} (h : f ∉ fs) :
    (r.settleFields fs).value f = r.value f := by
  rw [value, registered_settleFields_of_not_mem r h, value]

/-- The order of the lists does not matter. -/
theorem settleFields_congr (r : Record) {fs gs : List Field} (h : ∀ f, f ∈ fs ↔ f ∈ gs) :
    r.settleFields fs = r.settleFields gs := by
  simp only [settleFields, h]

/-- Settling twice is settling once. -/
theorem settleFields_settleFields (r : Record) (fs gs : List Field) :
    (r.settleFields fs).settleFields gs = r.settleFields (fs ++ gs) := by
  have hreg : ∀ f, ((r.settleFields fs).settleFields gs).registered f =
      (r.settleFields (fs ++ gs)).registered f := by
    intro f
    by_cases hg : f ∈ gs
    · rw [registered_settleFields_of_mem _ hg,
        registered_settleFields_of_mem _ (List.mem_append_right fs hg)]
      by_cases hf : f ∈ fs
      · rw [value_settleFields_of_mem r hf, Field.settled_idem]
      · rw [value_settleFields_of_not_mem r hf]
    · rw [registered_settleFields_of_not_mem _ hg]
      by_cases hf : f ∈ fs
      · rw [registered_settleFields_of_mem r hf,
          registered_settleFields_of_mem r (List.mem_append_left gs hf)]
      · rw [registered_settleFields_of_not_mem r hf,
          registered_settleFields_of_not_mem r (by simp [hf, hg])]
  exact Record.ext (funext hreg) rfl rfl

/-- A record whose lists are settled already does not change. -/
theorem settleFields_eq_self {r : Record} {fs : List Field}
    (h : ∀ f ∈ fs, r.registered f = some (f.settled (r.value f))) : r.settleFields fs = r := by
  refine Record.ext (funext fun f => ?_) rfl rfl
  by_cases hf : f ∈ fs
  · rw [registered_settleFields_of_mem r hf, h f hf]
  · exact registered_settleFields_of_not_mem r hf

theorem settleFields_idem (r : Record) (fs : List Field) :
    (r.settleFields fs).settleFields fs = r.settleFields fs := by
  refine settleFields_eq_self fun f hf => ?_
  rw [registered_settleFields_of_mem r hf, value_settleFields_of_mem r hf, Field.settled_idem]

theorem put_eq_settleFields {r : Record} {f : Field} {v : Value} (h : f.settled (r.value f) = v) :
    r.put f v = r.settleFields [f] := by
  simp only [put, settleFields, List.mem_singleton]
  congr 1
  funext g
  split
  · rename_i hg
    rw [hg, h]
  · rfl

theorem registered_of_isNull_eq_false {r : Record} {f : Field} (h : (r.value f).isNull = false) :
    r.registered f = some (r.value f) := by
  rw [value] at h ⊢
  cases hr : r.registered f with
  | none => rw [hr] at h; simp [Value.isNull] at h
  | some v => rfl

end Record

end Registration
