import Registration.Proofs.Record.Changes
import Registration.Proofs.Rule.Acceptance
import Registration.Proofs.Text.Form
import Registration.Review

/-!
# The name of a client

Decoding the name leaves the other fields alone, and no rule reads it:

* `decodeName_eq`: a record stays as it is, or has the decoded name put in it;
* `decodedName`, `registered_decodeName`: the name that it ends with;
* `decodeName_settleFields`: the name does not matter to what is settled;
* `acceptable_decodeName_iff`: nor to what is accepted;
* `registered_decodeName_eq_iff`: the names that are left as they are.
-/

namespace Registration

open Text.Form (decode)

namespace Record

theorem decodeName_eq (r : Record) :
    r.decodeName.1 = r ∨
      ∃ s t, r.registered .clientName = some (.str s) ∧ decode .utf8 s = .ok t ∧
        r.decodeName.1 = r.put .clientName (.str t) := by
  rw [decodeName]
  split
  · rename_i s hs
    split
    · rename_i t ht
      exact .inr ⟨s, t, hs, ht, rfl⟩
    · exact .inl rfl
  · exact .inl rfl

/-- The name with which a record is left when it is decoded. -/
def decodedName : Option Value → Option Value
  | some (.str s) =>
    match decode .utf8 s with
    | .ok t => some (.str t)
    | .error _ => some (.str s)
  | name => name

theorem registered_decodeName (r : Record) :
    r.decodeName.1.registered .clientName = decodedName (r.registered .clientName) := by
  unfold decodeName
  split
  · rename_i s hs
    rw [hs]
    unfold decodedName
    split
    · rename_i t ht
      simp only [ht, registered_put_self]
    · rename_i e he
      simp only [he, hs]
  · rename_i hn
    show r.registered .clientName = decodedName (r.registered .clientName)
    unfold decodedName
    split
    · rename_i s hs
      exact absurd hs (hn s)
    · rfl

theorem changesOnly_decodeName (r : Record) : r.ChangesOnly [.clientName] r.decodeName.1 := by
  obtain hr | ⟨_, _, -, -, hr⟩ := r.decodeName_eq
  · rw [hr]
    exact .refl _ r
  · rw [hr]
    exact r.changesOnly_put (by decide) _

theorem registered_decodeName_of_ne (r : Record) {f : Field} (h : f ≠ .clientName) :
    r.decodeName.1.registered f = r.registered f :=
  r.changesOnly_decodeName.registered f fun hm => h (List.mem_singleton.mp hm)

theorem value_decodeName_of_ne (r : Record) {f : Field} (h : f ≠ .clientName) :
    r.decodeName.1.value f = r.value f := by
  rw [value, registered_decodeName_of_ne r h, value]

theorem put_settleFields (r : Record) {f : Field} {fs : List Field} (h : f ∉ fs) (v : Value) :
    (r.settleFields fs).put f v = (r.put f v).settleFields fs := by
  refine Record.ext (funext fun g => ?_) rfl rfl
  by_cases hg : g = f
  · subst hg
    rw [registered_put_self, registered_settleFields_of_not_mem _ h, registered_put_self]
  · rw [registered_put_ne _ _ hg]
    by_cases hm : g ∈ fs
    · rw [registered_settleFields_of_mem _ hm, registered_settleFields_of_mem _ hm,
        value_put_ne _ _ hg]
    · rw [registered_settleFields_of_not_mem _ hm, registered_settleFields_of_not_mem _ hm,
        registered_put_ne _ _ hg]

/-- A settled record is decoded as it was before. -/
theorem decodeName_settleFields (r : Record) {fs : List Field} (h : .clientName ∉ fs) :
    (r.settleFields fs).decodeName = (r.decodeName.1.settleFields fs, r.decodeName.2) := by
  rw [decodeName, decodeName, registered_settleFields_of_not_mem r h]
  split
  · split
    · rw [put_settleFields r h]
    · rfl
  · rfl

/-- A name is left as it is if it is no text, or one that stands for itself or cannot be decoded. -/
theorem registered_decodeName_eq_iff (r : Record) :
    r.decodeName.1.registered .clientName = r.registered .clientName ↔
      ∀ s, r.registered .clientName = some (.str s) →
        (∃ e, decode .utf8 s = .error e) ∨ '%' ∉ s.toList ∧ '+' ∉ s.toList := by
  rw [decodeName]
  split
  · rename_i s hs
    rw [hs]
    split
    · rename_i t ht
      have herror : ¬ ∃ e, decode .utf8 s = .error e := by
        rintro ⟨e, he⟩
        cases ht.symm.trans he
      rw [registered_put_self, Option.some.injEq, Value.str.injEq]
      constructor
      · rintro rfl s' hs'
        cases hs'
        exact .inr (Text.Form.decode_eq_self_iff.mp ht)
      · intro h
        have hself : decode .utf8 s = .ok s :=
          Text.Form.decode_eq_self_iff.mpr ((h s rfl).resolve_left herror)
        exact Except.ok.inj (ht.symm.trans hself)
    · rename_i e he
      refine iff_of_true hs fun s' hs' => ?_
      cases hs'
      exact .inl ⟨e, he⟩
  · rename_i hn
    exact iff_of_true rfl fun s hs => absurd hs (hn s)

end Record

/-- No rule reads the name. -/
theorem acceptable_decodeName_iff {policy : Policy} {r : Record} :
    Acceptable policy r.decodeName.1 ↔ Acceptable policy r := by
  refine forall_congr' fun rule => Rule.permits_congr (fun f hf => ?_) fun _ => ?_
  · have hne : f ≠ .clientName := by
      rintro rfl
      exact absurd hf ((by decide : ∀ rule : Rule, Field.clientName ∉ rule.reads) rule)
    exact r.value_decodeName_of_ne hne
  · exact congrArg Value.texts (r.value_decodeName_of_ne (by decide))

end Registration
