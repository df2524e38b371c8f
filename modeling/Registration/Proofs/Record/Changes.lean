import Registration.Defaults
import Registration.Proofs.Record.Settled

/-!
# Changed records

* `Record.ChangesOnly`: a record after changes to some registered fields, which
  leave the other ones and all other entries alone;
* `ChangesOnly.trans`, `ChangesOnly.mono`: changes in succession;
* `ChangesOnly.get?`: the keys that are left alone;
* `changesOnly_put` … `changesOnly_fillDefaults`: the changes that are made.
-/

namespace Registration.Record

/-- The second record differs from the first one in some of the given fields at most. -/
structure ChangesOnly (fs : List Field) (r r' : Record) : Prop where
  registered : ∀ f ∉ fs, r'.registered f = r.registered f
  other : r'.other = r.other
  unnamed : r'.unnamed = r.unnamed

namespace ChangesOnly

variable {fs gs : List Field} {r r' r'' : Record}

protected theorem refl (fs : List Field) (r : Record) : ChangesOnly fs r r where
  registered _ _ := rfl
  other := rfl
  unnamed := rfl

protected theorem trans (h : ChangesOnly fs r r') (h' : ChangesOnly fs r' r'') :
    ChangesOnly fs r r'' where
  registered f hf := (h'.registered f hf).trans (h.registered f hf)
  other := h'.other.trans h.other
  unnamed := h'.unnamed.trans h.unnamed

theorem mono (h : ChangesOnly fs r r') (hs : fs ⊆ gs) : ChangesOnly gs r r' where
  registered f hf := h.registered f fun hm => hf (hs hm)
  other := h.other
  unnamed := h.unnamed

/-- A key that names none of the fields has the value that it had. -/
theorem get? (h : ChangesOnly fs r r') {key : String}
    (hk : ∀ f, Field.ofName? key = some f → f ∉ fs) : r'.get? key = r.get? key := by
  unfold Record.get?
  cases hf : Field.ofName? key with
  | none => simp only [h.other]
  | some f => exact h.registered f (hk f hf)

end ChangesOnly

variable {fs : List Field} {f : Field}

theorem changesOnly_put (r : Record) (hf : f ∈ fs) (v : Value) : ChangesOnly fs r (r.put f v) where
  registered _ hg := registered_put_ne r v (ne_of_mem_of_not_mem hf hg).symm
  other := rfl
  unnamed := rfl

theorem changesOnly_remove (r : Record) (hf : f ∈ fs) : ChangesOnly fs r (r.remove f) where
  registered _ hg := registered_remove_ne r (ne_of_mem_of_not_mem hf hg).symm
  other := rfl
  unnamed := rfl

theorem changesOnly_settleFields (r : Record) (fs : List Field) :
    ChangesOnly fs r (r.settleFields fs) where
  registered _ hf := registered_settleFields_of_not_mem r hf
  other := rfl
  unnamed := rfl

theorem changesOnly_putOrRemove (r : Record) (hf : f ∈ fs) (v : Value) :
    ChangesOnly fs r (r.putOrRemove f v) := by
  unfold putOrRemove
  split
  · exact changesOnly_remove r hf
  · exact changesOnly_put r hf v

theorem changesOnly_fillEmpty (r : Record) (hf : f ∈ fs) (v : Value) :
    ChangesOnly fs r (r.fillEmpty f v) := by
  unfold fillEmpty
  split
  · exact changesOnly_put r hf v
  · exact .refl fs r

theorem changesOnly_fillList (r : Record) (hf : f ∈ fs) : ChangesOnly fs r (r.fillList f) := by
  unfold fillList
  split
  · exact changesOnly_put r hf _
  · exact .refl fs r

theorem changesOnly_fillDefaults (r : Record) (defaults : Defaults) :
    ChangesOnly [.applicationType, .responseTypes, .grantTypes, .tokenEndpointAuthMethod,
      .redirectUris, .postLogoutRedirectUris, .trustedUriPrefixes] r
      (r.fillDefaults defaults) := by
  unfold fillDefaults
  refine .trans ?_ (changesOnly_fillList _ (by decide))
  refine .trans ?_ (changesOnly_fillList _ (by decide))
  refine .trans ?_ (changesOnly_fillList _ (by decide))
  refine .trans ?_ (changesOnly_fillEmpty _ (by decide) _)
  refine .trans ?_ (changesOnly_fillEmpty _ (by decide) _)
  refine .trans ?_ (changesOnly_fillEmpty _ (by decide) _)
  exact changesOnly_fillEmpty r (by decide) _

end Registration.Record
