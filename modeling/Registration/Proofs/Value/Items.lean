import Registration.Value.Basic

/-!
# Items of lists and tuples

What the rules ask of a field that holds several values:

* `items`, `texts`: the items of a list or tuple, and the texts among them;
* `HasDistinctItems`: no two items are the same;
* `IsCollection`: a list or tuple of distinct items that satisfy a condition;
* `isCollection_iff_texts`: if only texts satisfy it, such a list is one of
  different texts.
-/

namespace Registration.Value

/-- The items of a list or tuple; no other value has any. -/
def items (v : Value) : List Value :=
  v.sequence?.getD []

/-- The texts among the items. -/
def texts (v : Value) : List String :=
  v.items.filterMap text?

def HasDistinctItems (v : Value) : Prop :=
  v.items.Pairwise fun a b => a.same b = false

/-- A list or tuple of distinct items, each of which satisfies a condition. -/
structure IsCollection (p : Value → Prop) (v : Value) : Prop where
  isSequence : v.sequence?.isSome
  distinct : v.HasDistinctItems
  all : ∀ w ∈ v.items, p w

@[simp]
theorem items_list (vs : List Value) : (list vs).items = vs := rfl

@[simp]
theorem items_tuple (vs : List Value) : (tuple vs).items = vs := rfl

theorem items_of_sequence? {v : Value} {vs : List Value} (h : v.sequence? = some vs) :
    v.items = vs := by
  rw [items, h, Option.getD_some]

theorem sequence?_eq_items {v : Value} (h : v.sequence?.isSome) : v.sequence? = some v.items := by
  obtain ⟨vs, hv⟩ := Option.isSome_iff_exists.mp h
  rw [hv, items_of_sequence? hv]

theorem items_of_isEmpty {v : Value} (h : v.isEmpty = true) : v.items = [] := by
  cases v with
  | list vs => simpa [isEmpty] using h
  | tuple vs => simpa [isEmpty] using h
  | _ => rfl

theorem sequence?_isSome_of_mem_items {v w : Value} (h : w ∈ v.items) : v.sequence?.isSome := by
  cases v with
  | list vs => rfl
  | tuple vs => rfl
  | _ => cases h

/-- A list or tuple that is walked through yields its items. -/
theorem elements?_eq_items {v : Value} (h : v.sequence?.isSome) : v.elements? = some v.items := by
  cases v with
  | list vs => rfl
  | tuple vs => rfl
  | _ => cases h

/-! ## Texts -/

theorem texts_of_items_eq_nil {v : Value} (h : v.items = []) : v.texts = [] := by
  rw [texts, h, List.filterMap_nil]

theorem filterMap_text?_map_str (ss : List String) : (ss.map str).filterMap text? = ss := by
  induction ss with
  | nil => rfl
  | cons s ss ih => rw [List.map_cons, List.filterMap_cons_some (rfl : text? (str s) = some s), ih]

theorem eq_str_of_text? {v : Value} {s : String} (h : v.text? = some s) : v = str s := by
  cases v with
  | str t => rw [text?, Option.some.injEq] at h; rw [h]
  | _ => simp [text?] at h

theorem mem_texts {v : Value} {s : String} : s ∈ v.texts ↔ str s ∈ v.items := by
  simp only [texts, List.mem_filterMap]
  constructor
  · rintro ⟨w, hw, h⟩
    exact eq_str_of_text? h ▸ hw
  · exact fun h => ⟨str s, h, rfl⟩

theorem same_str (s t : String) : (str s).same (str t) = (s == t) := by
  simp only [same]

/-- Texts are the same value if they are the same text. -/
theorem pairwise_map_str {ss : List String} :
    (ss.map str).Pairwise (fun a b => a.same b = false) ↔ ss.Nodup := by
  simp only [List.pairwise_map, same_str, beq_eq_false_iff_ne, List.Nodup]

theorem hasDistinctItems_list_str {ss : List String} :
    (list (ss.map str)).HasDistinctItems ↔ ss.Nodup :=
  pairwise_map_str

theorem hasDistinctItems_of_items_eq_nil {v : Value} (h : v.items = []) : v.HasDistinctItems := by
  rw [HasDistinctItems, h]
  exact List.Pairwise.nil

theorem hasDistinctItems_singleton (v : Value) : (list [v]).HasDistinctItems :=
  List.pairwise_singleton ..

theorem eq_map_filterMap_text? {vs : List Value} (h : ∀ w ∈ vs, w.text?.isSome) :
    vs = (vs.filterMap text?).map str := by
  induction vs with
  | nil => rfl
  | cons w ws ih =>
    obtain ⟨s, hs⟩ := Option.isSome_iff_exists.mp (h w (List.mem_cons_self ..))
    obtain rfl := eq_str_of_text? hs
    rw [List.filterMap_cons_some hs, List.map_cons,
      ← ih fun u hu => h u (List.mem_cons_of_mem _ hu)]

theorem IsCollection.imp {p q : Value → Prop} {v : Value} (h : v.IsCollection p)
    (hpq : ∀ w, p w → q w) : v.IsCollection q where
  isSequence := h.isSequence
  distinct := h.distinct
  all w hw := hpq w (h.all w hw)

theorem IsCollection.items_eq_map_texts {p : Value → Prop} {v : Value} (h : v.IsCollection p)
    (hp : ∀ w, p w → w.text?.isSome) : v.items = v.texts.map str :=
  eq_map_filterMap_text? fun w hw => hp w (h.all w hw)

/-- A collection of texts is a list or tuple of different texts. -/
theorem isCollection_iff_texts {p : Value → Prop} (hp : ∀ w, p w → w.text?.isSome) {v : Value} :
    v.IsCollection p ↔
      v.sequence? = some (v.texts.map str) ∧ v.texts.Nodup ∧ ∀ s ∈ v.texts, p (str s) := by
  constructor
  · intro h
    have hi := h.items_eq_map_texts hp
    obtain ⟨hs, hd, ha⟩ := h
    refine ⟨by rw [sequence?_eq_items hs, ← hi], ?_, fun s h => ha _ (mem_texts.mp h)⟩
    rw [HasDistinctItems, hi] at hd
    exact pairwise_map_str.mp hd
  · rintro ⟨hs, hn, ha⟩
    have hi := items_of_sequence? hs
    refine ⟨by rw [hs]; rfl, ?_, fun w hw => ?_⟩
    · rw [HasDistinctItems, hi]
      exact pairwise_map_str.mpr hn
    · rw [hi, List.mem_map] at hw
      obtain ⟨s, h, rfl⟩ := hw
      exact ha s h

end Registration.Value
