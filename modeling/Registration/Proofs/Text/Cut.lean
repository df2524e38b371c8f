import Registration.Text.Cut
import Registration.Text.Percent

/-!
# Cutting longer texts

What a cut and the check of escapes make of a text with more behind it:

* `before_cons`, `after?_cons`: a cut character by character;
* `after?_eq_none_iff`: there is nothing to cut at;
* `before_append`, `after?_append`: a text without a delimiter in front;
* `mem_before_iff`: what stands in front of the first delimiter;
* `before_append_singleton`, `after?_append_singleton`: one more character,
  which is a delimiter or not;
* `wellFormed_iff`, `wellFormed_append`: escapes, which stay whole.
-/

namespace Registration.Text

variable {p : Char → Bool} {cs ds : List Char} {c d : Char}

@[simp]
theorem before_nil : before p [] = [] := rfl

@[simp]
theorem after?_nil : after? p [] = none := rfl

theorem before_cons (p : Char → Bool) (c : Char) (cs : List Char) :
    before p (c :: cs) = if p c then [] else c :: before p cs := by
  cases h : p c <;> simp [before, h]

theorem after?_cons (p : Char → Bool) (c : Char) (cs : List Char) :
    after? p (c :: cs) = if p c then some cs else after? p cs := by
  cases h : p c <;> simp [after?, h]

theorem after?_eq_none_iff : after? p cs = none ↔ ∀ c ∈ cs, p c = false := by
  induction cs with
  | nil => simp
  | cons c cs ih => cases h : p c <;> simp [after?_cons, h, ih]

theorem isSome_after?_iff : (after? (· == d) cs).isSome = true ↔ d ∈ cs := by
  rw [Option.isSome_iff_ne_none, Ne, after?_eq_none_iff]
  simp

/-- A delimiter stands once in front of the rest, and as often as it does there. -/
theorem count_eq_after? (d : Char) (cs : List Char) :
    cs.count d = (after? (· == d) cs).elim 0 (·.count d + 1) := by
  induction cs with
  | nil => rfl
  | cons c cs ih =>
    rw [after?_cons]
    by_cases h : c = d
    · rw [h, List.count_cons_self, if_pos (beq_self_eq_true d), Option.elim_some]
    · rw [List.count_cons_of_ne h, if_neg (by simpa using h), ih]

theorem before_of_after?_eq_none (h : after? p cs = none) : before p cs = cs := by
  induction cs with
  | nil => rfl
  | cons c cs ih =>
    obtain ⟨hc, hcs⟩ := List.forall_mem_cons.mp (after?_eq_none_iff.mp h)
    rw [before_cons, hc, if_neg Bool.false_ne_true, ih (after?_eq_none_iff.mpr hcs)]

/-! ## Texts in front -/

theorem before_append (h : ∀ c ∈ cs, p c = false) (ds : List Char) :
    before p (cs ++ ds) = cs ++ before p ds :=
  List.takeWhile_append_of_pos fun c hc => by rw [h c hc]; rfl

theorem after?_append (h : ∀ c ∈ cs, p c = false) (ds : List Char) :
    after? p (cs ++ ds) = after? p ds := by
  rw [after?, List.dropWhile_append_of_pos fun c hc => by rw [h c hc]; rfl, after?]

/-- A text is cut where a delimiter opens the rest. -/
theorem before_append_of_head? (h : ∀ c ∈ cs, p c = false) (hd : ∀ d ∈ ds.head?, p d = true) :
    before p (cs ++ ds) = cs := by
  rw [before_append h]
  cases ds with
  | nil => rw [before_nil, List.append_nil]
  | cons d ds => rw [before_cons, if_pos (hd d rfl), List.append_nil]

theorem mem_before_iff :
    c ∈ before p cs ↔
      p c = false ∧ ∃ front back, cs = front ++ c :: back ∧ ∀ d ∈ front, p d = false := by
  constructor
  · intro h
    obtain ⟨front, back, hb⟩ := List.append_of_mem h
    refine ⟨not_of_mem_before h, front, back ++ cs.dropWhile (fun c => !p c), ?_, fun d hd => ?_⟩
    · rw [← List.cons_append, ← List.append_assoc, ← hb, before, List.takeWhile_append_dropWhile]
    · exact not_of_mem_before (hb ▸ List.mem_append_left _ hd)
  · rintro ⟨hc, front, back, rfl, hfront⟩
    rw [before_append hfront, before_cons, hc]
    simp

theorem before_subset_of_append_cons (hd : p d = true) (cs ds : List Char) :
    before p (cs ++ d :: ds) ⊆ cs := by
  induction cs with
  | nil => simp [before_cons, hd]
  | cons c cs ih =>
    rw [List.cons_append, before_cons]
    split
    · exact List.nil_subset _
    · exact List.cons_subset_cons c ih

theorem subset_of_after? {rest : List Char} (h : after? p cs = some rest) : rest ⊆ cs := by
  rw [after?] at h
  split at h
  · cases h
  · rename_i hdrop
    obtain rfl := Option.some.inj h
    intro c hc
    exact (List.dropWhile_suffix _).subset (hdrop ▸ List.mem_cons_of_mem _ hc)

theorem before_append_of_mem (hc : c ∈ cs) (hp : p c = true) (ds : List Char) :
    before p (cs ++ ds) = before p cs := by
  induction cs with
  | nil => cases hc
  | cons b cs ih =>
    rw [List.cons_append, before_cons, before_cons]
    split
    · rfl
    · rename_i hb
      obtain rfl | hc := List.mem_cons.mp hc
      · exact absurd hp hb
      · rw [ih hc]

theorem after?_append_of_eq_some {rest : List Char} (h : after? p cs = some rest) (ds : List Char) :
    after? p (cs ++ ds) = some (rest ++ ds) := by
  induction cs with
  | nil => cases h
  | cons c cs ih =>
    rw [after?_cons] at h
    rw [List.cons_append, after?_cons]
    split at h
    · rename_i hc
      rw [if_pos hc, Option.some.inj h]
    · rename_i hc
      rw [if_neg hc, ih h]

/-! ## One more character -/

/-- A delimiter at the end is not in front of itself. -/
theorem before_append_singleton (hd : p d = true) : before p (cs ++ [d]) = before p cs := by
  induction cs with
  | nil => rw [List.nil_append, before_cons, if_pos hd, before_nil]
  | cons c cs ih => rw [List.cons_append, before_cons, before_cons, ih]

theorem dropWhile_append_singleton (hd : p d = true) :
    (cs ++ [d]).dropWhile (fun c => !p c) = cs.dropWhile (fun c => !p c) ++ [d] := by
  induction cs with
  | nil => simp [hd]
  | cons c cs ih => cases h : p c <;> simp [h, ih]

/-- Any other character at the end is behind the delimiter, if there is one. -/
theorem after?_append_singleton (hd : p d = false) :
    after? p (cs ++ [d]) = (after? p cs).map (· ++ [d]) := by
  induction cs with
  | nil => rw [List.nil_append, after?_cons, hd]; rfl
  | cons c cs ih => rw [List.cons_append, after?_cons, after?_cons, ih]; split <;> rfl

theorem before_append_singleton_of_isSome (h : (after? p cs).isSome) (d : Char) :
    before p (cs ++ [d]) = before p cs := by
  obtain ⟨c, hc, hp⟩ : ∃ c ∈ cs, p c = true := by
    have hn : after? p cs ≠ none := Option.isSome_iff_ne_none.mp h
    simpa [after?_eq_none_iff] using hn
  exact before_append_of_mem hc hp [d]

theorem before_append_singleton_of_eq_none (h : after? p cs = none) (hd : p d = false) :
    before p (cs ++ [d]) = before p cs ++ [d] := by
  rw [before_of_after?_eq_none h, before_of_after?_eq_none]
  rw [after?_append_singleton hd, h]
  rfl

theorem before_append_singleton_eq_ite (hd : p d = false) :
    before p (cs ++ [d]) = if (after? p cs).isSome then before p cs else before p cs ++ [d] := by
  split
  · rename_i h
    exact before_append_singleton_of_isSome h d
  · rename_i h
    exact before_append_singleton_of_eq_none (Option.not_isSome_iff_eq_none.mp h) hd

/-! ## Escapes -/

namespace Percent

theorem startsWithOctet_iff :
    startsWithOctet cs = true ↔
      ∃ high low rest, cs = high :: low :: rest ∧ Hex.isDigit high = true ∧
        Hex.isDigit low = true := by
  constructor
  · intro h
    match cs, h with
    | high :: low :: rest, h => exact ⟨high, low, rest, rfl, by simpa [startsWithOctet] using h⟩
  · rintro ⟨high, low, rest, rfl, hhigh, hlow⟩
    rw [startsWithOctet, hhigh, hlow, Bool.and_self]

theorem wellFormed_iff :
    wellFormed cs = true ↔
      ∀ front back, cs = front ++ '%' :: back → startsWithOctet back = true := by
  induction cs with
  | nil => simp [wellFormed]
  | cons c cs ih =>
    rw [wellFormed, Bool.and_eq_true, ih]
    constructor
    · rintro ⟨hc, hcs⟩ front back h
      obtain ⟨-, hcons⟩ | ⟨front, -, hrest⟩ := List.cons_eq_append_iff.mp h
      · obtain ⟨rfl, rfl⟩ := List.cons.inj hcons
        simpa using hc
      · exact hcs front back hrest
    · refine fun h => ⟨?_, fun front back hcs => h (c :: front) back (hcs ▸ rfl)⟩
      by_cases hc : c = '%'
      · rw [h [] cs (hc ▸ rfl), Bool.or_true]
      · rw [bne_iff_ne.mpr hc, Bool.true_or]

theorem startsWithOctet_append (h : startsWithOctet cs = true) (ds : List Char) :
    startsWithOctet (cs ++ ds) = true := by
  match cs, h with
  | high :: low :: rest, h => exact h

theorem wellFormed_append (hc : wellFormed cs = true) (hd : wellFormed ds = true) :
    wellFormed (cs ++ ds) = true := by
  induction cs with
  | nil => exact hd
  | cons c cs ih =>
    rw [wellFormed, Bool.and_eq_true, Bool.or_eq_true] at hc
    rw [List.cons_append, wellFormed, Bool.and_eq_true, Bool.or_eq_true]
    exact ⟨hc.1.imp_right fun h => startsWithOctet_append h ds, ih hc.2⟩

end Percent

end Registration.Text
