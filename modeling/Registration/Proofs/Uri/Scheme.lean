import Registration.Proofs.Text.Cut
import Registration.Uri.Parse

/-!
# Schemes

A scheme is looked for twice: the check of the text asks for a colon in front of
the other delimiters, the scan for a first colon behind nothing but characters
of schemes. In general they differ. In a text that has passed the check they
find the same scheme:

* `HasSchemeColon`, `SchemeSplit`: the scheme of a text, said by what stands in
  front of it and behind;
* `schemeSplit_iff`: it is the one that the check finds;
* `schemeProblem?_eq_none_iff`: what the check asks of it;
* `scan?_eq_some_iff`: what the scan finds;
* `scan?_eq`: that is the scheme that the check finds in a text that passes.
-/

namespace Registration.Uri

open Text

variable {cs : List Char}

/-! ## The check -/

/-- A colon stands in front of the first slash, question mark and number sign. -/
def HasSchemeColon (cs : List Char) : Prop :=
  ∃ front back, cs = front ++ ':' :: back ∧ ∀ c ∈ front, c ∉ ['/', '?', '#']

/-- The scheme of a text, if it has one, and what follows. The colon behind the scheme is the first
one, and stands in front of the other delimiters. -/
inductive SchemeSplit : List Char → Option (List Char) → List Char → Prop
  | absolute {scheme rest : List Char} (h : ∀ c ∈ scheme, c ∉ [':', '/', '?', '#']) :
      SchemeSplit (scheme ++ ':' :: rest) (some scheme) rest
  | relative {cs : List Char} (h : ¬ HasSchemeColon cs) : SchemeSplit cs none cs

theorem isDelimiter_iff {c : Char} : isDelimiter c = true ↔ c ∈ ['/', '?', '#'] := by
  simp [isDelimiter, or_assoc]

theorem isDelimiter_eq_false_iff {c : Char} : isDelimiter c = false ↔ c ∉ ['/', '?', '#'] := by
  rw [← isDelimiter_iff, Bool.not_eq_true]

theorem hasScheme_iff : hasScheme cs = true ↔ HasSchemeColon cs := by
  rw [hasScheme, decide_eq_true_eq, mem_before_iff, and_iff_right (by decide)]
  simp only [isDelimiter_eq_false_iff, HasSchemeColon]

theorem colon_mem_of_hasScheme (h : hasScheme cs = true) : ':' ∈ cs :=
  List.takeWhile_subset _ (of_decide_eq_true h)

theorem after?_colon_of_hasScheme (h : hasScheme cs = true) :
    after? (· == ':') cs = some (hierarchy cs) := by
  cases ha : after? (· == ':') cs with
  | none => exact absurd (after?_eq_none_iff.mp ha ':' (colon_mem_of_hasScheme h)) (by decide)
  | some rest => rw [hierarchy, if_pos h, ha, Option.getD_some]

theorem SchemeSplit.schemeText?_and_hierarchy {scheme : Option (List Char)} {rest : List Char}
    (h : SchemeSplit cs scheme rest) : schemeText? cs = scheme ∧ hierarchy cs = rest := by
  cases h with
  | @absolute scheme _ h =>
    have hs : hasScheme (scheme ++ ':' :: rest) = true :=
      hasScheme_iff.mpr ⟨scheme, rest, rfl, fun c hc hm => h c hc (List.mem_cons_of_mem _ hm)⟩
    have hcolon : ∀ c ∈ scheme, (c == ':') = false := by
      intro c hc
      rw [beq_eq_false_iff_ne]
      rintro rfl
      exact h _ hc (List.mem_cons_self ..)
    rw [schemeText?, if_pos hs, hierarchy, if_pos hs, before_append hcolon, after?_append hcolon]
    simp [before_cons, after?_cons]
  | relative h =>
    have hs : ¬ hasScheme cs = true := mt hasScheme_iff.mp h
    rw [schemeText?, if_neg hs, hierarchy, if_neg hs]
    exact ⟨rfl, rfl⟩

theorem SchemeSplit.append_eq {scheme : Option (List Char)} {rest : List Char}
    (h : SchemeSplit cs scheme rest) : scheme.elim [] (· ++ [':']) ++ rest = cs := by
  cases h with
  | absolute => rw [Option.elim_some, List.append_assoc, List.singleton_append]
  | relative => rfl

theorem SchemeSplit.not_mem {scheme : Option (List Char)} {rest : List Char}
    (h : SchemeSplit cs scheme rest) {c : Char} (hc : c ∈ ['/', '?', '#']) :
    c ∉ scheme.elim [] (· ++ [':']) := by
  cases h with
  | absolute h =>
    rw [Option.elim_some, List.mem_append, not_or, List.mem_singleton]
    refine ⟨fun hm => h c hm (List.mem_cons_of_mem _ hc), ?_⟩
    rintro rfl
    exact absurd hc (by decide)
  | relative => exact List.not_mem_nil

theorem schemeSplit_self (cs : List Char) : SchemeSplit cs (schemeText? cs) (hierarchy cs) := by
  by_cases hs : hasScheme cs = true
  · have hcs := before_append_after cs (d := ':')
    rw [after?_colon_of_hasScheme hs, Option.elim_some] at hcs
    obtain ⟨front, back, hf, hfront⟩ := hasScheme_iff.mp hs
    have hscheme : ∀ c ∈ before (· == ':') cs, c ∉ [':', '/', '?', '#'] := by
      intro c hc hm
      obtain rfl | hm := List.mem_cons.mp hm
      · exact absurd (not_of_mem_before hc) (by decide)
      -- The first colon is the one in front of the delimiters, or stands before it.
      · exact hfront c (before_subset_of_append_cons (by decide) front back (hf ▸ hc)) hm
    have htext : schemeText? cs = some (before (· == ':') cs) := if_pos hs
    have hsplit : SchemeSplit (before (· == ':') cs ++ ':' :: hierarchy cs) _ _ := .absolute hscheme
    rwa [hcs, ← htext] at hsplit
  · rw [schemeText?, if_neg hs, hierarchy, if_neg hs]
    exact .relative (mt hasScheme_iff.mpr hs)

theorem schemeSplit_iff {scheme : Option (List Char)} {rest : List Char} :
    SchemeSplit cs scheme rest ↔ schemeText? cs = scheme ∧ hierarchy cs = rest := by
  refine ⟨SchemeSplit.schemeText?_and_hierarchy, ?_⟩
  rintro ⟨rfl, rfl⟩
  exact schemeSplit_self cs

theorem schemeProblem?_eq_none_iff {cs : List Char} :
    schemeProblem? cs = none ↔
      ∀ scheme, schemeText? cs = some scheme → isScheme scheme = true ∧ hierarchy cs ≠ [] := by
  rw [schemeProblem?]
  cases schemeText? cs with
  | none => simp
  | some scheme =>
    cases hs : isScheme scheme <;> by_cases hh : hierarchy cs = [] <;> simp [hs, hh]

/-! ## The scan -/

/-- A letter may stand in a scheme, so the scan asks nothing more of the first character. -/
theorem isAlpha_and_all_isSchemeChar (c : Char) (cs : List Char) :
    (c.isAlpha && (c :: cs).all isSchemeChar) = isScheme (c :: cs) := by
  have hletter : c.isAlpha = true → isSchemeChar c = true := by
    intro h
    simp [isSchemeChar, Char.isAlphanum, h]
  cases hc : c.isAlpha with
  | false => simp [isScheme, hc]
  | true => simp [isScheme, hc, hletter hc]

theorem scan?_eq_some_iff {name rest : List Char} :
    scan? cs = some (name, rest) ↔
      before (· == ':') cs = name ∧ after? (· == ':') cs = some rest ∧ isScheme name = true := by
  rw [scan?]
  split
  · rename_i c front back hbefore hafter
    rw [isAlpha_and_all_isSchemeChar, hbefore, hafter]
    split
    · rename_i hscheme
      simp only [Option.some.injEq, Prod.mk.injEq]
      constructor
      · rintro ⟨rfl, rfl⟩
        exact ⟨rfl, rfl, hscheme⟩
      · rintro ⟨rfl, rfl, -⟩
        exact ⟨rfl, rfl⟩
    · rename_i hscheme
      refine iff_of_false nofun ?_
      rintro ⟨rfl, -, h⟩
      exact hscheme h
  · rename_i hother
    refine iff_of_false nofun ?_
    rintro ⟨hbefore, hafter, hscheme⟩
    cases name with
    | nil => cases hscheme
    | cons c front => exact hother c front rest hbefore hafter

/-- No character of a scheme is one of the other delimiters. -/
theorem not_mem_delimiters_of_isScheme {name : List Char} (h : isScheme name = true) :
    ∀ c ∈ name, c ∉ ['/', '?', '#'] := by
  have hchar (c : Char) (hc : c ∈ ['/', '?', '#']) :
      c.isAlpha = false ∧ isSchemeChar c = false := by
    simp only [List.mem_cons, List.not_mem_nil, or_false] at hc
    obtain rfl | rfl | rfl := hc <;> exact ⟨rfl, rfl⟩
  cases name with
  | nil => cases h
  | cons d ds =>
    rw [isScheme, Bool.and_eq_true, List.all_eq_true] at h
    intro c hm hc
    obtain rfl | hm := List.mem_cons.mp hm
    · exact Bool.false_ne_true ((hchar c hc).1.symm.trans h.1)
    · exact Bool.false_ne_true ((hchar c hc).2.symm.trans (h.2 c hm))

/-- What the scan finds stands in front of the other delimiters. -/
theorem hasScheme_of_scan? {name rest : List Char} (h : scan? cs = some (name, rest)) :
    hasScheme cs = true := by
  obtain ⟨rfl, hafter, hscheme⟩ := scan?_eq_some_iff.mp h
  have hcs := before_append_after cs (d := ':')
  rw [hafter, Option.elim_some] at hcs
  exact hasScheme_iff.mpr ⟨_, rest, hcs.symm, not_mem_delimiters_of_isScheme hscheme⟩

/-- In a text that passes the check, the scan finds the scheme that the check has found. -/
theorem scan?_eq (h : schemeProblem? cs = none) :
    scan? cs = (schemeText? cs).map fun name => (name, hierarchy cs) := by
  by_cases hs : hasScheme cs = true
  · have htext : schemeText? cs = some (before (· == ':') cs) := if_pos hs
    have hscheme := (schemeProblem?_eq_none_iff.mp h _ htext).1
    rw [htext, Option.map_some, scan?_eq_some_iff]
    exact ⟨rfl, after?_colon_of_hasScheme hs, hscheme⟩
  · have htext : schemeText? cs = none := if_neg hs
    rw [htext, Option.map_none, Option.eq_none_iff_forall_ne_some]
    rintro ⟨name, rest⟩ hscan
    exact hs (hasScheme_of_scan? hscan)

/-- The two differ where a colon stands behind what is no scheme. -/
example : hasScheme "1http://x".toList = true ∧ scan? "1http://x".toList = none := by decide

end Registration.Uri
