import Registration.Proofs.Uri.Scheme

/-!
# Reading URI references

A text that is read is split by the scan, but it has passed the check of its
scheme. So its components are those of the text behind the scheme that the check
has found:

* `authorityText?` … `pathText`, `split`: these components;
* `scanned_eq_split`, `behindScheme_split`: they are what the scan finds, and
  where the length of the scheme leads;
* `IsOpenedByMore`: two slashes in front are followed by an authority or a path;
* `problem?_eq_none_iff`: nothing is wrong with a text if each check passes;
* `parse_eq_ok_iff`: reading gives the components of such a text;
* `ofValue_eq_ok_iff`: only texts can be read;
* `scheme_ne_empty_of_parse`: a scheme that is read is not empty.
-/

namespace Registration.Uri

open Text

variable {cs : List Char}

/-! ## Components -/

def authorityText? (cs : List Char) : Option (List Char) :=
  authorityOf? (hierarchy cs)

def resource (cs : List Char) : List Char :=
  resourceOf (hierarchy cs)

def fragmentText? (cs : List Char) : Option (List Char) :=
  fragmentOf? (hierarchy cs)

def queryText? (cs : List Char) : Option (List Char) :=
  queryOf? (hierarchy cs)

def pathText (cs : List Char) : List Char :=
  pathOf (hierarchy cs)

/-- A text in components, by the scheme in front of the other delimiters. -/
def split (cs : List Char) : Uri :=
  components (schemeText? cs) (hierarchy cs)

theorem fragmentText?_eq (cs : List Char) : fragmentText? cs = after? (· == '#') (resource cs) :=
  rfl

theorem queryText?_eq (cs : List Char) :
    queryText? cs = after? (· == '?') (before (· == '#') (resource cs)) :=
  rfl

theorem pathText_eq (cs : List Char) :
    pathText cs = before (· == '?') (before (· == '#') (resource cs)) :=
  rfl

theorem split_eq (cs : List Char) :
    split cs =
      { scheme := (schemeText? cs).map fun name => String.ofList (name.map Char.toLower)
        authority := (authorityText? cs).map String.ofList
        path := String.ofList (pathText cs)
        query := (queryText? cs).map String.ofList
        fragment := (fragmentText? cs).map String.ofList } :=
  rfl

/-! ## What the scan finds -/

theorem hierarchy_eq_self (h : schemeText? cs = none) : hierarchy cs = cs := by
  have hcs := (schemeSplit_self cs).append_eq
  rwa [h] at hcs

theorem scanned_eq_split (h : schemeProblem? cs = none) : scanned cs = split cs := by
  rw [scanned, scan?_eq h, split]
  cases hs : schemeText? cs with
  | none => rw [Option.map_none, hierarchy_eq_self hs]
  | some name => rfl

/-- Lower case leaves the length of a scheme as it is. -/
theorem behindScheme_split (cs : List Char) : behindScheme cs (split cs) = hierarchy cs := by
  have hcs := (schemeSplit_self cs).append_eq
  rw [behindScheme, split, components, Option.elim_map]
  cases hs : schemeText? cs with
  | none => rw [Option.elim_none, List.drop_zero, hierarchy_eq_self hs]
  | some name =>
    rw [hs, Option.elim_some] at hcs
    have hdrop : (name ++ [':'] ++ hierarchy cs).drop (name ++ [':']).length = hierarchy cs :=
      List.drop_left
    rw [hcs, List.length_append, List.length_singleton] at hdrop
    simpa only [Option.elim_some, Function.comp_apply, String.toList_ofList, List.length_map]
      using hdrop

theorem opened?_eq_some_iff {rest : List Char} :
    opened? cs = some rest ↔ cs = '/' :: '/' :: rest := by
  unfold opened?
  split
  · simp
  · rename_i h
    exact iff_of_false nofun (h rest)

/-! ## Checks -/

/-- The first problem is found if there is any. -/
theorem orElse_eq_none_iff {α : Type} {a b : Option α} :
    (a <|> b) = none ↔ a = none ∧ b = none := by
  cases a <;> simp

theorem characterProblem?_eq_none_iff {cs : List Char} :
    characterProblem? cs = none ↔
      (∀ c ∈ cs, isIllegal c = false) ∧ Text.Percent.wellFormed cs = true := by
  rw [characterProblem?]
  split
  · rename_i h
    obtain ⟨c, hc, hi⟩ := List.any_eq_true.mp h
    refine iff_of_false (by simp) fun ⟨hl, _⟩ => ?_
    rw [hl c hc] at hi
    exact Bool.false_ne_true hi
  · rename_i h
    have hl : ∀ c ∈ cs, isIllegal c = false := by simpa using h
    split <;> simp_all

theorem fragmentProblem?_split_eq_none_iff :
    fragmentProblem? (split cs) = none ↔
      ∀ fragment, fragmentText? cs = some fragment → '#' ∉ fragment := by
  rw [fragmentProblem?, split_eq]
  cases fragmentText? cs with
  | none => simp
  | some fragment => by_cases h : '#' ∈ fragment <;> simp [h]

/-- Two slashes in front are followed by an authority or a path. -/
def IsOpenedByMore (cs : List Char) : Prop :=
  authorityText? cs = some [] → pathText cs ≠ []

theorem emptinessProblem?_split_eq_none_iff :
    emptinessProblem? cs (split cs) = none ↔ IsOpenedByMore cs := by
  have hopened : ['/', '/'].isPrefixOf (hierarchy cs) = true ∧
      ((authorityText? cs).map String.ofList).getD "" = "" ↔ authorityText? cs = some [] := by
    rw [authorityText?, authorityOf?]
    cases ho : opened? (hierarchy cs) with
    | none =>
      refine iff_of_false (fun h => ?_) nofun
      obtain ⟨rest, hrest⟩ := List.isPrefixOf_iff_prefix.mp h.1
      rw [opened?_eq_some_iff.mpr hrest.symm] at ho
      cases ho
    | some rest =>
      rw [opened?_eq_some_iff.mp ho]
      simp
  rw [emptinessProblem?, behindScheme_split, split_eq]
  simp only [Bool.and_eq_true, beq_iff_eq, hopened, String.ofList_eq_empty_iff, IsOpenedByMore]
  split
  · rename_i h
    exact iff_of_false nofun fun hn => hn h.1 h.2
  · rename_i h
    exact iff_of_true rfl fun ha hp => h ⟨ha, hp⟩

theorem problem?_eq_none_iff :
    problem? cs = none ↔
      characterProblem? cs = none ∧ schemeProblem? cs = none ∧
        (∀ authority, authorityText? cs = some authority → authorityProblem? authority = none) ∧
        (∀ fragment, fragmentText? cs = some fragment → '#' ∉ fragment) ∧ IsOpenedByMore cs := by
  have hauthority : (split cs).authority = (authorityText? cs).map String.ofList := rfl
  simp only [problem?, orElse_eq_none_iff]
  refine and_congr_right fun _ => and_congr_right fun hscheme => ?_
  simp only [scanned_eq_split hscheme, fragmentProblem?_split_eq_none_iff,
    emptinessProblem?_split_eq_none_iff, hauthority, Option.bind_map, Option.bind_eq_none_iff,
    Function.comp_apply, String.toList_ofList]

/-! ## References -/

theorem parse_eq_ok_iff {s : String} {u : Uri} :
    parse s = .ok u ↔ problem? s.toList = none ∧ u = split s.toList := by
  rw [parse]
  cases hp : problem? s.toList with
  | none => simp [scanned_eq_split (problem?_eq_none_iff.mp hp).2.1, eq_comm]
  | some e => simp

theorem ofValue_eq_ok_iff {v : Value} {u : Uri} :
    ofValue v = .ok u ↔ ∃ s, v = .str s ∧ parse s = .ok u := by
  cases v <;> simp [ofValue]

/-- The scheme of a reference that has one has at least one character. -/
theorem scheme_ne_empty_of_parse {s : String} {u : Uri} (h : parse s = .ok u) {t : String}
    (ht : u.scheme = some t) : t ≠ "" := by
  obtain ⟨hp, rfl⟩ := parse_eq_ok_iff.mp h
  obtain ⟨scheme, hs, rfl⟩ := Option.map_eq_some_iff.mp ht
  obtain ⟨hscheme, -⟩ := schemeProblem?_eq_none_iff.mp (problem?_eq_none_iff.mp hp).2.1 scheme hs
  rw [Ne, String.ofList_eq_empty_iff, List.map_eq_nil_iff]
  rintro rfl
  exact Bool.false_ne_true hscheme

end Registration.Uri
