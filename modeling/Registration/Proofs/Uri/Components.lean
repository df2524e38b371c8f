import Registration.Proofs.Uri.Parse
import Registration.Rule.Check

/-!
# The components of a text

A text is split without loss, and where each component stands can be told
without the functions that find it:

* `AuthoritySplit`: the authority of a text, said by what stands in front of it
  and behind;
* `authorityText?_eq_some_iff`: it is the one found;
* `text`, `Delimited`: components written one behind the other, none of which
  holds a delimiter that ends it;
* `IsComposed`: a text in components, of which it tells which there are;
* `isComposed_split`: this is how a text with one fragment at most is split;
* `parse_loses_nothing`: reading gives the components of the whole text.
-/

namespace Registration.Uri

open Text

variable {cs : List Char}

theorem hierarchy_suffix (cs : List Char) : hierarchy cs <:+ cs := by
  rw [hierarchy]
  split
  · have h := before_append_after cs (d := ':')
    cases ha : after? (· == ':') cs with
    | none => exact List.nil_suffix
    | some rest =>
      rw [ha] at h
      exact ⟨before (· == ':') cs ++ [':'], by simpa using h⟩
  · exact List.suffix_rfl

/-! ## Authorities -/

/-- The authority that opens a text, and what follows from the next delimiter on. -/
structure AuthoritySplit (cs authority behind : List Char) : Prop where
  eq_append : cs = authority ++ behind
  not_delimiter : ∀ c ∈ authority, c ∉ ['/', '?', '#']
  delimiter : ∀ c ∈ behind.head?, c ∈ ['/', '?', '#']

theorem AuthoritySplit.before_eq {authority behind : List Char}
    (h : AuthoritySplit cs authority behind) : before isDelimiter cs = authority := by
  rw [h.eq_append]
  exact before_append_of_head? (fun c hc => isDelimiter_eq_false_iff.mpr (h.not_delimiter c hc))
    fun c hc => isDelimiter_iff.mpr (h.delimiter c hc)

theorem authoritySplit_self (cs : List Char) :
    AuthoritySplit cs (before isDelimiter cs) (cs.dropWhile fun c => !isDelimiter c) where
  eq_append := List.takeWhile_append_dropWhile.symm
  not_delimiter c hc := isDelimiter_eq_false_iff.mp (not_of_mem_before hc)
  delimiter c hc := by
    have hhead := List.head?_dropWhile_not (fun c => !isDelimiter c) cs
    rw [Option.mem_def.mp hc] at hhead
    exact isDelimiter_iff.mp (by simpa using hhead)

/-- The authority of a text stands between two slashes that open what follows the scheme, and the
next delimiter. -/
theorem authorityText?_eq_some_iff {authority : List Char} :
    authorityText? cs = some authority ↔
      ∃ scheme rest behind, SchemeSplit cs scheme ('/' :: '/' :: rest) ∧
        AuthoritySplit rest authority behind := by
  rw [authorityText?, authorityOf?, Option.map_eq_some_iff]
  simp only [opened?_eq_some_iff]
  constructor
  · rintro ⟨rest, hrest, rfl⟩
    exact ⟨_, rest, _, hrest ▸ schemeSplit_self cs, authoritySplit_self rest⟩
  · rintro ⟨scheme, rest, behind, hscheme, hauthority⟩
    exact ⟨rest, hscheme.schemeText?_and_hierarchy.2, hauthority.before_eq⟩

/-! ## The whole text -/

/-- Components written one behind the other, with the scheme as it is given. -/
def text (scheme : Option (List Char)) (u : Uri) : List Char :=
  scheme.elim [] (· ++ [':']) ++ u.authority.elim [] ('/' :: '/' :: ·.toList) ++ u.path.toList ++
    u.query.elim [] ('?' :: ·.toList) ++ u.fragment.elim [] ('#' :: ·.toList)

/-- No component holds a delimiter that would end it, and the fragment does not start again. -/
structure Delimited (u : Uri) : Prop where
  authority : ∀ t ∈ u.authority, ∀ c ∈ t.toList, c ∉ ['/', '?', '#']
  path : ∀ c ∈ u.path.toList, c ∉ ['?', '#']
  query : ∀ t ∈ u.query, '#' ∉ t.toList
  fragment : ∀ t ∈ u.fragment, '#' ∉ t.toList

/-- A text in components: its scheme in lower case, and the others as they stand in it. The `rest`
behind the scheme tells which there are. -/
structure IsComposed (cs : List Char) (scheme : Option (List Char)) (rest : List Char) (u : Uri) :
    Prop where
  schemeSplit : SchemeSplit cs scheme rest
  scheme_eq : u.scheme = scheme.map fun name => String.ofList (name.map Char.toLower)
  text_eq : u.text scheme = cs
  delimited : u.Delimited
  isSome_authority : u.authority.isSome = true ↔ ∃ tail, rest = '/' :: '/' :: tail
  isSome_query : u.query.isSome = true ↔ ∃ front back, rest = front ++ '?' :: back ∧ '#' ∉ front
  isSome_fragment : u.fragment.isSome = true ↔ '#' ∈ rest

theorem eq_authority_append (cs : List Char) :
    (authorityText? cs).elim [] ('/' :: '/' :: ·) ++ resource cs = hierarchy cs := by
  rw [authorityText?, authorityOf?, resource, resourceOf]
  cases h : opened? (hierarchy cs) with
  | none => rfl
  | some rest =>
    rw [opened?_eq_some_iff.mp h]
    exact congrArg ('/' :: '/' :: ·) List.takeWhile_append_dropWhile

theorem eq_path_append (cs : List Char) :
    pathText cs ++ (queryText? cs).elim [] ('?' :: ·) ++ (fragmentText? cs).elim [] ('#' :: ·) =
      resource cs := by
  rw [pathText_eq, queryText?_eq, fragmentText?_eq, before_append_after, before_append_after]

theorem text_split (cs : List Char) : (split cs).text (schemeText? cs) = cs := by
  have h := (schemeSplit_self cs).append_eq
  rw [← eq_authority_append, ← eq_path_append] at h
  simpa only [text, split_eq, Option.elim_map, String.toList_ofList, List.append_assoc,
    Function.comp_def] using h

theorem not_delimiter_of_authorityText? {authority : List Char}
    (h : authorityText? cs = some authority) : ∀ c ∈ authority, c ∉ ['/', '?', '#'] := by
  obtain ⟨scheme, rest, behind, -, hauthority⟩ := authorityText?_eq_some_iff.mp h
  exact hauthority.not_delimiter

theorem delimited_split (h : ∀ fragment, fragmentText? cs = some fragment → '#' ∉ fragment) :
    (split cs).Delimited where
  authority t ht := by
    obtain ⟨authority, ha, rfl⟩ := Option.map_eq_some_iff.mp ht
    rw [String.toList_ofList]
    exact not_delimiter_of_authorityText? ha
  path c hc := by
    rw [split_eq, String.toList_ofList, pathText_eq] at hc
    have hquestion : c ≠ '?' := by simpa using not_of_mem_before hc
    have hnumber : c ≠ '#' := by simpa using not_of_mem_before (List.takeWhile_subset _ hc)
    simp [hquestion, hnumber]
  query t ht := by
    obtain ⟨query, hq, rfl⟩ := Option.map_eq_some_iff.mp ht
    rw [String.toList_ofList]
    intro hm
    exact absurd (not_of_mem_before (subset_of_after? hq hm)) (by decide)
  fragment t ht := by
    obtain ⟨fragment, hf, rfl⟩ := Option.map_eq_some_iff.mp ht
    rw [String.toList_ofList]
    exact h fragment hf

/-- The delimiters of query and fragment stand behind the authority. -/
theorem ne_of_mem_opening {c : Char} (h : c ∈ (authorityText? cs).elim [] ('/' :: '/' :: ·)) :
    c ≠ '?' ∧ c ≠ '#' := by
  cases ha : authorityText? cs with
  | none =>
    rw [ha] at h
    cases h
  | some authority =>
    rw [ha, Option.elim_some, List.mem_cons, List.mem_cons] at h
    obtain rfl | rfl | h := h
    · decide
    · decide
    · have hc := not_delimiter_of_authorityText? ha c h
      simp only [List.mem_cons, not_or] at hc
      exact ⟨hc.2.1, hc.2.2.1⟩

theorem isSome_authorityText?_iff :
    (authorityText? cs).isSome = true ↔ ∃ tail, hierarchy cs = '/' :: '/' :: tail := by
  simp only [authorityText?, authorityOf?, Option.isSome_map, Option.isSome_iff_exists,
    opened?_eq_some_iff]

theorem isSome_queryText?_iff :
    (queryText? cs).isSome = true ↔
      ∃ front back, hierarchy cs = front ++ '?' :: back ∧ '#' ∉ front := by
  have hbefore : before (· == '#') (hierarchy cs) =
      (authorityText? cs).elim [] ('/' :: '/' :: ·) ++ before (· == '#') (resource cs) := by
    rw [← eq_authority_append, before_append fun c hc => beq_false_of_ne (ne_of_mem_opening hc).2]
  have hmem : '?' ∈ before (· == '#') (resource cs) ↔ '?' ∈ before (· == '#') (hierarchy cs) := by
    rw [hbefore, List.mem_append, or_iff_right fun hm => (ne_of_mem_opening hm).1 rfl]
  rw [queryText?_eq, isSome_after?_iff, hmem, mem_before_iff, and_iff_right (by decide)]
  simp only [beq_eq_false_iff_ne, ne_eq, List.forall_mem_ne']

theorem isSome_fragmentText?_iff : (fragmentText? cs).isSome = true ↔ '#' ∈ hierarchy cs := by
  rw [fragmentText?_eq, isSome_after?_iff, ← eq_authority_append cs, List.mem_append,
    or_iff_right fun hm => (ne_of_mem_opening hm).2 rfl]

theorem isComposed_split (h : ∀ fragment, fragmentText? cs = some fragment → '#' ∉ fragment) :
    IsComposed cs (schemeText? cs) (hierarchy cs) (split cs) where
  schemeSplit := schemeSplit_self cs
  scheme_eq := rfl
  text_eq := text_split cs
  delimited := delimited_split h
  isSome_authority := by rw [split_eq, Option.isSome_map, isSome_authorityText?_iff]
  isSome_query := by rw [split_eq, Option.isSome_map, isSome_queryText?_iff]
  isSome_fragment := by rw [split_eq, Option.isSome_map, isSome_fragmentText?_iff]

/-! ## References -/

theorem isSome_scheme_of_parse {s : String} {u : Uri} (h : parse s = .ok u) :
    u.scheme.isSome = true ↔ HasSchemeColon s.toList := by
  obtain ⟨-, rfl⟩ := parse_eq_ok_iff.mp h
  rw [split_eq, Option.isSome_map, schemeText?, ← hasScheme_iff]
  simp

/-- Reading gives the components of the whole text, and a scheme exactly if a colon stands in front
of the other delimiters. The scan finds that scheme too, and the text behind it is where the length
of the scheme leads. Where an absolute reference is asked for, the references without such a colon
are rejected. -/
theorem parse_loses_nothing {s : String} {u : Uri} (h : parse s = .ok u) :
    (∃ scheme rest, IsComposed s.toList scheme rest u ∧
      scan? s.toList = scheme.map (fun name => (name, rest)) ∧ behindScheme s.toList u = rest) ∧
      (u.scheme.getD "" ≠ "" ↔ HasSchemeColon s.toList) ∧
      ∀ f, Rule.uri f true (.str s) =
          .error (.rejected (.ofField .notAbsoluteUri f (.str s))) ↔
        ¬ HasSchemeColon s.toList := by
  obtain ⟨hp, hu⟩ := parse_eq_ok_iff.mp h
  obtain ⟨-, hscheme, -, hfragment, -⟩ := problem?_eq_none_iff.mp hp
  refine ⟨⟨_, _, hu ▸ isComposed_split hfragment, scan?_eq hscheme, hu ▸ behindScheme_split _⟩, ?_,
    fun f => ?_⟩
  · rw [← isSome_scheme_of_parse h]
    cases hs : u.scheme with
    | none => simp
    | some t => simpa using scheme_ne_empty_of_parse h hs
  · have hrefuse : Failure.refuse .notAbsoluteUri f (.str s) =
        .rejected (.ofField .notAbsoluteUri f (.str s)) := rfl
    rw [← isSome_scheme_of_parse h, Rule.uri, h]
    cases hs : u.scheme <;> simp [hs, hrefuse]

/-- Delimiters that are not the first of their kind belong to the component in which they stand. -/
theorem parse_loses_nothing_of_late_delimiters :
    parse "Web+A://u@h:1/a:b//?c:/?#" =
      .ok ⟨some "web+a", some "u@h:1", "/a:b//", some "c:/?", some ""⟩ ∧
    (∃ scheme rest, IsComposed "Web+A://u@h:1/a:b//?c:/?#".toList scheme rest
        ⟨some "web+a", some "u@h:1", "/a:b//", some "c:/?", some ""⟩ ∧
      scan? "Web+A://u@h:1/a:b//?c:/?#".toList = scheme.map (fun name => (name, rest)) ∧
      behindScheme "Web+A://u@h:1/a:b//?c:/?#".toList
        ⟨some "web+a", some "u@h:1", "/a:b//", some "c:/?", some ""⟩ = rest) ∧
    ((some "web+a").getD "" ≠ "" ↔ HasSchemeColon "Web+A://u@h:1/a:b//?c:/?#".toList) ∧
    ∀ f, Rule.uri f true (.str "Web+A://u@h:1/a:b//?c:/?#") =
        .error (.rejected (.ofField .notAbsoluteUri f (.str "Web+A://u@h:1/a:b//?c:/?#"))) ↔
      ¬ HasSchemeColon "Web+A://u@h:1/a:b//?c:/?#".toList :=
  ⟨rfl, parse_loses_nothing rfl⟩

end Registration.Uri
