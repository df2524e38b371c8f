import Registration.Proofs.Uri.Components

/-!
# References that end with a slash

A slash at the end of a text delimits nothing that was not delimited before:
it ends up in the last component that the text has.

* `withFinalSlash_idem`: a slash is added at most once;
* `withFinalSlash_eq_iff`: which texts are made the same by this;
* `schemeText?_append_slash` … `pathText_append_slash`: the components of a
  text with a slash added;
* `characterProblem?_append_slash` … `problem?_append_slash`: nothing is wrong
  with it if nothing was;
* `parse_withFinalSlash`: a reference stays one, with its scheme and authority.
-/

namespace Registration.Uri

open Text

theorem getLast?_withFinalSlash (s : String) : (withFinalSlash s).toList.getLast? = some '/' := by
  rw [withFinalSlash]
  split
  · assumption
  · rw [String.toList_append]
    exact List.getLast?_concat ..

theorem withFinalSlash_of_getLast? {s : String} (h : s.toList.getLast? = some '/') :
    withFinalSlash s = s :=
  if_pos h

theorem withFinalSlash_idem (s : String) : withFinalSlash (withFinalSlash s) = withFinalSlash s :=
  withFinalSlash_of_getLast? (getLast?_withFinalSlash s)

/-- Different texts are made the same if one is the other with a slash added. -/
theorem withFinalSlash_eq_iff {s t : String} (hne : s ≠ t) :
    withFinalSlash s = withFinalSlash t ↔
      s.toList.getLast? ≠ some '/' ∧ t = s ++ "/" ∨
        t.toList.getLast? ≠ some '/' ∧ s = t ++ "/" := by
  have hadd (u : String) (hu : u.toList.getLast? ≠ some '/') : withFinalSlash u = u ++ "/" :=
    if_neg hu
  by_cases hs : s.toList.getLast? = some '/' <;> by_cases ht : t.toList.getLast? = some '/'
  · rw [withFinalSlash_of_getLast? hs, withFinalSlash_of_getLast? ht]
    simp [hne, hs, ht]
  · rw [withFinalSlash_of_getLast? hs, hadd t ht]
    simp [hs, ht]
  · rw [hadd s hs, withFinalSlash_of_getLast? ht]
    simp [hs, ht, eq_comm]
  · rw [hadd s hs, hadd t ht]
    refine iff_of_false (fun h => hne ?_) ?_
    · have hl := congrArg String.toList h
      rw [String.toList_append, String.toList_append] at hl
      exact String.toList_injective (List.append_cancel_right hl)
    · rintro (⟨-, rfl⟩ | ⟨-, rfl⟩)
      · exact ht (by rw [String.toList_append]; exact List.getLast?_concat ..)
      · exact hs (by rw [String.toList_append]; exact List.getLast?_concat ..)

/-! ## Components -/

variable {cs : List Char}

theorem before_isDelimiter_append_slash (cs : List Char) :
    before isDelimiter (cs ++ ['/']) = before isDelimiter cs :=
  before_append_singleton rfl

theorem hasScheme_append_slash (cs : List Char) : hasScheme (cs ++ ['/']) = hasScheme cs := by
  rw [hasScheme, before_isDelimiter_append_slash, hasScheme]

theorem schemeText?_append_slash (cs : List Char) : schemeText? (cs ++ ['/']) = schemeText? cs := by
  rw [schemeText?, hasScheme_append_slash, schemeText?]
  split
  · rename_i h
    rw [before_append_of_mem (colon_mem_of_hasScheme h) (by decide)]
  · rfl

theorem hierarchy_append_slash (cs : List Char) :
    hierarchy (cs ++ ['/']) = hierarchy cs ++ ['/'] := by
  rw [hierarchy, hasScheme_append_slash]
  split
  · rename_i h
    rw [after?_append_of_eq_some (after?_colon_of_hasScheme h), Option.getD_some]
  · rename_i h
    rw [hierarchy, if_neg h]

/-- Unless the text ends with a slash, no second one is made by adding another. -/
theorem opened?_hierarchy_append_slash (h : cs.getLast? ≠ some '/') :
    opened? (hierarchy (cs ++ ['/'])) = (opened? (hierarchy cs)).map (· ++ ['/']) := by
  obtain ⟨front, hs⟩ := hierarchy_suffix cs
  refine Option.ext fun rest => ?_
  simp only [Option.map_eq_some_iff, opened?_eq_some_iff, hierarchy_append_slash]
  match hh : hierarchy cs with
  | [] => simp
  | [c] =>
    have hc : c ≠ '/' := by
      rintro rfl
      rw [← hs, hh, List.getLast?_concat] at h
      exact h rfl
    simp [hc]
  | c :: d :: cs => simp [eq_comm, and_assoc]

theorem authorityText?_append_slash (h : cs.getLast? ≠ some '/') :
    authorityText? (cs ++ ['/']) = authorityText? cs := by
  rw [authorityText?, authorityOf?, opened?_hierarchy_append_slash h, Option.map_map,
    authorityText?, authorityOf?]
  congr 1
  funext rest
  exact before_isDelimiter_append_slash rest

theorem resource_append_slash (h : cs.getLast? ≠ some '/') :
    resource (cs ++ ['/']) = resource cs ++ ['/'] := by
  rw [resource, resourceOf, opened?_hierarchy_append_slash h, resource, resourceOf]
  cases opened? (hierarchy cs) with
  | none => exact hierarchy_append_slash cs
  | some rest => exact dropWhile_append_singleton rfl

theorem fragmentText?_append_slash (h : cs.getLast? ≠ some '/') :
    fragmentText? (cs ++ ['/']) = (fragmentText? cs).map (· ++ ['/']) := by
  rw [fragmentText?_eq, resource_append_slash h, after?_append_singleton (by decide),
    fragmentText?_eq]

theorem queryText?_append_slash (h : cs.getLast? ≠ some '/') :
    queryText? (cs ++ ['/']) =
      if (fragmentText? cs).isSome then queryText? cs else (queryText? cs).map (· ++ ['/']) := by
  rw [queryText?_eq, resource_append_slash h, before_append_singleton_eq_ite (by decide),
    ← fragmentText?_eq, queryText?_eq]
  split
  · rfl
  · exact after?_append_singleton (by decide)

theorem pathText_append_slash (h : cs.getLast? ≠ some '/') :
    pathText (cs ++ ['/']) =
      if (fragmentText? cs).isSome ∨ (queryText? cs).isSome then pathText cs
      else pathText cs ++ ['/'] := by
  rw [pathText_eq, resource_append_slash h, before_append_singleton_eq_ite (by decide),
    ← fragmentText?_eq, pathText_eq]
  by_cases hf : (fragmentText? cs).isSome
  · rw [if_pos hf, if_pos (.inl hf)]
  · rw [if_neg hf, before_append_singleton_eq_ite (by decide), ← queryText?_eq]
    simp only [or_iff_right hf]

/-! ## Checks -/

theorem characterProblem?_append_slash (hp : characterProblem? cs = none) :
    characterProblem? (cs ++ ['/']) = none := by
  obtain ⟨hlegal, hescapes⟩ := characterProblem?_eq_none_iff.mp hp
  have hslash : isIllegal '/' = false := by decide
  refine characterProblem?_eq_none_iff.mpr ⟨fun c hc => ?_, ?_⟩
  · obtain hc | hc := List.mem_append.mp hc
    · exact hlegal c hc
    · rw [List.mem_singleton.mp hc, hslash]
  · exact Percent.wellFormed_append hescapes rfl

theorem schemeProblem?_append_slash (hp : schemeProblem? cs = none) :
    schemeProblem? (cs ++ ['/']) = none := by
  refine schemeProblem?_eq_none_iff.mpr fun scheme hs => ?_
  rw [schemeText?_append_slash] at hs
  have hscheme : isScheme scheme = true := (schemeProblem?_eq_none_iff.mp hp scheme hs).1
  have hne : hierarchy (cs ++ ['/']) ≠ [] := by
    rw [hierarchy_append_slash]
    simp
  exact ⟨hscheme, hne⟩

theorem not_mem_fragment_append_slash
    (hp : ∀ fragment, fragmentText? cs = some fragment → '#' ∉ fragment)
    (h : cs.getLast? ≠ some '/') :
    ∀ fragment, fragmentText? (cs ++ ['/']) = some fragment → '#' ∉ fragment := by
  intro fragment hf
  rw [fragmentText?_append_slash h, Option.map_eq_some_iff] at hf
  obtain ⟨shorter, hf, rfl⟩ := hf
  have hn : '#' ∉ shorter := hp shorter hf
  simpa using hn

theorem IsOpenedByMore.append_slash (hp : IsOpenedByMore cs) (h : cs.getLast? ≠ some '/') :
    IsOpenedByMore (cs ++ ['/']) := by
  intro ha
  rw [authorityText?_append_slash h] at ha
  have hn : pathText cs ≠ [] := hp ha
  rw [pathText_append_slash h]
  split
  · exact hn
  · exact List.append_ne_nil_of_left_ne_nil hn _

/-- A text with which nothing is wrong may be followed by a slash. -/
theorem problem?_append_slash (hp : problem? cs = none) (h : cs.getLast? ≠ some '/') :
    problem? (cs ++ ['/']) = none := by
  obtain ⟨hchar, hscheme, hauth, hfrag, hempty⟩ := problem?_eq_none_iff.mp hp
  rw [problem?_eq_none_iff, authorityText?_append_slash h]
  exact ⟨characterProblem?_append_slash hchar, schemeProblem?_append_slash hscheme, hauth,
    not_mem_fragment_append_slash hfrag h, hempty.append_slash h⟩

/-- A reference made to end with a slash is one of the same scheme and authority. -/
theorem parse_withFinalSlash {s : String} {u : Uri} (h : parse s = .ok u) :
    ∃ u', parse (withFinalSlash s) = .ok u' ∧ u'.scheme = u.scheme ∧
      u'.authority = u.authority := by
  obtain ⟨hp, rfl⟩ := parse_eq_ok_iff.mp h
  rw [withFinalSlash]
  split
  · exact ⟨_, h, rfl, rfl⟩
  · rename_i hl
    refine ⟨split (s ++ "/").toList, ?_, ?_, ?_⟩
    · rw [parse_eq_ok_iff, String.toList_append]
      exact ⟨problem?_append_slash hp hl, rfl⟩
    · rw [String.toList_append]
      exact congrArg (Option.map _) (schemeText?_append_slash _)
    · rw [String.toList_append]
      exact congrArg (Option.map _) (authorityText?_append_slash hl)

end Registration.Uri
