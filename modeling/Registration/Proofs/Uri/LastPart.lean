import Registration.Proofs.Uri.FinalSlash

/-!
# Where the final slash goes

A slash behind a reference belongs to the last part that the reference has, and
the part can be told from the delimiters of the text.

* `Part`, `lastPart`: path, query and fragment, and the last one in a text;
* `mem_hierarchy_iff`: no delimiter of these parts stands in the scheme;
* `isSome_part_lastPart`, `part_append_slash`: the last part is there, and is the
  one that changes;
* `withFinalSlash_extends_lastPart`: a reference stays one with its scheme and
  authority, and nothing but its last part gets longer.
-/

namespace Registration.Uri

open Text

variable {cs : List Char}

/-! ## Parts -/

/-- The components behind the authority. -/
inductive Part where
  | path
  | query
  | fragment
  deriving DecidableEq

/-- The text of a part; a path is never missing. -/
def part (u : Uri) : Part → Option String
  | .path => some u.path
  | .query => u.query
  | .fragment => u.fragment

/-- The last part that a text has. -/
def lastPart (cs : List Char) : Part :=
  if '#' ∈ cs then .fragment else if '?' ∈ cs then .query else .path

theorem mem_hierarchy_iff {c : Char} (hc : c ∈ ['/', '?', '#']) : c ∈ hierarchy cs ↔ c ∈ cs := by
  have hsplit := schemeSplit_self cs
  have hmem : c ∈ cs ↔ c ∈ (schemeText? cs).elim [] (· ++ [':']) ++ hierarchy cs := by
    rw [hsplit.append_eq]
  rw [hmem, List.mem_append, or_iff_right (hsplit.not_mem hc)]

theorem isSome_fragmentText?_iff_mem : (fragmentText? cs).isSome = true ↔ '#' ∈ cs := by
  rw [isSome_fragmentText?_iff, mem_hierarchy_iff (by decide)]

theorem isSome_queryText?_iff_mem (h : '#' ∉ cs) : (queryText? cs).isSome = true ↔ '?' ∈ cs := by
  have hn : '#' ∉ hierarchy cs := mt (mem_hierarchy_iff (by decide)).mp h
  rw [isSome_queryText?_iff, ← mem_hierarchy_iff (by decide)]
  constructor
  · rintro ⟨front, back, hcs, -⟩
    rw [hcs]
    exact List.mem_append_right front (List.mem_cons_self ..)
  · intro hm
    obtain ⟨front, back, hcs⟩ := List.append_of_mem hm
    exact ⟨front, back, hcs, fun hf => hn (hcs ▸ List.mem_append_left _ hf)⟩

/-- The delimiters of a text tell which components it has. -/
theorem lastPart_eq (cs : List Char) :
    lastPart cs =
      if (fragmentText? cs).isSome then .fragment
      else if (queryText? cs).isSome then .query
      else .path := by
  by_cases hnumber : '#' ∈ cs
  · rw [lastPart, if_pos hnumber, if_pos (isSome_fragmentText?_iff_mem.mpr hnumber)]
  · have hquery := isSome_queryText?_iff_mem hnumber
    rw [lastPart, if_neg hnumber, if_neg (mt isSome_fragmentText?_iff_mem.mp hnumber)]
    by_cases hquestion : '?' ∈ cs
    · rw [if_pos hquestion, if_pos (hquery.mpr hquestion)]
    · rw [if_neg hquestion, if_neg (mt hquery.mp hquestion)]

theorem isSome_part_lastPart (cs : List Char) : ((split cs).part (lastPart cs)).isSome = true := by
  rw [lastPart_eq]
  split
  · rw [part, split_eq, Option.isSome_map]
    assumption
  · split
    · rw [part, split_eq, Option.isSome_map]
      assumption
    · rfl

/-! ## Slashes -/

/-- A slash at the end makes the last part longer, and no other. -/
theorem part_append_slash (h : cs.getLast? ≠ some '/') (p : Part) :
    (split (cs ++ ['/'])).part p =
      if p = lastPart cs then ((split cs).part p).map (· ++ "/") else (split cs).part p := by
  rw [lastPart_eq]
  cases p with
  | path =>
    simp only [part, split_eq, pathText_append_slash h]
    cases fragmentText? cs <;> cases queryText? cs <;> simp [String.ofList_append]
  | query =>
    simp only [part, split_eq, queryText?_append_slash h]
    cases fragmentText? cs <;> cases queryText? cs <;> simp [String.ofList_append]
  | fragment =>
    simp only [part, split_eq, fragmentText?_append_slash h]
    cases fragmentText? cs <;> cases queryText? cs <;> simp [String.ofList_append]

/-- A reference made to end with a slash is one of the same scheme and authority, and stays as it is
if this is done again. Of the other parts only the last one is longer by the slash. -/
theorem withFinalSlash_extends_lastPart {s : String} {u : Uri} (h : parse s = .ok u) :
    ∃ u', parse (withFinalSlash s) = .ok u' ∧ u'.scheme = u.scheme ∧ u'.authority = u.authority ∧
      withFinalSlash (withFinalSlash s) = withFinalSlash s ∧
      (s.toList.getLast? ≠ some '/' →
        (∀ p, u'.part p ≠ u.part p ↔ p = lastPart s.toList) ∧
        ∃ t, u.part (lastPart s.toList) = some t ∧
          u'.part (lastPart s.toList) = some (t ++ "/")) := by
  obtain ⟨u', h', hscheme, hauthority⟩ := parse_withFinalSlash h
  refine ⟨u', h', hscheme, hauthority, withFinalSlash_idem s, fun hl => ?_⟩
  obtain ⟨-, rfl⟩ := parse_eq_ok_iff.mp h
  have hu' : split (s.toList ++ ['/']) = u' := by
    have hadd : withFinalSlash s = s ++ "/" := if_neg hl
    rw [hadd, parse_eq_ok_iff, String.toList_append] at h'
    exact h'.2.symm
  have hpart := part_append_slash hl
  obtain ⟨t, ht⟩ := Option.isSome_iff_exists.mp (isSome_part_lastPart s.toList)
  have hlast : u'.part (lastPart s.toList) = some (t ++ "/") := by
    rw [← hu', hpart, if_pos rfl, ht, Option.map_some]
  refine ⟨fun p => ⟨fun hne => ?_, ?_⟩, t, ht, hlast⟩
  · refine Classical.byContradiction fun hp => hne ?_
    rw [← hu', hpart, if_neg hp]
  · rintro rfl heq
    rw [hlast, ht, Option.some.injEq] at heq
    have hlength := congrArg String.length heq
    simp at hlength

/-- The slash in front of the number sign is not the last character, and the empty fragment behind
it is the last part. -/
theorem withFinalSlash_extends_lastPart_of_empty_fragment :
    parse "https://a.test?x=/#" =
      .ok ⟨some "https", some "a.test", "", some "x=/", some ""⟩ ∧
    "https://a.test?x=/#".toList.getLast? ≠ some '/' ∧
    ∃ u', parse (withFinalSlash "https://a.test?x=/#") = .ok u' ∧ u'.scheme = some "https" ∧
      u'.authority = some "a.test" ∧
      withFinalSlash (withFinalSlash "https://a.test?x=/#") = withFinalSlash "https://a.test?x=/#" ∧
      (∀ p, u'.part p ≠
          part ⟨some "https", some "a.test", "", some "x=/", some ""⟩ p ↔ p = .fragment) ∧
      u'.part .fragment = some "/" := by
  have hparse : parse "https://a.test?x=/#" =
    .ok ⟨some "https", some "a.test", "", some "x=/", some ""⟩ := rfl
  have hl : "https://a.test?x=/#".toList.getLast? ≠ some '/' := by decide
  obtain ⟨u', h', hscheme, hauthority, hidem, hlast⟩ := withFinalSlash_extends_lastPart hparse
  obtain ⟨hpart, t, ht, hfragment⟩ := hlast hl
  have hempty : t = "" := (Option.some.inj ht).symm
  rw [hempty] at hfragment
  exact ⟨hparse, hl, u', h', hscheme, hauthority, hidem, hpart, hfragment⟩

end Registration.Uri
