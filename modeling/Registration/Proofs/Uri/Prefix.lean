import Registration.Proofs.Uri.Grammar

/-!
# References that go on

A text that ends with a slash may go on in many ways. What its scheme and its
authority are is settled before the slash, unless the slash is the first of the
two in front of an authority:

* `SchemeSplit.append`, `AuthoritySplit.append`: what is found in a text is
  found in a longer one;
* `IsSchemeRoot`: nothing but a scheme and one slash;
* `authorityText?_append`: the authority of a text that goes on;
* `parse_of_prefix`: scheme and authority of a reference that goes on.
-/

namespace Registration.Uri

open Text

variable {cs : List Char}

theorem SchemeSplit.append {name rest : List Char} (h : SchemeSplit cs (some name) rest)
    (ds : List Char) : SchemeSplit (cs ++ ds) (some name) (rest ++ ds) := by
  cases h with
  | absolute h =>
    rw [List.append_assoc]
    exact .absolute h

theorem AuthoritySplit.append {authority behind : List Char}
    (h : AuthoritySplit cs authority behind) (hb : behind ≠ []) (ds : List Char) :
    AuthoritySplit (cs ++ ds) authority (behind ++ ds) where
  eq_append := by rw [h.eq_append, List.append_assoc]
  not_delimiter := h.not_delimiter
  delimiter := by
    cases behind with
    | nil => exact absurd rfl hb
    | cons c behind => exact h.delimiter

theorem authorityText?_eq_none_iff :
    authorityText? cs = none ↔ ∀ rest, hierarchy cs ≠ '/' :: '/' :: rest := by
  rw [authorityText?, authorityOf?, Option.map_eq_none_iff, Option.eq_none_iff_forall_ne_some]
  simp only [Ne, opened?_eq_some_iff]

/-! ## Texts that end with a slash -/

/-- A scheme with its colon and a single slash. -/
def IsSchemeRoot (cs : List Char) : Prop :=
  ∃ name, SchemeSplit cs (some name) ['/']

theorem SchemeSplit.getLast?_eq {name rest : List Char} (hs : SchemeSplit cs (some name) rest)
    (hl : cs.getLast? = some '/') : rest.getLast? = some '/' := by
  cases hs with
  | absolute h =>
    rw [List.getLast?_append, List.getLast?_cons, Option.some_or, Option.some.injEq] at hl
    cases hr : rest.getLast? with
    | none =>
      rw [hr] at hl
      cases hl
    | some c => rw [← hl, hr, Option.getD_some]

/-- The slash at the end is not part of the authority. -/
theorem exists_authoritySplit {rest : List Char} (h : rest.getLast? = some '/') :
    ∃ authority behind, AuthoritySplit rest authority behind ∧ behind ≠ [] := by
  have hsplit := authoritySplit_self rest
  refine ⟨_, _, hsplit, fun hn => ?_⟩
  have hmem : '/' ∈ rest := List.mem_of_getLast? h
  rw [hsplit.eq_append, hn, List.append_nil] at hmem
  exact hsplit.not_delimiter '/' hmem (List.mem_cons_self ..)

theorem authorityText?_append_of_opened {name tail : List Char}
    (hs : SchemeSplit cs (some name) ('/' :: '/' :: tail)) (hl : tail.getLast? = some '/')
    (ds : List Char) : authorityText? (cs ++ ds) = authorityText? cs := by
  obtain ⟨authority, behind, ha, hb⟩ := exists_authoritySplit hl
  rw [authorityText?_eq_some_iff.mpr ⟨_, _, _, hs, ha⟩,
    authorityText?_eq_some_iff.mpr ⟨_, _, _, hs.append ds, ha.append hb ds⟩]

theorem authorityText?_of_not_opened {c d : Char} {tail : List Char}
    (h : hierarchy cs = c :: d :: tail) (hopen : ¬ (c = '/' ∧ d = '/')) :
    authorityText? cs = none := by
  refine authorityText?_eq_none_iff.mpr fun rest hrest => hopen ?_
  rw [h, List.cons.injEq, List.cons.injEq] at hrest
  exact ⟨hrest.1, hrest.2.1⟩

/-- What follows the slash is no part of the authority, and opens none, unless the slash is all that
stands behind the scheme. -/
theorem authorityText?_append {name rest : List Char} (hs : SchemeSplit cs (some name) rest)
    (hp : WellFormed cs) (hl : cs.getLast? = some '/') (hroot : ¬ IsSchemeRoot cs)
    (ds : List Char) : authorityText? (cs ++ ds) = authorityText? cs := by
  have hlast := hs.getLast?_eq hl
  match rest with
  | [] => cases hlast
  | [c] =>
    obtain rfl : c = '/' := Option.some.inj hlast
    exact absurd ⟨name, hs⟩ hroot
  | c :: d :: tail =>
    by_cases hopen : c = '/' ∧ d = '/'
    · obtain ⟨rfl, rfl⟩ := hopen
      -- The final slash is not the second one: something stands behind the two.
      obtain ⟨c, hc, -⟩ := hp.opened _ _ hs
      cases tail with
      | nil => cases hc
      | cons c tail =>
        rw [List.getLast?_cons_cons, List.getLast?_cons_cons] at hlast
        exact authorityText?_append_of_opened hs hlast ds
    · rw [authorityText?_of_not_opened hs.schemeText?_and_hierarchy.2 hopen,
        authorityText?_of_not_opened (hs.append ds).schemeText?_and_hierarchy.2 hopen]

/-- A reference that goes on behind a final slash keeps its scheme. It keeps its authority too,
unless it is a scheme root that an authority follows. -/
theorem parse_of_prefix {p s : String} {u u' : Uri} (hp : parse p = .ok u)
    (hs : parse s = .ok u') (hscheme : u.scheme.isSome = true) (hl : p.toList.getLast? = some '/')
    (hstarts : p.toList <+: s.toList) :
    u'.scheme = u.scheme ∧
      (u'.authority.getD "" ≠ u.authority.getD "" ↔
        IsSchemeRoot p.toList ∧ u'.authority.getD "" ≠ "") := by
  obtain ⟨hgood, rfl⟩ := parse_eq_ok_iff.mp hp
  obtain ⟨-, rfl⟩ := parse_eq_ok_iff.mp hs
  obtain ⟨ds, hds⟩ := hstarts
  rw [split_eq, Option.isSome_map, Option.isSome_iff_exists] at hscheme
  obtain ⟨name, hname⟩ := hscheme
  have hsplit : SchemeSplit p.toList (some name) (hierarchy p.toList) :=
    hname ▸ schemeSplit_self p.toList
  have hname' : schemeText? s.toList = some name :=
    hds ▸ (hsplit.append ds).schemeText?_and_hierarchy.1
  refine ⟨by simp only [split_eq, hname, hname'], ?_⟩
  by_cases hroot : IsSchemeRoot p.toList
  · obtain ⟨root, hr⟩ := hroot
    have hnone : authorityText? p.toList = none := by
      rw [authorityText?_eq_none_iff, hr.schemeText?_and_hierarchy.2]
      intro rest hrest
      cases hrest
    simp [split_eq, hnone, show IsSchemeRoot p.toList from ⟨root, hr⟩]
  · have hsame : authorityText? s.toList = authorityText? p.toList :=
      hds ▸ authorityText?_append hsplit (problem?_eq_none_iff_wellFormed.mp hgood) hl hroot ds
    simp [split_eq, hsame, hroot]

end Registration.Uri
