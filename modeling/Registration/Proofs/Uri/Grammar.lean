import Registration.Proofs.Uri.Components

/-!
# The grammar of references

What a text has to be like to be read as a reference, said of the text and
without its components:

* `IsLegal`, `IsHexDigit`, `IsSchemeName`: its characters and its scheme;
* `WellFormed`: the whole grammar, with the checks of the authority as they are;
* `characterProblem?_eq_none_iff_legal` … `isOpenedByMore_iff`: what each check
  says of the text;
* `problem?_eq_none_iff_wellFormed`: together they are the grammar;
* `ofValue_succeeds_iff`: the values that can be read.
-/

namespace Registration.Uri

open Text

variable {cs : List Char}

/-! ## Characters -/

/-- No control of ASCII, no space, and none of nine marks. -/
def IsLegal (c : Char) : Prop :=
  0x20 < c.toNat ∧ c.toNat ≠ 0x7F ∧
    c ∉ ['\x22', '<', '>', '\\', '^', '\x60', '\x7b', '|', '\x7d']

def IsLetter (c : Char) : Prop :=
  'A' ≤ c ∧ c ≤ 'Z' ∨ 'a' ≤ c ∧ c ≤ 'z'

def IsHexDigit (c : Char) : Prop :=
  '0' ≤ c ∧ c ≤ '9' ∨ 'A' ≤ c ∧ c ≤ 'F' ∨ 'a' ≤ c ∧ c ≤ 'f'

/-- A letter, then letters, digits and three marks. -/
def IsSchemeName (name : List Char) : Prop :=
  ∃ c cs, name = c :: cs ∧ IsLetter c ∧
    ∀ d ∈ cs, IsLetter d ∨ '0' ≤ d ∧ d ≤ '9' ∨ d ∈ ['+', '.', '-']

theorem isIllegal_eq_false_iff {c : Char} : isIllegal c = false ↔ IsLegal c := by
  simp [isIllegal, IsLegal, and_assoc]

theorem isAlpha_iff {c : Char} : c.isAlpha = true ↔ IsLetter c := by
  have hupper : c.isUpper = true ↔ 'A' ≤ c ∧ c ≤ 'Z' := decide_eq_true_iff
  have hlower : c.isLower = true ↔ 'a' ≤ c ∧ c ≤ 'z' :=
    Bool.and_eq_true_iff.trans (and_congr decide_eq_true_iff decide_eq_true_iff)
  rw [IsLetter, ← hupper, ← hlower]
  exact Bool.or_eq_true_iff

theorem isDigit_iff {c : Char} : Hex.isDigit c = true ↔ IsHexDigit c := by
  rw [Hex.isDigit, Hex.value?, IsHexDigit]
  split
  · simp_all
  · split
    · simp_all
    · split <;> simp_all

theorem isSchemeChar_iff {c : Char} :
    isSchemeChar c = true ↔ IsLetter c ∨ '0' ≤ c ∧ c ≤ '9' ∨ c ∈ ['+', '.', '-'] := by
  simp [isSchemeChar, Char.isAlphanum, Char.isDigit, isAlpha_iff, Char.le_def, or_assoc]

theorem isScheme_iff : isScheme cs = true ↔ IsSchemeName cs := by
  cases cs with
  | nil => simp [isScheme, IsSchemeName]
  | cons c cs =>
    simp only [isScheme, Bool.and_eq_true, List.all_eq_true, isAlpha_iff, isSchemeChar_iff]
    constructor
    · exact fun h => ⟨c, cs, rfl, h⟩
    · rintro ⟨d, ds, hd, h⟩
      obtain ⟨rfl, rfl⟩ := List.cons.inj hd
      exact h

/-! ## References -/

/-- The grammar of references. -/
structure WellFormed (cs : List Char) : Prop where
  legal : ∀ c ∈ cs, IsLegal c
  escapes : ∀ front back, cs = front ++ '%' :: back →
    ∃ high low rest, back = high :: low :: rest ∧ IsHexDigit high ∧ IsHexDigit low
  scheme : ∀ name rest, SchemeSplit cs (some name) rest → IsSchemeName name ∧ rest ≠ []
  fragment : cs.count '#' ≤ 1
  /-- Behind two slashes that open the text behind the scheme stands an authority or a path. -/
  opened : ∀ scheme rest, SchemeSplit cs scheme ('/' :: '/' :: rest) →
    ∃ c, rest.head? = some c ∧ c ≠ '?' ∧ c ≠ '#'
  authority : ∀ scheme rest authority behind, SchemeSplit cs scheme ('/' :: '/' :: rest) →
    AuthoritySplit rest authority behind → authorityProblem? authority = none

theorem characterProblem?_eq_none_iff_legal :
    characterProblem? cs = none ↔
      (∀ c ∈ cs, IsLegal c) ∧ ∀ front back, cs = front ++ '%' :: back →
        ∃ high low rest, back = high :: low :: rest ∧ IsHexDigit high ∧ IsHexDigit low := by
  simp only [characterProblem?_eq_none_iff, isIllegal_eq_false_iff, Percent.wellFormed_iff,
    Percent.startsWithOctet_iff, isDigit_iff]

theorem schemeProblem?_eq_none_iff_name :
    schemeProblem? cs = none ↔
      ∀ name rest, SchemeSplit cs (some name) rest → IsSchemeName name ∧ rest ≠ [] := by
  simp only [schemeProblem?_eq_none_iff, isScheme_iff, schemeSplit_iff]
  constructor
  · rintro h name rest ⟨hname, rfl⟩
    exact h name hname
  · exact fun h name hname => h name _ ⟨hname, rfl⟩

/-- Only a fragment holds number signs, apart from the one in front of it. -/
theorem fragment_iff_count :
    (∀ fragment, fragmentText? cs = some fragment → '#' ∉ fragment) ↔ cs.count '#' ≤ 1 := by
  have hopening : '#' ∉ (authorityText? cs).elim [] ('/' :: '/' :: ·) :=
    fun hm => (ne_of_mem_opening hm).2 rfl
  have hcount : cs.count '#' = (fragmentText? cs).elim 0 (·.count '#' + 1) := by
    calc cs.count '#'
      _ = (hierarchy cs).count '#' := by
        rw [← congrArg (List.count '#') (schemeSplit_self cs).append_eq, List.count_append,
          List.count_eq_zero.mpr ((schemeSplit_self cs).not_mem (by decide)), Nat.zero_add]
      _ = (resource cs).count '#' := by
        rw [← eq_authority_append cs, List.count_append, List.count_eq_zero.mpr hopening,
          Nat.zero_add]
      _ = (fragmentText? cs).elim 0 (·.count '#' + 1) := count_eq_after? '#' (resource cs)
  rw [hcount]
  cases fragmentText? cs with
  | none => simp
  | some fragment => simp [List.count_eq_zero]

theorem authority_and_path_eq_nil_iff {rest : List Char} (h : opened? (hierarchy cs) = some rest) :
    authorityText? cs = some [] ∧ pathText cs = [] ↔
      ¬ ∃ c, rest.head? = some c ∧ c ≠ '?' ∧ c ≠ '#' := by
  rw [authorityText?, authorityOf?, pathText, pathOf, resourceOf, h]
  cases rest with
  | nil => simp
  | cons c rest =>
    by_cases hc : isDelimiter c = true
    · obtain rfl | rfl | rfl : c = '/' ∨ c = '?' ∨ c = '#' := by simpa using isDelimiter_iff.mp hc
      · simp [before_cons, isDelimiter]
      · simp [before_cons, isDelimiter]
      · simp [before_cons, isDelimiter]
    · have hn := isDelimiter_eq_false_iff.mp (Bool.eq_false_iff.mpr hc)
      simp only [List.mem_cons, not_or] at hn
      simp [before_cons, hc, hn.2.1, hn.2.2.1]

/-- An authority and a path are both empty where the text behind the slashes ends, or another
component opens. -/
theorem isOpenedByMore_iff :
    IsOpenedByMore cs ↔
      ∀ scheme rest, SchemeSplit cs scheme ('/' :: '/' :: rest) →
        ∃ c, rest.head? = some c ∧ c ≠ '?' ∧ c ≠ '#' := by
  constructor
  · intro h scheme rest hs
    have hrest := opened?_eq_some_iff.mpr hs.schemeText?_and_hierarchy.2
    refine Classical.byContradiction fun hn => ?_
    obtain ⟨ha, hpath⟩ := (authority_and_path_eq_nil_iff hrest).mpr hn
    exact h ha hpath
  · intro h ha hpath
    obtain ⟨scheme, rest, behind, hs, -⟩ := authorityText?_eq_some_iff.mp ha
    have hrest := opened?_eq_some_iff.mpr hs.schemeText?_and_hierarchy.2
    exact (authority_and_path_eq_nil_iff hrest).mp ⟨ha, hpath⟩ (h scheme rest hs)

theorem problem?_eq_none_iff_wellFormed : problem? cs = none ↔ WellFormed cs := by
  rw [problem?_eq_none_iff, characterProblem?_eq_none_iff_legal, schemeProblem?_eq_none_iff_name,
    fragment_iff_count, isOpenedByMore_iff]
  constructor
  · rintro ⟨⟨hlegal, hescapes⟩, hscheme, hauthority, hfragment, hopened⟩
    exact ⟨hlegal, hescapes, hscheme, hfragment, hopened,
      fun scheme rest authority behind hs ha =>
        hauthority authority (authorityText?_eq_some_iff.mpr ⟨scheme, rest, behind, hs, ha⟩)⟩
  · intro h
    refine ⟨⟨h.legal, h.escapes⟩, h.scheme, fun authority ha => ?_, h.fragment, h.opened⟩
    obtain ⟨scheme, rest, behind, hs, ha⟩ := authorityText?_eq_some_iff.mp ha
    exact h.authority scheme rest authority behind hs ha

/-- A value can be read as a reference exactly if it is a text of the grammar. -/
theorem ofValue_succeeds_iff (v : Value) :
    (∃ u, ofValue v = .ok u) ↔ ∃ s, v = .str s ∧ WellFormed s.toList := by
  simp only [ofValue_eq_ok_iff, parse_eq_ok_iff, ← problem?_eq_none_iff_wellFormed]
  constructor
  · rintro ⟨u, s, rfl, hp, -⟩
    exact ⟨s, rfl, hp⟩
  · rintro ⟨s, rfl, hp⟩
    exact ⟨_, s, rfl, hp, rfl⟩

end Registration.Uri
