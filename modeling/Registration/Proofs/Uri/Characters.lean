import Registration.Proofs.Uri.Grammar

/-!
# The characters of references

RFC 3986 says which characters a URI may hold. Reading refuses a text for the
characters that it may not hold, and lets all others through.

* `IsUriChar`: the characters of a URI;
* `isUriChar_iff`: of those that are let through they are the ones of ASCII;
* `IsUriText`: a text of such characters, with brackets in the authority only;
* `count_text`: a character is counted component by component;
* `count_eq_authority_iff`: where the brackets of a reference are;
* `isUriText_iff_of_parse`: which of the texts that can be read are of this kind.
-/

namespace Registration.Uri

/-! ## Characters -/

/-- The marks among the unreserved characters, the reserved characters, and the percent sign that
opens an escape. -/
def uriMarks : List Char :=
  ['-', '.', '_', '~'] ++ [':', '/', '?', '#', '[', ']', '@'] ++
    ['!', '$', '&', '\x27', '(', ')', '*', '+', ',', ';', '='] ++ ['%']

def IsUriChar (c : Char) : Prop :=
  IsLetter c ∨ '0' ≤ c ∧ c ≤ '9' ∨ c ∈ uriMarks

instance : DecidablePred IsLegal := fun _ => inferInstanceAs (Decidable (_ ∧ _))

instance : DecidablePred IsLetter := fun _ => inferInstanceAs (Decidable (_ ∨ _))

instance : DecidablePred IsUriChar := fun _ => inferInstanceAs (Decidable (_ ∨ _))

theorem IsUriChar.toNat_lt {c : Char} (h : IsUriChar c) : c.toNat < 0x80 := by
  obtain h | ⟨-, h⟩ | h := h
  · obtain ⟨-, h⟩ | ⟨-, h⟩ := h
    · exact Nat.lt_of_le_of_lt h (by decide)
    · exact Nat.lt_of_le_of_lt h (by decide)
  · exact Nat.lt_of_le_of_lt h (by decide)
  · have hmarks : ∀ d ∈ uriMarks, d.toNat < 0x80 := by simp [uriMarks]
    exact hmarks c h

/-- Of the characters that are let through, those of ASCII may stand in a URI. -/
theorem isUriChar_iff {c : Char} (h : IsLegal c) : IsUriChar c ↔ c.toNat < 0x80 := by
  have hall : ∀ n < 0x80, IsLegal (Char.ofNat n) → IsUriChar (Char.ofNat n) := by decide +kernel
  refine ⟨IsUriChar.toNat_lt, fun hc => ?_⟩
  have hchar := hall c.toNat hc
  rw [Char.ofNat_toNat] at hchar
  exact hchar h

theorem IsSchemeName.not_mem_of_bracket {name : List Char} (h : IsSchemeName name) {c : Char}
    (hc : c ∈ ['[', ']']) : c ∉ name := by
  have hbracket : ∀ d ∈ ['[', ']'], ¬ (IsLetter d ∨ '0' ≤ d ∧ d ≤ '9' ∨ d ∈ ['+', '.', '-']) := by
    simp [IsLetter]
  obtain ⟨first, rest, rfl, hfirst, hrest⟩ := h
  intro hm
  obtain rfl | hm := List.mem_cons.mp hm
  · exact hbracket c hc (.inl hfirst)
  · exact hbracket c hc (hrest c hm)

/-! ## Texts -/

/-- A percent sign stands only in front of two hexadecimal digits. -/
def HasWholeEscapes (cs : List Char) : Prop :=
  ∀ front back, cs = front ++ '%' :: back →
    ∃ high low rest, back = high :: low :: rest ∧ IsHexDigit high ∧ IsHexDigit low

/-- A text that holds nothing but what RFC 3986 lets a reference hold. -/
structure IsUriText (cs : List Char) (u : Uri) : Prop where
  chars : ∀ c ∈ cs, IsUriChar c
  escapes : HasWholeEscapes cs
  /-- The authority has all brackets of the text. -/
  brackets : ∀ c ∈ ['[', ']'], cs.count c = (u.authority.getD "").toList.count c

/-- The character stands in a component behind the authority. -/
def IsBehindAuthority (u : Uri) (c : Char) : Prop :=
  c ∈ u.path.toList ∨ c ∈ (u.query.getD "").toList ∨ c ∈ (u.fragment.getD "").toList

/-- What opens a component is no character of it. -/
theorem count_elim {c : Char} {opening : List Char} (hc : c ∉ opening) (part : Option String) :
    (part.elim [] (opening ++ ·.toList)).count c = (part.getD "").toList.count c := by
  cases part with
  | none => rfl
  | some t =>
    rw [Option.elim_some, Option.getD_some, List.count_append, List.count_eq_zero.mpr hc,
      Nat.zero_add]

/-- A character that delimits nothing is counted in the components. -/
theorem count_text {c : Char} (hc : c ∉ [':', '/', '?', '#']) (scheme : Option (List Char))
    (u : Uri) :
    (u.text scheme).count c = (scheme.getD []).count c + (u.authority.getD "").toList.count c +
      u.path.toList.count c + (u.query.getD "").toList.count c +
      (u.fragment.getD "").toList.count c := by
  simp only [List.mem_cons, List.not_mem_nil, or_false, not_or] at hc
  have hcolon : [':'].count c = 0 := List.count_eq_zero.mpr (by simp [hc])
  have hslashes : c ∉ ['/', '/'] := by simp [hc]
  have hquestion : c ∉ ['?'] := by simp [hc]
  have hnumber : c ∉ ['#'] := by simp [hc]
  have hscheme : (scheme.elim [] (· ++ [':'])).count c = (scheme.getD []).count c := by
    cases scheme with
    | none => rfl
    | some name => rw [Option.elim_some, Option.getD_some, List.count_append, hcolon, Nat.add_zero]
  rw [← count_elim hslashes, ← count_elim hquestion, ← count_elim hnumber, ← hscheme]
  simp only [text, List.count_append, List.cons_append, List.nil_append]

/-- The authority has all brackets of a text exactly if no component behind it has any. -/
theorem count_eq_authority_iff {s : String} {u : Uri} (h : parse s = .ok u) {c : Char}
    (hc : c ∈ ['[', ']']) :
    s.toList.count c = (u.authority.getD "").toList.count c ↔ ¬ IsBehindAuthority u c := by
  obtain ⟨hp, rfl⟩ := parse_eq_ok_iff.mp h
  have hscheme : ((schemeText? s.toList).getD []).count c = 0 := by
    cases hs : schemeText? s.toList with
    | none => rfl
    | some name =>
      have hname := (schemeProblem?_eq_none_iff.mp (problem?_eq_none_iff.mp hp).2.1 name hs).1
      exact List.count_eq_zero.mpr ((isScheme_iff.mp hname).not_mem_of_bracket hc)
  have hdelimiter : ∀ d ∈ ['[', ']'], d ∉ [':', '/', '?', '#'] := by simp
  have hcount := count_text (hdelimiter c hc) (schemeText? s.toList) (split s.toList)
  rw [text_split, hscheme] at hcount
  rw [IsBehindAuthority, ← List.count_pos_iff, ← List.count_pos_iff, ← List.count_pos_iff]
  omega

/-- Only two things may be wrong with the characters of a text that can be read: some are beyond
ASCII, or there are brackets behind the authority. -/
theorem isUriText_iff_of_parse {s : String} {u : Uri} (h : parse s = .ok u) :
    HasWholeEscapes s.toList ∧ (∀ c ∈ s.toList, IsUriChar c ↔ c.toNat < 0x80) ∧
      (IsUriText s.toList u ↔
        (∀ c ∈ s.toList, c.toNat < 0x80) ∧ ∀ c ∈ ['[', ']'], ¬ IsBehindAuthority u c) := by
  have hwell := problem?_eq_none_iff_wellFormed.mp (parse_eq_ok_iff.mp h).1
  have hchar (c : Char) (hc : c ∈ s.toList) : IsUriChar c ↔ c.toNat < 0x80 :=
    isUriChar_iff (hwell.legal c hc)
  refine ⟨hwell.escapes, hchar, fun htext => ⟨fun c hc => ?_, fun c hc => ?_⟩, ?_⟩
  · exact (htext.chars c hc).toNat_lt
  · exact (count_eq_authority_iff h hc).mp (htext.brackets c hc)
  · rintro ⟨hascii, hbehind⟩
    exact ⟨fun c hc => (hchar c hc).mpr (hascii c hc), hwell.escapes,
      fun c hc => (count_eq_authority_iff h hc).mpr (hbehind c hc)⟩

/-- Brackets around a host, and an escape in front of a query and a fragment. -/
theorem isUriText_of_bracketed_host :
    parse "http://u@[::1]:80/a%20b?c#d" =
      .ok ⟨some "http", some "u@[::1]:80", "/a%20b", some "c", some "d"⟩ ∧
    IsUriText "http://u@[::1]:80/a%20b?c#d".toList
      ⟨some "http", some "u@[::1]:80", "/a%20b", some "c", some "d"⟩ := by
  have hparse : parse "http://u@[::1]:80/a%20b?c#d" =
    .ok ⟨some "http", some "u@[::1]:80", "/a%20b", some "c", some "d"⟩ := rfl
  exact ⟨hparse, (isUriText_iff_of_parse hparse).2.2.mpr ⟨by simp, by simp [IsBehindAuthority]⟩⟩

/-- A letter with an accent and a bracket in a path are read as parts of it. -/
theorem parse_accepts_foreign_characters :
    parse "https://a.test/é" = .ok ⟨some "https", some "a.test", "/é", none, none⟩ ∧
    ¬ IsUriText "https://a.test/é".toList ⟨some "https", some "a.test", "/é", none, none⟩ ∧
    parse "https://a.test/[" = .ok ⟨some "https", some "a.test", "/[", none, none⟩ ∧
    ¬ IsUriText "https://a.test/[".toList ⟨some "https", some "a.test", "/[", none, none⟩ := by
  refine ⟨rfl, fun h => ?_, rfl, fun h => ?_⟩
  · exact absurd (h.chars 'é' (by decide)) (by decide)
  · exact absurd (h.brackets '[' (by decide)) (by decide)

end Registration.Uri
