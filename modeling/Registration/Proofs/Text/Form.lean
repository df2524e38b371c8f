import Registration.Proofs.Text.Runs

/-!
# Decoding what has been decoded

An escape takes three characters and spells at most one, so a text that has any
gets shorter:

* `length_of_pieces?`: how many pieces a text is read as;
* `length_le_of_decode?`, `length_le_of_assemble?`: bytes and pieces spell no
  more characters than they are;
* `decode_eq_ok_iff`: decoding succeeds if both of its steps do;
* `decode_of_not_mem`: a text without escapes only has its plus signs replaced;
* `decode_eq_self_iff`: the texts that decoding leaves alone.
-/

namespace Registration.Text

theorem Utf8.length_le_length_encode (cs : List Char) : cs.length ≤ (Utf8.encode cs).length := by
  induction cs with
  | nil => exact Nat.le_refl 0
  | cons c cs ih =>
    have hc : 0 < (String.utf8EncodeChar c).length := by
      rw [String.length_utf8EncodeChar]
      exact Char.utf8Size_pos c
    have he : Utf8.encode (c :: cs) = String.utf8EncodeChar c ++ Utf8.encode cs := rfl
    rw [he, List.length_cons, List.length_append]
    omega

namespace Form

variable {encoding : Encoding}

/-! ## Lengths -/

/-- Each percent sign takes two digits along. By induction on the text as it is read. -/
theorem length_of_pieces? {cs : List Char} {ps : List Piece} (h : pieces? cs = some ps) :
    ps.length + 2 * cs.count '%' = cs.length := by
  fun_induction pieces? cs generalizing ps with
  | case1 =>
    cases h
    rfl
  | case2 high low cs b hb ih =>
    obtain ⟨qs, hq, rfl⟩ := Option.map_eq_some_iff.mp h
    obtain ⟨hhigh, hlow⟩ := Percent.ne_percent_of_octet? hb
    have hlength := ih hq
    simp only [List.length_cons, List.count_cons_self, List.count_cons_of_ne hhigh,
      List.count_cons_of_ne hlow]
    omega
  | case3 => cases h
  | case4 => cases h
  | case5 c cs _ hc ih =>
    obtain ⟨qs, hq, rfl⟩ := Option.map_eq_some_iff.mp h
    have hlength := ih hq
    simp only [List.length_cons, List.count_cons_of_ne hc]
    omega

theorem length_le_of_decode? {bytes : List UInt8} {cs : List Char}
    (h : encoding.decode? bytes = some cs) : cs.length ≤ bytes.length := by
  cases encoding with
  | utf8 =>
    rw [← Utf8.encode_of_decode? h]
    exact Utf8.length_le_length_encode cs
  | ascii =>
    rw [Encoding.decode?] at h
    split at h
    · cases h
      exact Nat.le_of_eq (List.length_map _)
    · cases h
  | latin1 =>
    cases h
    exact Nat.le_of_eq (List.length_map _)

theorem length_le_of_assemble? {pending : List UInt8} {ps : List Piece} {cs : List Char}
    (h : assemble? encoding pending ps = some cs) : cs.length ≤ pending.length + ps.length := by
  induction ps generalizing pending cs with
  | nil => exact length_le_of_decode? h
  | cons p ps ih =>
    cases p with
    | octet b =>
      have hlength : cs.length ≤ (pending ++ [b]).length + ps.length := ih h
      simp only [List.length_append, List.length_cons, List.length_nil] at hlength ⊢
      omega
    | char c =>
      rw [assemble?] at h
      split at h
      · rename_i cs ds hcs hds
        cases h
        have hpending := length_le_of_decode? hcs
        have hrest := ih hds
        simp only [List.length_append, List.length_cons, List.length_nil] at hrest ⊢
        omega
      · cases h

/-! ## Whole texts -/

/-- Decoding succeeds if the text can be read as pieces and these spell something. -/
theorem decode_eq_ok_iff {s t : String} :
    decode encoding s = .ok t ↔
      ∃ ps, pieces? s.toList = some ps ∧ assemble? encoding [] ps = some t.toList := by
  have hformed := isSome_pieces? s.toList
  rw [decode, ← hformed]
  cases hps : pieces? s.toList with
  | none => simp
  | some ps =>
    rw [unquoted?_eq_assemble? (not_mem_map_plain _) (pieces?_map_plain hps)]
    cases ha : assemble? encoding [] ps with
    | none => simp [ha]
    | some cs => simp [ha, ← String.toList_inj]

/-- In a text without escapes only the plus signs are replaced. -/
theorem decode_of_not_mem {s : String} (h : '%' ∉ s.toList) :
    decode encoding s = .ok (String.ofList (s.toList.map plain)) := by
  refine decode_eq_ok_iff.mpr ⟨_, pieces?_of_not_mem h, ?_⟩
  rw [assemble?_map_char, String.toList_ofList]

/-- A text whose decoding has the same length has no escapes. -/
theorem not_mem_of_decode {s t : String} (h : decode encoding s = .ok t)
    (hl : s.toList.length ≤ t.toList.length) : '%' ∉ s.toList := by
  obtain ⟨ps, hp, ha⟩ := decode_eq_ok_iff.mp h
  have hpieces := length_of_pieces? hp
  have htext := length_le_of_assemble? ha
  rw [List.length_nil] at htext
  exact List.count_eq_zero.mp (by omega)

/-- Decoding leaves a text alone exactly if nothing in it stands for something else. -/
theorem decode_eq_self_iff {s : String} :
    decode encoding s = .ok s ↔ '%' ∉ s.toList ∧ '+' ∉ s.toList := by
  have hplain : String.ofList (s.toList.map plain) = s ↔ '+' ∉ s.toList := by
    rw [← map_plain_eq_self_iff, ← String.toList_inj, String.toList_ofList]
  constructor
  · intro h
    have hpercent := not_mem_of_decode h (Nat.le_refl _)
    rw [decode_of_not_mem hpercent, Except.ok.injEq, hplain] at h
    exact ⟨hpercent, h⟩
  · rintro ⟨hpercent, hplus⟩
    rw [decode_of_not_mem hpercent, hplain.mpr hplus]

end Form

end Registration.Text
