import Registration.Proofs.Text.Spelling

/-!
# Escaped text

Escaping leaves the characters that may stand as they are, and writes the bytes
of the others as escapes. What it makes of a text depends on whether the
characters of an escape may stand as they are themselves:

* `AllowsEscapes`: they may;
* `safe_of_mem_escape`: then all of an escaped text may stand as it is;
* `escape_of_safe`, `escape_escape`: such a text is left alone, so escaping
  again changes nothing;
* `joined_isSpelling_escape`: an escaped text is a spelling of the text that was
  escaped, if this has none of the characters with a meaning of their own;
* `decode_escape`: so it is decoded to that text.
-/

namespace Registration.Text

namespace Percent

variable {safe : Char → Bool} {cs : List Char}

/-- The characters that escapes are made of are safe. -/
def AllowsEscapes (safe : Char → Bool) : Prop :=
  ∀ b : UInt8, ∀ c ∈ ofOctet b, safe c = true

theorem AllowsEscapes.of_digits (hpercent : safe '%' = true)
    (hdigit : ∀ n < 16, safe (Hex.digit n) = true) : AllowsEscapes safe := by
  intro b c hc
  have hb : b.toNat < 256 := b.toNat_lt
  simp only [ofOctet, List.mem_cons, List.not_mem_nil, or_false] at hc
  obtain rfl | rfl | rfl := hc
  · exact hpercent
  · exact hdigit _ (by omega)
  · exact hdigit _ (by omega)

theorem escape_cons (safe : Char → Bool) (c : Char) (cs : List Char) :
    escape safe (c :: cs) =
      (if safe c then [c] else (String.utf8EncodeChar c).flatMap ofOctet) ++ escape safe cs := by
  have hc : Utf8.encode [c] = String.utf8EncodeChar c := List.append_nil _
  rw [escape, List.flatMap_cons, hc]
  rfl

theorem safe_of_mem_escape (hsafe : AllowsEscapes safe) {c : Char} (h : c ∈ escape safe cs) :
    safe c = true := by
  obtain ⟨d, -, hd⟩ := List.mem_flatMap.mp h
  split at hd
  · rename_i hs
    rwa [List.mem_singleton.mp hd]
  · obtain ⟨b, -, hb⟩ := List.mem_flatMap.mp hd
    exact hsafe b c hb

theorem escape_of_safe (h : ∀ c ∈ cs, safe c = true) : escape safe cs = cs := by
  induction cs with
  | nil => rfl
  | cons c cs ih =>
    obtain ⟨hc, hcs⟩ := List.forall_mem_cons.mp h
    rw [escape_cons, if_pos hc, ih hcs, List.singleton_append]

/-- Escaping what has been escaped changes nothing. -/
theorem escape_escape (hsafe : AllowsEscapes safe) (cs : List Char) :
    escape safe (escape safe cs) = escape safe cs :=
  escape_of_safe fun _ hc => safe_of_mem_escape hsafe hc

theorem isEscape_ofOctet (b : UInt8) : IsEscape b (ofOctet b) :=
  ⟨_, _, rfl, .inl rfl, .inl rfl⟩

theorem joined_isEscape_flatMap (bytes : List UInt8) :
    Joined IsEscape bytes (bytes.flatMap ofOctet) := by
  induction bytes with
  | nil => exact .nil
  | cons b bytes ih => exact .cons (isEscape_ofOctet b) ih

end Percent

namespace Form

variable {safe : Char → Bool}

/-- A percent sign or plus sign that is left as it is spells something else. -/
theorem joined_isSpelling_escape {cs : List Char} (hpercent : '%' ∉ cs) (hplus : '+' ∉ cs) :
    Joined IsSpelling cs (Percent.escape safe cs) := by
  induction cs with
  | nil => exact .nil
  | cons c cs ih =>
    obtain ⟨hcp, hpercent⟩ := not_or.mp (mt List.mem_cons.mpr hpercent)
    obtain ⟨hca, hplus⟩ := not_or.mp (mt List.mem_cons.mpr hplus)
    rw [Percent.escape_cons]
    refine .cons ?_ (ih hpercent hplus)
    split
    · exact .unescaped (.itself (Ne.symm hcp) (Ne.symm hca))
    · exact .escapes (Percent.joined_isEscape_flatMap _)

theorem decode_of_joined {s t : String} (h : Joined IsSpelling t.toList s.toList) :
    decode .utf8 s = .ok t := by
  obtain ⟨ps, hspelled, hwritten⟩ := Joined.comp_iff.mpr (h.mono fun _ _ => isSpelling_iff.mp)
  exact decode_eq_ok_iff.mpr
    ⟨ps, pieces?_eq_some_iff.mpr hwritten, assemble?_eq_some_iff.mpr hspelled⟩

theorem decode_escape {s : String} (hpercent : '%' ∉ s.toList) (hplus : '+' ∉ s.toList) :
    decode .utf8 (String.ofList (Percent.escape safe s.toList)) = .ok s := by
  refine decode_of_joined ?_
  rw [String.toList_ofList]
  exact joined_isSpelling_escape hpercent hplus

end Form

end Registration.Text
