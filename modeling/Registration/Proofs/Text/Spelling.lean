import Registration.Proofs.Text.Form

/-!
# Spellings of a text

Form encoding leaves a choice for each character, so a text has many spellings,
and decoding undoes them all:

* `Joined`: a list made of one part for each item of another one, in order;
* `Percent.IsEscape`, `Form.IsSpelling`: how a byte and a character are written;
* `pieces?_eq_some_iff`: a text is read as the pieces of which it is written;
* `assemble?_eq_some_iff`: pieces are assembled to the characters that they spell;
* `decode_inverts_spelling`: both steps together.
-/

namespace Registration.Text

/-! ## Lists of parts -/

/-- A list made of parts, one for each item of another list and in its order. -/
inductive Joined {α β : Type} (IsPart : α → List β → Prop) : List α → List β → Prop
  | nil : Joined IsPart [] []
  | cons {a : α} {as : List α} {part rest : List β} (ha : IsPart a part)
      (has : Joined IsPart as rest) : Joined IsPart (a :: as) (part ++ rest)

namespace Joined

variable {α β γ : Type} {P : α → List β → Prop} {Q : β → List γ → Prop}

theorem mono {P' : α → List β → Prop} (hP : ∀ a part, P a part → P' a part) {as : List α}
    {bs : List β} (h : Joined P as bs) : Joined P' as bs := by
  induction h with
  | nil => exact .nil
  | cons ha _ ih => exact .cons (hP _ _ ha) ih

theorem append {as as' : List α} {bs bs' : List β} (h : Joined P as bs) (h' : Joined P as' bs') :
    Joined P (as ++ as') (bs ++ bs') := by
  induction h with
  | nil => exact h'
  | cons ha _ ih =>
    rw [List.cons_append, List.append_assoc]
    exact .cons ha ih

/-- The parts of the first items come first. -/
theorem exists_of_append {as as' : List α} {bs : List β} (h : Joined P (as ++ as') bs) :
    ∃ front back, bs = front ++ back ∧ Joined P as front ∧ Joined P as' back := by
  induction as generalizing bs with
  | nil => exact ⟨[], bs, rfl, .nil, h⟩
  | cons a as ih =>
    cases h with
    | cons ha has =>
      obtain ⟨front, back, rfl, hfront, hback⟩ := ih has
      exact ⟨_ ++ front, back, (List.append_assoc ..).symm, .cons ha hfront, hback⟩

/-- What is joined of parts that are joined themselves. -/
theorem comp_iff {as : List α} {cs : List γ} :
    (∃ bs, Joined P as bs ∧ Joined Q bs cs) ↔
      Joined (fun a part => ∃ bs, P a bs ∧ Joined Q bs part) as cs := by
  constructor
  · rintro ⟨bs, hP, hQ⟩
    induction hP generalizing cs with
    | nil =>
      cases hQ
      exact .nil
    | cons ha _ ih =>
      obtain ⟨front, back, rfl, hfront, hback⟩ := exists_of_append hQ
      exact .cons ⟨_, ha, hfront⟩ (ih hback)
  · intro h
    induction h with
    | nil => exact ⟨[], .nil, .nil⟩
    | cons ha _ ih =>
      obtain ⟨part, hpart, hchars⟩ := ha
      obtain ⟨bs, hbs, hrest⟩ := ih
      exact ⟨part ++ bs, .cons hpart hbs, hchars.append hrest⟩

theorem map_iff {δ : Type} {f : δ → α} {ds : List δ} {bs : List β} :
    Joined P (ds.map f) bs ↔ Joined (fun d => P (f d)) ds bs := by
  constructor
  · intro h
    induction ds generalizing bs with
    | nil =>
      cases h
      exact .nil
    | cons d ds ih =>
      cases h with
      | cons ha has => exact .cons ha (ih has)
  · intro h
    induction h with
    | nil => exact .nil
    | cons ha _ ih => exact .cons ha ih

end Joined

/-! ## Bytes -/

namespace Hex

/-- A digit of a number below 16, in either case. -/
def IsDigitOf (n : Nat) (c : Char) : Prop :=
  c = digit n ∨ c = lowerDigit n

/-- The digits from ten on are the letters from a first one on. -/
theorem digit_of_letter {c : Char} {first : Nat} (hlo : first ≤ c.toNat) :
    Char.ofNat (if c.toNat - first + 10 < 10 then 0x30 + (c.toNat - first + 10)
      else first + (c.toNat - first + 10 - 10)) = c := by
  rw [if_neg (by omega), Nat.add_sub_cancel, Nat.add_sub_cancel' hlo, Char.ofNat_toNat]

theorem value?_eq_some_iff {c : Char} {n : Nat} : value? c = some n ↔ n < 16 ∧ IsDigitOf n c := by
  constructor
  · intro h
    rw [value?] at h
    split at h
    · rename_i hc
      obtain rfl := Option.some.inj h
      have hlo : 0x30 ≤ c.toNat := hc.1
      have hhi : c.toNat ≤ 0x39 := hc.2
      refine ⟨by omega, .inl ?_⟩
      rw [digit, if_pos (by omega), Nat.add_sub_cancel' hlo, Char.ofNat_toNat]
    · split at h
      · rename_i hc
        obtain rfl := Option.some.inj h
        have hlo : 0x41 ≤ c.toNat := hc.1
        have hhi : c.toNat ≤ 0x46 := hc.2
        exact ⟨by omega, .inl (digit_of_letter hlo).symm⟩
      · split at h
        · rename_i hc
          obtain rfl := Option.some.inj h
          have hlo : 0x61 ≤ c.toNat := hc.1
          have hhi : c.toNat ≤ 0x66 := hc.2
          exact ⟨by omega, .inr (digit_of_letter hlo).symm⟩
        · cases h
  · rintro ⟨hn, rfl | rfl⟩
    · exact value?_digit hn
    · exact value?_lowerDigit hn

end Hex

namespace Percent

/-- A byte as a percent sign and two hexadecimal digits, each in either case. -/
def IsEscape (b : UInt8) (cs : List Char) : Prop :=
  ∃ high low, cs = ['%', high, low] ∧ Hex.IsDigitOf (b.toNat / 16) high ∧
    Hex.IsDigitOf (b.toNat % 16) low

theorem octet?_eq_some_iff {high low : Char} {b : UInt8} :
    octet? high low = some b ↔
      Hex.IsDigitOf (b.toNat / 16) high ∧ Hex.IsDigitOf (b.toNat % 16) low := by
  have hb : b.toNat < 256 := b.toNat_lt
  constructor
  · intro h
    rw [octet?] at h
    split at h
    · rename_i m n hm hn
      obtain rfl := Option.some.inj h
      obtain ⟨hm, hhigh⟩ := Hex.value?_eq_some_iff.mp hm
      obtain ⟨hn, hlow⟩ := Hex.value?_eq_some_iff.mp hn
      have hbyte : (UInt8.ofNat (16 * m + n)).toNat = 16 * m + n := by
        rw [UInt8.toNat_ofNat']
        omega
      have hdiv : (16 * m + n) / 16 = m := by omega
      have hmod : (16 * m + n) % 16 = n := by omega
      rw [hbyte, hdiv, hmod]
      exact ⟨hhigh, hlow⟩
    · cases h
  · rintro ⟨hhigh, hlow⟩
    have hm := Hex.value?_eq_some_iff.mpr ⟨by omega, hhigh⟩
    have hn := Hex.value?_eq_some_iff.mpr ⟨by omega, hlow⟩
    simp only [octet?, hm, hn, Nat.div_add_mod, UInt8.ofNat_toNat]

end Percent

namespace Form

open Percent (IsEscape)

/-! ## Pieces -/

/-- A character without an escape: as it is, unless it has a meaning of its own; a space also as a
plus sign. -/
inductive IsUnescaped : Char → List Char → Prop
  | itself {c : Char} (hpercent : c ≠ '%') (hplus : c ≠ '+') : IsUnescaped c [c]
  | plus : IsUnescaped ' ' ['+']

/-- How a piece is written. -/
inductive IsWritten : Piece → List Char → Prop
  | char {c : Char} {cs : List Char} (h : IsUnescaped c cs) : IsWritten (.char c) cs
  | octet {b : UInt8} {cs : List Char} (h : IsEscape b cs) : IsWritten (.octet b) cs

theorem isUnescaped_plain {c : Char} (hc : c ≠ '%') : IsUnescaped (plain c) [c] := by
  rw [plain]
  split
  · rename_i hplus
    rw [hplus]
    exact .plus
  · exact .itself hc ‹_›

theorem pieces?_append_of_isUnescaped {c : Char} {part : List Char} (h : IsUnescaped c part)
    (cs : List Char) : pieces? (part ++ cs) = (pieces? cs).map (.char c :: ·) := by
  cases h with
  | itself hpercent hplus => rw [List.singleton_append, pieces?_cons hpercent, plain, if_neg hplus]
  | plus =>
    rw [List.singleton_append, pieces?_cons (by decide)]
    rfl

theorem pieces?_append_of_isEscape {b : UInt8} {part : List Char} (h : IsEscape b part)
    (cs : List Char) : pieces? (part ++ cs) = (pieces? cs).map (.octet b :: ·) := by
  obtain ⟨high, low, rfl, hdigits⟩ := h
  simp only [List.cons_append, List.nil_append, pieces?, Percent.octet?_eq_some_iff.mpr hdigits]

/-- By induction on the text as it is read, and back on the parts of which it is written. -/
theorem pieces?_eq_some_iff {cs : List Char} {ps : List Piece} :
    pieces? cs = some ps ↔ Joined IsWritten ps cs := by
  constructor
  · intro h
    fun_induction pieces? cs generalizing ps with
    | case1 =>
      cases h
      exact .nil
    | case2 high low cs b hb ih =>
      obtain ⟨qs, hq, rfl⟩ := Option.map_eq_some_iff.mp h
      obtain ⟨hhigh, hlow⟩ := Percent.octet?_eq_some_iff.mp hb
      exact .cons (.octet ⟨high, low, rfl, hhigh, hlow⟩) (ih hq)
    | case3 => cases h
    | case4 => cases h
    | case5 c cs _ hc ih =>
      obtain ⟨qs, hq, rfl⟩ := Option.map_eq_some_iff.mp h
      exact .cons (.char (isUnescaped_plain hc)) (ih hq)
  · intro h
    induction h with
    | nil => rfl
    | cons ha _ ih =>
      cases ha with
      | char h => rw [pieces?_append_of_isUnescaped h, ih, Option.map_some]
      | octet h => rw [pieces?_append_of_isEscape h, ih, Option.map_some]

/-! ## Characters -/

/-- The pieces that spell a character: itself, or the bytes that encode it. -/
def IsSpelled (c : Char) (ps : List Piece) : Prop :=
  ps = [.char c] ∨ ps = (String.utf8EncodeChar c).map .octet

theorem joined_isSpelled_octets (cs : List Char) :
    Joined IsSpelled cs ((Utf8.encode cs).map .octet) := by
  induction cs with
  | nil => exact .nil
  | cons c cs ih =>
    have he : Utf8.encode (c :: cs) = String.utf8EncodeChar c ++ Utf8.encode cs := rfl
    rw [he, List.map_append]
    exact .cons (.inr rfl) ih

/-- Bytes that are pending are pieces too. By induction on the pieces behind them. -/
theorem joined_of_assemble? {pending : List UInt8} {ps : List Piece} {cs : List Char}
    (h : assemble? .utf8 pending ps = some cs) :
    Joined IsSpelled cs (pending.map .octet ++ ps) := by
  induction ps generalizing pending cs with
  | nil =>
    rw [List.append_nil, ← Utf8.encode_of_decode? h]
    exact joined_isSpelled_octets cs
  | cons p ps ih =>
    cases p with
    | octet b =>
      have hb : Joined IsSpelled cs ((pending ++ [b]).map .octet ++ ps) := ih h
      rwa [List.map_append, List.append_assoc] at hb
    | char c =>
      rw [assemble?] at h
      split at h
      · rename_i front back hfront hback
        cases h
        rw [← Utf8.encode_of_decode? hfront]
        exact (joined_isSpelled_octets front).append (.cons (.inl rfl) (ih hback))
      · cases h

theorem assemble?_octets (bytes pending : List UInt8) (ps : List Piece) :
    assemble? .utf8 pending (bytes.map .octet ++ ps) = assemble? .utf8 (pending ++ bytes) ps := by
  induction bytes generalizing pending with
  | nil => rw [List.map_nil, List.nil_append, List.append_nil]
  | cons b bytes ih =>
    rw [List.map_cons, List.cons_append, assemble?, ih, List.append_assoc, List.singleton_append]

/-- A character at the start of the pending bytes is read first. -/
theorem assemble?_utf8EncodeChar_append (c : Char) (pending : List UInt8) (ps : List Piece) :
    assemble? .utf8 (String.utf8EncodeChar c ++ pending) ps =
      (assemble? .utf8 pending ps).map (c :: ·) := by
  induction ps generalizing pending with
  | nil => exact Utf8.decode?_utf8EncodeChar_append c pending
  | cons p ps ih =>
    cases p with
    | octet b => rw [assemble?, List.append_assoc, ih, assemble?]
    | char d =>
      have hc : Encoding.utf8.decode? (String.utf8EncodeChar c ++ pending) =
          (Encoding.utf8.decode? pending).map (c :: ·) :=
        Utf8.decode?_utf8EncodeChar_append c pending
      rw [assemble?, assemble?, hc]
      cases Encoding.utf8.decode? pending <;> cases assemble? .utf8 [] ps <;> rfl

theorem assemble?_eq_some_iff {ps : List Piece} {cs : List Char} :
    assemble? .utf8 [] ps = some cs ↔ Joined IsSpelled cs ps := by
  refine ⟨joined_of_assemble?, fun h => ?_⟩
  induction h with
  | nil => rfl
  | cons ha _ ih =>
    obtain rfl | rfl := ha
    · rw [List.singleton_append, assemble?, ih]
      rfl
    · rw [assemble?_octets, List.nil_append, ← List.append_nil (String.utf8EncodeChar _),
        assemble?_utf8EncodeChar_append, ih, Option.map_some]

/-! ## Texts -/

/-- How a character may be written: without an escape, or as the escapes of the bytes that encode
it. -/
inductive IsSpelling : Char → List Char → Prop
  | unescaped {c : Char} {cs : List Char} (h : IsUnescaped c cs) : IsSpelling c cs
  | escapes {c : Char} {cs : List Char} (h : Joined IsEscape (String.utf8EncodeChar c) cs) :
      IsSpelling c cs

theorem isSpelling_iff {c : Char} {cs : List Char} :
    IsSpelling c cs ↔ ∃ ps, IsSpelled c ps ∧ Joined IsWritten ps cs := by
  constructor
  · rintro (h | h)
    · exact ⟨[.char c], .inl rfl, List.append_nil cs ▸ .cons (.char h) .nil⟩
    · exact ⟨_, .inr rfl, Joined.map_iff.mpr (h.mono fun _ _ hb => .octet hb)⟩
  · rintro ⟨ps, rfl | rfl, h⟩
    · obtain - | ⟨⟨hc⟩, ⟨⟩⟩ := h
      rw [List.append_nil]
      exact .unescaped hc
    · refine .escapes ((Joined.map_iff.mp h).mono fun b part hb => ?_)
      cases hb with
      | octet hb => exact hb

/-- Decoding gives a text for exactly the spellings of this text, and fails for what spells no
text. -/
theorem decode_inverts_spelling (s : String) :
    (∀ t : String, decode .utf8 s = .ok t ↔ Joined IsSpelling t.toList s.toList) ∧
      ((∃ e, decode .utf8 s = .error e) ↔
        ∀ t : String, ¬ Joined IsSpelling t.toList s.toList) := by
  have hok (t : String) : decode .utf8 s = .ok t ↔ Joined IsSpelling t.toList s.toList := by
    calc decode .utf8 s = .ok t
      _ ↔ ∃ ps, Joined IsSpelled t.toList ps ∧ Joined IsWritten ps s.toList := by
        simp only [decode_eq_ok_iff, pieces?_eq_some_iff, assemble?_eq_some_iff, and_comm]
      _ ↔ Joined (fun c cs => ∃ ps, IsSpelled c ps ∧ Joined IsWritten ps cs) t.toList s.toList :=
        Joined.comp_iff
      _ ↔ Joined IsSpelling t.toList s.toList :=
        ⟨.mono fun _ _ => isSpelling_iff.mpr, .mono fun _ _ => isSpelling_iff.mp⟩
  refine ⟨hok, ?_⟩
  simp only [← hok]
  cases decode .utf8 s with
  | error e => simp
  | ok t => simp

end Form

end Registration.Text
