import Registration.Text.Form

/-!
# Characters and bytes

A text may be read one character or escape after the other, with the bytes
decoded as soon as something else follows them. In every encoding a byte below
0x80 is a character on its own, so ASCII that stands as it is may be read as
bytes too:

* `Percent.wellFormed_cons`, `Utf8.decode?_append_cons`: escapes and bytes;
* `Piece`, `pieces?`: a text as characters and bytes, in which a plus sign is a
  space;
* `assemble?`: the characters that pieces spell;
* `isSome_pieces?`: what the check of the escapes is good for;
* `pieces?_map_plain`: plus signs may be replaced before;
* `assemble?_of_isAscii`: the pieces of a text in ASCII, all taken as bytes.
-/

namespace Registration.Text

/-! ## Digits -/

theorem Hex.value?_percent : Hex.value? '%' = none := by
  decide

theorem Percent.isSome_octet? (high low : Char) :
    (Percent.octet? high low).isSome = (Hex.isDigit high && Hex.isDigit low) := by
  rw [Percent.octet?, Hex.isDigit, Hex.isDigit]
  cases Hex.value? high <;> cases Hex.value? low <;> rfl

theorem Percent.isDigit_of_octet? {high low : Char} {b : UInt8}
    (h : Percent.octet? high low = some b) :
    Hex.isDigit high = true ∧ Hex.isDigit low = true := by
  rw [← Bool.and_eq_true, ← Percent.isSome_octet?, h]
  rfl

/-- Digits are no percent signs. -/
theorem Percent.ne_percent_of_octet? {high low : Char} {b : UInt8}
    (h : Percent.octet? high low = some b) : high ≠ '%' ∧ low ≠ '%' := by
  obtain ⟨hhigh, hlow⟩ := Percent.isDigit_of_octet? h
  constructor
  · rintro rfl
    simp [Hex.isDigit, Hex.value?_percent] at hhigh
  · rintro rfl
    simp [Hex.isDigit, Hex.value?_percent] at hlow

theorem Percent.wellFormed_cons {c : Char} (hc : c ≠ '%') (cs : List Char) :
    Percent.wellFormed (c :: cs) = Percent.wellFormed cs := by
  simp [Percent.wellFormed, hc]

/-! ## Bytes of ASCII characters -/

namespace Utf8

theorem utf8EncodeChar_of_lt {c : Char} (h : c.toNat < 0x80) :
    String.utf8EncodeChar c = [UInt8.ofNat c.toNat] := by
  have hc : c.val.toNat ≤ 0x7f := Nat.le_of_lt_succ h
  rw [String.utf8EncodeChar, if_pos hc]
  rfl

/-- The bytes of a longer sequence are bits behind a mark. -/
theorem le_toNat_ofNat_marked {bits width mark : Nat} (hpos : 0 < width)
    (hwidth : mark + width ≤ 0x100) (hmark : 0x80 ≤ mark) :
    0x80 ≤ (UInt8.ofNat (bits % width + mark)).toNat := by
  have hbits : bits % width < width := Nat.mod_lt bits hpos
  rw [UInt8.toNat_ofNat', Nat.mod_eq_of_lt (by omega)]
  exact Nat.le_trans hmark (Nat.le_add_left ..)

theorem le_toNat_of_mem_utf8EncodeChar {c : Char} {b : UInt8} (hc : 0x80 ≤ c.toNat)
    (hb : b ∈ String.utf8EncodeChar c) : 0x80 ≤ b.toNat := by
  have hlong : ¬ c.val.toNat ≤ 0x7f := Nat.not_le_of_lt hc
  simp only [String.utf8EncodeChar, if_neg hlong] at hb
  split at hb
  · simp only [List.mem_cons, List.not_mem_nil, or_false] at hb
    obtain rfl | rfl := hb <;> exact le_toNat_ofNat_marked (by decide) (by decide) (by decide)
  · split at hb
    · simp only [List.mem_cons, List.not_mem_nil, or_false] at hb
      obtain rfl | rfl | rfl := hb <;>
        exact le_toNat_ofNat_marked (by decide) (by decide) (by decide)
    · simp only [List.mem_cons, List.not_mem_nil, or_false] at hb
      obtain rfl | rfl | rfl | rfl := hb <;>
        exact le_toNat_ofNat_marked (by decide) (by decide) (by decide)

/-- A byte below 0x80 is a character on its own. -/
theorem utf8EncodeChar_eq_singleton {c : Char} {b : UInt8} (hb : b ∈ String.utf8EncodeChar c)
    (hlt : b < 0x80) : String.utf8EncodeChar c = [b] := by
  have hc : c.toNat < 0x80 := by
    rw [← Nat.not_le]
    intro hc
    exact Nat.not_lt.mpr (le_toNat_of_mem_utf8EncodeChar hc hb) (UInt8.lt_iff_toNat_lt.mp hlt)
  rw [utf8EncodeChar_of_lt hc] at hb ⊢
  rw [List.mem_singleton.mp hb]

/-- An ASCII byte within encoded text is a character of the text. By induction on the text. -/
theorem exists_of_encode_eq_append_cons {es : List Char} {front back : List UInt8} {c : Char}
    (hc : c.toNat < 0x80) (h : encode es = front ++ UInt8.ofNat c.toNat :: back) :
    ∃ cs ds, es = cs ++ c :: ds ∧ encode cs = front ∧ encode ds = back := by
  have hlt : UInt8.ofNat c.toNat < 0x80 := by
    rw [UInt8.lt_iff_toNat_lt, UInt8.toNat_ofNat']
    simp
    omega
  have hinj {d : Char} (h : String.utf8EncodeChar d = [UInt8.ofNat c.toNat]) : d = c := by
    have hd := read?_eq_some_iff.mpr h
    rw [read?_eq_some_iff.mpr (utf8EncodeChar_of_lt hc)] at hd
    exact (Option.some.inj hd).symm
  induction es generalizing front with
  | nil => simp [encode] at h
  | cons e es ih =>
    have he (es : List Char) : encode (e :: es) = String.utf8EncodeChar e ++ encode es := rfl
    rw [he, List.append_eq_append_iff] at h
    obtain ⟨rest, rfl, h⟩ | ⟨rest, h, hrest⟩ := h
    · obtain ⟨cs, ds, rfl, rfl, hds⟩ := ih h
      exact ⟨e :: cs, ds, rfl, rfl, hds⟩
    · cases rest with
      | nil =>
        have hback : encode es = [] ++ UInt8.ofNat c.toNat :: back := hrest.symm
        obtain ⟨cs, ds, rfl, hcs, hds⟩ := ih hback
        rw [List.append_nil] at h
        exact ⟨e :: cs, ds, rfl, by rw [he, hcs, List.append_nil, h], hds⟩
      | cons b rest =>
        obtain ⟨rfl, rfl⟩ := List.cons.inj hrest
        have hmem : UInt8.ofNat c.toNat ∈ String.utf8EncodeChar e :=
          h ▸ List.mem_append_right front List.mem_cons_self
        have hsingle := utf8EncodeChar_eq_singleton hmem hlt
        obtain ⟨rfl, hb⟩ | ⟨-, hb⟩ := List.append_eq_singleton_iff.mp (h.symm.trans hsingle)
        · obtain ⟨-, rfl⟩ := List.cons.inj hb
          exact ⟨[], es, by rw [hinj hsingle, List.nil_append], rfl, rfl⟩
        · cases hb

theorem encode_append (cs ds : List Char) : encode (cs ++ ds) = encode cs ++ encode ds :=
  List.flatMap_append

theorem decode?_append_cons {c : Char} (hc : c.toNat < 0x80) (front back : List UInt8) :
    decode? (front ++ UInt8.ofNat c.toNat :: back) =
      match decode? front, decode? back with
      | some cs, some ds => some (cs ++ c :: ds)
      | _, _ => none := by
  split
  · rename_i cs ds hcs hds
    rw [decode?_eq_some_iff] at hcs hds ⊢
    have hcons : encode (c :: ds) = String.utf8EncodeChar c ++ encode ds := rfl
    rw [encode_append, hcons, hcs, hds, utf8EncodeChar_of_lt hc, List.singleton_append]
  · rename_i hnone
    rw [Option.eq_none_iff_forall_ne_some]
    intro es hes
    obtain ⟨cs, ds, -, hcs, hds⟩ :=
      exists_of_encode_eq_append_cons hc (decode?_eq_some_iff.mp hes)
    exact hnone cs ds (decode?_eq_some_iff.mpr hcs) (decode?_eq_some_iff.mpr hds)

end Utf8

namespace Form

variable {encoding : Encoding}

theorem toNat_lt_of_isAscii {c : Char} (h : isAscii c = true) : c.toNat < 0x80 :=
  of_decide_eq_true h

/-- Bytes are decoded apart on both sides of an ASCII character. -/
theorem decode?_append_cons {c : Char} (hc : isAscii c = true) (front back : List UInt8) :
    encoding.decode? (front ++ UInt8.ofNat c.toNat :: back) =
      match encoding.decode? front, encoding.decode? back with
      | some cs, some ds => some (cs ++ c :: ds)
      | _, _ => none := by
  have hlt : c.toNat < 0x80 := toNat_lt_of_isAscii hc
  have hbyte : (UInt8.ofNat c.toNat).toNat = c.toNat := by
    rw [UInt8.toNat_ofNat']
    omega
  have hchar : Char.ofNat (UInt8.ofNat c.toNat).toNat = c := by
    rw [hbyte, Char.ofNat_toNat]
  cases encoding with
  | utf8 => exact Utf8.decode?_append_cons hlt front back
  | ascii =>
    have hb : UInt8.ofNat c.toNat < 0x80 := by
      rw [UInt8.lt_iff_toNat_lt, hbyte]
      exact hlt
    simp only [Encoding.decode?, List.all_append, List.all_cons, hb, decide_true, Bool.true_and,
      Bool.and_eq_true, List.map_append, List.map_cons, hchar]
    by_cases hfront : front.all (· < 0x80) = true
    · by_cases hback : back.all (· < 0x80) = true
      · simp [hfront, hback]
      · simp [hfront, hback]
    · simp [hfront]
  | latin1 => simp only [Encoding.decode?, List.map_append, List.map_cons, hchar]

/-! ## Pieces -/

inductive Piece where
  | char (c : Char)
  | octet (b : UInt8)

/-- A text as characters and bytes; none if a percent sign starts no escape. -/
def pieces? : List Char → Option (List Piece)
  | [] => some []
  | '%' :: high :: low :: cs =>
    match Percent.octet? high low with
    | some b => (pieces? cs).map (.octet b :: ·)
    | none => none
  | c :: cs => if c = '%' then none else (pieces? cs).map (.char (plain c) :: ·)

/-- The characters spelled by `pending` bytes and the pieces that follow them. -/
def assemble? (encoding : Encoding) (pending : List UInt8) : List Piece → Option (List Char)
  | [] => encoding.decode? pending
  | .octet b :: pieces => assemble? encoding (pending ++ [b]) pieces
  | .char c :: pieces =>
    match encoding.decode? pending, assemble? encoding [] pieces with
    | some cs, some ds => some (cs ++ c :: ds)
    | _, _ => none

theorem pieces?_cons {c : Char} (hc : c ≠ '%') (cs : List Char) :
    pieces? (c :: cs) = (pieces? cs).map (.char (plain c) :: ·) := by
  rw [pieces?, if_neg hc]
  exact fun _ _ _ he => absurd he hc

theorem pieces?_of_not_mem {cs : List Char} (h : '%' ∉ cs) :
    pieces? cs = some ((cs.map plain).map .char) := by
  induction cs with
  | nil => rfl
  | cons c cs ih =>
    obtain ⟨hc, hcs⟩ := not_or.mp (mt List.mem_cons.mpr h)
    rw [pieces?_cons (Ne.symm hc), ih hcs]
    rfl

theorem map_plain_eq_self_iff {cs : List Char} : cs.map plain = cs ↔ '+' ∉ cs := by
  induction cs with
  | nil => simp
  | cons c cs ih =>
    rw [List.map_cons, List.cons.injEq, ih, List.mem_cons, not_or]
    refine and_congr_left fun _ => ?_
    by_cases hc : c = '+'
    · subst hc
      decide
    · simp [plain, hc, Ne.symm hc]

/-- A text with nothing to decode is read as its characters. -/
theorem pieces?_eq_map_char {cs : List Char} (hpercent : '%' ∉ cs) (hplus : '+' ∉ cs) :
    pieces? cs = some (cs.map .char) := by
  rw [pieces?_of_not_mem hpercent, map_plain_eq_self_iff.mpr hplus]

theorem pieces?_append {front back : List Char} {qs : List Piece} (h : pieces? front = some qs) :
    pieces? (front ++ back) = (pieces? back).map (qs ++ ·) := by
  fun_induction pieces? front generalizing qs with
  | case1 =>
    cases h
    simp
  | case2 high low cs b hb ih =>
    obtain ⟨ps, hps, rfl⟩ := Option.map_eq_some_iff.mp h
    simp only [List.cons_append, pieces?, hb, ih hps, Option.map_map]
    rfl
  | case3 => cases h
  | case4 => cases h
  | case5 c cs _ hc ih =>
    obtain ⟨ps, hps, rfl⟩ := Option.map_eq_some_iff.mp h
    rw [List.cons_append, pieces?_cons hc, ih hps, Option.map_map]
    rfl

/-- A text is read as pieces if its escapes pass their check. -/
theorem isSome_pieces? (cs : List Char) : (pieces? cs).isSome = Percent.wellFormed cs := by
  fun_induction pieces? cs with
  | case1 => rfl
  | case2 high low cs b hb ih =>
    obtain ⟨hhigh, hlow⟩ := Percent.ne_percent_of_octet? hb
    obtain ⟨hhighDigit, hlowDigit⟩ := Percent.isDigit_of_octet? hb
    rw [Option.isSome_map, ih, Percent.wellFormed, Percent.wellFormed_cons hhigh,
      Percent.wellFormed_cons hlow, Percent.startsWithOctet, hhighDigit, hlowDigit]
    rfl
  | case3 high low cs hnone =>
    have hdigits : (Hex.isDigit high && Hex.isDigit low) = false := by
      rw [← Percent.isSome_octet?, hnone]
      rfl
    simp [Percent.wellFormed, Percent.startsWithOctet, hdigits]
  | case4 cs hcs =>
    have hstart : Percent.startsWithOctet cs = false := by
      match cs, hcs with
      | [], _ => rfl
      | [_], _ => rfl
      | high :: low :: cs, hcs => exact absurd rfl (hcs high low cs rfl)
    simp [Percent.wellFormed, hstart]
  | case5 c cs _ hc ih =>
    rw [Option.isSome_map, ih, Percent.wellFormed_cons hc]

/-- By induction on the run as it is read. -/
theorem assemble?_of_isAscii {run : List Char} {ps : List Piece} (hps : pieces? run = some ps)
    (hascii : ∀ c ∈ run, isAscii c = true) (hplus : '+' ∉ run) (pending : List UInt8) :
    assemble? encoding pending ps = encoding.decode? (pending ++ octets run) := by
  fun_induction pieces? run generalizing ps pending with
  | case1 =>
    cases hps
    rw [octets, List.append_nil, assemble?]
  | case2 high low cs b hb ih =>
    obtain ⟨qs, hqs, rfl⟩ := Option.map_eq_some_iff.mp hps
    simp only [List.mem_cons, forall_eq_or_imp, not_or] at hascii hplus
    rw [assemble?, ih hqs hascii.2.2.2 hplus.2.2.2, List.append_assoc, List.singleton_append]
    simp only [octets, hb]
  | case3 => cases hps
  | case4 => cases hps
  | case5 c cs _ hc ih =>
    obtain ⟨qs, hqs, rfl⟩ := Option.map_eq_some_iff.mp hps
    obtain ⟨hcAscii, hascii⟩ := List.forall_mem_cons.mp hascii
    obtain ⟨hcPlus, hplus⟩ := not_or.mp (mt List.mem_cons.mpr hplus)
    have hoctets : octets (c :: cs) = UInt8.ofNat c.toNat :: octets cs := by
      rw [octets]
      exact fun _ _ _ he => absurd he hc
    rw [plain, if_neg (Ne.symm hcPlus), assemble?, ih hqs hascii hplus, List.nil_append, hoctets,
      decode?_append_cons hcAscii]

theorem decode?_nil : encoding.decode? [] = some [] := by
  cases encoding <;> rfl

/-- Bytes end at a character. -/
theorem assemble?_append {ps qs : List Piece} (hqs : ∀ p ∈ qs.head?, ∃ c, p = .char c)
    (pending : List UInt8) :
    assemble? encoding pending (ps ++ qs) =
      match assemble? encoding pending ps, assemble? encoding [] qs with
      | some cs, some ds => some (cs ++ ds)
      | _, _ => none := by
  induction ps generalizing pending with
  | nil =>
    cases qs with
    | nil =>
      rw [List.append_nil, assemble?, assemble?, decode?_nil]
      cases encoding.decode? pending <;> simp
    | cons q qs =>
      obtain ⟨c, rfl⟩ := hqs q rfl
      rw [List.nil_append, assemble?, assemble?, assemble?, decode?_nil]
      cases encoding.decode? pending <;> cases assemble? encoding [] qs <;> rfl
  | cons p ps ih =>
    cases p with
    | octet b => exact ih _
    | char c =>
      rw [List.cons_append, assemble?, assemble?, ih]
      cases encoding.decode? pending <;> cases assemble? encoding [] ps <;>
        cases assemble? encoding [] qs <;> simp

theorem assemble?_map_char_append (cs : List Char) (ps : List Piece) :
    assemble? encoding [] (cs.map .char ++ ps) = (assemble? encoding [] ps).map (cs ++ ·) := by
  induction cs with
  | nil => simp
  | cons c cs ih =>
    rw [List.map_cons, List.cons_append, assemble?, decode?_nil, ih]
    cases assemble? encoding [] ps <;> rfl

theorem assemble?_map_char (cs : List Char) : assemble? encoding [] (cs.map .char) = some cs := by
  rw [← List.append_nil (cs.map Piece.char), assemble?_map_char_append, assemble?, decode?_nil,
    Option.map_some, List.append_nil]

/-! ## Plus signs -/

theorem plain_plain (c : Char) : plain (plain c) = plain c := by
  by_cases hc : c = '+'
  · subst hc
    decide
  · simp [plain, hc]

theorem plain_eq_percent_iff {c : Char} : plain c = '%' ↔ c = '%' := by
  by_cases hc : c = '+'
  · subst hc
    decide
  · simp [plain, hc]

theorem not_mem_map_plain (cs : List Char) : '+' ∉ cs.map plain := by
  rw [← map_plain_eq_self_iff, List.map_map]
  exact List.map_congr_left fun c _ => plain_plain c

/-- Pieces stay the same when plus signs are replaced. -/
theorem pieces?_map_plain {cs : List Char} {ps : List Piece} (h : pieces? cs = some ps) :
    pieces? (cs.map plain) = some ps := by
  fun_induction pieces? cs generalizing ps with
  | case1 => exact h
  | case2 high low cs b hb ih =>
    obtain ⟨qs, hqs, rfl⟩ := Option.map_eq_some_iff.mp h
    have hplain {c : Char} (hc : Hex.isDigit c = true) : plain c = c := by
      rw [plain, if_neg]
      rintro rfl
      revert hc
      decide
    obtain ⟨hhigh, hlow⟩ := Percent.isDigit_of_octet? hb
    have hpercent : plain '%' = '%' := by decide
    simp only [List.map_cons, hpercent, hplain hhigh, hplain hlow, pieces?, hb, ih hqs,
      Option.map_some]
  | case3 => cases h
  | case4 => cases h
  | case5 c cs _ hc ih =>
    obtain ⟨qs, hqs, rfl⟩ := Option.map_eq_some_iff.mp h
    rw [List.map_cons, pieces?_cons (mt plain_eq_percent_iff.mp hc), ih hqs, plain_plain]
    rfl

end Form

end Registration.Text
