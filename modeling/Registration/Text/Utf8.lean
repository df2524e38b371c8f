/-!
# UTF-8

Text as bytes. A character is read back from a byte sequence exactly if the
sequence is its encoding, so overlong forms, surrogates and code points beyond
the last one are refused.

* `encode`: the bytes of a text;
* `read?`: the character that one sequence of bytes encodes;
* `decode?`: the text that bytes encode, if they encode one;
* `read?_eq_some_iff`, `decode?_eq_some_iff`: both invert the encoding.
-/

namespace Registration.Text.Utf8

def encode (cs : List Char) : List UInt8 :=
  cs.flatMap String.utf8EncodeChar

/-- The number spelled by the bits that a sequence leaves to the code point. -/
def spelled : List UInt8 → Nat
  | [a] => a.toNat
  | [a, b] => a.toNat % 32 * 64 + b.toNat % 64
  | [a, b, c] => (a.toNat % 16 * 64 + b.toNat % 64) * 64 + c.toNat % 64
  | [a, b, c, d] => ((a.toNat % 8 * 64 + b.toNat % 64) * 64 + c.toNat % 64) * 64 + d.toNat % 64
  | _ => 0

def read? (bytes : List UInt8) : Option Char :=
  let c := Char.ofNat (spelled bytes)
  if String.utf8EncodeChar c = bytes then some c else none

/-- The number of bytes that a first byte announces. -/
def announced (a : UInt8) : Nat :=
  if a < 0x80 then 1 else if a < 0xE0 then 2 else if a < 0xF0 then 3 else 4

/-- The text behind `skip` more bytes of a character that has been read. -/
def decodeAfter? : (skip : Nat) → List UInt8 → Option (List Char)
  | _, [] => some []
  | 0, a :: bytes =>
    match read? ((a :: bytes).take (announced a)) with
    | some c => (decodeAfter? (announced a - 1) bytes).map (c :: ·)
    | none => none
  | skip + 1, _ :: bytes => decodeAfter? skip bytes

def decode? (bytes : List UInt8) : Option (List Char) :=
  decodeAfter? 0 bytes

/-! ## One character -/

theorem val_toNat_lt (c : Char) : c.val.toNat < 0x110000 := by
  rcases c.valid with h | h
  · exact Nat.lt_trans h (by decide)
  · exact h.2

theorem spelled_utf8EncodeChar (c : Char) : spelled (String.utf8EncodeChar c) = c.toNat := by
  have h := val_toNat_lt c
  simp only [String.utf8EncodeChar, Char.toNat]
  split
  · simp only [spelled, UInt8.toNat_ofNat']
    omega
  · split
    · simp only [spelled, UInt8.toNat_ofNat']
      omega
    · split
      · simp only [spelled, UInt8.toNat_ofNat']
        omega
      · simp only [spelled, UInt8.toNat_ofNat']
        omega

theorem read?_eq_some_iff {bytes : List UInt8} {c : Char} :
    read? bytes = some c ↔ String.utf8EncodeChar c = bytes := by
  constructor
  · intro h
    simp only [read?] at h
    split at h
    · obtain rfl := Option.some.inj h
      assumption
    · contradiction
  · rintro rfl
    simp [read?, spelled_utf8EncodeChar]

/-- A first byte announces the length of the encoding that it starts. -/
theorem length_utf8EncodeChar {c : Char} {a : UInt8} {t : List UInt8}
    (h : String.utf8EncodeChar c = a :: t) : (a :: t).length = announced a := by
  have hc := val_toNat_lt c
  simp only [String.utf8EncodeChar] at h
  generalize c.val.toNat = n at h hc
  simp only [announced, UInt8.lt_iff_toNat_lt]
  split at h
  · obtain ⟨rfl, rfl⟩ := List.cons.inj h
    simp only [UInt8.toNat_ofNat', List.length_nil, List.length_cons]
    rw [if_pos (by simp; omega)]
  · split at h
    · obtain ⟨rfl, rfl⟩ := List.cons.inj h
      simp only [UInt8.toNat_ofNat', List.length_nil, List.length_cons]
      rw [if_neg (by simp; omega), if_pos (by simp; omega)]
    · split at h
      · obtain ⟨rfl, rfl⟩ := List.cons.inj h
        simp only [UInt8.toNat_ofNat', List.length_nil, List.length_cons]
        rw [if_neg (by simp; omega), if_neg (by simp; omega), if_pos (by simp; omega)]
      · obtain ⟨rfl, rfl⟩ := List.cons.inj h
        simp only [UInt8.toNat_ofNat', List.length_nil, List.length_cons]
        rw [if_neg (by simp; omega), if_neg (by simp; omega), if_neg (by simp; omega)]

theorem announced_pos (a : UInt8) : 0 < announced a := by
  simp only [announced]
  split
  · decide
  · split
    · decide
    · split <;> decide

/-! ## Whole texts -/

theorem decodeAfter?_eq (skip : Nat) (bytes : List UInt8) :
    decodeAfter? skip bytes = decode? (bytes.drop skip) := by
  induction bytes generalizing skip with
  | nil => simp [decodeAfter?, decode?]
  | cons a bytes ih =>
    cases skip with
    | zero => rfl
    | succ skip => simpa [decodeAfter?] using ih skip

theorem decode?_cons (a : UInt8) (bytes : List UInt8) :
    decode? (a :: bytes) =
      match read? ((a :: bytes).take (announced a)) with
      | some c => (decode? ((a :: bytes).drop (announced a))).map (c :: ·)
      | none => none := by
  obtain ⟨n, hn⟩ := Nat.exists_eq_succ_of_ne_zero (Nat.ne_of_gt (announced_pos a))
  rw [decode?, decodeAfter?, hn, decodeAfter?_eq]
  rfl

theorem decode?_utf8EncodeChar_append (c : Char) (bytes : List UInt8) :
    decode? (String.utf8EncodeChar c ++ bytes) = (decode? bytes).map (c :: ·) := by
  have hr := read?_eq_some_iff.mpr (rfl : String.utf8EncodeChar c = _)
  cases h : String.utf8EncodeChar c with
  | nil =>
    rw [h] at hr
    cases hr
  | cons a t =>
    have hl := length_utf8EncodeChar h
    rw [h] at hr
    rw [List.cons_append, decode?_cons, ← hl, ← List.cons_append, List.take_left, List.drop_left,
      hr]

theorem decode?_encode (cs : List Char) : decode? (encode cs) = some cs := by
  induction cs with
  | nil => rfl
  | cons c cs ih =>
    have he : encode (c :: cs) = String.utf8EncodeChar c ++ encode cs := rfl
    rw [he, decode?_utf8EncodeChar_append, ih, Option.map_some]

theorem encode_of_decode? {bytes : List UInt8} {cs : List Char} (h : decode? bytes = some cs) :
    encode cs = bytes := by
  induction hn : bytes.length using Nat.strongRecOn generalizing bytes cs with
  | _ n ih =>
    cases bytes with
    | nil =>
      cases h
      rfl
    | cons a bytes =>
      rw [decode?_cons] at h
      split at h
      · rename_i c hr
        obtain ⟨ds, hd, rfl⟩ := Option.map_eq_some_iff.mp h
        have hlt : ((a :: bytes).drop (announced a)).length < n := by
          have := announced_pos a
          simp only [List.length_drop, ← hn, List.length_cons]
          omega
        have : encode (c :: ds) = String.utf8EncodeChar c ++ encode ds := rfl
        rw [this, read?_eq_some_iff.mp hr, ih _ hlt hd rfl, List.take_append_drop]
      · contradiction

/-- Bytes are decoded to a text exactly if they are its encoding. -/
theorem decode?_eq_some_iff {bytes : List UInt8} {cs : List Char} :
    decode? bytes = some cs ↔ encode cs = bytes :=
  ⟨encode_of_decode?, fun h => h ▸ decode?_encode cs⟩

end Registration.Text.Utf8
