import Registration.Proofs.Text.Escape
import Registration.Rejection.Basic

/-!
# Descriptions in error responses

A rejection is described in words that may hold anything a client has sent; in
the error response they stand in escaped form.

* `IsResponseChar`: the characters that an error response may hold;
* `wordedDescription`: the description before it is escaped;
* `isResponseChar_of_mem_responseText`, `responseText_responseText`,
  `decode_responseText`: any text in its escaped form;
* `description_legal_and_recoverable`: the description of any rejection.
-/

namespace Registration.Rejection

open Text

/-- The characters of an error description: those of ASCII from the space to the tilde, without the
double quote and the backslash. -/
def IsResponseChar (c : Char) : Prop :=
  0x20 ≤ c.toNat ∧ c.toNat ≤ 0x21 ∨ 0x23 ≤ c.toNat ∧ c.toNat ≤ 0x5B ∨
    0x5D ≤ c.toNat ∧ c.toNat ≤ 0x7E

theorem isDescriptionChar_iff {c : Char} : isDescriptionChar c = true ↔ IsResponseChar c := by
  have hquote : c ≠ '\x22' ↔ c.toNat ≠ 0x22 := not_congr Char.toNat_inj.symm
  have hbackslash : c ≠ '\\' ↔ c.toNat ≠ 0x5C := not_congr Char.toNat_inj.symm
  simp only [isDescriptionChar, IsResponseChar, Bool.and_eq_true, decide_eq_true_eq, bne_iff_ne,
    hquote, hbackslash]
  omega

theorem allowsEscapes_isDescriptionChar : Percent.AllowsEscapes isDescriptionChar :=
  .of_digits (by decide) (by decide)

/-! ## Escaped texts -/

theorem isResponseChar_of_mem_responseText {s : String} {c : Char}
    (h : c ∈ (responseText s).toList) : IsResponseChar c := by
  rw [responseText, String.toList_ofList] at h
  exact isDescriptionChar_iff.mp (Percent.safe_of_mem_escape allowsEscapes_isDescriptionChar h)

theorem responseText_responseText (s : String) :
    responseText (responseText s) = responseText s := by
  rw [responseText, responseText, String.toList_ofList,
    Percent.escape_escape allowsEscapes_isDescriptionChar]

theorem decode_responseText {s : String} (hpercent : '%' ∉ s.toList) (hplus : '+' ∉ s.toList) :
    Form.decode .utf8 (responseText s) = .ok s :=
  Form.decode_escape hpercent hplus

/-! ## Descriptions -/

/-- The description as it is worded, before it is escaped. -/
def wordedDescription (r : Rejection) : String :=
  r.wording.getD (r.reason.describe r.field.display r.value.display)

/-- The description of a rejection has only characters that an error response may hold, is not
changed by escaping it again, and is decoded to what was worded, if this has no percent sign and no
plus sign. -/
theorem description_legal_and_recoverable (form : ErrorForm) (r : Rejection) :
    (∀ c ∈ r.description.toList, IsResponseChar c) ∧
      (∀ text, ("error_description", text) ∈ r.body form → ∀ c ∈ text.toList, IsResponseChar c) ∧
      responseText r.description = r.description ∧
      ('%' ∉ r.wordedDescription.toList → '+' ∉ r.wordedDescription.toList →
        Form.decode .utf8 r.description = .ok r.wordedDescription) := by
  have hlegal : ∀ c ∈ r.description.toList, IsResponseChar c :=
    fun _ hc => isResponseChar_of_mem_responseText hc
  refine ⟨hlegal, fun text ht => ?_, responseText_responseText _, decode_responseText⟩
  rw [((form.description_mem_body_iff _ _ _).mp ht).1]
  exact hlegal

/-- Quotes, a backslash and a character beyond ASCII inside a list. -/
theorem description_legal_and_recoverable_of_quoted_list :
    let r : Rejection := .ofField .duplicateValue .redirectUris (.list [.str "\"\\é", .null])
    '%' ∉ r.wordedDescription.toList ∧ '+' ∉ r.wordedDescription.toList ∧
      r.description = "The value ['%22%5C%5C%C3%A9', None] is a duplicate for the redirect_uris " ++
        "client registration metadata field." ∧
      Form.decode .utf8 r.description = .ok r.wordedDescription := by
  intro r
  have hpercent : '%' ∉ r.wordedDescription.toList := by decide +kernel
  have hplus : '+' ∉ r.wordedDescription.toList := by decide +kernel
  exact ⟨hpercent, hplus, by decide +kernel,
    (description_legal_and_recoverable .plain r).2.2.2 hpercent hplus⟩

end Registration.Rejection
