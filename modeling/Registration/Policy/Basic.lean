import Registration.Failure

/-!
# Policies

The values that a server supports for the enumerated fields, and the grant
types that response types require.

* `Enumerated`: the fields with a fixed set of values;
* `OptionCheck`: how a text is compared with the values of an option;
* `Catalogue`: the values from which policies are built, and that comparison;
* `Policy.check`, `Policy.checkNamed`: the text of a value that is supported for
  a field, or its refusal;
* `Policy.accepts`: whether a value is supported;
* `Policy.grantTypeFor`: the grant type that goes with a response type.
-/

namespace Registration

/-! ## Enumerated fields -/

inductive Enumerated where
  | applicationType
  | responseTypes
  | grantTypes
  | subjectType
  | tokenEndpointAuthMethod
  deriving DecidableEq, Repr

namespace Enumerated

def all : List Enumerated :=
  [applicationType, responseTypes, grantTypes, subjectType, tokenEndpointAuthMethod]

def field : Enumerated → Field
  | applicationType => .applicationType
  | responseTypes => .responseTypes
  | grantTypes => .grantTypes
  | subjectType => .subjectType
  | tokenEndpointAuthMethod => .tokenEndpointAuthMethod

def name (e : Enumerated) : String :=
  e.field.name

def ofName? (name : String) : Option Enumerated :=
  all.find? fun e => e.name == name

/-- The name of the values of a field in the options of a policy. -/
def optionName : Enumerated → String
  | applicationType => "application_types"
  | responseTypes => "response_types"
  | grantTypes => "grant_types"
  | subjectType => "subject_types"
  | tokenEndpointAuthMethod => "token_endpoint_auth_methods"

theorem mem_all (e : Enumerated) : e ∈ all := by
  cases e <;> decide

end Enumerated

/-! ## Options -/

/-- How the library that keeps the supported values as options compares a text with those of one
option. -/
structure OptionCheck where
  /-- Whether a text passes, given the values of the option. -/
  passes : List Value → String → Bool
  /-- A blank text never passes. -/
  passes_empty (vs : List Value) : passes vs "" = false
  /-- Beside an option without values any other text does. -/
  passes_of_no_values {s : String} (hs : s ≠ "") : passes [] s = true
  /-- Beside an option with values only these do. -/
  passes_iff {vs : List Value} {s : String} (hvs : vs ≠ []) (hs : s ≠ "") :
    passes vs s = true ↔ .str s ∈ vs

/-- The text is looked for among the values. -/
def OptionCheck.membership : OptionCheck where
  passes vs s := !s.isEmpty && (vs.isEmpty || vs.any fun v => v.text? == some s)
  passes_empty _ := rfl
  passes_of_no_values hs := by simpa using hs
  passes_iff {vs s} hvs hs := by
    have htext (v : Value) : v.text? = some s ↔ v = .str s := by
      cases v <;> simp [Value.text?]
    simp [hvs, hs, htext]

/-! ## Catalogues -/

/-- Configuration as it was given, which need not be made of lists of texts. -/
structure Catalogue where
  values : Enumerated → Value
  /-- A map from response types to the grant types that they require. -/
  requirements : Value
  optionCheck : OptionCheck

namespace Catalogue

/-- Pairwise subject identifiers and authentication by signed assertions are left out. -/
def stock : Catalogue where
  values
    | .applicationType => .ofTexts ["web", "native"]
    | .responseTypes => .ofTexts ["code", "token", "id_token", "id_token token", "token id_token"]
    | .grantTypes =>
      .ofTexts ["authorization_code", "implicit", "refresh_token", "client_credentials", "password",
        "urn:ietf:params:oauth:grant-type:jwt-bearer"]
    | .subjectType => .ofTexts ["public"]
    | .tokenEndpointAuthMethod => .ofTexts ["client_secret_post", "client_secret_basic", "none"]
  requirements :=
    .map [("code", .str "authorization_code"), ("id_token token", .str "implicit"),
      ("token id_token", .str "implicit")]
  optionCheck := .membership

def withValues (c : Catalogue) (e : Enumerated) (v : Value) : Catalogue :=
  { c with values := fun e' => if e' = e then v else c.values e' }

end Catalogue

/-! ## Policies -/

structure Policy where
  supported : Enumerated → List Value
  requirements : Value
  optionCheck : OptionCheck

namespace Policy

/-- The text of a value that is supported for a field. An option without values would let any text
pass, so it is looked at first. -/
def check (policy : Policy) (e : Enumerated) (v : Value) : Except Failure String :=
  match v with
  | .str s =>
    if (policy.supported e).isEmpty then .error (.refuse .unsupportedValue e.field v)
    else if policy.optionCheck.passes (policy.supported e) s then .ok s
    else .error (.refuse .unsupportedValue e.field v)
  | _ => .error (.refuse .unsupportedValue e.field v)

def accepts (policy : Policy) (e : Enumerated) (v : Value) : Bool :=
  (policy.check e v).isOk

/-- The values for a field, by its name. -/
def supportedNamed (policy : Policy) (name : String) : Except Fault (List Value) :=
  match Enumerated.ofName? name with
  | some e => .ok (policy.supported e)
  | none => .error .unknownKey

/-- A check by the name of the field. What is no text is refused under any name. -/
def checkNamed (policy : Policy) (name : String) (v : Value) : Except Failure String :=
  match v with
  | .str _ =>
    match Enumerated.ofName? name with
    | some e => policy.check e v
    | none => .error (.fault .unknownKey)
  | _ => .error (.ofRejection (.ofName .unsupportedValue name v))

/-- The grant type that a value requires as a response type, `null` if none. -/
def grantTypeFor (policy : Policy) (responseType : Value) : Except Fault Value :=
  match policy.requirements with
  | .map es =>
    match responseType with
    | .str s => .ok ((Entries.lookup s es).getD .null)
    | v => if v.isHashable then .ok .null else .error .wrongType
  | _ => .error .noSuchOperation

/-- The supported values of every field, by name. -/
def toValue (policy : Policy) : Value :=
  .map (Enumerated.all.map fun e => (e.name, .list (policy.supported e)))

end Policy

end Registration
