import Registration.Field
import Registration.Text.Percent
import Registration.Value.Entries
import Registration.Value.Display

/-!
# Rejections

Why a value of a field is refused, and how this is told to the client and to
the log.

* `Reason`, `Rejection`: the cause with the field and value it concerns;
* `Reason.describe`, `Reason.mentioned`: what is said of a value, and the values
  that have to be written out for that;
* `Rejection.canBeDescribed`: whether they may be, without which there is no
  rejection;
* `code`, `description`: what an error response tells; the description has only
  the characters that such a response may hold;
* `ErrorForm`: the shape of the response, and of the text of an error, which the
  library of errors gives them (`body`, `message`);
* `toValue`: the parts, for a caller that words its own message;
* `literal`: the short form for the log.
-/

namespace Registration

inductive Reason where
  /-- Any other cause. -/
  | general
  | unsupportedValue
  | duplicateValue
  | malformedUri
  | notAbsoluteUri
  /-- A response type without the grant type that it requires. -/
  | grantResponseMismatch (required : Value)
  | outputParameterNotAllowed

structure Rejection where
  reason : Reason
  field : Value
  value : Value
  /-- A description in place of the one for the reason. -/
  wording : Option String
  status : Value

namespace Reason

def name : Reason → String
  | general => "ClientMetadataError"
  | unsupportedValue => "UnsupportedValueError"
  | duplicateValue => "DuplicateValueError"
  | malformedUri => "MalformedURIError"
  | notAbsoluteUri => "NotAbsoluteURIError"
  | grantResponseMismatch _ => "GrantResponseMismatchError"
  | outputParameterNotAllowed => "OutputParameterNotAllowedError"

/-- The reason in a form for programs; a general rejection has none. -/
def code? : Reason → Option String
  | general => none
  | unsupportedValue => some "UNSUPPORTED_VALUE"
  | duplicateValue => some "DUPLICATE_VALUE"
  | malformedUri => some "MALFORMED_URI"
  | notAbsoluteUri => some "NOT_ABSOLUTE_URI"
  | grantResponseMismatch _ => some "GRANT_RESPONSE_MISMATCH"
  | outputParameterNotAllowed => some "OUTPUT_PARAMETER_NOT_ALLOWED"

/-- What is said of a value of a field. -/
def describe (field value : String) : Reason → String
  | general =>
    "The value " ++ value ++ " for the client registration metadata field " ++ field ++
      " is invalid."
  | unsupportedValue =>
    "The value " ++ value ++ " is not a supported value for the " ++ field ++
      " client registration metadata field."
  | duplicateValue =>
    "The value " ++ value ++ " is a duplicate for the " ++ field ++
      " client registration metadata field."
  | malformedUri =>
    "The value " ++ value ++ " for the client registration metadata field " ++ field ++
      " contains a malformed URI syntax."
  | notAbsoluteUri =>
    "The value " ++ value ++ " for the client registration metadata field " ++ field ++
      " is not an absolute URI."
  | grantResponseMismatch required =>
    "The client registration metadata field " ++ field ++ " contains value " ++ value ++
      ", which requires at least a matching grant_type value " ++ required.display ++ "."
  | outputParameterNotAllowed =>
    "The client registration metadata field " ++ field ++
      " cannot be specified for a create or update action because it is an output parameter."

/-- The values that a description for the reason mentions. -/
def mentioned (field value : Value) : Reason → List Value
  | outputParameterNotAllowed => [field]
  | grantResponseMismatch required => [field, value, required]
  | _ => [field, value]

theorem eq_of_mem_mentioned {field value v : Value} {r : Reason}
    (h : v ∈ r.mentioned field value) : v = field ∨ v = value ∨ r = grantResponseMismatch v := by
  cases r with
  | outputParameterNotAllowed => exact .inl (List.mem_singleton.mp h)
  | grantResponseMismatch required =>
    simp only [mentioned, List.mem_cons, List.not_mem_nil, or_false] at h
    exact h.imp_right (Or.imp_right fun hv => congrArg grantResponseMismatch hv.symm)
  | _ =>
    simp only [mentioned, List.mem_cons, List.not_mem_nil, or_false] at h
    exact h.imp_right .inl

/-- Rejections of redirection URIs have an error code of their own. -/
def concernsUri : Reason → Bool
  | malformedUri | notAbsoluteUri => true
  | _ => false

end Reason

/-- What the library of errors makes of an error code and a description. -/
structure ErrorForm where
  /-- The error as a text. -/
  message : String → String → String
  /-- The entries of an error response. -/
  body : String → String → List (String × String)
  message_eq (code description : String) : message code description = code ++ ": " ++ description
  code_mem_body (code description : String) : ("error", code) ∈ body code description
  /-- An empty description is left out. -/
  description_mem_body_iff (code description text : String) :
    ("error_description", text) ∈ body code description ↔ text = description ∧ description ≠ ""

/-- Entries for the code and for a description that is not empty. -/
def ErrorForm.plain : ErrorForm where
  message code description := code ++ ": " ++ description
  body code description :=
    ("error", code) ::
      if description.isEmpty then [] else [("error_description", description)]
  message_eq _ _ := rfl
  code_mem_body _ _ := List.mem_cons_self ..
  description_mem_body_iff code description text := by
    have hname : "error_description" ≠ "error" := by decide
    by_cases h : description = "" <;> simp [h, hname]

namespace Rejection

/-- The rejection of a value of a field, with the usual description and status. -/
def ofName (reason : Reason) (name : String) (v : Value) : Rejection :=
  ⟨reason, .str name, v, none, .int 400⟩

def ofField (reason : Reason) (f : Field) (v : Value) : Rejection :=
  ofName reason f.name v

def code (r : Rejection) : String :=
  if r.reason.concernsUri ∧ r.field.text? = some Field.redirectUris.name then
    "invalid_redirect_uri"
  else "invalid_client_metadata"

/-- The characters that a description may hold as they are: those of ASCII from the space on, less
the double quote and the backslash. -/
def isDescriptionChar (c : Char) : Bool :=
  0x20 ≤ c.toNat && c.toNat < 0x7F && c != '\x22' && c != '\\'

def responseText (s : String) : String :=
  String.ofList (Text.Percent.escape isDescriptionChar s.toList)

def description (r : Rejection) : String :=
  responseText (r.wording.getD (r.reason.describe r.field.display r.value.display))

/-- A rejection is made with its description, so what that mentions has to be written out. -/
def canBeDescribed (r : Rejection) : Bool :=
  r.wording.isSome || (r.reason.mentioned r.field r.value).all Value.isPrintable

def message (form : ErrorForm) (r : Rejection) : String :=
  form.message r.code r.description

def body (form : ErrorForm) (r : Rejection) : List (String × String) :=
  form.body r.code r.description

def toValue (r : Rejection) : Value :=
  .map ([("reason", (r.reason.code?.map Value.str).getD .null), ("field", r.field),
    ("value", r.value), ("status_code", r.status)] ++
    match r.reason with
    | .grantResponseMismatch required => [("required", required)]
    | _ => [])

def literal (r : Rejection) : String :=
  "<" ++ r.reason.name ++ " " ++ r.field.display ++ "=" ++ r.value.literal ++ ">"

end Rejection

end Registration
