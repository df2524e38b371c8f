import Registration.Fault
import Registration.Rejection.Basic

/-!
# Rejections from arguments

A rejection can be made for any field and value by naming the kind of reason
and giving the parts by position or by name.

* `Reason.ofName?`: the kinds of reason by name;
* `parameters`: the parts that a kind takes, in order;
* `described`: a rejection, or the fault that it cannot be described;
* `ofArguments`: the rejection, or the fault in its arguments.
-/

namespace Registration

namespace Reason

/-- The reason of a name, with nothing required where a reason states what is. -/
def ofName? (name : String) : Option Reason :=
  [general, unsupportedValue, duplicateValue, malformedUri, notAbsoluteUri,
    grantResponseMismatch .null, outputParameterNotAllowed].find? fun r => r.name == name

/-- Only a mismatch states what is required, and its description cannot be replaced. -/
def parameters : Reason → List String
  | grantResponseMismatch _ => ["field", "value", "required", "status_code"]
  | _ => ["field", "value", "description", "status_code"]

def withRequired (required : Value) : Reason → Reason
  | grantResponseMismatch _ => grantResponseMismatch required
  | r => r

end Reason

namespace Rejection

/-- Arguments under the names of the parameters they are given for; none if there are too many, or
one is unknown or given twice. -/
def bindArguments (parameters : List String) (positional : List Value) (named : Entries) :
    Option Entries :=
  let free := parameters.drop positional.length
  if positional.length ≤ parameters.length ∧ named.all (fun e => free.contains e.1) then
    some (parameters.zip positional ++ named)
  else none

/-- A rejection that can be described. -/
def described (r : Rejection) : Except Fault Rejection :=
  if r.canBeDescribed then .ok r else .error .unprintable

/-- The field is required; a status or description that is `null` counts as not given. -/
def ofArguments (reason : Reason) (positional : List Value) (named : Entries) :
    Except Fault Rejection :=
  match bindArguments reason.parameters positional named with
  | none => .error .wrongType
  | some arguments =>
    let argument (name : String) : Value := (arguments.lookup name).getD .null
    let status := if (argument "status_code").isNull then .int 400 else argument "status_code"
    let reason := reason.withRequired (argument "required")
    match arguments.lookup "field", argument "description" with
    | none, _ => .error .wrongType
    | some field, .null => described ⟨reason, field, argument "value", none, status⟩
    | some field, .str s => described ⟨reason, field, argument "value", some s, status⟩
    | some _, _ => .error .wrongType

end Rejection

end Registration
