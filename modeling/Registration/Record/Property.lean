import Registration.Fault
import Registration.Record.Basic
import Registration.Text.Blank

/-!
# Properties of records

What is read of a record by name, apart from its raw entries.

* `scopes`: the words of a scope;
* `property`: a registered field, a scope as words, or a list of names;
* `appended`: a copy with one more item in a list.
-/

namespace Registration.Record

/-- The words of a scope. What is not given has none, and only a text can be split. -/
def scopes (r : Record) (f : Field) : Except Fault (List String) :=
  match r.value f with
  | .str s => .ok (Text.words s)
  | v => if v.isTruthy then .error .noSuchOperation else .ok []

/-- Entries that are not registered cannot be read in this way. -/
def property (r : Record) (name : String) : Except Fault Value :=
  match name with
  | "scopes" => (r.scopes .scope).map Value.ofTexts
  | "preauthorized_scopes" => (r.scopes .preauthorizedScope).map Value.ofTexts
  | "REGISTERED_CLAIMS" => .ok (.ofTexts (Field.all.map Field.name))
  | "OUTPUT_CLAIMS" => .ok (.ofTexts (Field.outputs.map Field.name))
  | _ =>
    match Field.ofName? name with
    | some f => .ok (r.value f)
    | none => .error .noSuchOperation

/-- A copy of the record in which the list at `key` ends with one more item. -/
def appended (r : Record) (key : String) (v : Value) : Except Fault Record :=
  match r.get? key with
  | none => .error .unknownKey
  | some (.list items) => .ok (r.insert key (.list (items ++ [v])))
  | some _ => .error .noSuchOperation

end Registration.Record
