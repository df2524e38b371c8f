import Registration.Policy.Basic
import Registration.Record.Basic
import Registration.Uri.Parse

/-!
# Checking fields

* `remember`: a value is added to those seen before, unless it is among them;
* `distinct`: the texts of a list whose items all pass a test and differ from
  each other;
* `texts`: the same for a field that must be a list;
* `scalar`, `enumerated`, `uris`, `identifiers`: a field with one supported
  value, with supported values, with URIs, and with any texts;
* `slashTerminated`: the items of a list with a final slash.
-/

namespace Registration.Rule

/-! ## Lists -/

/-- The values seen before are kept as keys, so only what may be one can be sought among them. -/
def remember (f : Field) (seen : List Value) (v : Value) : Except Failure (List Value) :=
  if !v.isHashable then .error (.fault .wrongType)
  else if seen.any fun w => w.same v then .error (.refuse .duplicateValue f v)
  else .ok (v :: seen)

/-- Items are judged from the left, and each is judged on its own before it is compared with those
that were `seen`. -/
def distinct (judge : Value → Except Failure String) (f : Field) (seen : List Value) :
    List Value → Except Failure (List String)
  | [] => .ok []
  | v :: vs =>
    match judge v with
    | .error e => .error e
    | .ok s =>
      match remember f seen v with
      | .error e => .error e
      | .ok seen => (distinct judge f seen vs).map (s :: ·)

/-- The texts of a field, which for the given reason must be a list or tuple. -/
def texts (judge : Value → Except Failure String) (nonList : Reason) (f : Field) (v : Value) :
    Except Failure (List String) :=
  match v.sequence? with
  | none => .error (.refuse nonList f v)
  | some vs => distinct judge f [] vs

/-! ## Enumerated fields -/

/-- One supported value, or none. -/
def scalar (policy : Policy) (e : Enumerated) (r : Record) : Except Failure Unit :=
  if (r.value e.field).isEmpty then .ok () else (policy.check e (r.value e.field)).map fun _ => ()

/-- Supported values, each at most once. -/
def enumerated (policy : Policy) (e : Enumerated) (r : Record) : Except Failure (List String) :=
  if (r.value e.field).isEmpty then .ok []
  else texts (policy.check e) .unsupportedValue e.field (r.value e.field)

/-! ## Other lists -/

/-- A URI reference, with a scheme where it has to be `absolute`. -/
def uri (f : Field) (absolute : Bool) (v : Value) : Except Failure String :=
  match v with
  | .str s =>
    match Uri.parse s with
    | .error _ => .error (.refuse .malformedUri f v)
    | .ok u => if absolute && u.scheme.isNone then .error (.refuse .notAbsoluteUri f v) else .ok s
  | _ => .error (.refuse .malformedUri f v)

/-- URI references, each at most once. -/
def uris (f : Field) (absolute : Bool) (v : Value) : Except Failure (List String) :=
  texts (uri f absolute) .malformedUri f v

/-- Any text. -/
def identifier (f : Field) (v : Value) : Except Failure String :=
  match v with
  | .str s => .ok s
  | _ => .error (.refuse .unsupportedValue f v)

/-- Any texts, each at most once. -/
def identifiers (f : Field) (v : Value) : Except Failure (List String) :=
  texts (identifier f) .unsupportedValue f v

/-- Only a text has an end that can be looked at. -/
def slashTerminated : List Value → Except Failure (List Value)
  | [] => .ok []
  | .str s :: vs => (slashTerminated vs).map (.str (Uri.withFinalSlash s) :: ·)
  | _ => .error (.fault .noSuchOperation)

end Registration.Rule
