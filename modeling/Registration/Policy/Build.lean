import Registration.Policy.Basic

/-!
# Building policies

* `construct`: a catalogue with some of its values replaced;
* `ofOptions`: the same, from options by name;
* `narrow`: the values of a catalogue that a server advertises, if it does;
* `ofServerMetadata`: a catalogue restricted to what a server advertises;
* `stock`: the policy of the stock catalogue as it is.
-/

namespace Registration.Policy

/-- The values of every field, once each is known to be a collection. -/
def ofValues (c : Catalogue) (values : Enumerated → Value) : Except Fault Policy :=
  if Enumerated.all.all fun e => (values e).elements?.isSome then
    .ok ⟨fun e => (values e).elements?.getD [], c.requirements, c.optionCheck⟩
  else .error .wrongType

/-- What is given for a field replaces the values of the catalogue, which are kept where that is
`null`. An empty list is given too, and supports nothing. -/
def construct (c : Catalogue) (given : Enumerated → Value) : Except Fault Policy :=
  ofValues c fun e => if (given e).isNull then c.values e else given e

/-- The options are named by the fields whose values they give. -/
def ofOptions (c : Catalogue) (options : Entries) : Except Fault Policy :=
  if options.all fun o => Enumerated.all.any fun e => e.optionName == o.1 then
    construct c fun e => (Entries.lookup e.optionName options).getD .null
  else .error .wrongType

/-- Whether a value is among those advertised. A text advertises its substrings, a map its keys, and
a set or a map can only be asked for what may be a key; sets themselves are in no set. -/
def advertises (advertised v : Value) : Except Fault Bool :=
  match advertised with
  | .str text =>
    match v with
    | .str s => .ok (isSubstring s.toList text.toList)
    | _ => .error .wrongType
  | .list items | .tuple items => .ok (items.any fun item => item.same v)
  | .set items =>
    match v with
    | .set _ => .ok false
    | _ => if v.isHashable then .ok (items.any fun item => item.same v) else .error .wrongType
  | .map entries =>
    if v.isHashable then .ok (entries.any fun e => (Value.str e.1).same v) else .error .wrongType
  | _ => .error .wrongType
where
  isSubstring (cs ds : List Char) : Bool :=
    match ds with
    | [] => cs.isEmpty
    | _ :: rest => cs.isPrefixOf ds || isSubstring cs rest

/-- The values that are advertised, in the order of the catalogue. -/
def select (advertised : Value) : List Value → Except Fault (List Value)
  | [] => .ok []
  | v :: vs =>
    match advertises advertised v, select advertised vs with
    | .ok b, .ok kept => .ok (if b then v :: kept else kept)
    | .error e, _ => .error e
    | _, .error e => .error e

/-- What is empty or zero says nothing about a field, so nothing is given for it: not the values of
the catalogue, nor an empty list. -/
def narrow (values advertised : Value) : Except Fault Value :=
  if advertised.isTruthy then
    match values.elements? with
    | some vs => (select advertised vs).map .list
    | none => .error .wrongType
  else .ok .null

/-- The key under which a server advertises the values of a field. The application type has none. -/
def advertisedName? : Enumerated → Option String
  | .applicationType => none
  | e => some (e.optionName ++ "_supported")

/-- What is given for one field: its values as far as they are advertised, or nothing. -/
def narrowed (c : Catalogue) (metadata : Entries) (e : Enumerated) : Except Fault Value :=
  match advertisedName? e with
  | none => .ok .null
  | some name => narrow (c.values e) ((Entries.lookup name metadata).getD .null)

/-- Values that the server advertises and the catalogue lacks are ignored. -/
def ofServerMetadata (c : Catalogue) : Value → Except Fault Policy
  | .map metadata => do
    let applicationTypes ← narrowed c metadata .applicationType
    let responseTypes ← narrowed c metadata .responseTypes
    let grantTypes ← narrowed c metadata .grantTypes
    let subjectTypes ← narrowed c metadata .subjectType
    let authMethods ← narrowed c metadata .tokenEndpointAuthMethod
    construct c fun
      | .applicationType => applicationTypes
      | .responseTypes => responseTypes
      | .grantTypes => grantTypes
      | .subjectType => subjectTypes
      | .tokenEndpointAuthMethod => authMethods
  | _ => .error .noSuchOperation

/-- The stock catalogue is made of lists, so it can be taken as it is. -/
def stock : Policy :=
  ⟨fun e => (Catalogue.stock.values e).elements?.getD [], Catalogue.stock.requirements,
    Catalogue.stock.optionCheck⟩

theorem ofOptions_stock : ofOptions .stock [] = .ok stock := rfl

end Registration.Policy
