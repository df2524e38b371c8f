import Registration.Fault
import Registration.Record.Basic

/-!
# Reading records from values

A record is given as a map or as a list of pairs, of which later ones win.

* `pair`: the key and value of one pair;
* `insertAt`: a record with an entry more, by a key of any kind;
* `ofValue`: the record, or why there is none.
-/

namespace Registration.Record

/-- A pair is any value that yields two elements, of which the first may be a key. -/
def pair (index : Nat) (item : Value) : Except Fault (Value × Value) :=
  match item.elements? with
  | none => .error .wrongType
  | some [key, v] => if key.isHashable then .ok (key, v) else .error .wrongType
  | some parts => .error (.notAPair index parts.length)

/-- A text names the entry; any other key leaves it without a name. -/
def insertAt (r : Record) (key v : Value) : Record :=
  match key with
  | .str name => r.insert name v
  | _ => r.insertUnnamed key v

/-- The record with the pairs added that stand from position `index` on. -/
def addPairs (r : Record) (index : Nat) : List Value → Except Fault Record
  | [] => .ok r
  | item :: items =>
    match pair index item with
    | .error e => .error e
    | .ok (key, v) => addPairs (r.insertAt key v) (index + 1) items

def ofEntries (es : Entries) : Record :=
  es.foldl (fun r e => r.insert e.1 e.2) empty

def ofValue (v : Value) : Except Fault Record :=
  match v with
  | .map es => .ok (ofEntries es)
  | _ =>
    match v.elements? with
    | some items => addPairs empty 0 items
    | none => .error .wrongType

end Registration.Record
