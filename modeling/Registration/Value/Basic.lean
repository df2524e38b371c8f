import Registration.Text.Decimal

/-!
# Values

The dynamic data of a registration request. A client may put anything into a
field, and the field is judged, echoed and printed as it came:

* `Value`: the data itself; maps keep the order of their entries;
* `isEmpty`, `isTruthy`, `isZero`: the three ways in which a field counts as
  not given;
* `isHashable`: what may be looked up among the keys of a map;
* `elements?`: what a value yields when it is walked through;
* `same`: equality, under which truth values are the numbers 0 and 1.
-/

namespace Registration

inductive Value where
  | null
  | bool (b : Bool)
  | int (n : Int)
  /-- A floating-point number, held as its shortest decimal text. -/
  | real (text : String)
  | str (s : String)
  | list (items : List Value)
  | tuple (items : List Value)
  /-- A collection without order; no two of its items are the same. -/
  | set (items : List Value)
  | map (entries : List (String × Value))
  deriving Inhabited

namespace Value

/-! ## Values that count as not given -/

def isNull : Value → Bool
  | null => true
  | _ => false

/-- Nothing, the empty text and the empty collections are empty. -/
def isEmpty : Value → Bool
  | null => true
  | str s => s.isEmpty
  | list items | tuple items | set items => items.isEmpty
  | map entries => entries.isEmpty
  | _ => false

/-- Zero, of any numeric kind. -/
def isZero : Value → Bool
  | bool b => !b
  | int n => n == 0
  | real text => text == "0.0" || text == "-0.0"
  | _ => false

/-- Neither empty nor zero. -/
def isTruthy (v : Value) : Bool :=
  !(v.isEmpty || v.isZero)

/-! ## Parts -/

/-- The text of a text value. -/
def text? : Value → Option String
  | str s => some s
  | _ => none

/-- A list of texts. -/
def ofTexts (ss : List String) : Value :=
  list (ss.map str)

/-- The items of a list or tuple, the two ordered collections. -/
def sequence? : Value → Option (List Value)
  | list items | tuple items => some items
  | _ => none

/-- What a value yields when it is walked through: a text its characters, a map
its keys, a collection its items. -/
def elements? : Value → Option (List Value)
  | str s => some (s.toList.map fun c => str c.toString)
  | list items | tuple items | set items => some items
  | map entries => some (entries.map fun e => str e.1)
  | _ => none

mutual

/-- Only what cannot change may be looked up among keys: no list, set or map,
and no tuple that holds one. -/
def isHashable : Value → Bool
  | list _ | set _ | map _ => false
  | tuple items => allHashable items
  | _ => true

def allHashable : List Value → Bool
  | [] => true
  | v :: vs => v.isHashable && allHashable vs

end

/-! ## Equality -/

/-- The whole number that a number or truth value stands for. -/
def integer? : Value → Option Int
  | bool b => some (if b then 1 else 0)
  | int n => some n
  | real text => Text.Decimal.whole? text
  | _ => none

/-- Equality of numbers. Two floating-point numbers have the same text or are zero, of either sign,
and `nan` differs from itself. -/
def sameNumber (v w : Value) : Bool :=
  match v, w with
  | real a, real b => a != "nan" && a == b || v.isZero && w.isZero
  | _, _ =>
    match v.integer?, w.integer? with
    | some m, some n => m == n
    | _, _ => false

mutual

/-- Sets and maps are compared without regard to order, lists and tuples item
by item. -/
def same : Value → Value → Bool
  | null, null => true
  | str s, str t => s == t
  | list vs, list ws | tuple vs, tuple ws => sameItems vs ws
  | set vs, set ws => vs.length == ws.length && within vs ws
  | map es, map fs => es.length == fs.length && entriesWithin es fs
  | v, w => sameNumber v w
termination_by structural v => v

def sameItems : List Value → List Value → Bool
  | [], [] => true
  | v :: vs, w :: ws => v.same w && sameItems vs ws
  | _, _ => false
termination_by structural vs => vs

/-- Every item of the first list is among those of the second. -/
def within : List Value → List Value → Bool
  | [], _ => true
  | v :: vs, ws => ws.any (fun w => v.same w) && within vs ws
termination_by structural vs => vs

/-- Every entry of the first list is among those of the second. -/
def entriesWithin : List (String × Value) → List (String × Value) → Bool
  | [], _ => true
  | (k, v) :: es, fs => fs.any (fun f => k == f.1 && v.same f.2) && entriesWithin es fs
termination_by structural es => es

end

/-- The set of the given values: of equal ones the first is kept. -/
def ofElements (vs : List Value) : Value :=
  set (vs.foldl (fun kept v => if kept.any (fun w => v.same w) then kept else kept ++ [v]) [])

end Value

end Registration
