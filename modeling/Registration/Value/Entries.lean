import Registration.Value.Basic

/-!
# Entries

Keys with values in the order of their first insertion.

* `lookup`, `insert`, `erase`: the operations, of which `insert` keeps the place
  of a key that is there;
* `lookup_insert_self`, `lookup_insert_ne`, `lookup_erase_self`,
  `lookup_erase_ne`: what they leave to be looked up.
-/

namespace Registration

abbrev Entries := List (String × Value)

namespace Entries

def lookup (key : String) : Entries → Option Value
  | [] => none
  | (k, v) :: rest => if k = key then some v else lookup key rest

def insert (key : String) (value : Value) : Entries → Entries
  | [] => [(key, value)]
  | (k, v) :: rest => if k = key then (key, value) :: rest else (k, v) :: insert key value rest

def erase (key : String) : Entries → Entries
  | [] => []
  | (k, v) :: rest => if k = key then erase key rest else (k, v) :: erase key rest

theorem lookup_insert_self (key : String) (value : Value) (es : Entries) :
    (es.insert key value).lookup key = some value := by
  induction es with
  | nil => simp [insert, lookup]
  | cons e rest ih => by_cases h : e.1 = key <;> simp [insert, lookup, h, ih]

theorem lookup_insert_ne {key other : String} (h : other ≠ key) (value : Value) (es : Entries) :
    (es.insert key value).lookup other = es.lookup other := by
  induction es with
  | nil => simp [insert, lookup, h.symm]
  | cons e rest ih =>
    by_cases he : e.1 = key
    · simp [insert, lookup, he, h.symm]
    · by_cases ho : e.1 = other <;> simp [insert, lookup, he, ho, h, ih]

theorem lookup_erase_self (key : String) (es : Entries) : (es.erase key).lookup key = none := by
  induction es with
  | nil => rfl
  | cons e rest ih => by_cases h : e.1 = key <;> simp [erase, lookup, h, ih]

theorem lookup_erase_ne {key other : String} (h : other ≠ key) (es : Entries) :
    (es.erase key).lookup other = es.lookup other := by
  induction es with
  | nil => rfl
  | cons e rest ih =>
    by_cases he : e.1 = key
    · simp [erase, lookup, he, h.symm, ih]
    · by_cases ho : e.1 = other <;> simp [erase, lookup, he, ho, h, ih]

end Entries

end Registration
