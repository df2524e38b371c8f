import Registration.Field
import Registration.Value.Entries

/-!
# Client metadata records

What a client has sent: a value for some of the registered fields, and whatever
else it has sent, which is carried along.

* `Record`: two records are equal if they hold the same value for every
  registered field and the same other entries, with a name and without one;
* `value`: a field for the rules, which treat a missing one as `null`;
* `put`, `remove`: changes of a registered field;
* `get?`, `insert`, `erase`: any key by its name;
* `insertUnnamed`: a key that is no text;
* `get?_insert_self`, `get?_insert_ne`, `get?_erase_self`, `get?_erase_ne`: what
  such changes leave to be read;
* `toValue`: the named entries as a map, registered fields first.
-/

namespace Registration

@[ext]
structure Record where
  registered : Field → Option Value
  other : Entries
  /-- The entries whose key is no text, by which nothing can be asked for. -/
  unnamed : List (Value × Value)

namespace Record

def empty : Record :=
  ⟨fun _ => none, [], []⟩

/-- The value of a field, `null` if there is none. -/
def value (r : Record) (f : Field) : Value :=
  (r.registered f).getD .null

/-! ## Changing a registered field -/

def put (r : Record) (f : Field) (v : Value) : Record :=
  { r with registered := fun g => if g = f then some v else r.registered g }

def remove (r : Record) (f : Field) : Record :=
  { r with registered := fun g => if g = f then none else r.registered g }

@[simp]
theorem registered_put_self (r : Record) (f : Field) (v : Value) :
    (r.put f v).registered f = some v := by
  simp [put]

theorem registered_put_ne (r : Record) {f g : Field} (v : Value) (h : g ≠ f) :
    (r.put f v).registered g = r.registered g := by
  simp [put, h]

@[simp]
theorem registered_remove_self (r : Record) (f : Field) : (r.remove f).registered f = none := by
  simp [remove]

theorem registered_remove_ne (r : Record) {f g : Field} (h : g ≠ f) :
    (r.remove f).registered g = r.registered g := by
  simp [remove, h]

@[simp]
theorem other_put (r : Record) (f : Field) (v : Value) : (r.put f v).other = r.other := rfl

@[simp]
theorem other_remove (r : Record) (f : Field) : (r.remove f).other = r.other := rfl

@[simp]
theorem unnamed_put (r : Record) (f : Field) (v : Value) : (r.put f v).unnamed = r.unnamed := rfl

@[simp]
theorem unnamed_remove (r : Record) (f : Field) : (r.remove f).unnamed = r.unnamed := rfl

@[simp]
theorem value_put_self (r : Record) (f : Field) (v : Value) : (r.put f v).value f = v := by
  simp [value]

theorem value_put_ne (r : Record) {f g : Field} (v : Value) (h : g ≠ f) :
    (r.put f v).value g = r.value g := by
  simp [value, registered_put_ne r v h]

@[simp]
theorem value_remove_self (r : Record) (f : Field) : (r.remove f).value f = .null := by
  simp [value]

theorem value_remove_ne (r : Record) {f g : Field} (h : g ≠ f) :
    (r.remove f).value g = r.value g := by
  simp [value, registered_remove_ne r h]

/-! ## Any key -/

def get? (r : Record) (key : String) : Option Value :=
  match Field.ofName? key with
  | some f => r.registered f
  | none => r.other.lookup key

def insert (r : Record) (key : String) (v : Value) : Record :=
  match Field.ofName? key with
  | some f => r.put f v
  | none => { r with other := r.other.insert key v }

/-- Nothing changes if the key is absent. -/
def erase (r : Record) (key : String) : Record :=
  match Field.ofName? key with
  | some f => r.remove f
  | none => { r with other := r.other.erase key }

theorem get?_insert_self (r : Record) (key : String) (v : Value) :
    (r.insert key v).get? key = some v := by
  cases h : Field.ofName? key with
  | none => simp [insert, get?, h, Entries.lookup_insert_self]
  | some f => simp [insert, get?, h]

theorem get?_insert_ne (r : Record) {key other : String} (v : Value) (h : other ≠ key) :
    (r.insert key v).get? other = r.get? other := by
  cases hk : Field.ofName? key with
  | none =>
    cases ho : Field.ofName? other <;> simp [insert, get?, hk, ho, Entries.lookup_insert_ne h]
  | some f =>
    cases ho : Field.ofName? other with
    | none => simp [insert, get?, hk, ho]
    | some g =>
      have hg : g ≠ f := by
        rintro rfl
        exact h ((Field.name_of_ofName? ho).symm.trans (Field.name_of_ofName? hk))
      simp [insert, get?, hk, ho, registered_put_ne r v hg]

theorem get?_erase_self (r : Record) (key : String) : (r.erase key).get? key = none := by
  cases h : Field.ofName? key with
  | none => simp [erase, get?, h, Entries.lookup_erase_self]
  | some f => simp [erase, get?, h]

theorem get?_erase_ne (r : Record) {key other : String} (h : other ≠ key) :
    (r.erase key).get? other = r.get? other := by
  cases hk : Field.ofName? key with
  | none =>
    cases ho : Field.ofName? other <;> simp [erase, get?, hk, ho, Entries.lookup_erase_ne h]
  | some f =>
    cases ho : Field.ofName? other with
    | none => simp [erase, get?, hk, ho]
    | some g =>
      have hg : g ≠ f := by
        rintro rfl
        exact h ((Field.name_of_ofName? ho).symm.trans (Field.name_of_ofName? hk))
      simp [erase, get?, hk, ho, registered_remove_ne r hg]

/-- An equal key keeps its place, and stays as it was first given. -/
def insertUnnamed (r : Record) (key v : Value) : Record :=
  { r with unnamed := replace r.unnamed }
where
  replace : List (Value × Value) → List (Value × Value)
    | [] => [(key, v)]
    | (k, w) :: rest => if k.same key then (k, v) :: rest else (k, w) :: replace rest

theorem get?_insertUnnamed (r : Record) (key v : Value) (name : String) :
    (r.insertUnnamed key v).get? name = r.get? name := rfl

/-! ## The record as a value -/

/-- The registered fields that have a value, in their order. -/
def registeredEntries (r : Record) : Entries :=
  Field.all.filterMap fun f => (r.registered f).map (f.name, ·)

/-- The entries that have a name. -/
def toValue (r : Record) : Value :=
  .map (r.registeredEntries ++ r.other)

end Record

end Registration
