import Registration.Text.Quoted
import Registration.Value.Basic

/-!
# The text of values

* `literal`: a value as it is written inside another one, texts in quotes;
* `display`: a value on its own, a text as it is;
* `isPrintable`: whether a value may be written out at all, which texts always
  may be.
-/

namespace Registration.Value

mutual

def literal : Value → String
  | null => "None"
  | bool b => if b then "True" else "False"
  | int n => toString n
  | real text => text
  | str s => Text.quoted s
  | list items => "[" ++ ", ".intercalate (literals items) ++ "]"
  | tuple [item] => "(" ++ item.literal ++ ",)"
  | tuple items => "(" ++ ", ".intercalate (literals items) ++ ")"
  | set [] => "set()"
  | set items => "\x7b" ++ ", ".intercalate (literals items) ++ "\x7d"
  | map entries => "\x7b" ++ ", ".intercalate (literalEntries entries) ++ "\x7d"

def literals : List Value → List String
  | [] => []
  | v :: vs => v.literal :: literals vs

def literalEntries : List (String × Value) → List String
  | [] => []
  | (key, v) :: entries => (Text.quoted key ++ ": " ++ v.literal) :: literalEntries entries

end

def display : Value → String
  | str s => s
  | v => v.literal

/-! ## Values that may be written out -/

/-- The number of digits up to which whole numbers are written out. -/
def digitLimit : Nat := 4300

mutual

/-- A longer number is refused when a text is made of it, and so is what holds one. -/
def isPrintable : Value → Bool
  | int n => n.natAbs < Nat.pow 10 digitLimit
  | list items | tuple items | set items => allPrintable items
  | map entries => entriesPrintable entries
  | _ => true

def allPrintable : List Value → Bool
  | [] => true
  | v :: vs => v.isPrintable && allPrintable vs

def entriesPrintable : List (String × Value) → Bool
  | [] => true
  | (_, v) :: entries => v.isPrintable && entriesPrintable entries

end

end Registration.Value
