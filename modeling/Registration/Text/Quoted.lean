import Registration.Text.Hex
import Registration.Text.Printable

/-!
# Quoted text

A text between quotes, on one line and free of invisible characters. The
apostrophe delimits it, unless it holds apostrophes and no double quote; then
the double quote does. The delimiter and the backslash are escaped by a
backslash, the newline, carriage return and tab have names, and any other
unprintable character is written by its code point in two, four or eight
digits.

* `delimiter`, `escaped`: the two choices;
* `quoted`: the text as it is shown.
-/

namespace Registration.Text

def delimiter (cs : List Char) : Char :=
  if '\x27' ∈ cs ∧ '\x22' ∉ cs then '\x22' else '\x27'

/-- One character between quotes `d`. -/
def escaped (d c : Char) : List Char :=
  if c = d ∨ c = '\\' then ['\\', c]
  else if c = '\n' then ['\\', 'n']
  else if c = '\r' then ['\\', 'r']
  else if c = '\t' then ['\\', 't']
  else if isPrintable c then [c]
  else if c.toNat < 0x100 then '\\' :: 'x' :: Hex.padded 2 c.toNat
  else if c.toNat < 0x10000 then '\\' :: 'u' :: Hex.padded 4 c.toNat
  else '\\' :: 'U' :: Hex.padded 8 c.toNat

def quoted (s : String) : String :=
  let cs := s.toList
  let d := delimiter cs
  String.ofList (d :: cs.flatMap (escaped d) ++ [d])

end Registration.Text
