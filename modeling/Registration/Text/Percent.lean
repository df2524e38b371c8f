import Registration.Text.Hex
import Registration.Text.Utf8

/-!
# Percent escapes

A byte written as a percent sign and two hexadecimal digits.

* `octet?`: the byte that two digits spell;
* `wellFormed`: every percent sign starts an escape;
* `escape`: the bytes of every character that may not stand as it is are
  written as escapes.
-/

namespace Registration.Text.Percent

/-- The byte spelled by two hexadecimal digits. -/
def octet? (high low : Char) : Option UInt8 :=
  match Hex.value? high, Hex.value? low with
  | some m, some n => some (UInt8.ofNat (16 * m + n))
  | _, _ => none

/-- A text starts with two hexadecimal digits. -/
def startsWithOctet : List Char → Bool
  | high :: low :: _ => Hex.isDigit high && Hex.isDigit low
  | _ => false

/-- Every percent sign is followed by two hexadecimal digits. -/
def wellFormed : List Char → Bool
  | [] => true
  | c :: cs => (c != '%' || startsWithOctet cs) && wellFormed cs

/-- A byte as an escape with upper-case digits. -/
def ofOctet (b : UInt8) : List Char :=
  ['%', Hex.digit (b.toNat / 16), Hex.digit (b.toNat % 16)]

/-- A text with the characters that satisfy `safe` kept and the bytes of the others escaped. -/
def escape (safe : Char → Bool) (cs : List Char) : List Char :=
  cs.flatMap fun c => if safe c then [c] else (Utf8.encode [c]).flatMap ofOctet

end Registration.Text.Percent
