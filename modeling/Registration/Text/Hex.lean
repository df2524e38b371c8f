/-!
# Hexadecimal digits

* `digit`, `lowerDigit`: a number below 16 as a digit of either case;
* `padded`: a number in a fixed count of lower-case digits;
* `value?`: the number a digit of either case stands for.
-/

namespace Registration.Text.Hex

/-- The upper-case digit of a number below 16. -/
def digit (n : Nat) : Char :=
  Char.ofNat (if n < 10 then 0x30 + n else 0x41 + (n - 10))

/-- The lower-case digit of a number below 16. -/
def lowerDigit (n : Nat) : Char :=
  Char.ofNat (if n < 10 then 0x30 + n else 0x61 + (n - 10))

/-- The last `width` lower-case digits of a number. -/
def padded : (width : Nat) → Nat → List Char
  | 0, _ => []
  | width + 1, n => padded width (n / 16) ++ [lowerDigit (n % 16)]

def value? (c : Char) : Option Nat :=
  if '0' ≤ c ∧ c ≤ '9' then some (c.toNat - 0x30)
  else if 'A' ≤ c ∧ c ≤ 'F' then some (c.toNat - 0x41 + 10)
  else if 'a' ≤ c ∧ c ≤ 'f' then some (c.toNat - 0x61 + 10)
  else none

def isDigit (c : Char) : Bool :=
  (value? c).isSome

theorem value?_digit {n : Nat} (h : n < 16) : value? (digit n) = some n :=
  (by decide : ∀ k < 16, value? (digit k) = some k) n h

theorem value?_lowerDigit {n : Nat} (h : n < 16) : value? (lowerDigit n) = some n :=
  (by decide : ∀ k < 16, value? (lowerDigit k) = some k) n h

end Registration.Text.Hex
