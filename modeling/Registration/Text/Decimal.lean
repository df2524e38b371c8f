import Registration.Text.Cut

/-!
# Decimal texts of floating-point numbers

A floating-point number has 53 significant bits and is written with no more
digits than tell it apart from its neighbours. A text that denotes a whole number
too large for 53 bits therefore stands for the nearest number that has them.

* `nearest`: that number;
* `nearest_eq_self`: what 53 bits can hold is not rounded;
* `whole?`: the whole number a text stands for, if it stands for one.
-/

namespace Registration.Text.Decimal

/-- The nearest number with 53 significant bits. Of two that are as near, the last of those bits is
zero. -/
def nearest (n : Nat) : Nat :=
  let unit := Nat.pow 2 (n.log2 + 1 - 53)
  let units := n / unit
  let rest := n % unit
  if unit < 2 * rest ∨ unit = 2 * rest ∧ units % 2 = 1 then (units + 1) * unit else units * unit

theorem nearest_eq_self {n : Nat} (h : n < Nat.pow 2 53) : nearest n = n := by
  have hlog : n.log2 + 1 - 53 = 0 := by
    by_cases hn : n = 0
    · subst hn
      rfl
    · have := (Nat.log2_lt hn).mpr h
      omega
  simp [nearest, hlog, Nat.mod_one]

/-- The number that one or more digits spell. -/
def natural? (cs : List Char) : Option Nat :=
  if cs.isEmpty || !cs.all Char.isDigit then none
  else some (cs.foldl (fun n c => 10 * n + (c.toNat - 0x30)) 0)

/-- The number that digits spell after a sign, which may be absent. -/
def signed? : List Char → Option Int
  | '-' :: cs => (natural? cs).map fun n => -(n : Int)
  | '+' :: cs => (natural? cs).map fun n => (n : Int)
  | cs => (natural? cs).map fun n => (n : Int)

/-- A number times a power of ten, if that is whole. -/
def scaled? (n : Nat) (exponent : Int) : Option Nat :=
  if 0 ≤ exponent then some (n * Nat.pow 10 exponent.toNat)
  else
    let unit := Nat.pow 10 (-exponent).toNat
    if n % unit = 0 then some (n / unit) else none

/-- The whole number that a text without a sign denotes: digits, of which some may follow a point,
and an exponent, which may be absent. -/
def unsigned? (cs : List Char) : Option Nat := do
  let mantissa := before (· == 'e') cs
  let fraction := (after? (· == '.') mantissa).getD []
  let digits ← natural? (before (· == '.') mantissa ++ fraction)
  let exponent ← signed? ((after? (· == 'e') cs).getD ['0'])
  scaled? digits (exponent - fraction.length)

/-- The whole number that a text stands for; `inf` and `nan` stand for none. -/
def whole? (text : String) : Option Int :=
  match text.toList with
  | '-' :: cs => (unsigned? cs).map fun n => -(nearest n : Int)
  | cs => (unsigned? cs).map fun n => (nearest n : Int)

end Registration.Text.Decimal
