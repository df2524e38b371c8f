import Registration.Text.Cut
import Registration.Text.Hex

/-!
# Numeric hosts

The addresses that may stand for a host.

* `isIPv4`: four decimal numbers of one byte;
* `isIPv6`: eight groups of hexadecimal digits, of which two colons may leave
  out one run and the last two may be an IPv4 address, with an optional zone
  after a percent sign;
* `isFutureAddress`: the form reserved for later versions.
-/

namespace Registration.Uri

open Text (before after?)

/-- A number up to 255 in one to three digits, without a leading zero. -/
def isDecimalOctet (cs : List Char) : Bool :=
  1 ≤ cs.length && cs.length ≤ 3 && cs.all Char.isDigit &&
    (cs.length == 1 || cs.head? != some '0') &&
    cs.foldl (fun n c => 10 * n + (c.toNat - 0x30)) 0 ≤ 255

def isIPv4 (cs : List Char) : Bool :=
  let parts := cs.splitOn '.'
  parts.length == 4 && parts.all isDecimalOctet

/-- One to four hexadecimal digits. -/
def isGroup (cs : List Char) : Bool :=
  1 ≤ cs.length && cs.length ≤ 4 && cs.all Text.Hex.isDigit

/-- The number of groups beside two colons, if there are only groups; a lone empty part is the end
of the address. -/
def groupCount? (parts : List (List Char)) : Option Nat :=
  if parts = [[]] then some 0
  else if parts.all isGroup then some parts.length
  else none

/-- The parts between colons, where the first empty part behind the first one marks the groups left
out. At least one group must be left out there. -/
def isGroupSequence : List (List Char) → Bool
  | [] => false
  | first :: parts =>
    match parts.dropWhile (!·.isEmpty) with
    | _ :: low@(_ :: _) =>
      match groupCount? (first :: parts.takeWhile (!·.isEmpty)), groupCount? low with
      | some m, some n => m + n ≤ 7
      | _, _ => false
    | _ => parts.length == 7 && (first :: parts).all isGroup

/-- The parts of an address, of which a last one with a dot must be an IPv4 address and counts as
two groups. -/
def expandIPv4? (parts : List (List Char)) : Option (List (List Char)) :=
  match parts.getLast? with
  | some last =>
    if '.' ∈ last then
      if isIPv4 last then some (parts.dropLast ++ [['0'], ['0']]) else none
    else some parts
  | none => some parts

/-- Not empty and without a further percent sign. -/
def isZone (cs : List Char) : Bool :=
  cs != [] && '%' ∉ cs

def isIPv6 (cs : List Char) : Bool :=
  ((after? (· == '%') cs).all isZone) &&
    match expandIPv4? ((before (· == '%') cs).splitOn ':') with
    | some parts => isGroupSequence parts
    | none => false

/-- The letter `v`, a hexadecimal version, a dot and at least one character. -/
def isFutureAddress : List Char → Bool
  | 'v' :: cs =>
    let version := cs.takeWhile Text.Hex.isDigit
    match cs.dropWhile Text.Hex.isDigit with
    | '.' :: rest => version != [] && rest != [] && '\n' ∉ rest
    | _ => false
  | _ => false

end Registration.Uri
