/-!
# Faults

What goes wrong with a request apart from a rejected field: something has been
put where it cannot be used, or cannot be told.

* `Fault`: the causes;
* `Fault.message?`: the words for those that have some.
-/

namespace Registration

inductive Fault where
  /-- A value of a kind that the operation does not take. -/
  | wrongType
  /-- A value that lacks the operation or property. -/
  | noSuchOperation
  | unknownKey
  /-- The item at a position of a list of pairs has another number of parts. -/
  | notAPair (index length : Nat)
  /-- A value that cannot be written out in a message. -/
  | unprintable
  deriving DecidableEq

def Fault.message? : Fault → Option String
  | notAPair index length =>
    some ("dictionary update sequence element #" ++ toString index ++ " has length " ++
      toString length ++ "; 2 is required")
  | _ => none

end Registration
