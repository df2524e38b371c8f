import Registration.Uri.Basic
import Registration.Uri.Host

/-!
# The authority of a URI reference

* `bracketProblem?`: brackets may only enclose the whole host, which is then an
  address of version 6 or later;
* `disguiseProblem?`: no character may decompose into a delimiter of URIs;
* `authorityProblem?`: the first thing wrong with an authority.
-/

namespace Registration.Uri

open Text (before after?)

/-- The address that stands for a bracketed host. -/
def addressProblem? (host : List Char) : Option SyntaxError :=
  if host.head? = some 'v' then
    if isFutureAddress host then none else some .malformedFutureAddress
  else if isIPv4 host then some .bracketedIPv4
  else if isIPv6 host then none
  else some (.notAnAddress (String.ofList host))

/-- The part behind the last `@`, all if there is none. -/
def behindUser (authority : List Char) : List Char :=
  (authority.reverse.takeWhile (· != '@')).reverse

/-- Brackets that stand only in front of the host are no part of it: the host is judged without. -/
def bracketProblem? (authority : List Char) : Option SyntaxError :=
  if '[' ∉ authority ∧ ']' ∉ authority then none
  else if '[' ∉ authority ∨ ']' ∉ authority then some .misplacedBrackets
  else
    let text := behindUser authority
    match after? (· == '[') text with
    | none => addressProblem? (before (· == ':') text)
    | some inner =>
      let behind := (after? (· == ']') inner).getD []
      if before (· == '[') text ≠ [] then some .misplacedBrackets
      else if behind ≠ [] ∧ behind.head? ≠ some ':' then some .misplacedBrackets
      else addressProblem? (before (· == ']') inner)

/-- The characters whose compatibility decomposition holds one of `/ ? # @ :`. -/
def disguisedDelimiters : List Char :=
  ['\u2047', '\u2048', '\u2049', '\u2100', '\u2101', '\u2105', '\u2106', '\u2A74', '\uFE13',
   '\uFE16', '\uFE55', '\uFE56', '\uFE5F', '\uFE6B', '\uFF03', '\uFF0F', '\uFF1A', '\uFF1F',
   '\uFF20']

def disguiseProblem? (authority : List Char) : Option SyntaxError :=
  if authority.any (disguisedDelimiters.contains ·) then
    some (.disguisedDelimiter (String.ofList authority))
  else none

def authorityProblem? (authority : List Char) : Option SyntaxError :=
  bracketProblem? authority <|> disguiseProblem? authority

end Registration.Uri
