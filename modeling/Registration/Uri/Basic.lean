import Registration.Value.Display

/-!
# URI references

* `Uri`: a reference in five components, of which a missing one differs from
  an empty one;
* `Uri.SyntaxError`: why a value is no reference;
* `Uri.SyntaxError.message`: the words for it.
-/

namespace Registration

structure Uri where
  /-- The scheme in lower case. -/
  scheme : Option String
  authority : Option String
  path : String
  query : Option String
  fragment : Option String
  deriving DecidableEq

namespace Uri

inductive SyntaxError where
  | notText
  | illegalCharacter
  | malformedEscape
  | invalidScheme
  | emptySchemeSpecificPart
  /-- The brackets of the authority do not enclose its host. -/
  | misplacedBrackets
  | malformedFutureAddress
  /-- An IPv4 address stands where only IPv6 is bracketed. -/
  | bracketedIPv4
  | notAnAddress (host : String)
  /-- A character of the authority decomposes into a delimiter. -/
  | disguisedDelimiter (authority : String)
  | repeatedFragment
  | emptyAuthority
  deriving DecidableEq

/-- What is said of the value that is no reference. -/
def SyntaxError.message (value : Value) : SyntaxError → String
  | notText => value.literal ++ " is not a string"
  | illegalCharacter => value.literal ++ " contains an illegal character"
  | malformedEscape => value.literal ++ " contains a malformed escape sequence"
  | invalidScheme => value.literal ++ " has an invalid scheme"
  | emptySchemeSpecificPart => value.literal ++ " has an empty scheme-specific part"
  | misplacedBrackets => "Invalid IPv6 URL"
  | malformedFutureAddress => "IPvFuture address is invalid"
  | bracketedIPv4 => "An IPv4 address cannot be in brackets"
  | notAnAddress host => Text.quoted host ++ " does not appear to be an IPv4 or IPv6 address"
  | disguisedDelimiter authority =>
    "netloc '" ++ authority ++ "' contains invalid characters under NFKC normalization"
  | repeatedFragment => value.literal ++ " contains more than one fragment"
  | emptyAuthority => value.literal ++ " has an empty authority"

end Uri

end Registration
