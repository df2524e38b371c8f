import Registration.Text.Percent
import Registration.Uri.Authority

/-!
# Reading URI references

A text is first checked as it stands, then split by a scan that does not rely on
the checks, and what the scan has found is checked once more. The first check
that fails says why the text is refused.

* `characterProblem?`, `schemeProblem?`: the checks of the text, of which the
  second one looks for a scheme in front of the first slash, question mark and
  number sign;
* `scan?`: the scheme that the scan finds, with what follows it;
* `components`, `scanned`: the text in components, the scheme in lower case;
* `fragmentProblem?`, `emptinessProblem?`: the checks of the components;
* `parse`: the components of a text with which nothing is wrong;
* `withFinalSlash`: a reference as a prefix that ends with a path segment.
-/

namespace Registration.Uri

open Text (before after?)

/-! ## Checks of the text -/

/-- The controls of ASCII, the space and the characters that delimit URIs in running text. -/
def isIllegal (c : Char) : Bool :=
  c.toNat ≤ 0x20 || c.toNat == 0x7F ||
    ['\x22', '<', '>', '\\', '^', '\x60', '\x7b', '|', '\x7d'].contains c

def characterProblem? (cs : List Char) : Option SyntaxError :=
  if cs.any isIllegal then some .illegalCharacter
  else if Text.Percent.wellFormed cs then none
  else some .malformedEscape

/-- The delimiters that end an authority, and before which a colon ends a scheme. -/
def isDelimiter (c : Char) : Bool :=
  c == '/' || c == '?' || c == '#'

def hasScheme (cs : List Char) : Bool :=
  ':' ∈ before isDelimiter cs

def schemeText? (cs : List Char) : Option (List Char) :=
  if hasScheme cs then some (before (· == ':') cs) else none

/-- What follows the scheme and its colon. -/
def hierarchy (cs : List Char) : List Char :=
  if hasScheme cs then (after? (· == ':') cs).getD [] else cs

def isSchemeChar (c : Char) : Bool :=
  c.isAlphanum || c == '+' || c == '.' || c == '-'

/-- A letter, then letters, digits and three marks. -/
def isScheme : List Char → Bool
  | [] => false
  | c :: cs => c.isAlpha && cs.all isSchemeChar

def schemeProblem? (cs : List Char) : Option SyntaxError :=
  match schemeText? cs with
  | none => none
  | some scheme =>
    if !isScheme scheme then some .invalidScheme
    else if hierarchy cs = [] then some .emptySchemeSpecificPart
    else none

/-! ## Components -/

/-- What stands in front of the first colon, wherever that is, and behind it. It is a scheme if it
starts with a letter and all of it may stand in a scheme. -/
def scan? (cs : List Char) : Option (List Char × List Char) :=
  match before (· == ':') cs, after? (· == ':') cs with
  | c :: name, some rest =>
    if c.isAlpha && (c :: name).all isSchemeChar then some (c :: name, rest) else none
  | _, _ => none

/-- What stands behind two slashes that open a text. -/
def opened? : List Char → Option (List Char)
  | '/' :: '/' :: rest => some rest
  | _ => none

def authorityOf? (cs : List Char) : Option (List Char) :=
  (opened? cs).map (before isDelimiter)

/-- The path, query and fragment. -/
def resourceOf (cs : List Char) : List Char :=
  match opened? cs with
  | some rest => rest.dropWhile fun c => !isDelimiter c
  | none => cs

def fragmentOf? (cs : List Char) : Option (List Char) :=
  after? (· == '#') (resourceOf cs)

def queryOf? (cs : List Char) : Option (List Char) :=
  after? (· == '?') (before (· == '#') (resourceOf cs))

def pathOf (cs : List Char) : List Char :=
  before (· == '?') (before (· == '#') (resourceOf cs))

/-- A scheme and the components of what follows it. -/
def components (scheme : Option (List Char)) (cs : List Char) : Uri where
  scheme := scheme.map fun name => String.ofList (name.map Char.toLower)
  authority := (authorityOf? cs).map String.ofList
  path := String.ofList (pathOf cs)
  query := (queryOf? cs).map String.ofList
  fragment := (fragmentOf? cs).map String.ofList

def scanned (cs : List Char) : Uri :=
  match scan? cs with
  | some (name, rest) => components (some name) rest
  | none => components none cs

/-! ## Checks of the components -/

def fragmentProblem? (u : Uri) : Option SyntaxError :=
  if u.fragment.any ('#' ∈ ·.toList) then some .repeatedFragment else none

/-- The text behind the scheme and one more character, by the length of the scheme. -/
def behindScheme (cs : List Char) (u : Uri) : List Char :=
  cs.drop (u.scheme.elim 0 fun scheme => scheme.toList.length + 1)

/-- An empty authority needs a path behind it. -/
def emptinessProblem? (cs : List Char) (u : Uri) : Option SyntaxError :=
  if ['/', '/'].isPrefixOf (behindScheme cs u) && u.authority.getD "" == "" && u.path == "" then
    some .emptyAuthority
  else none

/-! ## References -/

/-- The checks in their order; the scan itself only refuses an authority. -/
def problem? (cs : List Char) : Option SyntaxError :=
  characterProblem? cs <|> schemeProblem? cs <|>
    (scanned cs).authority.bind (authorityProblem? ·.toList) <|>
    fragmentProblem? (scanned cs) <|> emptinessProblem? cs (scanned cs)

def parse (s : String) : Except SyntaxError Uri :=
  match problem? s.toList with
  | some problem => .error problem
  | none => .ok (scanned s.toList)

/-- Only a text can be a reference. -/
def ofValue : Value → Except SyntaxError Uri
  | .str s => parse s
  | _ => .error .notText

def withFinalSlash (s : String) : String :=
  if s.toList.getLast? = some '/' then s else s ++ "/"

end Registration.Uri
