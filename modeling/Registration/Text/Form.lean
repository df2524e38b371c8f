import Registration.Text.Percent
import Registration.Text.Quoted

/-!
# Form-encoded text

Text in which a plus sign stands for a space and percent escapes for bytes. The
escapes are checked first. Then each unbroken run of ASCII is read as bytes and
decoded on its own; other characters are kept.

* `Encoding`: how bytes are read;
* `octets`: the bytes of a run, with the escapes in it taken for theirs;
* `runs`, `unquoted?`: a text cut into runs, and what these spell;
* `decode`: all steps, with the cause of a failure;
* `malformedEscapeMessage`: what is said of a malformed escape.
-/

namespace Registration.Text.Form

inductive Encoding where
  | utf8
  | ascii
  | latin1
  deriving DecidableEq

/-- The text that bytes spell, if they spell one. -/
def Encoding.decode? : Encoding → List UInt8 → Option (List Char)
  | utf8, bytes => Utf8.decode? bytes
  | ascii, bytes =>
    if bytes.all (· < 0x80) then some (bytes.map fun b => Char.ofNat b.toNat) else none
  | latin1, bytes => some (bytes.map fun b => Char.ofNat b.toNat)

/-- The bytes of a text in ASCII. An escape stands for its byte; any other percent sign is kept. -/
def octets : List Char → List UInt8
  | '%' :: high :: low :: cs =>
    match Percent.octet? high low with
    | some b => b :: octets cs
    | none => 0x25 :: octets (high :: low :: cs)
  | c :: cs => UInt8.ofNat c.toNat :: octets cs
  | [] => []

def isAscii (c : Char) : Bool :=
  c.toNat < 0x80

/-- The longest parts of a text that are in ASCII throughout or not at all. -/
def runs (cs : List Char) : List (List Char) :=
  cs.splitBy fun c d => isAscii c == isAscii d

def unquotedRun? (encoding : Encoding) (run : List Char) : Option (List Char) :=
  if run.all isAscii then encoding.decode? (octets run) else some run

/-- Nothing is decoded in a text without percent signs. -/
def unquoted? (encoding : Encoding) (cs : List Char) : Option (List Char) :=
  if '%' ∈ cs then ((runs cs).mapM (unquotedRun? encoding)).map List.flatten else some cs

/-- A character in a text whose escapes are not yet decoded. -/
def plain (c : Char) : Char :=
  if c = '+' then ' ' else c

inductive DecodeError where
  /-- A percent sign is not followed by two hexadecimal digits. -/
  | malformedEscape
  /-- The escaped bytes are no text in the encoding. -/
  | undecodable
  deriving DecidableEq

/-- Malformed escapes are reported before undecodable bytes. -/
def decode (encoding : Encoding) (s : String) : Except DecodeError String :=
  if !Percent.wellFormed s.toList then .error .malformedEscape
  else
    match unquoted? encoding (s.toList.map plain) with
    | none => .error .undecodable
    | some cs => .ok (String.ofList cs)

/-- What is said of a malformed escape in `s`. -/
def malformedEscapeMessage (s : String) : String :=
  "Malformed escape sequence in " ++ quoted s

end Registration.Text.Form
