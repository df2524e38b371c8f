import Registration.Rule.Reset
import Registration.Text.Form

/-!
# Passes

A pass applies rules one after the other. A strict pass ends at the first
rejection; a lenient one puts the rejected fields back and goes on.

* `LogEntry`: what is noted on the way, with its wording;
* `Pass`: the record a pass ends with, its notes, and its failure if any;
* `strict`, `lenient`: the passes over a list of rules.
-/

namespace Registration

inductive LogEntry where
  /-- A name of a client that cannot be decoded. -/
  | undecodable (name : String) (cause : Text.Form.DecodeError)
  | rejected (rejection : Rejection)
  | reset (rejection : Rejection)

def LogEntry.text : LogEntry → String
  | undecodable name .malformedEscape =>
    "Keep undecodable client_name " ++ Text.quoted name ++ ": ValueError(" ++
      Text.quoted (Text.Form.malformedEscapeMessage name) ++ ")"
  | undecodable name .undecodable =>
    "Keep undecodable client_name " ++ Text.quoted name ++ ": UnicodeDecodeError"
  | rejected e => "Reject client metadata: " ++ e.literal
  | reset e => "Reset client metadata after " ++ e.literal

structure Pass where
  record : Record
  log : List LogEntry
  failure : Option Failure

namespace Pass

/-- The rules that come before a rejection keep their effect. -/
def strict (policy : Policy) : List Rule → Draft → Pass
  | [], d => ⟨d.record, [], none⟩
  | rule :: rules, d =>
    match rule.apply policy d with
    | .ok d => strict policy rules d
    | .error (.rejected e) => ⟨d.record, [.rejected e], some (.rejected e)⟩
    | .error (.fault e) => ⟨d.record, [], some (.fault e)⟩

/-- Only a rejection can be put back; a fault still ends the pass. -/
def lenient (policy : Policy) (defaults : Defaults) : List Rule → Draft → Pass
  | [], d => ⟨d.record, [], none⟩
  | rule :: rules, d =>
    match rule.apply policy d with
    | .ok d => lenient policy defaults rules d
    | .error (.rejected e) =>
      let rest := lenient policy defaults rules (rule.reset defaults d)
      { rest with log := .reset e :: rest.log }
    | .error (.fault e) => ⟨d.record, [], some (.fault e)⟩

end Pass

end Registration
