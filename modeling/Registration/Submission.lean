import Registration.Record.Property
import Registration.Review

/-!
# Submissions

A record as it is submitted in a registration request, with what comes along.

* `Submission`: the record, the two parts of the request that do not matter
  here, and what the server advertises;
* `Submission.validate`: the submission after a strict pass, or as it was if
  that fails;
* `Submission.property`: the properties of the record and the other parts.
-/

namespace Registration

structure Submission where
  record : Record
  header : Value
  options : Value
  serverMetadata : Value

namespace Submission

/-- A part that counts as not given is an empty map. -/
def orEmptyMap (v : Value) : Value :=
  if v.isTruthy then v else .map []

def ofValues (record header options serverMetadata : Value) : Except Fault Submission :=
  (Record.ofValue record).map fun r =>
    ⟨r, orEmptyMap header, orEmptyMap options, orEmptyMap serverMetadata⟩

/-- The stock policy, restricted to what the server advertises if it advertises anything. -/
def policy (s : Submission) : Except Fault Policy :=
  if s.serverMetadata.isTruthy then Policy.ofServerMetadata .stock s.serverMetadata
  else Policy.ofOptions .stock []

/-- The review of the submission, with what is noted when it is made. -/
def review (s : Submission) : Except Fault (Review × List LogEntry) :=
  s.policy.map fun policy => Review.decodeName ⟨s.record, policy, .stock⟩

/-- The record changes as a whole or not at all. -/
def validate (s : Submission) : Submission × List LogEntry × Except Failure Unit :=
  match s.review with
  | .error e => (s, [], .error (.fault e))
  | .ok (review, log) =>
    let pass := review.strictPass
    match pass.failure with
    | some e => (s, log ++ pass.log, .error e)
    | none => ({ s with record := pass.record }, log ++ pass.log, .ok ())

def property (s : Submission) (name : String) : Except Fault Value :=
  match name with
  | "header" => .ok s.header
  | "options" => .ok s.options
  | "server_metadata" => .ok s.serverMetadata
  | _ => s.record.property name

end Submission

end Registration
