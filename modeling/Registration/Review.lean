import Registration.Pass
import Registration.Policy.Build
import Registration.Record.Read

/-!
# Reviews

The review of a record by a policy. It holds a record of its own, so what the
client has sent is not changed.

* `Review.ofValue`, `Review.create`: the review of what a client has sent; the
  second one decodes the name of the client;
* `Review.stock`: the review of a record in the stock configuration;
* `strictPass`, `lenientPass`: all rules in order;
* `Review.Step`, `Review.step`: what can be done in a review, with its notes and
  its outcome;
* `Review.run`: steps in succession.
-/

namespace Registration

structure Review where
  record : Record
  policy : Policy
  defaults : Defaults

namespace Record

/-- A name that is no form-encoded text is kept as it is. -/
def decodeName (r : Record) : Record × List LogEntry :=
  match r.registered .clientName with
  | some (.str s) =>
    match Text.Form.decode .utf8 s with
    | .ok t => (r.put .clientName (.str t), [])
    | .error cause => (r, [.undecodable s cause])
  | _ => (r, [])

end Record

namespace Review

/-! ## Starting a review -/

def ofValue (policy : Policy) (defaults : Defaults) (v : Value) : Except Fault Review :=
  (Record.ofValue v).map fun r => ⟨r, policy, defaults⟩

/-- The review with the name of the client decoded. -/
def decodeName (v : Review) : Review × List LogEntry :=
  ({ v with record := v.record.decodeName.1 }, v.record.decodeName.2)

/-- The review of a record by the stock policy. -/
def stock (r : Record) : Review :=
  ⟨r, .stock, .stock⟩

def create (policy : Policy) (defaults : Defaults) (v : Value) :
    Except Fault (Review × List LogEntry) :=
  (ofValue policy defaults v).map decodeName

/-! ## Passes over all rules -/

def strictPass (v : Review) : Pass :=
  Pass.strict v.policy Rule.all ⟨v.record, []⟩

def lenientPass (v : Review) : Pass :=
  Pass.lenient v.policy v.defaults Rule.all ⟨v.record, []⟩

/-! ## Steps -/

inductive Step where
  | strict
  | lenient
  | fillDefaults
  /-- One rule, with the grant types among which the required ones are sought. -/
  | rule (rule : Rule) (grants : List String)
  | insert (key : String) (value : Value)
  | erase (key : String)
  /-- A new review of the record held. -/
  | recreate

/-- What a step gives: nothing, the record held, or the grant types found valid. -/
inductive Reply where
  | nothing
  | record
  | grants (texts : List String)

/-- What a step leaves and gives. -/
structure Outcome where
  review : Review
  log : List LogEntry
  reply : Except Failure Reply

/-- A review keeps the record of a finished pass, also of one that has failed. -/
def finish (v : Review) (p : Pass) : Outcome where
  review := { v with record := p.record }
  log := p.log
  reply :=
    match p.failure with
    | none => .ok .record
    | some e => .error e

/-- A rule on its own notes nothing. Only the one on grant types gives something. -/
def applyRule (v : Review) (rule : Rule) (grants : List String) : Outcome :=
  match rule.apply v.policy ⟨v.record, grants⟩ with
  | .ok d =>
    { review := { v with record := d.record }
      log := []
      reply := .ok (if rule = .grantTypes then .grants d.grants else .nothing) }
  | .error e => ⟨v, [], .error e⟩

def step (v : Review) : Step → Outcome
  | .strict => v.finish v.strictPass
  | .lenient => v.finish v.lenientPass
  | .fillDefaults => ⟨{ v with record := v.record.fillDefaults v.defaults }, [], .ok .record⟩
  | .rule rule grants => v.applyRule rule grants
  | .insert key value => ⟨{ v with record := v.record.insert key value }, [], .ok .nothing⟩
  | .erase key => ⟨{ v with record := v.record.erase key }, [], .ok .nothing⟩
  | .recreate => ⟨v.decodeName.1, v.decodeName.2, .ok .nothing⟩

/-- The review after steps in succession, each taken whatever came of the one before. -/
def run (v : Review) : List Step → Review
  | [] => v
  | s :: ss => (v.step s).review.run ss

end Review

end Registration
