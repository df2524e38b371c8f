import Registration.Defaults
import Registration.Failure
import Registration.Fault
import Registration.Field
import Registration.Pass
import Registration.Policy.Basic
import Registration.Policy.Build
import Registration.Proofs.Pass.Acceptance
import Registration.Proofs.Pass.Agreement
import Registration.Proofs.Pass.AnyOrder
import Registration.Proofs.Pass.Distinct
import Registration.Proofs.Pass.Enumerated
import Registration.Proofs.Pass.Faultless
import Registration.Proofs.Pass.FieldByField
import Registration.Proofs.Pass.Filled
import Registration.Proofs.Pass.FirstViolation
import Registration.Proofs.Pass.Lenient
import Registration.Proofs.Pass.Repeated
import Registration.Proofs.Pass.Restored
import Registration.Proofs.Pass.Strict
import Registration.Proofs.Pass.TrustedPrefix
import Registration.Proofs.Policy.Advertised
import Registration.Proofs.Policy.Narrower
import Registration.Proofs.Record.Changes
import Registration.Proofs.Record.Name
import Registration.Proofs.Record.Settled
import Registration.Proofs.Rejection.Description
import Registration.Proofs.Review.OmittedType
import Registration.Proofs.Review.Printable
import Registration.Proofs.Review.Step
import Registration.Proofs.Review.Untouched
import Registration.Proofs.Rule.Acceptance
import Registration.Proofs.Rule.Check
import Registration.Proofs.Rule.Effect
import Registration.Proofs.Rule.Rejection
import Registration.Proofs.Rule.Supported
import Registration.Proofs.Rule.Violation
import Registration.Proofs.Submission.Atomic
import Registration.Proofs.Submission.Narrower
import Registration.Proofs.Submission.Repeated
import Registration.Proofs.Text.Cut
import Registration.Proofs.Text.Escape
import Registration.Proofs.Text.Form
import Registration.Proofs.Text.Pieces
import Registration.Proofs.Text.Runs
import Registration.Proofs.Text.Spelling
import Registration.Proofs.Uri.Characters
import Registration.Proofs.Uri.Components
import Registration.Proofs.Uri.FinalSlash
import Registration.Proofs.Uri.Grammar
import Registration.Proofs.Uri.LastPart
import Registration.Proofs.Uri.Parse
import Registration.Proofs.Uri.Prefix
import Registration.Proofs.Uri.Scheme
import Registration.Proofs.Value.Items
import Registration.Record.Basic
import Registration.Record.Property
import Registration.Record.Read
import Registration.Rejection.Arguments
import Registration.Rejection.Basic
import Registration.Review
import Registration.Rule.Basic
import Registration.Rule.Check
import Registration.Rule.Reset
import Registration.Submission
import Registration.Text.Blank
import Registration.Text.Cut
import Registration.Text.Decimal
import Registration.Text.Form
import Registration.Text.Hex
import Registration.Text.Percent
import Registration.Text.Printable
import Registration.Text.Quoted
import Registration.Text.Utf8
import Registration.Uri.Authority
import Registration.Uri.Basic
import Registration.Uri.Host
import Registration.Uri.Parse
import Registration.Value.Basic
import Registration.Value.Display
import Registration.Value.Entries
