import Registration.Fault
import Registration.Rejection.Basic

/-!
# Failures

Either the client has sent what it may not, or something else went wrong.

* `Failure`: the two kinds;
* `ofRejection`, `refuse`: the failure in which a rejection ends, which is a
  fault if the rejection cannot be described;
* `refuse_of_isPrintable`: the refusal of a value that may be written out.
-/

namespace Registration

inductive Failure where
  | rejected (rejection : Rejection)
  | fault (fault : Fault)

namespace Failure

def ofRejection (r : Rejection) : Failure :=
  if r.canBeDescribed then .rejected r else .fault .unprintable

/-- The refusal of a value of a field. -/
def refuse (reason : Reason) (f : Field) (v : Value) : Failure :=
  ofRejection (.ofField reason f v)

theorem eq_of_ofRejection_eq_rejected {r r' : Rejection} (h : ofRejection r = .rejected r') :
    r = r' := by
  rw [ofRejection] at h
  split at h
  · exact rejected.inj h
  · cases h

/-- The only other end is that the rejection cannot be described. -/
theorem of_ofRejection_eq_fault {r : Rejection} {e : Fault} (h : ofRejection r = .fault e) :
    e = .unprintable ∧ r.canBeDescribed = false := by
  rw [ofRejection] at h
  split at h
  · cases h
  · rename_i hr
    exact ⟨(fault.inj h).symm, Bool.eq_false_iff.mpr hr⟩

theorem refuse_of_isPrintable {reason : Reason} {f : Field} {v : Value}
    (hv : v.isPrintable = true)
    (hr : ∀ required, reason = .grantResponseMismatch required → required.isPrintable = true) :
    refuse reason f v = .rejected (.ofField reason f v) := by
  have hname : (Value.str f.name).isPrintable = true := rfl
  refine if_pos (Bool.or_eq_true_iff.mpr (.inr (List.all_eq_true.mpr fun w hw => ?_)))
  have hmentioned : w ∈ reason.mentioned (.str f.name) v := hw
  obtain rfl | rfl | hreason := Reason.eq_of_mem_mentioned hmentioned
  · exact hname
  · exact hv
  · exact hr w hreason

end Failure

end Registration
