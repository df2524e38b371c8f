/-!
# Cutting a text at a delimiter

The delimiter is the first character that satisfies a test.

* `before`: what stands in front of it, the whole text if there is none;
* `after?`: what follows it;
* `before_append_after`: nothing but the delimiter is lost.
-/

namespace Registration.Text

def before (p : Char → Bool) (cs : List Char) : List Char :=
  cs.takeWhile fun c => !p c

def after? (p : Char → Bool) (cs : List Char) : Option (List Char) :=
  match cs.dropWhile fun c => !p c with
  | [] => none
  | _ :: rest => some rest

theorem not_of_mem_before {p : Char → Bool} {cs : List Char} {c : Char} (h : c ∈ before p cs) :
    p c = false := by
  induction cs with
  | nil => simp [before] at h
  | cons d ds ih =>
    simp only [before, List.takeWhile_cons] at h ih
    split at h
    · rename_i hd
      rcases List.mem_cons.mp h with rfl | h
      · simpa using hd
      · exact ih h
    · simp at h

/-- A text is what precedes its delimiter, and the delimiter and the rest if there is one. -/
theorem before_append_after {d : Char} (cs : List Char) :
    before (· == d) cs ++ ((after? (· == d) cs).elim [] (d :: ·)) = cs := by
  induction cs with
  | nil => rfl
  | cons c cs ih =>
    by_cases h : c = d
    · simp [before, after?, h]
    · simpa [before, after?, h] using ih

end Registration.Text
