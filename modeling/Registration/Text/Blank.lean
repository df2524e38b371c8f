/-!
# Blank characters and words

* `isBlank`: the characters that separate words, those of Unicode's white space
  and the four separator controls;
* `words`: the runs of other characters;
* `isBlank_of_isWhitespace`: the white space of ASCII is among the blanks;
* `words_append_blank`: a blank parts words.
-/

namespace Registration.Text

/-- The blank code points, as closed ranges. -/
def blankRanges : List (Nat × Nat) :=
  [(0x09, 0x0D), (0x1C, 0x20), (0x85, 0x85), (0xA0, 0xA0), (0x1680, 0x1680), (0x2000, 0x200A),
   (0x2028, 0x2029), (0x202F, 0x202F), (0x205F, 0x205F), (0x3000, 0x3000)]

def isBlank (c : Char) : Bool :=
  blankRanges.any fun (lo, hi) => lo ≤ c.toNat && c.toNat ≤ hi

theorem isBlank_of_isWhitespace {c : Char} (h : c.isWhitespace) : isBlank c := by
  simp only [Char.isWhitespace, Bool.or_eq_true, decide_eq_true_eq] at h
  rcases h with ((rfl | rfl) | rfl) | rfl <;> decide

/-- The words of a text, in order; a text of blanks alone has none. -/
def words (s : String) : List String :=
  ((s.toList.splitOnP isBlank).filter (!·.isEmpty)).map String.ofList

/-- A blank character parts the words before it from those behind it. -/
theorem words_append_blank {c : Char} (h : isBlank c) (cs ds : List Char) :
    words (String.ofList (cs ++ c :: ds)) =
      words (String.ofList cs) ++ words (String.ofList ds) := by
  simp only [words, String.toList_ofList]
  rw [List.splitOnP_append_cons cs ds h, List.filter_append, List.map_append]

end Registration.Text
