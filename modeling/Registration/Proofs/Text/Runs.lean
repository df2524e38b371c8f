import Mathlib.Data.List.SplitBy
import Registration.Proofs.Text.Pieces

/-!
# Runs as pieces

A text is cut into runs, and the bytes of a run are decoded together. This gives
the text that its pieces spell:

* `AreRuns`, `areRuns_runs`: what is known of a text that is cut into runs;
* `exists_of_pieces?_append`: no escape reaches from one run into the next;
* `mapM_unquotedRun?`: run after run;
* `unquoted?_eq_assemble?`: the whole text.
-/

namespace Registration.Text.Form

variable {encoding : Encoding}

theorem isDigit_eq_false {c : Char} (hc : isAscii c = false) : Hex.isDigit c = false := by
  have hlo : 0x80 ≤ c.toNat := Nat.le_of_not_lt (of_decide_eq_false hc)
  have hnot {d : Char} (hd : d.toNat < 0x80) : ¬ c ≤ d := by
    intro h
    have : c.toNat ≤ d.toNat := h
    omega
  rw [Hex.isDigit, Hex.value?, if_neg (fun h => hnot (by decide) h.2),
    if_neg (fun h => hnot (by decide) h.2), if_neg (fun h => hnot (by decide) h.2)]
  rfl

/-- No escape reaches into a run that is not in ASCII. -/
theorem wellFormed_of_append {front back : List Char}
    (hback : ∀ c ∈ back.head?, isAscii c = false)
    (h : Percent.wellFormed (front ++ back) = true) : Percent.wellFormed front = true := by
  induction front with
  | nil => rfl
  | cons c cs ih =>
    simp only [List.cons_append, Percent.wellFormed, Bool.and_eq_true, Bool.or_eq_true] at h ⊢
    refine ⟨h.1.imp_right fun hstart => ?_, ih h.2⟩
    cases back with
    | nil => rwa [List.append_nil] at hstart
    | cons d back =>
      have hd : Hex.isDigit d = false := isDigit_eq_false (hback d rfl)
      -- The two characters behind a percent sign are in the same run as it.
      cases cs with
      | nil => cases back <;> simp [Percent.startsWithOctet, hd] at hstart
      | cons high cs =>
        cases cs with
        | nil => simp [Percent.startsWithOctet, hd] at hstart
        | cons low cs => exact hstart

theorem ne_percent_of_isAscii_eq_false {c : Char} (h : isAscii c = false) : c ≠ '%' := by
  rintro rfl
  revert h
  decide

/-- A text that starts outside ASCII is read with a character first. -/
theorem exists_char_of_head? {cs : List Char} {ps : List Piece} (hps : pieces? cs = some ps)
    (hcs : ∀ c ∈ cs.head?, isAscii c = false) : ∀ p ∈ ps.head?, ∃ c, p = .char c := by
  cases cs with
  | nil =>
    cases hps
    simp
  | cons c cs =>
    rw [pieces?_cons (ne_percent_of_isAscii_eq_false (hcs c rfl))] at hps
    obtain ⟨qs, -, rfl⟩ := Option.map_eq_some_iff.mp hps
    intro p hp
    cases hp
    exact ⟨_, rfl⟩

/-- The pieces on both sides of the end of a run. -/
theorem exists_of_pieces?_append {front back : List Char} {ps : List Piece}
    (hback : ∀ c ∈ back.head?, isAscii c = false) (h : pieces? (front ++ back) = some ps) :
    ∃ qs rs, pieces? front = some qs ∧ pieces? back = some rs ∧ ps = qs ++ rs := by
  have hformed := isSome_pieces? (front ++ back)
  rw [h] at hformed
  have hfront := wellFormed_of_append hback hformed.symm
  obtain ⟨qs, hqs⟩ := Option.isSome_iff_exists.mp ((isSome_pieces? front).trans hfront)
  rw [pieces?_append hqs] at h
  obtain ⟨rs, hrs, rfl⟩ := Option.map_eq_some_iff.mp h
  exact ⟨qs, rs, hqs, hrs, rfl⟩

/-- A list of runs: each is in ASCII or has no such character, and no two of a kind meet. -/
inductive AreRuns : List (List Char) → Prop
  | nil : AreRuns []
  | ascii {run : List Char} {rest : List (List Char)} (hrun : ∀ c ∈ run, isAscii c = true)
      (hrest : ∀ c ∈ rest.flatten.head?, isAscii c = false) (h : AreRuns rest) :
      AreRuns (run :: rest)
  | other {run : List Char} {rest : List (List Char)} (hne : run ≠ [])
      (hrun : ∀ c ∈ run, isAscii c = false) (h : AreRuns rest) : AreRuns (run :: rest)

theorem isAscii_eq_of_isChain {a : Char} {run : List Char}
    (h : (a :: run).IsChain fun c d => (isAscii c == isAscii d) = true) :
    ∀ c ∈ a :: run, isAscii c = isAscii a := by
  induction run generalizing a with
  | nil => simp
  | cons b run ih =>
    obtain ⟨hab, hrun⟩ := List.isChain_cons_cons.mp h
    intro c hc
    obtain rfl | hc := List.mem_cons.mp hc
    · rfl
    · rw [ih hrun c hc, beq_iff_eq.mp hab]

/-- By induction on the list, from what splitting promises of adjacent items. -/
theorem areRuns_of_isChain {rs : List (List Char)}
    (hrun : ∀ run ∈ rs, run ≠ [] ∧ run.IsChain fun c d => (isAscii c == isAscii d) = true)
    (hends : rs.IsChain fun run next => ∃ hr hn,
      (isAscii (run.getLast hr) == isAscii (next.head hn)) = false) : AreRuns rs := by
  induction rs with
  | nil => exact .nil
  | cons run rest ih =>
    obtain ⟨⟨hne, hchain⟩, hrest⟩ := List.forall_mem_cons.mp hrun
    obtain ⟨a, run, rfl⟩ := List.exists_cons_of_ne_nil hne
    have hsame := isAscii_eq_of_isChain hchain
    have hruns := ih hrest hends.tail
    cases ha : isAscii a with
    | false => exact .other hne (fun c hc => (hsame c hc).trans ha) hruns
    | true =>
      refine .ascii (fun c hc => (hsame c hc).trans ha) ?_ hruns
      cases rest with
      | nil => simp
      | cons next rest =>
        obtain ⟨⟨hr, hn, hdiffer⟩, -⟩ := List.isChain_cons_cons.mp hends
        rw [hsame _ (List.getLast_mem hr), ha] at hdiffer
        obtain ⟨b, next, rfl⟩ := List.exists_cons_of_ne_nil hn
        intro c hc
        cases hc
        simpa using hdiffer

theorem areRuns_runs (cs : List Char) : AreRuns (runs cs) :=
  areRuns_of_isChain
    (fun _ h => ⟨List.ne_nil_of_mem_splitBy h, List.isChain_of_mem_splitBy h⟩)
    (List.isChain_getLast_head_splitBy (fun c d => isAscii c == isAscii d) cs)

/-- By induction on the runs. -/
theorem mapM_unquotedRun? {rs : List (List Char)} (hrs : AreRuns rs) {ps : List Piece}
    (hplus : '+' ∉ rs.flatten) (hps : pieces? rs.flatten = some ps) :
    (rs.mapM (unquotedRun? encoding)).map List.flatten = assemble? encoding [] ps := by
  induction hrs generalizing ps with
  | nil =>
    cases hps
    exact decode?_nil.symm
  | @ascii run rest hrun hrest _ ih =>
    rw [List.flatten_cons] at hplus hps
    obtain ⟨hplusRun, hplusRest⟩ := not_or.mp (mt List.mem_append.mpr hplus)
    obtain ⟨qs, rs, hqs, hrs, rfl⟩ := exists_of_pieces?_append hrest hps
    have hall : run.all isAscii = true := List.all_eq_true.mpr hrun
    rw [assemble?_append (exists_char_of_head? hrs hrest), assemble?_of_isAscii hqs hrun hplusRun,
      ← ih hplusRest hrs, List.nil_append, List.mapM_cons, unquotedRun?, if_pos hall]
    cases encoding.decode? (octets run) <;> cases rest.mapM (unquotedRun? encoding) <;> rfl
  | @other run rest hne hrun _ ih =>
    rw [List.flatten_cons] at hplus hps
    obtain ⟨hplusRun, hplusRest⟩ := not_or.mp (mt List.mem_append.mpr hplus)
    have hpercent : '%' ∉ run := fun h => ne_percent_of_isAscii_eq_false (hrun _ h) rfl
    rw [pieces?_append (pieces?_eq_map_char hpercent hplusRun)] at hps
    obtain ⟨rs, hrs, rfl⟩ := Option.map_eq_some_iff.mp hps
    obtain ⟨c, run, rfl⟩ := List.exists_cons_of_ne_nil hne
    have hall : ¬ (c :: run).all isAscii = true := by
      rw [List.all_cons, hrun c List.mem_cons_self]
      exact Bool.false_ne_true
    rw [assemble?_map_char_append, ← ih hplusRest hrs, List.mapM_cons, unquotedRun?, if_neg hall]
    cases rest.mapM (unquotedRun? encoding) <;> rfl

/-- Runs are decoded to what the pieces spell. -/
theorem unquoted?_eq_assemble? {cs : List Char} {ps : List Piece} (hplus : '+' ∉ cs)
    (hps : pieces? cs = some ps) : unquoted? encoding cs = assemble? encoding [] ps := by
  rw [unquoted?]
  split
  · have hflat : (runs cs).flatten = cs := List.flatten_splitBy _ cs
    rw [← hflat] at hplus hps
    exact mapM_unquotedRun? (areRuns_runs cs) hplus hps
  · rename_i hpercent
    rw [pieces?_eq_map_char hpercent hplus, Option.some.injEq] at hps
    rw [← hps, assemble?_map_char]

end Registration.Text.Form
