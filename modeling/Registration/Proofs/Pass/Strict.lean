import Registration.Pass
import Registration.Proofs.Rule.Effect

/-!
# Strict passes

No rule reads what another one settles, and only the match looks at the grant
types found before it. So each rule of a pass meets the record as it was at the
start, and a pass is told by the objections to that record:

* `Rule.before`, `Rule.after`: the rules around a rule (`Rule.all_eq`,
  `Rule.before_eq`);
* `Shows`: what a draft keeps of a record for the rules to come;
* `Shows.objection?_eq`, `Shows.settle`: the first of these rules objects as it
  would to the record, and leaves a draft that shows it to the others;
* `accepted`: the rules in front of the first objection;
* `strict_eq`: a pass fails with the first objection, and leaves the fields
  settled of the rules before.
-/

namespace Registration

namespace Rule

/-- The rules of a pass before a rule. -/
def before (rule : Rule) : List Rule :=
  all.takeWhile (· != rule)

/-- The rules of a pass after a rule. -/
def after (rule : Rule) : List Rule :=
  (all.dropWhile (· != rule)).tail

theorem all_eq (rule : Rule) : all = rule.before ++ rule :: rule.after := by
  cases rule <;> rfl

/-- No rule occurs twice, so what stands in front of it is known. -/
theorem before_eq {rule : Rule} {rules rest : List Rule} (h : all = rules ++ rule :: rest) :
    rule.before = rules := by
  have hnodup : (rules ++ rule :: rest).Nodup := h ▸ by decide
  have hne : ∀ other ∈ rules, (other != rule) = true := by
    intro other hm
    rw [bne_iff_ne]
    exact (List.nodup_append.mp hnodup).2.2 other hm rule List.mem_cons_self
  rw [before, h, List.takeWhile_append_of_pos hne, List.takeWhile_cons, bne_self_eq_false,
    if_neg Bool.false_ne_true, List.append_nil]

end Rule

namespace Pass

/-- A draft shows a record to the rules to come: they find in it the values of the record, and a
match that comes before the rule on grant types finds its grant types. -/
structure Shows (d : Draft) (r : Record) (rules : List Rule) : Prop where
  value_eq : ∀ rule ∈ rules, ∀ f ∈ rule.reads, d.record.value f = r.value f
  grants_eq : Rule.grantTypes ∉ rules.takeWhile (· != .responseAndGrantMatch) →
    d.grants = r.draft.grants

namespace Shows

variable {d : Draft} {r : Record} {rule : Rule} {rules : List Rule}

theorem objection?_eq (h : Shows d r (rule :: rules)) (policy : Policy) :
    rule.objection? policy d = rule.objection? policy r.draft := by
  refine Rule.objection?_congr (h.value_eq rule (List.mem_cons_self ..)) fun hr => ?_
  subst hr
  exact h.grants_eq nofun

theorem settle (h : Shows d r (rule :: rules)) (hn : rule ∉ rules) :
    Shows (rule.settle d) r rules where
  value_eq other ho f hf := by
    have hne : other ≠ rule := fun he => hn (he ▸ ho)
    rw [← h.value_eq other (List.mem_cons_of_mem _ ho) f hf]
    exact Rule.value_settle_of_not_mem (Rule.not_mem_writes_of_mem_reads hne hf) d
  grants_eq hg := by
    rw [Rule.settle]
    split
    · rename_i hr
      subst hr
      exact congrArg Value.texts (h.value_eq _ (List.mem_cons_self ..) _ (by decide))
    · rename_i hr
      refine h.grants_eq fun hm => ?_
      rw [List.takeWhile_cons] at hm
      split at hm
      · exact (List.mem_cons.mp hm).elim (fun he => hr he.symm) hg
      · exact absurd hm List.not_mem_nil

/-- A draft of the record itself shows it to any rules of which the match comes after the one on
grant types. -/
theorem of_record (r : Record) (grants : List String)
    (h : Rule.grantTypes ∈ rules.takeWhile (· != .responseAndGrantMatch)) :
    Shows ⟨r, grants⟩ r rules where
  value_eq _ _ _ _ := rfl
  grants_eq hg := (hg h).elim

end Shows

/-- What a strict pass notes of the failure with which it ends. -/
def rejectionLog : Option Failure → List LogEntry
  | some (.rejected e) => [.rejected e]
  | _ => []

/-- The rules up to the first one that objects to a record. -/
def accepted (policy : Policy) (r : Record) (rules : List Rule) : List Rule :=
  rules.takeWhile fun rule => (rule.objection? policy r.draft).isNone

theorem objection?_of_mem_accepted {policy : Policy} {r : Record} {rules : List Rule} {rule : Rule}
    (h : rule ∈ accepted policy r rules) : rule.objection? policy r.draft = none :=
  Option.isNone_iff_eq_none.mp (List.all_eq_true.mp List.all_takeWhile rule h)

theorem accepted_eq_self {policy : Policy} {r : Record} {rules : List Rule}
    (h : ∀ rule ∈ rules, rule.objection? policy r.draft = none) :
    accepted policy r rules = rules := by
  have hp : ∀ rule ∈ rules, (rule.objection? policy r.draft).isNone = true := fun rule hr => by
    rw [h rule hr]
    rfl
  rw [accepted, ← List.append_nil rules, List.takeWhile_append_of_pos hp, List.takeWhile_nil]

/-- By induction on the rules: the first one objects as to the record, or settles its fields. -/
theorem strict_eq {d : Draft} {r : Record} {rules : List Rule} (hs : Shows d r rules)
    (hn : rules.Nodup) (policy : Policy) :
    strict policy rules d =
      { record := d.record.settleFields ((accepted policy r rules).flatMap Rule.writes)
        log := rejectionLog (rules.findSome? (·.objection? policy r.draft))
        failure := rules.findSome? (·.objection? policy r.draft) } := by
  induction rules generalizing d with
  | nil => simp [strict, accepted, rejectionLog]
  | cons rule rules ih =>
    obtain ⟨hr, hn⟩ := List.nodup_cons.mp hn
    rw [strict, Rule.apply_eq, hs.objection?_eq policy, accepted, List.takeWhile_cons,
      List.findSome?_cons]
    cases ho : rule.objection? policy r.draft with
    | none =>
      simp only [Option.isNone_none, if_true, List.flatMap_cons]
      rw [ih (hs.settle hr) hn, Rule.settle, Record.settleFields_settleFields, accepted]
    | some e =>
      simp only [Option.isNone_some, Bool.false_eq_true, if_false, List.flatMap_nil,
        Record.settleFields_nil]
      cases e with
      | rejected e => rfl
      | fault e => rfl

end Pass

end Registration
