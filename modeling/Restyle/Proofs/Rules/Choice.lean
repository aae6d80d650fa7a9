import Mathlib
import Restyle.Proofs.Double.Order
import Restyle.Proofs.Rules.Ranking

/-!
# Restyle.Proofs.Rules.Choice

Which of several rules handles a node.

Of the rules of a mode that are for a node, the one with the highest priority is chosen, and among
equals the one declared last.  Rules are ranked by the total order of numbers, which tells the two
zeros apart, so a negative zero gives way to a positive one wherever it is declared; apart from that
the choice is by numeric comparison.

* `Rule.GivesWay` — when a rule gives way to another one;
* `Rules.firstFor_eq_some_iff` — the first rule of an ordered list that is for a node;
* `Rules.find?_resolves` — the main result.
-/

namespace Restyle

/-! ## Priorities -/

/-- A rule gives way to another one with a numerically higher priority.  Of two with numerically
equal priorities the one declared first gives way, but a negative zero always does to a positive
one. -/
def Rule.GivesWay (other rule : Rule) : Prop :=
  other.priority.lt rule.priority = true ∨
    other.priority.eq rule.priority = true ∧
      ((other.priority = .zero true ∧ rule.priority = .zero false) ∨
        (other.priority = rule.priority ∧ other.sequence < rule.sequence))

/-- Ranks say the same as priorities that are numbers. -/
theorem Rule.before_iff_givesWay {rule other : Rule} (hrule : rule.priority.isNaN = false)
    (hother : other.priority.isNaN = false) : rule.Before other ↔ other.GivesWay rule := by
  have heq := Double.eq_iff hother hrule
  rw [Before, Double.totalKey_lt_iff hother hrule, GivesWay, heq, eq_comm (a := rule.priority)]
  tauto

namespace PathPattern

theorem isNaN_testPriority (test : NodeTest) : (testPriority test).isNaN = false := by
  unfold testPriority
  split
  · rfl
  · rfl
  · exact Double.isNaN_nearest _ _ _
  · exact Double.isNaN_nearest _ _ _

theorem isNaN_defaultPriority (path : PathPattern) : path.defaultPriority.isNaN = false := by
  unfold defaultPriority
  split
  · split
    · exact isNaN_testPriority _
    · exact Double.isNaN_nearest _ _ _
  · exact Double.isNaN_nearest _ _ _

end PathPattern

namespace Rules

/-! ## Rules as declared -/

theorem mem_alternatives {templates : List Template} {template : Template} {path : PathPattern} :
    (template, path) ∈ alternatives templates ↔ template ∈ templates ∧ path ∈ template.paths := by
  simp [alternatives]

variable {templates : List Template} {rule other : Rule}

/-- A rule is the rule for an alternative of the pattern of a template. -/
theorem of_mem_declared (h : rule ∈ declared templates) :
    ∃ template ∈ templates, ∃ path ∈ template.paths,
      rule = Rule.of rule.sequence (template, path) := by
  obtain ⟨i, hi, rfl⟩ := List.mem_mapIdx.1 h
  obtain ⟨htemplate, hpath⟩ := mem_alternatives.1 (List.getElem_mem hi)
  exact ⟨_, htemplate, _, hpath, rfl⟩

theorem exists_mem_declared {template : Template} {path : PathPattern}
    (htemplate : template ∈ templates) (hpath : path ∈ template.paths) :
    ∃ rule ∈ declared templates, rule.mode = template.mode ∧ rule.path = path := by
  obtain ⟨i, hi, halternative⟩ := List.mem_iff_getElem.1 (mem_alternatives.2 ⟨htemplate, hpath⟩)
  exact ⟨_, List.mem_mapIdx.2 ⟨i, hi, rfl⟩, by rw [halternative]; exact ⟨rfl, rfl⟩⟩

/-- The number of a rule tells which one it is. -/
theorem eq_of_sequence_eq (hrule : rule ∈ declared templates) (hother : other ∈ declared templates)
    (h : rule.sequence = other.sequence) : rule = other := by
  obtain ⟨i, hi, rfl⟩ := List.mem_mapIdx.1 hrule
  obtain ⟨j, hj, rfl⟩ := List.mem_mapIdx.1 hother
  obtain rfl : i = j := h
  rfl

/-- Where the stated priorities are numbers, all are. -/
theorem isNaN_priority (hpriority : ∀ template ∈ templates, ∀ priority,
      template.priority = some priority → priority.isNaN = false)
    (h : rule ∈ declared templates) : rule.priority.isNaN = false := by
  obtain ⟨template, htemplate, path, -, hrule⟩ := of_mem_declared h
  rw [hrule, Rule.of]
  cases hstated : template.priority with
  | none => exact path.isNaN_defaultPriority
  | some priority => exact hpriority template htemplate priority hstated

/-! ## The first rule -/

section Search

variable {ctx : Context} {node : Node} {ranked : List Rule}
  (htold : ∀ rule ∈ ranked, ∃ b, rule.path.accepts ctx node = .ok b)

include htold

/-- Where every rule can tell whether it is for a node, there is an answer. -/
theorem exists_firstFor : ∃ answer, firstFor ctx node ranked = .ok answer := by
  induction ranked with
  | nil => exact ⟨none, rfl⟩
  | cons first others ih =>
      obtain ⟨⟨b, hb⟩, hothers⟩ := List.forall_mem_cons.1 htold
      rw [firstFor, hb]
      cases b with
      | true => exact ⟨some first, rfl⟩
      | false => exact ih hothers

/-- The first rule for a node comes before all others that are for it. -/
theorem firstFor_eq_some_iff (hordered : ranked.Pairwise Rule.Before) :
    firstFor ctx node ranked = .ok (some rule) ↔
      rule ∈ ranked ∧ rule.path.accepts ctx node = .ok true ∧
        ∀ other ∈ ranked, other.path.accepts ctx node = .ok true →
          other = rule ∨ rule.Before other := by
  induction ranked with
  | nil => exact ⟨nofun, fun h => absurd h.1 List.not_mem_nil⟩
  | cons first others ih =>
      obtain ⟨⟨b, hb⟩, hothers⟩ := List.forall_mem_cons.1 htold
      obtain ⟨hfirst, hordered⟩ := List.pairwise_cons.1 hordered
      rw [firstFor, hb, List.mem_cons, List.forall_mem_cons]
      cases b with
      | true =>
          constructor
          · intro h
            obtain rfl := Option.some.inj (Except.ok.inj h)
            exact ⟨.inl rfl, hb, fun _ => .inl rfl,
              fun other hother _ => .inr (hfirst other hother)⟩
          · rintro ⟨hmem, -, hbest, -⟩
            obtain rfl | hbefore := hbest hb
            · rfl
            · obtain rfl | hmem := hmem
              · rfl
              · exact absurd (hbefore.trans (hfirst rule hmem)) (Rule.not_before_self rule)
      | false =>
          refine (ih hothers hordered).trans ⟨?_, ?_⟩
          · rintro ⟨hmem, haccepts, hbest⟩
            exact ⟨.inr hmem, haccepts, fun h => (by cases hb.symm.trans h), hbest⟩
          · rintro ⟨rfl | hmem, haccepts, -, hbest⟩
            · cases hb.symm.trans haccepts
            · exact ⟨hmem, haccepts, hbest⟩

theorem firstFor_eq_none_iff : firstFor ctx node ranked = .ok none ↔
    ∀ rule ∈ ranked, rule.path.accepts ctx node = .ok false := by
  constructor
  · intro h rule hrule
    obtain ⟨b, hb⟩ := htold rule hrule
    cases b with
    | false => exact hb
    | true =>
        obtain ⟨found, -, hfound⟩ := firstFor_of_accepts htold ⟨rule, hrule, hb⟩
        cases h.symm.trans hfound
  · exact firstFor_of_rejects

end Search

/-- **Which rule handles a node.**  Templates are added without a failure, the priorities they state
are numbers, and every alternative in a mode can tell whether it is for a node.  Then there is no
rule for the node just if no alternative is for it; and the rule that handles it is the one that is
for it and that all others give way to, each alternative with the priority that its template states
or else with its own. -/
theorem find?_resolves {templates : List Template} {rules : Rules}
    (hadded : templates.foldlM (fun (rules : Rules) template => rules.add template) empty =
      .ok rules)
    (hpriority : ∀ template ∈ templates, ∀ priority,
      template.priority = some priority → priority.isNaN = false)
    (ctx : Context) (mode : Option String) (node : Node)
    (htold : ∀ template ∈ templates, template.mode = mode → ∀ path ∈ template.paths,
      ∃ b, path.accepts ctx node = .ok b) :
    (∃ answer, rules.find? ctx mode node = .ok answer) ∧
    (rules.find? ctx mode node = .ok none ↔
      ∀ template ∈ templates, template.mode = mode → ∀ path ∈ template.paths,
        path.accepts ctx node = .ok false) ∧
    ∀ rule, rules.find? ctx mode node = .ok (some rule) ↔
      rule ∈ declared templates ∧ rule.mode = mode ∧ rule.path.accepts ctx node = .ok true ∧
        ∀ other ∈ declared templates, other.mode = mode →
          other.path.accepts ctx node = .ok true → other.sequence ≠ rule.sequence →
          other.GivesWay rule := by
  obtain ⟨hranks, -⟩ := reflects_empty.foldlM hadded
  rw [List.nil_append] at hranks
  have hmem (rule : Rule) :
      rule ∈ rules.inMode mode ↔ rule ∈ declared templates ∧ rule.mode = mode := by
    rw [inMode, List.mem_filter, hranks.perm.mem_iff, beq_iff_eq, declared]
  have hrules : ∀ rule ∈ rules.inMode mode, ∃ b, rule.path.accepts ctx node = .ok b := by
    intro rule hrule
    obtain ⟨hdeclared, hmode⟩ := (hmem rule).1 hrule
    obtain ⟨template, htemplate, path, hpath, heq⟩ := of_mem_declared hdeclared
    rw [heq] at hmode ⊢
    exact htold template htemplate hmode path hpath
  have hordered : (rules.inMode mode).Pairwise Rule.Before := hranks.ordered.filter _
  refine ⟨exists_firstFor hrules, ?_, fun rule => ?_⟩
  · refine (firstFor_eq_none_iff hrules).trans ⟨fun h template htemplate hmode path hpath => ?_,
      fun h rule hrule => ?_⟩
    · obtain ⟨rule, hrule, hrulemode, rfl⟩ := exists_mem_declared htemplate hpath
      exact h rule ((hmem rule).2 ⟨hrule, hrulemode.trans hmode⟩)
    · obtain ⟨hdeclared, hmode⟩ := (hmem rule).1 hrule
      obtain ⟨template, htemplate, path, hpath, heq⟩ := of_mem_declared hdeclared
      rw [heq] at hmode ⊢
      exact h template htemplate hmode path hpath
  · -- among declared rules, to come before is to be given way to
    have hbefore (hrule : rule ∈ declared templates) {other : Rule}
        (hother : other ∈ declared templates) :
        (other = rule ∨ rule.Before other) ↔
          (other.sequence ≠ rule.sequence → other.GivesWay rule) := by
      rw [Rule.before_iff_givesWay (isNaN_priority hpriority hrule)
        (isNaN_priority hpriority hother), ← or_iff_not_imp_left]
      exact or_congr_left ⟨congrArg _, eq_of_sequence_eq hother hrule⟩
    refine (firstFor_eq_some_iff hrules hordered).trans ?_
    rw [hmem, and_assoc]
    refine and_congr_right fun hrule => and_congr_right fun _ => and_congr_right fun _ => ?_
    constructor
    · intro hbest other hother hmode haccepts
      exact (hbefore hrule hother).1 (hbest other ((hmem other).2 ⟨hother, hmode⟩) haccepts)
    · intro hbest other hother haccepts
      obtain ⟨hdeclared, hmode⟩ := (hmem other).1 hother
      exact (hbefore hrule hdeclared).2 (hbest other hdeclared hmode haccepts)

/-! ### The two zeros -/

/-- Two templates for the same element.  The first has the priority of its pattern, which is zero,
and the second states a negative zero. -/
def zeros : List Template :=
  [⟨none, some (childrenCalled ["a"]), none, none, [], []⟩,
    ⟨none, some (childrenCalled ["a"]), none, some (.zero true), [], []⟩]

theorem not_nan_zeros : ∀ template ∈ zeros, ∀ priority,
    template.priority = some priority → priority.isNaN = false := by
  intro template htemplate priority hstated
  obtain rfl | rfl : _ ∨ _ := by simpa only [zeros, List.mem_cons, List.not_mem_nil, or_false]
    using htemplate
  · cases hstated
  · obtain rfl := Option.some.inj hstated
    rfl

theorem told_zeros : ∀ template ∈ zeros, template.mode = none → ∀ path ∈ template.paths,
    ∃ b, path.accepts onlyContext onlyNode = .ok b := by
  intro template htemplate _ path hpath
  refine ⟨true, ?_⟩
  obtain rfl | rfl : _ ∨ _ := by simpa only [zeros, List.mem_cons, List.not_mem_nil, or_false]
    using htemplate
  all_goals
    obtain rfl := List.mem_singleton.1 hpath
    rfl

/-- The first of the two handles the element: the other one is as high and declared later, and gives
way. -/
theorem find?_resolves_zeros : ∃ rules rule other,
    zeros.foldlM (fun (rules : Rules) template => rules.add template) empty = .ok rules ∧
    rules.find? onlyContext none onlyNode = .ok (some rule) ∧ rule.sequence = 0 ∧
    other ∈ declared zeros ∧ other.priority.eq rule.priority = true ∧ other.sequence = 1 ∧
    other.GivesWay rule := by
  have hadded : ∃ rules rule,
      zeros.foldlM (fun (rules : Rules) template => rules.add template) empty = .ok rules ∧
      rules.find? onlyContext none onlyNode = .ok (some rule) ∧ rule.sequence = 0 ∧
      rule.priority = .zero false := ⟨_, _, rfl, rfl, rfl, rfl⟩
  have hother : ∃ other ∈ declared zeros, other.mode = none ∧
      other.path.accepts onlyContext onlyNode = .ok true ∧ other.sequence = 1 ∧
      other.priority = .zero true := ⟨_, .tail _ (.head _), rfl, rfl, rfl, rfl⟩
  obtain ⟨rules, rule, hrules, hfound, hfirst, hpositive⟩ := hadded
  obtain ⟨other, hdeclared, hmode, haccepts, hsecond, hnegative⟩ := hother
  obtain ⟨-, -, hchoice⟩ :=
    find?_resolves hrules not_nan_zeros onlyContext none onlyNode told_zeros
  obtain ⟨-, -, -, hbest⟩ := (hchoice rule).1 hfound
  refine ⟨rules, rule, other, hrules, hfound, hfirst, hdeclared, ?_, hsecond,
    hbest other hdeclared hmode haccepts (by rw [hfirst, hsecond]; decide)⟩
  rw [hpositive, hnegative]
  rfl

/-- It is not true that the rule that handles a node has, among those with numerically equal
priorities, been declared last. -/
theorem not_find?_last : ¬ ∀ (templates : List Template) (rules : Rules),
    templates.foldlM (fun (rules : Rules) template => rules.add template) empty = .ok rules →
    (∀ template ∈ templates, ∀ priority,
      template.priority = some priority → priority.isNaN = false) →
    ∀ (ctx : Context) (mode : Option String) (node : Node),
    (∀ template ∈ templates, template.mode = mode → ∀ path ∈ template.paths,
      ∃ b, path.accepts ctx node = .ok b) →
    ∀ rule, rules.find? ctx mode node = .ok (some rule) →
      ∀ other ∈ declared templates, other.mode = mode →
        other.path.accepts ctx node = .ok true → other.sequence ≠ rule.sequence →
        other.priority.lt rule.priority = true ∨
          (other.priority.eq rule.priority = true ∧ other.sequence < rule.sequence) := by
  intro h
  have hlast := h zeros _ rfl not_nan_zeros onlyContext none onlyNode told_zeros _ rfl _
    (.tail _ (.head _)) rfl rfl (by decide)
  revert hlast
  decide

end Rules

end Restyle
