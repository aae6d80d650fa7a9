import Restyle.Proofs.Success
import Restyle.Rules

/-!
# Restyle.Proofs.Rules

Which rules the templates of a stylesheet make.

Ranking puts rules in order and neither drops nor adds any, so the rules of a mode are the
alternatives of the patterns of its templates.  Where a mode has one template, the order is no
matter: a node is handled by that template if one of its alternatives is for the node.

* `Rules.of_add_eq_ok`, `Rules.mem_addPaths` — what a template brings;
* `Rules.Stands` — an alternative stands for a template in a mode;
* `Rules.stands_iff_of_foldlM` — what stands after templates were added one by one;
* `Rules.OnlyTemplate` — a mode with one template;
* `Rules.OnlyTemplate.find?_of_accepts`, `Rules.OnlyTemplate.find?_of_rejects` — the rule for a
  node in such a mode.
-/

namespace Restyle

/-- The alternatives of the pattern of a template. -/
def Template.paths (template : Template) : List PathPattern :=
  (template.pattern.map Pattern.paths).getD []

namespace Rules

variable {mode : Option String} {template other : Template} {path : PathPattern}

/-- The templates that there are rules or names for. -/
def templates (rules : Rules) : List Template :=
  rules.ranked.map Rule.template ++ rules.named.map Prod.snd

/-! ## What is added -/

theorem mem_rank {rule added : Rule} {ranked : List Rule} :
    rule ∈ rank added ranked ↔ rule = added ∨ rule ∈ ranked := by
  induction ranked with
  | nil => simp [rank]
  | cons first others ih =>
      rw [rank]
      split
      · exact List.mem_cons
      · rw [List.mem_cons, ih, List.mem_cons]
        exact or_left_comm

/-- The new rules are for the alternatives of the template. -/
theorem mem_addPaths {paths : List PathPattern} {ranked : List Rule} {rule : Rule}
    (h : rule ∈ addPaths template paths ranked) :
    rule ∈ ranked ∨ rule.template = template ∧ rule.path ∈ paths := by
  induction paths generalizing ranked with
  | nil => exact .inl h
  | cons path paths ih =>
      obtain hrule | ⟨htemplate, hpath⟩ := ih h
      · obtain rfl | hold := mem_rank.1 hrule
        · exact .inr ⟨rfl, List.mem_cons_self⟩
        · exact .inl hold
      · exact .inr ⟨htemplate, List.mem_cons_of_mem _ hpath⟩

/-- An accepted template brings its rules, and its name if it has one, which was free. -/
theorem of_add_eq_ok {rules rules' : Rules} (h : rules.add template = .ok rules') :
    rules'.ranked = addPaths template template.paths rules.ranked ∧
      rules'.named = (template.name.map fun name => (name, template)).toList ++ rules.named ∧
        ∀ name, template.name = some name → rules.byName? name = none := by
  unfold add at h
  split at h
  · next hname =>
    obtain rfl := Except.ok.inj h
    rw [hname]
    exact ⟨rfl, rfl, nofun⟩
  · next own hname =>
    split at h
    · cases h
    · next hfree =>
      obtain rfl := Except.ok.inj h
      rw [hname]
      refine ⟨rfl, rfl, fun name hown => ?_⟩
      rw [← Option.some.inj hown]
      exact Option.not_isSome_iff_eq_none.1 hfree

theorem mem_templates_add {rules rules' : Rules} (h : rules.add template = .ok rules')
    (hother : other ∈ rules'.templates) : other ∈ rules.templates ∨ other = template := by
  obtain ⟨hranked, hnamed, -⟩ := of_add_eq_ok h
  rw [templates, hranked, hnamed, List.map_append, List.mem_append, List.mem_append] at hother
  obtain hrule | hnew | hold := hother
  · obtain ⟨rule, hmem, rfl⟩ := List.mem_map.1 hrule
    obtain hold | ⟨htemplate, -⟩ := mem_addPaths hmem
    · exact .inl (List.mem_append_left _ (List.mem_map_of_mem hold))
    · exact .inr htemplate
  · cases hname : template.name with
    | none => simp [hname] at hnew
    | some name => exact .inr (by simpa [hname] using hnew)
  · exact .inl (List.mem_append_right _ hold)

theorem mem_templates_of_mem_ranked {rules : Rules} {rule : Rule} (h : rule ∈ rules.ranked) :
    rule.template ∈ rules.templates :=
  List.mem_append_left _ (List.mem_map_of_mem h)

theorem mem_templates_of_byName? {rules : Rules} {name : String}
    (h : rules.byName? name = some template) : template ∈ rules.templates := by
  obtain ⟨before, after, hnamed, -⟩ := List.lookup_eq_some_iff.1 h
  refine List.mem_append_right _ (List.mem_map.2 ⟨(name, template), ?_, rfl⟩)
  rw [hnamed]
  exact List.mem_append_right _ List.mem_cons_self

/-! ## What stands in a mode -/

/-- An alternative stands for a template in a mode. -/
def Stands (rules : Rules) (mode : Option String) (path : PathPattern) (template : Template) :
    Prop :=
  ∃ rule ∈ rules.inMode mode, rule.path = path ∧ rule.template = template

/-- A rule of the list is of the mode and stands for the template by the alternative. -/
def Listed (ranked : List Rule) (mode : Option String) (path : PathPattern) (template : Template) :
    Prop :=
  ∃ rule ∈ ranked, rule.mode = mode ∧ rule.path = path ∧ rule.template = template

theorem listed_addPaths (paths : List PathPattern) (ranked : List Rule) :
    Listed (addPaths template paths ranked) mode path other ↔
      Listed ranked mode path other ∨
        (template.mode = mode ∧ path ∈ paths ∧ template = other) := by
  induction paths generalizing ranked with
  | nil => simp [addPaths]
  | cons first paths ih =>
      have hrank (added : Rule) : Listed (rank added ranked) mode path other ↔
          (added.mode = mode ∧ added.path = path ∧ added.template = other) ∨
            Listed ranked mode path other := by
        simp only [Listed, mem_rank, or_and_right, exists_or, exists_eq_left]
      rw [addPaths, ih, hrank, List.mem_cons]
      constructor
      · rintro ((⟨hmode, hpath, htemplate⟩ | hlisted) | ⟨hmode, hpath, htemplate⟩)
        · exact .inr ⟨hmode, .inl hpath.symm, htemplate⟩
        · exact .inl hlisted
        · exact .inr ⟨hmode, .inr hpath, htemplate⟩
      · rintro (hlisted | ⟨hmode, hpath | hpath, htemplate⟩)
        · exact .inl (.inr hlisted)
        · exact .inl (.inl ⟨hmode, hpath.symm, htemplate⟩)
        · exact .inr ⟨hmode, hpath, htemplate⟩

theorem stands_iff_listed {rules : Rules} :
    rules.Stands mode path template ↔ Listed rules.ranked mode path template := by
  simp only [Stands, Listed, inMode, List.mem_filter, beq_iff_eq, and_assoc]

/-- To add a template is to add the alternatives of its pattern in its mode. -/
theorem stands_add {rules rules' : Rules} (h : rules.add template = .ok rules') :
    rules'.Stands mode path other ↔ rules.Stands mode path other ∨
      (template.mode = mode ∧ path ∈ template.paths ∧ template = other) := by
  rw [stands_iff_listed, stands_iff_listed, (of_add_eq_ok h).1, listed_addPaths]

/-- A template without a name is never refused. -/
theorem exists_add (rules : Rules) (template : Template) (h : template.name = none) :
    ∃ rules', rules.add template = .ok rules' := by
  unfold add
  rw [h]
  exact ⟨_, rfl⟩

/-- What stands in a mode, after templates were added one by one, are the alternatives of the
patterns of those that are for it. -/
theorem stands_iff_of_foldlM {templates : List Template} {rules rules' : Rules}
    (h : templates.foldlM (fun (rules : Rules) added => rules.add added) rules = .ok rules') :
    rules'.Stands mode path other ↔ rules.Stands mode path other ∨
      (other ∈ templates ∧ other.mode = mode ∧ path ∈ other.paths) := by
  induction templates generalizing rules with
  | nil =>
      cases h
      simp
  | cons template templates ih =>
      rw [List.foldlM_cons] at h
      cases hadd : rules.add template with
      | error problem =>
          rw [hadd] at h
          cases h
      | ok added =>
          rw [hadd] at h
          rw [ih h, stands_add hadd, List.mem_cons]
          grind

/-! ## A mode with one template -/

/-- In a mode the alternatives of the pattern of one template stand for it, and nothing else. -/
def OnlyTemplate (rules : Rules) (mode : Option String) (template : Template) : Prop :=
  ∀ path other, rules.Stands mode path other ↔ other = template ∧ path ∈ template.paths

/-- A mode has one template if just one of those that were added is for it. -/
theorem onlyTemplate_of_foldlM {templates : List Template} {rules : Rules}
    (h : templates.foldlM (fun (rules : Rules) added => rules.add added) Rules.empty = .ok rules)
    (hmem : template ∈ templates) (hmode : template.mode = mode)
    (honly : ∀ other ∈ templates, other.mode = mode → other.pattern.isSome → other = template) :
    rules.OnlyTemplate mode template := by
  intro path other
  rw [stands_iff_of_foldlM h]
  constructor
  · rintro (⟨rule, hrule, -⟩ | ⟨hother, hothermode, hpath⟩)
    · exact absurd hrule List.not_mem_nil
    · have hpattern : other.pattern.isSome := by
        unfold Template.paths at hpath
        cases hp : other.pattern with
        | none => simp [hp] at hpath
        | some pattern => rfl
      obtain rfl := honly other hother hothermode hpattern
      exact ⟨rfl, hpath⟩
  · rintro ⟨rfl, hpath⟩
    exact .inr ⟨hmem, hmode, hpath⟩

theorem onlyTemplate_of_add {rules : Rules} (h : Rules.empty.add template = .ok rules)
    (hmode : template.mode = mode) : rules.OnlyTemplate mode template := by
  have hadd : [template].foldlM (fun (rules : Rules) added => rules.add added) Rules.empty =
      .ok rules := by
    rw [List.foldlM_cons, h]
    rfl
  exact onlyTemplate_of_foldlM hadd List.mem_cons_self hmode
    fun other hother _ _ => List.mem_singleton.1 hother

variable {ctx : Context} {node : Node}

theorem mem_of_firstFor {ranked : List Rule} {rule : Rule}
    (h : firstFor ctx node ranked = .ok (some rule)) : rule ∈ ranked := by
  induction ranked with
  | nil => cases h
  | cons first others ih =>
      rw [firstFor] at h
      obtain ⟨accepted, -, h⟩ := bind_eq_ok.1 h
      cases accepted with
      | true =>
          obtain rfl := Option.some.inj (Except.ok.inj h)
          exact List.mem_cons_self
      | false => exact List.mem_cons_of_mem _ (ih h)

/-- The first rule for a node, where every rule can tell whether it is for the node. -/
theorem firstFor_of_accepts {ranked : List Rule}
    (htold : ∀ rule ∈ ranked, ∃ b, rule.path.accepts ctx node = .ok b)
    (haccepts : ∃ rule ∈ ranked, rule.path.accepts ctx node = .ok true) :
    ∃ rule ∈ ranked, firstFor ctx node ranked = .ok (some rule) := by
  induction ranked with
  | nil =>
      obtain ⟨rule, hrule, -⟩ := haccepts
      exact absurd hrule List.not_mem_nil
  | cons rule others ih =>
      obtain ⟨b, hb⟩ := htold rule List.mem_cons_self
      rw [firstFor, hb]
      cases b with
      | true => exact ⟨rule, List.mem_cons_self, rfl⟩
      | false =>
          obtain ⟨accepting, hmem, haccepting⟩ := haccepts
          have hother : accepting ∈ others := by
            rcases List.mem_cons.1 hmem with rfl | hmem
            · rw [hb] at haccepting
              cases haccepting
            · exact hmem
          obtain ⟨found, hfound, hfirst⟩ := ih
            (fun rule h => htold rule (List.mem_cons_of_mem _ h)) ⟨accepting, hother, haccepting⟩
          exact ⟨found, List.mem_cons_of_mem _ hfound, hfirst⟩

theorem firstFor_of_rejects {ranked : List Rule}
    (hrejects : ∀ rule ∈ ranked, rule.path.accepts ctx node = .ok false) :
    firstFor ctx node ranked = .ok none := by
  induction ranked with
  | nil => rfl
  | cons rule others ih =>
      rw [firstFor, hrejects rule List.mem_cons_self]
      exact ih fun rule h => hrejects rule (List.mem_cons_of_mem _ h)

namespace OnlyTemplate

variable {rules : Rules} (h : rules.OnlyTemplate mode template)

include h

/-- A node is handled by the template if one of the alternatives is for it. -/
theorem find?_of_accepts (htold : ∀ path ∈ template.paths, ∃ b, path.accepts ctx node = .ok b)
    (haccepts : ∃ path ∈ template.paths, path.accepts ctx node = .ok true) :
    ∃ rule, rule.template = template ∧ rules.find? ctx mode node = .ok (some rule) := by
  have hrules (rule : Rule) (hrule : rule ∈ rules.inMode mode) :
      rule.template = template ∧ rule.path ∈ template.paths :=
    (h rule.path rule.template).1 ⟨rule, hrule, rfl, rfl⟩
  obtain ⟨path, hpath, haccepts⟩ := haccepts
  obtain ⟨accepting, hmem, rfl, -⟩ := (h path template).2 ⟨rfl, hpath⟩
  obtain ⟨rule, hrule, hfirst⟩ := firstFor_of_accepts
    (fun rule hrule => htold rule.path (hrules rule hrule).2) ⟨accepting, hmem, haccepts⟩
  exact ⟨rule, (hrules rule hrule).1, hfirst⟩

/-- No rule is for a node if no alternative is for it. -/
theorem find?_of_rejects
    (hrejects : ∀ path ∈ template.paths, path.accepts ctx node = .ok false) :
    rules.find? ctx mode node = .ok none :=
  firstFor_of_rejects fun rule hrule =>
    hrejects rule.path ((h rule.path rule.template).1 ⟨rule, hrule, rfl, rfl⟩).2

end OnlyTemplate

end Rules

end Restyle
