import Restyle.Instruction
import Restyle.Pattern.Matching

/-!
# Restyle.Rules

Which template handles a node.

Each alternative of the pattern of a template is a `Rule` of its own, with the priority that the
template states or the alternative has by default.  The rules are kept in the order in which they
are tried: by descending priority, and among equals the last one declared comes first.  The number
of rules declared before a rule is its `sequence`.

* `Rules.add` — one more template, unless its name is taken;
* `Rules.find?` — the first rule of a mode whose alternative is for a node;
* `Rules.matching` — all of them.
-/

namespace Restyle

/-- One alternative of the pattern of a template. -/
structure Rule where
  path : PathPattern
  mode : Option String
  priority : Double
  /-- How many rules were declared before this one. -/
  sequence : Nat
  template : Template

/-- Whether a rule is tried before another one. -/
def Rule.outranks (a b : Rule) : Bool :=
  b.priority.totalKey < a.priority.totalKey ||
    (a.priority.totalKey == b.priority.totalKey && b.sequence < a.sequence)

/-- The templates of a stylesheet. -/
structure Rules where
  /-- The rules in the order in which they are tried. -/
  ranked : List Rule
  /-- The named templates, last declared first. -/
  named : List (String × Template)

namespace Rules

/-- No templates. -/
def empty : Rules := ⟨[], []⟩

/-- How many rules there are. -/
def count (rules : Rules) : Nat := rules.ranked.length

/-- Put a rule in front of the first one that it outranks. -/
def rank (rule : Rule) : List Rule → List Rule
  | [] => [rule]
  | other :: others =>
    if rule.outranks other then rule :: other :: others else other :: rank rule others

/-- Add rules for alternatives of a pattern of a template. -/
def addPaths (template : Template) : List PathPattern → List Rule → List Rule
  | [], ranked => ranked
  | path :: paths, ranked =>
    let rule : Rule :=
      ⟨path, template.mode, template.priority.getD path.defaultPriority, ranked.length, template⟩
    addPaths template paths (rank rule ranked)

/-- The template with a name. -/
def byName? (rules : Rules) (name : String) : Option Template := rules.named.lookup name

/-- Add a template under its name, its pattern, or both. -/
def add (template : Template) (rules : Rules) : Except StyleProblem Rules :=
  let paths := (template.pattern.map Pattern.paths).getD []
  let ranked := addPaths template paths rules.ranked
  match template.name with
  | none => .ok { rules with ranked := ranked }
  | some name =>
    if (rules.byName? name).isSome then .error (.duplicateTemplate name)
    else .ok ⟨ranked, (name, template) :: rules.named⟩

/-- The rules of a mode in the order in which they are tried. -/
def inMode (rules : Rules) (mode : Option String) : List Rule :=
  rules.ranked.filter fun rule => rule.mode == mode

/-- The first rule of a list that is for a node. -/
def firstFor (ctx : Context) (node : Node) : List Rule → Except ExprError (Option Rule)
  | [] => .ok none
  | rule :: rules => do
    if ← rule.path.accepts ctx node then return some rule else firstFor ctx node rules

/-- The rule of a mode that handles a node, if there is one. -/
def find? (rules : Rules) (ctx : Context) (mode : Option String) (node : Node) :
    Except ExprError (Option Rule) :=
  firstFor ctx node (rules.inMode mode)

/-- The rules of a list that are for a node. -/
def allFor (ctx : Context) (node : Node) : List Rule → Except ExprError (List Rule)
  | [] => .ok []
  | rule :: rules => do
    let accepted ← rule.path.accepts ctx node
    let others ← allFor ctx node rules
    return if accepted then rule :: others else others

/-- The rules of a mode that are for a node, best first. -/
def matching (rules : Rules) (ctx : Context) (mode : Option String) (node : Node) :
    Except ExprError (List Rule) :=
  allFor ctx node (rules.inMode mode)

end Rules

end Restyle
