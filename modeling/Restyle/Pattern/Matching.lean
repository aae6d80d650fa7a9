import Restyle.Pattern

/-!
# Restyle.Pattern.Matching

Which nodes a pattern is for.  A pattern is matched from its last step, which must be met by the
node itself, up to its first; a step after `//` tries the nodes above, nearest first.  The
predicates of a step count a node among the children (or attributes) of the same parent that pass
the same test.
-/

namespace Restyle

/-- Whether a test holds for one of some items.  The first one for which it does settles the
matter. -/
def firstHolds {α : Type} (test : α → Except ExprError Bool) : List α → Except ExprError Bool
  | [] => .ok false
  | a :: as => do if ← test a then return true else firstHolds test as

namespace PatternStep

/-- Whether a node is of a kind that stands on the axis of a step. -/
def onAxis (step : PatternStep) (node : Node) : Bool :=
  match step.axis with
  | .attr => node.kind == .attr
  | .child => node.kind != .attr && node.kind != .root

/-- Whether a node meets a step. -/
def accepts (ctx : Context) (step : PatternStep) (node : Node) : Except ExprError Bool :=
  if !(step.onAxis node && step.test.accepts step.axis.axis node) then .ok false
  else if step.predicates.isEmpty then .ok true
  else
    match node.parent with
    | none => .ok false
    | some parent => do
      let kept ← narrow ctx step.predicates (step.axis.axis.candidates step.test parent)
      return kept.any node.same

end PatternStep

namespace PathPattern

/-- Whether a node meets the steps, given last first, of a pattern. -/
def meets (ctx : Context) (absolute : Bool) : List PatternStep → Node → Except ExprError Bool
  | [], _ => .ok true
  | last :: rest, node => do
    if !(← last.accepts ctx node) then return false
    else if rest.isEmpty then
      return !absolute || last.link == .descendant || node.parent.any fun p => p.kind == .root
    else
      match last.link with
      | .child =>
        match node.parent with
        | some parent => meets ctx absolute rest parent
        | none => return false
      | .descendant => firstHolds (meets ctx absolute rest) node.ancestors

/-- Whether an alternative of a pattern is for a node. -/
def accepts (ctx : Context) (path : PathPattern) (node : Node) : Except ExprError Bool :=
  if path.steps.isEmpty then .ok (path.absolute && node.kind == .root)
  else meets ctx path.absolute path.steps.reverse node

end PathPattern

namespace Pattern

/-- Whether a pattern is for a node. -/
def accepts (ctx : Context) (pattern : Pattern) (node : Node) : Except ExprError Bool :=
  firstHolds (fun path => path.accepts ctx node) pattern.paths

end Pattern

end Restyle
