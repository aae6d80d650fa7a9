import Restyle.Instruction

/-!
# Restyle.Proofs.Run.Expressions

The expressions that occur in instructions, wherever they stand: in selections and tests, in sort
keys, in text templates, in the sources of values, and in all bodies inside.
-/

namespace Restyle

/-- The expressions in a text template. -/
def TextTemplate.exprs : TextTemplate → List Expr
  | [] => []
  | .text _ :: parts => TextTemplate.exprs parts
  | .value e :: parts => e :: TextTemplate.exprs parts

mutual

/-- The expressions in an instruction. -/
def Instruction.exprs : Instruction → List Expr
  | .text _ => []
  | .literal _ _ attributes body =>
    (attributes.flatMap fun attr => attr.2.exprs) ++ bodyExprs body
  | .valueOf select => [select]
  | .copyOf select => [select]
  | .applyTemplates select _ sorts passed =>
    select.toList ++ (sorts.map SortKey.select ++ passedExprs passed)
  | .callTemplate _ passed => passedExprs passed
  | .forEach select sorts body => select :: (sorts.map SortKey.select ++ bodyExprs body)
  | .ifThen test body => test :: bodyExprs body
  | .choose whens none => whenExprs whens
  | .choose whens (some body) => whenExprs whens ++ bodyExprs body
  | .variable _ source => sourceExprs source
  | .element name body => name.exprs ++ bodyExprs body
  | .attr name body => name.exprs ++ bodyExprs body
  | .copy body => bodyExprs body
  | .comment body => bodyExprs body
  | .message _ body => bodyExprs body

/-- The expressions in a body. -/
def bodyExprs : List Instruction → List Expr
  | [] => []
  | instruction :: others => instruction.exprs ++ bodyExprs others

/-- The expressions in the source of a value. -/
def sourceExprs : ValueSource Instruction → List Expr
  | .empty => []
  | .select e => [e]
  | .content body => bodyExprs body

/-- The expressions in the values passed to a template. -/
def passedExprs : List (String × ValueSource Instruction) → List Expr
  | [] => []
  | (_, source) :: others => sourceExprs source ++ passedExprs others

/-- The tests of a choice, and the expressions in the bodies behind them. -/
def whenExprs : List (Expr × List Instruction) → List Expr
  | [] => []
  | (test, body) :: whens => test :: (bodyExprs body ++ whenExprs whens)

end

/-- The expressions in a template, but for those in its pattern. -/
def Template.exprs (template : Template) : List Expr :=
  passedExprs template.params ++ bodyExprs template.body

end Restyle
