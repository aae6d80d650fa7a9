import Restyle.Action
import Restyle.Stylesheet

/-!
# Restyle.Run.Focus

Evaluation during a run: expressions, text templates and sort keys in the environment of the
moment, seen from a `Focus`.
-/

namespace Restyle

/-- What a run may not exceed, and how strict it is. -/
structure Settings where
  /-- How deep templates may be nested, built-in rules included. -/
  maxDepth : Nat
  /-- Whether a called template must declare every parameter passed to it. -/
  strict : Bool
deriving DecidableEq, Repr

/-- The settings where nothing is said. -/
def Settings.standard : Settings := ⟨256, false⟩

/-- What stays the same during a run. -/
structure Job where
  stylesheet : Stylesheet
  document : Document
  settings : Settings

/-- The node that is being looked at, and its place among others. -/
structure Focus where
  node : Node
  /-- Counted from one. -/
  position : Nat
  size : Nat

/-- Each node of a list in its place. -/
def Focus.among (nodes : List Node) : List Focus :=
  let size := nodes.length
  nodes.mapIdx fun i node => ⟨node, i + 1, size⟩

namespace Job

/-- The circumstances under which expressions are evaluated. -/
def context (job : Job) (focus : Focus) (env : Environment) : Context :=
  ⟨focus.node, job.document, focus.position, focus.size, Function.names, env.resolve⟩

/-- Something computed under the circumstances of the moment. -/
def ask {α : Type} (job : Job) (focus : Focus) (f : Context → Except ExprError α) : Action α :=
  .compute fun env => (f (job.context focus env)).mapError Failure.ofExprError

/-- The value of an expression. -/
def eval (job : Job) (focus : Focus) (e : Expr) : Action Value :=
  job.ask focus fun ctx => e.eval ctx

/-- The nodes that an instruction selects. -/
def selected (job : Job) (focus : Focus) (instruction : String) (e : Expr) :
    Action (List Node) := do
  match ← job.eval focus e with
  | .nodes nodes => return nodes
  | value => .fail (.evaluation (.notNodes instruction value.toText))

/-- The text that a text template stands for. -/
def expand (job : Job) (focus : Focus) : TextTemplate → Action String
  | [] => return ""
  | .text content :: parts => return content ++ (← job.expand focus parts)
  | .value e :: parts => do
    let value ← job.eval focus e
    return value.toText ++ (← job.expand focus parts)

/-- Whether a text is a name, or two names with a colon between them. -/
def isResultName (name : String) : Bool :=
  match name.toList.dropWhile (· != ':') with
  | [] => isNCName name.toList
  | _ :: localPart => isNCName (name.toList.takeWhile (· != ':')) && isNCName localPart

/-- The name that a text template stands for. -/
def expandName (job : Job) (focus : Focus) (template : TextTemplate) : Action String := do
  let name := Text.trimString Text.isBlank (← job.expand focus template)
  if isResultName name then return name else .fail (.evaluation (.badName name))

end Job

end Restyle
