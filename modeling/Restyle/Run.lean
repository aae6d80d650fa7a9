import Restyle.Run.Body

/-!
# Restyle.Run

Whole runs.

A run starts with the root in the default mode.  Every template and every step of the built-in
rules to children goes one level deeper, as far as the settings allow; the recursion is on the
number of levels that are left, so a run ends whatever the templates do.

* `Job.enterAt` — an entry where some levels are left;
* `Job.main` — the whole run as an action;
* `Job.events` — the events of the result.
-/

namespace Restyle

namespace Job

variable (job : Job)

/-- Bind the parameters of a template to the values passed or else to their defaults. -/
def bindParams (enter : Entry → Action Unit) (focus : Focus) (passed : Scope) :
    List (String × ValueSource Instruction) → Action Unit
  | [] => return ()
  | (name, source) :: others => do
    let value ← match passed.lookup name with
      | some value => pure value
      | none => job.sourceValue enter focus source
    Action.change (Environment.bind name value)
    bindParams enter focus passed others

/-- Carry out a template in a frame of its own. -/
def carryOut (enter : Entry → Action Unit) (template : Template) (focus : Focus)
    (passed : Scope) : Action Unit :=
  Action.inFrame do
    job.bindParams enter focus passed template.params
    (job.performAll enter focus template.body).inScope

/-- Carry out an entry where no more than `left` levels may be opened. -/
def enterAt : Nat → Entry → Action Unit
  | 0, _ => .fail (.tooDeep job.settings.maxDepth)
  | left + 1, .template template focus passed =>
    (job.carryOut (enterAt left) template focus passed).inLevel job.settings.maxDepth
  | left + 1, .children node mode =>
    (job.applyAll (enterAt left) mode [] node.children).inLevel job.settings.maxDepth

/-- Carry out an entry from the top of a run. -/
def enter : Entry → Action Unit := job.enterAt job.settings.maxDepth

/-- The root in focus. -/
def rootFocus : Focus := ⟨job.document.root, 1, 1⟩

/-- Bind the variables and parameters of the whole stylesheet.  Values from outside count for
parameters only. -/
def bindGlobals (params : Scope) : List Global → Action Unit
  | [] => return ()
  | new :: others => do
    let value ← match if new.isParam then params.lookup new.name else none with
      | some value => pure value
      | none => job.sourceValue job.enter job.rootFocus new.value
    Action.change (Environment.bindGlobal new.name value)
    bindGlobals params others

/-- The whole run.  The values from outside are also passed to the template for the root. -/
def main (params : Scope) : Action Unit := do
  Action.change Environment.openFrame
  job.bindGlobals params job.stylesheet.globals
  Action.between id Environment.closeFrame (job.applyAll job.enter none params [job.document.root])

/-- The events of the result. -/
def events (params : Scope) : Except Failure (List Event) :=
  let outcome := (job.main params).run .initial
  outcome.result.map fun _ => Event.kept outcome.report.toList

end Job

end Restyle
