import Restyle.Run

/-!
# Restyle.Proofs.Run.Unfolding

The recursion of a run, one call at a time.

Instructions are carried out by recursion on their syntax, and entries by recursion on the levels
that are left.  Here every call that a run makes of itself is a parameter: a body inside an
instruction is carried out by `within`, and what leads to another template or to children by
`enter`.  Nothing is recursive then but the way along lists.

* `Job.performBy`, `Job.sourceValueBy`, … — the parts of a run with their calls as parameters;
* `Job.performAll_eq`, `Job.sourceValue_eq`, … — what is carried out in a run is these parts, with
  bodies carried out in the same way.
-/

namespace Restyle

namespace Job

variable (job : Job) (enter : Entry → Action Unit)

section Parts

variable (within : Focus → List Instruction → Action Unit) (focus : Focus)

/-- The value from a source. -/
def sourceValueBy : ValueSource Instruction → Action Value
  | .empty => return .string ""
  | .select e => job.eval focus e
  | .content body => do return .string (← (within focus body).inScope.text)

/-- The values passed to a template, the last one first. -/
def passedValuesBy : List (String × ValueSource Instruction) → Action Scope
  | [] => return []
  | (name, source) :: others => do
    let value ← job.sourceValueBy within focus source
    let values ← passedValuesBy others
    return values ++ [(name, value)]

/-- Carry out the body behind the first test that holds, or else something `last`. -/
def performFirstBy (last : Action Unit) : List (Expr × List Instruction) → Action Unit
  | [] => last
  | (test, body) :: whens => do
    let value ← job.eval focus test
    if value.toBool then (within focus body).inScope else performFirstBy last whens

/-- Carry out an instruction. -/
def performBy : Instruction → Action Unit
  | .text content => .report [.text content]
  | .literal name namespaces attributes body =>
    Action.inElement name.text do
      Action.report (namespaces.map fun ns => .attr ns.declaration.text ns.uri)
      job.writeAttributes focus attributes
      (within focus body).inScope
  | .valueOf select => do
    let value ← job.eval focus select
    Action.report [.text value.toText]
  | .copyOf select => do
    match ← job.eval focus select with
    | .nodes nodes => Action.report (nodes.flatMap Node.events)
    | value => Action.report [.text value.toText]
  | .applyTemplates select mode sorts passed => do
    let nodes ← match select with
      | some e => job.selected focus "xsl:apply-templates" e
      | none => pure focus.node.children
    let nodes ← job.sorted sorts nodes
    let values ← job.passedValuesBy within focus passed
    job.applyAll enter mode values nodes
  | .callTemplate name passed => do
    match job.stylesheet.rules.byName? name with
    | none => Action.fail (.noTemplate name)
    | some template => do
      let values ← job.passedValuesBy within focus passed
      job.instantiate enter template focus values true
  | .forEach select sorts body => do
    let nodes ← job.selected focus "xsl:for-each" select
    let nodes ← job.sorted sorts nodes
    (Focus.among nodes).forM fun inner => (within inner body).inScope
  | .ifThen test body => do
    let value ← job.eval focus test
    if value.toBool then (within focus body).inScope else return ()
  | .choose whens otherwise =>
    job.performFirstBy within focus (match otherwise with
      | some body => (within focus body).inScope
      | none => return ()) whens
  | .variable name source => do
    let value ← job.sourceValueBy within focus source
    Action.change (Environment.bind name value)
  | .element name body => do
    let name ← job.expandName focus name
    (within focus body).inScope.inElement name
  | .attr name body => do
    let name ← job.expandName focus name
    checkAttributeName name
    let value ← (within focus body).inScope.text
    Action.report [.attr name value]
  | .copy body =>
    match focus.node.kind with
    | .element => (within focus body).inScope.inElement focus.node.writtenName
    | .root => (within focus body).inScope
    | .text | .attr | .comment | .instruction => .report focus.node.events
  | .comment body => do
    let content ← (within focus body).inScope.text
    Action.report [.comment content]
  | .message terminate body => do
    let content ← (within focus body).inScope.text
    if terminate then Action.fail (.terminated content) else return ()

/-- Bind the parameters of a template to the values passed or else to their defaults. -/
def bindParamsBy (passed : Scope) : List (String × ValueSource Instruction) → Action Unit
  | [] => return ()
  | (name, source) :: others => do
    let value ← match passed.lookup name with
      | some value => pure value
      | none => job.sourceValueBy within focus source
    Action.change (Environment.bind name value)
    bindParamsBy passed others

/-- Carry out a template in a frame that is open. -/
def insideBy (template : Template) (passed : Scope) : Action Unit := do
  job.bindParamsBy within focus passed template.params
  (within focus template.body).inScope

/-- Bind the variables and parameters of the whole stylesheet. -/
def bindGlobalsBy (params : Scope) : List Global → Action Unit
  | [] => return ()
  | new :: others => do
    let value ← match if new.isParam then params.lookup new.name else none with
      | some value => pure value
      | none => job.sourceValueBy within job.rootFocus new.value
    Action.change (Environment.bindGlobal new.name value)
    bindGlobalsBy params others

/-- The whole run. -/
def mainBy (params : Scope) : Action Unit := do
  Action.change Environment.openFrame
  job.bindGlobalsBy within params job.stylesheet.globals
  Action.between id Environment.closeFrame (job.applyAll enter none params [job.document.root])

end Parts

/-! ## What is carried out in a run -/

variable (focus : Focus)

theorem sourceValue_eq (source : ValueSource Instruction) :
    job.sourceValue enter focus source =
      job.sourceValueBy (job.performAll enter) focus source := by
  cases source <;> simp only [sourceValue, sourceValueBy]

theorem passedValues_eq (passed : List (String × ValueSource Instruction)) :
    job.passedValues enter focus passed =
      job.passedValuesBy (job.performAll enter) focus passed := by
  induction passed with
  | nil => simp only [passedValues, passedValuesBy]
  | cons value others ih => simp only [passedValues, passedValuesBy, sourceValue_eq, ih]

theorem performFirst_eq (last : Action Unit) (whens : List (Expr × List Instruction)) :
    job.performFirst enter focus last whens =
      job.performFirstBy (job.performAll enter) focus last whens := by
  induction whens with
  | nil => simp only [performFirst, performFirstBy]
  | cons when others ih => simp only [performFirst, performFirstBy, ih]

theorem perform_eq (instruction : Instruction) :
    job.perform enter focus instruction =
      job.performBy enter (job.performAll enter) focus instruction := by
  cases instruction with
  | copyOf select => simp only [perform]; rfl
  | applyTemplates select mode sorts passed => simp only [perform, passedValues_eq]; rfl
  | callTemplate name passed => simp only [perform, passedValues_eq]; rfl
  | choose whens otherwise =>
      cases otherwise <;> simp only [perform, performBy, performFirst_eq]
  | «variable» name source => simp only [perform, performBy, sourceValue_eq]
  | copy body => simp only [perform]; rfl
  | text | literal | valueOf | forEach | ifThen | element | attr | comment | message =>
      simp only [perform, performBy]

theorem performAll_eq (body : List Instruction) :
    job.performAll enter focus body =
      body.forM (job.performBy enter (job.performAll enter) focus) := by
  induction body with
  | nil => simp only [performAll]; rfl
  | cons instruction others ih => simp only [performAll, perform_eq, ih]; rfl

theorem bindParams_eq (passed : Scope) (params : List (String × ValueSource Instruction)) :
    job.bindParams enter focus passed params =
      job.bindParamsBy (job.performAll enter) focus passed params := by
  induction params with
  | nil => simp only [bindParams, bindParamsBy]
  | cons param others ih => simp only [bindParams, sourceValue_eq, ih]; rfl

theorem carryOut_eq (template : Template) (passed : Scope) :
    job.carryOut enter template focus passed =
      (job.insideBy (job.performAll enter) focus template passed).inFrame := by
  simp only [carryOut, insideBy, bindParams_eq]

theorem bindGlobals_eq (params : Scope) (globals : List Global) :
    job.bindGlobals params globals =
      job.bindGlobalsBy (job.performAll job.enter) params globals := by
  induction globals with
  | nil => simp only [bindGlobals, bindGlobalsBy]
  | cons new others ih => simp only [bindGlobals, sourceValue_eq, ih]; rfl

theorem main_eq (params : Scope) :
    job.main params = job.mainBy job.enter (job.performAll job.enter) params := by
  simp only [main, mainBy, bindGlobals_eq]

end Job

end Restyle
