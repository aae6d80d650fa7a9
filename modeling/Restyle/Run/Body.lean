import Restyle.Run.Sorting
import Restyle.Run.Copy

/-!
# Restyle.Run.Body

Instructions carried out.

A body is carried out in a scope of its own.  What leads to another template, or from a node to its
children by the built-in rules, is an `Entry`; how entries are carried out is a parameter here, so
that everything in this module is by recursion on instructions.
-/

namespace Restyle

/-- What makes a run one level deeper. -/
inductive Entry where
  /-- A template for a focus, with the values passed to it. -/
  | template (template : Template) (focus : Focus) (passed : Scope)
  /-- The built-in rule for the children of a node. -/
  | children (node : Node) (mode : Option String)

namespace Job

variable (job : Job) (enter : Entry → Action Unit)

/-- The rule of a mode for the node in focus.  Patterns see the bindings of the moment. -/
def ruleFor (mode : Option String) (focus : Focus) : Action (Option Rule) :=
  job.ask focus fun ctx => job.stylesheet.rules.find? ctx mode focus.node

/-- Refuse, where it is `checked` and the settings are strict, values passed to a template that does
not declare them. -/
def checkPassed (template : Template) (passed : Scope) (checked : Bool) : Action Unit :=
  if checked && job.settings.strict then
    match passed.reverse.find? fun value => !template.declares value.1 with
    | some (name, _) => .fail (.parameter name (.undeclared template.label))
    | none => return ()
  else return ()

/-- Carry out a template for a focus with the values passed to it. -/
def instantiate (template : Template) (focus : Focus) (passed : Scope) (checked : Bool) :
    Action Unit :=
  Action.watch (.template template passed checked) do
    job.checkPassed template passed checked
    enter (.template template focus passed)

/-- The built-in rule for a node: the root and elements lead to their children, texts and
attributes are written, and nothing else happens. -/
def builtIn (mode : Option String) (node : Node) : Action Unit :=
  Action.watch .builtIn
    (match node.kind with
      | .root | .element => enter (.children node mode)
      | .text | .attr => .report [.text node.stringValue]
      | .comment | .instruction => return ())

/-- Handle the node in focus by its rule. -/
def applyTo (mode : Option String) (passed : Scope) (focus : Focus) : Action Unit := do
  match ← job.ruleFor mode focus with
  | some rule => job.instantiate enter rule.template focus passed false
  | none => builtIn enter mode focus.node

/-- Handle nodes by their rules, each in its place among them. -/
def applyAll (mode : Option String) (passed : Scope) (nodes : List Node) : Action Unit :=
  Action.watch .nodes ((Focus.among nodes).forM (job.applyTo enter mode passed))

/-- Write attributes whose values are text templates. -/
def writeAttributes (focus : Focus) : List (QName × TextTemplate) → Action Unit
  | [] => return ()
  | (name, template) :: others => do
    let value ← job.expand focus template
    Action.report [.attr name.text value]
    writeAttributes focus others

/-- Refuse to write namespace declarations as attributes. -/
def checkAttributeName (name : String) : Action Unit :=
  if "xmlns:".toList.isPrefixOf name.toList || name = "xmlns" then
    .fail (.evaluation (.badName name))
  else return ()

mutual

/-- Carry out an instruction. -/
def perform (focus : Focus) : Instruction → Action Unit
  | .text content => .report [.text content]
  | .literal name namespaces attributes body =>
    Action.inElement name.text do
      Action.report (namespaces.map fun ns => .attr ns.declaration.text ns.uri)
      job.writeAttributes focus attributes
      (performAll focus body).inScope
  | .valueOf select => do
    let value ← job.eval focus select
    Action.report [.text value.toText]
  | .copyOf select => do
    match ← job.eval focus select with
    | .nodes nodes => Action.report (nodes.flatMap Node.events)
    | value => Action.report [.text value.toText]
  | .applyTemplates select mode sorts passed => do
    let nodes ← match select with
      | some e => job.selected focus "xsl:apply-templates" e
      | none => pure focus.node.children
    let nodes ← job.sorted sorts nodes
    let values ← passedValues focus passed
    job.applyAll enter mode values nodes
  | .callTemplate name passed => do
    match job.stylesheet.rules.byName? name with
    | none => Action.fail (.noTemplate name)
    | some template => do
      let values ← passedValues focus passed
      job.instantiate enter template focus values true
  | .forEach select sorts body => do
    let nodes ← job.selected focus "xsl:for-each" select
    let nodes ← job.sorted sorts nodes
    (Focus.among nodes).forM fun inner => (performAll inner body).inScope
  | .ifThen test body => do
    let value ← job.eval focus test
    if value.toBool then (performAll focus body).inScope else return ()
  | .choose whens otherwise =>
    performFirst focus (match otherwise with
      | some body => (performAll focus body).inScope
      | none => return ()) whens
  | .variable name source => do
    let value ← sourceValue focus source
    Action.change (Environment.bind name value)
  | .element name body => do
    let name ← job.expandName focus name
    (performAll focus body).inScope.inElement name
  | .attr name body => do
    let name ← job.expandName focus name
    checkAttributeName name
    let value ← (performAll focus body).inScope.text
    Action.report [.attr name value]
  | .copy body =>
    match focus.node.kind with
    | .element => (performAll focus body).inScope.inElement focus.node.writtenName
    | .root => (performAll focus body).inScope
    | .text | .attr | .comment | .instruction => .report focus.node.events
  | .comment body => do
    let content ← (performAll focus body).inScope.text
    Action.report [.comment content]
  | .message terminate body => do
    let content ← (performAll focus body).inScope.text
    if terminate then Action.fail (.terminated content) else return ()

/-- Carry out instructions in turn. -/
def performAll (focus : Focus) : List Instruction → Action Unit
  | [] => return ()
  | instruction :: others => do
    perform focus instruction
    performAll focus others

/-- Carry out the body behind the first test that holds, or else something `last`. -/
def performFirst (focus : Focus) (last : Action Unit) :
    List (Expr × List Instruction) → Action Unit
  | [] => last
  | (test, body) :: whens => do
    let value ← job.eval focus test
    if value.toBool then (performAll focus body).inScope else performFirst focus last whens

/-- The value from a source. -/
def sourceValue (focus : Focus) : ValueSource Instruction → Action Value
  | .empty => return .string ""
  | .select e => job.eval focus e
  | .content body => do return .string (← (performAll focus body).inScope.text)

/-- The values passed to a template, the last one first. -/
def passedValues (focus : Focus) : List (String × ValueSource Instruction) → Action Scope
  | [] => return []
  | (name, source) :: others => do
    let value ← sourceValue focus source
    let values ← passedValues focus others
    return values ++ [(name, value)]

end

end Job

end Restyle
