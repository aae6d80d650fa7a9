import Restyle.Value.Operator
import Restyle.Text.Search
import Restyle.Text.Casing

/-!
# Restyle.Function

The functions that expressions call.

A call is looked up by name among the functions the caller knows, and then among those that exist.
`Function.apply` gives the value for the values of the arguments; what depends on where the call
stands comes from a `Context`.
-/

namespace Restyle

/-- The circumstances under which an expression is evaluated. -/
structure Context where
  /-- The context node. -/
  node : Node
  /-- The document that absolute paths start in. -/
  document : Document
  /-- The place of the context node among the nodes under consideration, from one. -/
  position : Nat
  /-- How many nodes are under consideration. -/
  size : Nat
  /-- The names of the functions that may be called. -/
  functions : List String
  /-- The values of variables. -/
  bound : String → Option Value

/-- The same circumstances with another node in view. -/
def Context.focus (ctx : Context) (node : Node) (position size : Nat) : Context :=
  { ctx with node := node, position := position, size := size }

/-- The functions that exist. -/
inductive Function where
  | last
  | position
  | count
  | id
  | localName
  | name
  | generateId
  | string
  | concat
  | startsWith
  | contains
  | substringBefore
  | substringAfter
  | substring
  | stringLength
  | normalizeSpace
  | translate
  | boolean
  | not
  | true
  | false
  | lang
  | number
  | sum
  | floor
  | ceiling
  | round
deriving DecidableEq, Repr

namespace Function

/-- The functions with their names. -/
def named : List (String × Function) :=
  [("last", .last), ("position", .position), ("count", .count), ("id", .id),
   ("local-name", .localName), ("name", .name), ("generate-id", .generateId),
   ("string", .string), ("concat", .concat), ("starts-with", .startsWith),
   ("contains", .contains), ("substring-before", .substringBefore),
   ("substring-after", .substringAfter), ("substring", .substring),
   ("string-length", .stringLength), ("normalize-space", .normalizeSpace),
   ("translate", .translate), ("boolean", .boolean), ("not", .not), ("true", .true),
   ("false", .false), ("lang", .lang), ("number", .number), ("sum", .sum), ("floor", .floor),
   ("ceiling", .ceiling), ("round", .round)]

/-- The function with a name. -/
def ofName? (name : String) : Option Function := named.lookup name

/-- The names that may be called where nothing else is said. -/
def names : List String :=
  ["last", "position", "count", "id", "local-name", "name", "generate-id", "string", "concat",
   "starts-with", "contains", "substring-before", "substring-after", "substring", "string-length",
   "normalize-space", "translate", "boolean", "not", "true", "false", "lang", "number", "sum",
   "floor", "ceiling", "round"]

/-! ## Arguments -/

/-- No argument. -/
def noArg (name : String) : List Value → Except ExprError Unit
  | [] => .ok ()
  | _ => .error (.wrongArity name "0 arguments")

/-- The only argument. -/
def oneArg (name : String) : List Value → Except ExprError Value
  | [value] => .ok value
  | _ => .error (.wrongArity name "1 argument")

/-- The two arguments as texts. -/
def twoTexts (name : String) : List Value → Except ExprError (List Char × List Char)
  | [first, second] => .ok (first.toText.toList, second.toText.toList)
  | _ => .error (.wrongArity name "2 arguments")

/-- The only argument as a text, or that of the context node. -/
def textOrContext (name : String) (ctx : Context) : List Value → Except ExprError String
  | [] => .ok ctx.node.stringValue
  | [value] => .ok value.toText
  | _ => .error (.wrongArity name "0 or 1 arguments")

/-- The nodes of the only argument. -/
def nodesArg (name : String) (args : List Value) : Except ExprError (List Node) := do
  match ← oneArg name args with
  | .nodes nodes => return nodes
  | value => throw (.notNodes (.argument name) value)

/-- The first node of the only argument, or the context node. -/
def nodeOrContext (name : String) (ctx : Context) : List Value → Except ExprError (Option Node)
  | [] => .ok (some ctx.node)
  | [.nodes nodes] => .ok nodes.head?
  | [value] => .error (.notNodes (.argument name) value)
  | _ => .error (.wrongArity name "0 or 1 arguments")

/-! ## Nodes -/

/-- Whether an attribute can identify an element: it is called `id` or `xml:id`. -/
def isIdName (name : QName) : Bool :=
  name.localPart == "id" && (name.qualifier == none || name.qualifier == some "xml")

/-- Whether an element has an identifying attribute whose value is in a list. -/
def hasId (ids : List String) (node : Node) : Bool :=
  node.held.any fun content => isIdName content.name && ids.contains content.value

/-- The elements of a document that the words of a text identify. -/
def elementsById (document : Document) (text : String) : List Node :=
  let ids := (Text.words Text.isBlank text.toList).map String.ofList
  document.root.descendants.filter (hasId ids)

/-- A name that no two nodes of a document share. -/
def identifier (node : Node) : String := "id" ++ toString node.order

/-- The language in force at a node: the nearest `xml:lang` at it or above it. -/
def language (node : Node) : Option String :=
  (node :: node.ancestors).findSome? fun n =>
    (n.held.find? fun content => content.name == ⟨some "xml", "lang"⟩).map Attribute.value

/-- Whether a language is another one or a variety of it, letter case aside. -/
def speaks (wanted language : String) : Bool :=
  let wanted := (Text.lower wanted).toList
  let language := (Text.lower language).toList
  language == wanted || (wanted ++ ['-']).isPrefixOf language

/-! ## Texts -/

/-- A text with its words apart by single spaces and nothing around them. -/
def spaced (text : String) : String :=
  " ".intercalate ((Text.words Text.isBlank text.toList).map String.ofList)

/-- The characters of a text whose places, counted from one, are at least `first` and below
`bound`. -/
def slice (text : List Char) (first bound : Double) : List Char :=
  match first.leastNat?, bound with
  | none, _ | _, .nan => []
  | some first, bound =>
    match bound.leastNat? with
    | some bound => (text.take (bound - 1)).drop (first - 1)
    | none => text.drop (first - 1)

/-- The number whose fraction is dropped after adding one half. -/
def rounded : Double → Double
  | .nan => .nan
  | .infinity negative => .infinity negative
  | x => (x.add (.nearest Bool.false 1 2)).floor

/-- Replace each character that is in `source` by the one in its first place in `target`, or drop
it if there is none. -/
def translated (text source target : List Char) : List Char :=
  text.filterMap fun c =>
    match source.idxOf? c with
    | some place => target[place]?
    | none => some c

/-- The sum of the numbers of nodes.  It starts from negative zero, which adds nothing to
anything. -/
def total (nodes : List Node) : Double :=
  nodes.foldl (fun acc node => acc.add (readNumber node.stringValue)) (.zero Bool.true)

/-! ## Application -/

/-- The value of a function for the values of its arguments. -/
def apply (ctx : Context) (f : Function) (args : List Value) : Except ExprError Value :=
  match f with
  | .last => do noArg "last" args; return .number (.ofNat ctx.size)
  | .position => do noArg "position" args; return .number (.ofNat ctx.position)
  | .count => do return .number (.ofNat (← nodesArg "count" args).length)
  | .id => do
    match ← oneArg "id" args with
    | .nodes nodes =>
      return .nodes (elementsById ctx.document (" ".intercalate (nodes.map Node.stringValue)))
    | value => return .nodes (elementsById ctx.document value.toText)
  | .localName => do
    let node ← nodeOrContext "local-name" ctx args
    return .string (((node.bind Node.name).map QName.localPart).getD "")
  | .name => do
    let node ← nodeOrContext "name" ctx args
    return .string (((node.bind Node.name).map QName.text).getD "")
  | .generateId => do
    let node ← nodeOrContext "generate-id" ctx args
    return .string ((node.map identifier).getD "")
  | .string => do return .string (← textOrContext "string" ctx args)
  | .concat =>
    match args with
    | _ :: _ :: _ => .ok (.string (String.join (args.map Value.toText)))
    | _ => .error (.wrongArity "concat" "at least 2 arguments")
  | .startsWith => do
    let (text, mark) ← twoTexts "starts-with" args
    return .boolean (mark.isPrefixOf text)
  | .contains => do
    let (text, mark) ← twoTexts "contains" args
    return .boolean (Text.occursIn mark text)
  | .substringBefore => do
    let (text, mark) ← twoTexts "substring-before" args
    return .string (String.ofList (((Text.cutAt? mark text).map Prod.fst).getD []))
  | .substringAfter => do
    let (text, mark) ← twoTexts "substring-after" args
    return .string (String.ofList (((Text.cutAt? mark text).map Prod.snd).getD []))
  | .substring =>
    match args with
    | [text, start] =>
      .ok (.string (String.ofList
        (slice text.toText.toList (rounded start.toNumber) (.infinity Bool.false))))
    | [text, start, length] =>
      let first := rounded start.toNumber
      .ok (.string (String.ofList
        (slice text.toText.toList first (first.add (rounded length.toNumber)))))
    | _ => .error (.wrongArity "substring" "2 or 3 arguments")
  | .stringLength => do return .number (.ofNat (← textOrContext "string-length" ctx args).length)
  | .normalizeSpace => do return .string (spaced (← textOrContext "normalize-space" ctx args))
  | .translate =>
    match args with
    | [text, source, target] =>
      .ok (.string (String.ofList
        (translated text.toText.toList source.toText.toList target.toText.toList)))
    | _ => .error (.wrongArity "translate" "3 arguments")
  | .boolean => do return .boolean (← oneArg "boolean" args).toBool
  | .not => do return .boolean (!(← oneArg "not" args).toBool)
  | .true => do noArg "true" args; return .boolean Bool.true
  | .false => do noArg "false" args; return .boolean Bool.false
  | .lang => do
    let wanted ← oneArg "lang" args
    return .boolean ((language ctx.node).any (speaks wanted.toText))
  | .number =>
    match args with
    | [] => .ok (.number (readNumber ctx.node.stringValue))
    | [value] => .ok (.number value.toNumber)
    | _ => .error (.wrongArity "number" "0 or 1 arguments")
  | .sum => do return .number (total (← nodesArg "sum" args))
  | .floor => do return .number (← oneArg "floor" args).toNumber.floor
  | .ceiling => do return .number (← oneArg "ceiling" args).toNumber.ceil
  | .round => do return .number (rounded (← oneArg "round" args).toNumber)

end Function

/-- The value of a function call for the values of its arguments. -/
def Context.call (ctx : Context) (name : String) (args : List Value) : Except ExprError Value :=
  if ctx.functions.contains name then
    match Function.ofName? name with
    | some f => f.apply ctx args
    | none => .error (.noImplementation name)
  else .error (.unknownFunction name)

/-- Refuse an expression that calls a function which is not known. -/
def Expr.checkCalls (functions : List String) (e : Expr) : Except ExprError Unit :=
  match e.calls.find? fun name => !functions.contains name with
  | some name => .error (.unknownFunction name)
  | none => .ok ()

end Restyle
