import Restyle.Expr
import Restyle.Text.Blank
import Restyle.Text.Quoted

/-!
# Restyle.Expr.Parser

Reading expressions from text.

Each function of the grammar takes the characters that are left and gives back what it read with
the characters after it.  The grammar is written once, over the reader of the expressions that
stand inside brackets; `exprAt` closes the circle, one level of brackets at a time.  A text cannot
hold more levels of brackets than characters, nor more items of a repetition, so one limit serves
for both.

Operators, brackets, commas and path separators may have white space around them; the parts of a
step may not.  Binary operators bind, loosest first: `or`; `and`; `=` and `!=`; the four orders;
`+` and `-`; `*`, `div` and `mod`; the sign; `|`; paths.

A term that cannot be read fails where the name of a step was expected, since a location path is
what is tried last.  A repetition stops where its next item cannot be read, so only a failure of
the first term is a failure of the whole, and anything left over is reported as such.
-/

namespace Restyle

/-- Why a text is no expression. -/
inductive ParseFailure where
  /-- There is nothing but white space. -/
  | empty
  /-- An expression ends before this rest of the text. -/
  | leftover (rest : String)
  /-- A name was expected at this rest of the text. -/
  | noName (rest : String)
deriving DecidableEq, Repr

/-- The words for a failure. -/
def ParseFailure.message : ParseFailure → String
  | .empty => "Expression is empty"
  | .leftover rest => s!"Unexpected input at '{rest}'"
  | .noName rest =>
    "Parsing Error: Error \x7b input: " ++ Text.quoted rest ++ ", code: Satisfy \x7d"

namespace Grammar

open Text

/-- A reader of terms: what it reads and what is left, or where it expected a name. -/
abbrev Reader (α : Type) := List Char → Except (List Char) (α × List Char)

/-! ## Tokens -/

/-- What is left after white space. -/
def dropSpace (s : List Char) : List Char := s.dropWhile isXmlSpace

/-- What is left after a fixed text, if it stands first. -/
def skip (mark s : List Char) : Option (List Char) :=
  if mark.isPrefixOf s then some (s.drop mark.length) else none

/-- What is left after a fixed text with white space around it. -/
def skipSpaced (mark s : List Char) : Option (List Char) :=
  (skip mark (dropSpace s)).map dropSpace

/-- What is left after a word that does not run on into a longer name. -/
def skipWord (word s : List Char) : Option (List Char) :=
  match skip word s with
  | some (c :: rest) => if isNameChar c then none else some (c :: rest)
  | other => other

/-- A name without a colon. -/
def ncName : List Char → Option (List Char × List Char)
  | [] => none
  | c :: cs =>
    if isNameStart c then some (c :: cs.takeWhile isNameChar, cs.dropWhile isNameChar) else none

/-- A name, perhaps with a qualifier. -/
def qName (s : List Char) : Option (List Char × List Char) :=
  match ncName s with
  | none => none
  | some (first, ':' :: rest) =>
    match ncName rest with
    | some (second, rest') => some (first ++ ':' :: second, rest')
    | none => some (first, ':' :: rest)
  | some (first, rest) => some (first, rest)

/-- A numeral without sign: digits, perhaps with a point, with a digit on at least one side. -/
def number (s : List Char) : Option (Double × List Char) :=
  let whole := s.takeWhile Char.isDigit
  match s.dropWhile Char.isDigit with
  | '.' :: rest =>
    let fraction := rest.takeWhile Char.isDigit
    if whole.isEmpty && fraction.isEmpty then none
    else some (numeralValue false whole fraction, rest.dropWhile Char.isDigit)
  | rest => if whole.isEmpty then none else some (numeralValue false whole [], rest)

/-- A text up to the quote that closes it. -/
def closedBy (quote : Char) (s : List Char) : Option (List Char × List Char) :=
  match s.dropWhile (· != quote) with
  | [] => none
  | _ :: rest => some (s.takeWhile (· != quote), rest)

/-- A text between single or double quotes. -/
def literal : List Char → Option (List Char × List Char)
  | '\'' :: rest => closedBy '\'' rest
  | '"' :: rest => closedBy '"' rest
  | _ => none

/-! ## Repetition -/

/-- As many items as can be read one after another, but no more than a limit. -/
def many {α : Type} (item : Reader α) (limit : Nat) (s : List Char) : List α × List Char :=
  match limit with
  | 0 => ([], s)
  | limit + 1 =>
    match item s with
    | .error _ => ([], s)
    | .ok (a, rest) =>
      let (as, rest') := many item limit rest
      (a :: as, rest')

/-- Put further operands to a first one, from the left, but no more than a limit. -/
def chainFrom (op : List Char → Option (BinaryOp × List Char)) (operand : Reader Expr)
    (limit : Nat) (left : Expr) (s : List Char) : Expr × List Char :=
  match limit with
  | 0 => (left, s)
  | limit + 1 =>
    match op (dropSpace s) with
    | none => (left, s)
    | some (o, afterOp) =>
      match operand (dropSpace afterOp) with
      | .error _ => (left, s)
      | .ok (right, rest) => chainFrom op operand limit (.binary o left right) rest

/-- Operands joined by operators of one strength. -/
def chain (limit : Nat) (op : List Char → Option (BinaryOp × List Char))
    (operand : Reader Expr) : Reader Expr := fun s => do
  let (left, rest) ← operand s
  return chainFrom op operand limit left rest

/-! ## Operators -/

/-- The first operator of a list of signs that stands at the start. -/
def sign (signs : List (List Char × BinaryOp)) (s : List Char) :
    Option (BinaryOp × List Char) :=
  signs.findSome? fun (mark, op) => (skip mark s).map (op, ·)

/-- The first operator of a list of words that stands at the start. -/
def wordOp (words : List (List Char × BinaryOp)) (s : List Char) :
    Option (BinaryOp × List Char) :=
  words.findSome? fun (word, op) => (skipWord word s).map (op, ·)

def orOp : List Char → Option (BinaryOp × List Char) := wordOp [(['o', 'r'], .or)]

def andOp : List Char → Option (BinaryOp × List Char) := wordOp [(['a', 'n', 'd'], .and)]

def equalityOp : List Char → Option (BinaryOp × List Char) :=
  sign [(['='], .equals), (['!', '='], .notEquals)]

def orderOp : List Char → Option (BinaryOp × List Char) :=
  sign [(['<', '='], .lessEqual), (['>', '='], .greaterEqual), (['<'], .less), (['>'], .greater)]

def sumOp : List Char → Option (BinaryOp × List Char) :=
  sign [(['+'], .plus), (['-'], .minus)]

def productOp (s : List Char) : Option (BinaryOp × List Char) :=
  match sign [(['*'], .times)] s with
  | some found => some found
  | none => wordOp [(['d', 'i', 'v'], .divide), (['m', 'o', 'd'], .modulo)] s

def unionOp : List Char → Option (BinaryOp × List Char) := sign [(['|'], .union)]

/-! ## Steps -/

/-- The words for the axes. -/
def axisWords : List (String × Axis) :=
  [("ancestor-or-self", .ancestorOrSelf), ("ancestor", .ancestor), ("attribute", .attr),
   ("child", .child), ("descendant-or-self", .descendantOrSelf), ("descendant", .descendant),
   ("following-sibling", .followingSibling), ("following", .following), ("parent", .parent),
   ("preceding-sibling", .precedingSibling), ("preceding", .preceding), ("self", .self)]

/-- An axis with the two colons after it. -/
def axis (s : List Char) : Option (Axis × List Char) :=
  axisWords.findSome? fun (word, axis) => (skip (word.toList ++ [':', ':']) s).map (axis, ·)

/-- What is left after a pair of brackets with nothing between them. -/
def emptyParens (s : List Char) : Option (List Char) :=
  (skipSpaced ['('] s).bind (skip [')'])

/-- The tests for a kind of node. -/
def kindTests : List (String × NodeTest) :=
  [("text", .text), ("node", .node), ("comment", .comment)]

/-- A test for a kind of node, with its brackets. -/
def kindTest (s : List Char) : Option (NodeTest × List Char) :=
  kindTests.findSome? fun (word, test) =>
    ((skip word.toList s).bind emptyParens).map (test, ·)

/-- A test for a processing instruction, perhaps with the target in quotes. -/
def instructionTest (s : List Char) : Option (NodeTest × List Char) := do
  let rest ← skip "processing-instruction".toList s
  let inside ← skipSpaced ['('] rest
  match literal inside with
  | some (target, rest') =>
    return (.instruction (some (String.ofList target)), ← skipSpaced [')'] rest')
  | none => return (.instruction none, ← skipSpaced [')'] inside)

/-- Any name with a qualifier. -/
def qualifiedTest (s : List Char) : Option (NodeTest × List Char) := do
  let (name, rest) ← ncName s
  return (.qualified (String.ofList name), ← skip [':', '*'] rest)

/-- A node test. -/
def nodeTest (s : List Char) : Except (List Char) (NodeTest × List Char) :=
  match skip ['*'] s with
  | some rest => .ok (.any, rest)
  | none =>
    match kindTest s with
    | some found => .ok found
    | none =>
      match instructionTest s with
      | some found => .ok found
      | none =>
        match qualifiedTest s with
        | some found => .ok found
        | none =>
          match qName s with
          | some (name, rest) => .ok (.name (String.ofList name), rest)
          | none => .error s

/-- A node test with the axis in front of it. -/
def axisTest (s : List Char) : Except (List Char) ((Axis × NodeTest) × List Char) :=
  match (skip ['@'] s).map nodeTest with
  | some (.ok (test, rest)) => .ok ((.attr, test), rest)
  | _ =>
    let (axis, rest) := (axis s).getD (.child, s)
    (nodeTest rest).map fun (test, rest') => ((axis, test), rest')

section Bracketed

variable (limit : Nat) (inner : Reader Expr)

/-- An expression between square brackets. -/
def predicate : Reader Expr := fun s =>
  match skipSpaced ['['] s with
  | none => .error s
  | some inside => do
    let (e, rest) ← inner inside
    match skipSpaced [']'] rest with
    | some rest' => return (e, rest')
    | none => throw rest

/-- A step. -/
def step : Reader Step := fun s =>
  match skip ['.', '.'] s with
  | some rest => .ok (Step.parent, rest)
  | none =>
    match skip ['.'] s with
    | some rest => .ok (Step.self, rest)
    | none => do
      let ((axis, test), rest) ← axisTest s
      let (predicates, rest') := many (predicate inner) limit rest
      return (⟨axis, test, predicates⟩, rest')

/-- A separator with the step after it; `//` brings a step of its own. -/
def furtherStep : Reader (List Step) := fun s =>
  match skipSpaced ['/', '/'] s with
  | some rest =>
    (step limit inner rest).map fun (next, rest') => ([Step.descendantOrSelf, next], rest')
  | none =>
    match skipSpaced ['/'] s with
    | some rest => (step limit inner rest).map fun (next, rest') => ([next], rest')
    | none => .error s

/-- The steps after the first one. -/
def furtherSteps (s : List Char) : List Step × List Char :=
  let (steps, rest) := many (furtherStep limit inner) limit s
  (steps.flatten, rest)

/-- A location path that does not start with an expression. -/
def locationPath : Reader Expr := fun s =>
  match skip ['/', '/'] s with
  | some rest => do
    let (first, rest') ← step limit inner rest
    let (others, rest'') := furtherSteps limit inner rest'
    return (.path .root (Step.descendantOrSelf :: first :: others), rest'')
  | none =>
    match skip ['/'] s with
    | some rest =>
      match step limit inner rest with
      | .ok (first, rest') =>
        let (others, rest'') := furtherSteps limit inner rest'
        .ok (.path .root (first :: others), rest'')
      | .error _ => .ok (.path .root [], rest)
    | none => do
      let (first, rest') ← step limit inner s
      let (others, rest'') := furtherSteps limit inner rest'
      return (.path .context (first :: others), rest'')

/-! ## Primary expressions -/

/-- A comma with the argument after it. -/
def furtherArg : Reader Expr := fun s =>
  match skipSpaced [','] s with
  | some rest => inner rest
  | none => .error s

/-- Expressions separated by commas, perhaps none. -/
def args (s : List Char) : List Expr × List Char :=
  match inner s with
  | .error _ => ([], s)
  | .ok (first, rest) =>
    let (others, rest') := many (furtherArg inner) limit rest
    (first :: others, rest')

/-- The names that test a kind of node and so are no functions. -/
def kindNames : List String := ["text", "node", "comment", "processing-instruction"]

/-- A function call. -/
def functionCall (s : List Char) : Option (Expr × List Char) := do
  let (name, rest) ← qName s
  let inside ← skipSpaced ['('] rest
  guard (!kindNames.contains (String.ofList name))
  let (arguments, rest') := args limit inner inside
  let rest'' ← skipSpaced [')'] rest'
  return (.call (String.ofList name) arguments, rest'')

/-- An expression between round brackets. -/
def bracketed (s : List Char) : Option (Expr × List Char) := do
  let inside ← skipSpaced ['('] s
  let (e, rest) ← (inner inside).toOption
  return (e, ← skipSpaced [')'] rest)

/-- A reference to a variable. -/
def variableRef (s : List Char) : Option (Expr × List Char) := do
  let (name, rest) ← qName (← skip ['$'] s)
  return (.variable (String.ofList name), rest)

/-- What a path may start with: a variable, a number, a text, a call or an expression in round
brackets. -/
def primary (s : List Char) : Option (Expr × List Char) :=
  match variableRef s with
  | some found => some found
  | none =>
    match number s with
    | some (value, rest) => some (.number value, rest)
    | none =>
      match literal s with
      | some (text, rest) => some (.literal (String.ofList text), rest)
      | none =>
        match functionCall limit inner s with
        | some found => some found
        | none => bracketed inner s

/-- A primary expression narrowed by predicates. -/
def filtered (s : List Char) : Option (Expr × List Char) := do
  let (e, rest) ← primary limit inner s
  let (predicates, rest') := many (predicate inner) limit rest
  return (if predicates.isEmpty then e else .filter e predicates, rest')

/-- A path, with the white space around it. -/
def path : Reader Expr := fun s =>
  match filtered limit inner (dropSpace s) with
  | some (start, rest) =>
    let (steps, rest') := furtherSteps limit inner rest
    .ok (if steps.isEmpty then start else .path (.value start) steps, dropSpace rest')
  | none => (locationPath limit inner (dropSpace s)).map fun (e, rest) => (e, dropSpace rest)

/-! ## Operators by strength -/

/-- Paths joined by `|`. -/
def unionExpr : Reader Expr := chain limit unionOp (path limit inner)

theorem length_dropSpace_le (s : List Char) : (dropSpace s).length ≤ s.length :=
  (List.dropWhile_sublist _).length_le

/-- A union with any number of signs in front of it. -/
def signed (s : List Char) : Except (List Char) (Expr × List Char) :=
  match _h : dropSpace s with
  | '-' :: rest =>
    match signed (dropSpace rest) with
    | .ok (e, rest') => .ok (.negate e, rest')
    | .error _ => unionExpr limit inner s
  | _ => unionExpr limit inner s
termination_by s.length
decreasing_by
  have h₁ := length_dropSpace_le s
  have h₂ := length_dropSpace_le rest
  rw [_h, List.length_cons] at h₁
  omega

/-- An expression, over the reader of what stands inside brackets. -/
def expr : Reader Expr :=
  chain limit orOp (chain limit andOp (chain limit equalityOp (chain limit orderOp
    (chain limit sumOp (chain limit productOp (signed limit inner))))))

end Bracketed

/-- An expression in which there are less levels of brackets, and less items of each repetition,
than a limit. -/
def exprAt : Nat → Reader Expr
  | 0 => .error
  | limit + 1 => expr limit (exprAt limit)

end Grammar

/-- Read an expression.  White space of any kind around it does not count. -/
def Expr.parse (source : String) : Except ParseFailure Expr :=
  match Text.trim Text.isBlank source.toList with
  | [] => .error .empty
  | s =>
    match Grammar.exprAt (s.length + 1) s with
    | .ok (e, []) => .ok e
    | .ok (_, rest) => .error (.leftover (String.ofList rest))
    | .error rest => .error (.noName (String.ofList rest))

end Restyle
