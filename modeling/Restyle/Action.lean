import Restyle.Environment
import Restyle.Result
import Restyle.Instruction

/-!
# Restyle.Action

What instructions do.

An `Action` starts in a state, may look up and bind names in it, reports events of the result, and
ends with a value or a failure.  Events and bindings made before a failure remain: they are part of
the `Outcome`.  So is what can be seen of the state on the way, as a predicate on `Sighting`s: it
says what happened and takes neither time nor space when an action is carried out.
-/

namespace Restyle

/-! ## Reports -/

/-- Events reported one after another, in parts that are put together only when they are all
there. -/
inductive Report where
  | part (events : List Event)
  | both (first second : Report)

namespace Report

/-- No events. -/
def empty : Report := .part []

/-- The events of a report, in front of others. -/
def eventsThen (rest : List Event) : Report → List Event
  | .part events => events ++ rest
  | .both first second => first.eventsThen (second.eventsThen rest)

/-- The events of a report. -/
def toList (report : Report) : List Event := report.eventsThen []

/-- One report and then another. -/
def append : Report → Report → Report
  | .part [], second => second
  | first, .part [] => first
  | first, second => .both first second

theorem eventsThen_eq (rest : List Event) (report : Report) :
    report.eventsThen rest = report.toList ++ rest := by
  induction report generalizing rest with
  | part events => simp [toList, eventsThen]
  | both first second ih₁ ih₂ =>
    rw [toList, eventsThen, eventsThen, ih₁, ih₂, ih₁ (second.eventsThen []), ih₂ []]
    simp

@[simp] theorem toList_part (events : List Event) : (Report.part events).toList = events := by
  simp [toList, eventsThen]

@[simp] theorem toList_append (first second : Report) :
    (first.append second).toList = first.toList ++ second.toList := by
  unfold append
  split
  · simp
  · simp
  · rw [toList, eventsThen, eventsThen_eq]; rfl

end Report

/-! ## States -/

/-- Where a run stands. -/
structure State where
  /-- What names stand for. -/
  environment : Environment
  /-- How many levels are open: templates that are being carried out, and built-in rules that lead
  on to children. -/
  depth : Nat

namespace State

/-- Nothing is bound and no level is open. -/
def initial : State := ⟨.empty, 0⟩

/-- Change what names stand for. -/
def update (f : Environment → Environment) (s : State) : State :=
  { s with environment := f s.environment }

/-- Open a level. -/
def enter (s : State) : State := { s with depth := s.depth + 1 }

/-- Close a level. -/
def leave (s : State) : State := { s with depth := s.depth - 1 }

end State

/-- The routines after which a run stands where it stood before. -/
inductive Routine where
  /-- A body is carried out in a scope of its own. -/
  | body
  /-- A template is carried out with the values passed to it.  They are `checked` where the template
  is called by its name. -/
  | template (template : Template) (passed : Scope) (checked : Bool)
  /-- Nodes are handled by their rules. -/
  | nodes
  /-- A node is handled by the built-in rule. -/
  | builtIn

/-- What can be seen of an action on the way. -/
inductive Sighting where
  /-- A state that comes about, and how many of the levels that the action opened are open then. -/
  | moment (levels : Nat) (state : State)
  /-- A routine that has come to its end, and the states before and after it. -/
  | call (routine : Routine) (before after : State)

/-- What is seen inside a level, as seen from outside of it. -/
def Sighting.inLevel : Sighting → Sighting
  | .moment levels state => .moment (levels + 1) state
  | .call routine before after => .call routine before after

/-! ## Actions -/

/-- How an action ended. -/
structure Outcome (α : Type) where
  result : Except Failure α
  /-- What was reported on the way. -/
  report : Report
  /-- The state left behind. -/
  state : State
  /-- What could be seen on the way, from the first change of the state on. -/
  seen : Sighting → Prop

/-- Something that is done in a state. -/
def Action (α : Type) : Type := State → Outcome α

namespace Action

/-- Start an action in a state. -/
def run {α : Type} (x : Action α) (s : State) : Outcome α := x s

/-- End with a value. -/
protected def pure {α : Type} (a : α) : Action α := fun s => ⟨.ok a, .empty, s, fun _ => False⟩

/-- Do one thing and then, unless it fails, another. -/
protected def bind {α β : Type} (x : Action α) (f : α → Action β) : Action β := fun s =>
  let first := x s
  match first.result with
  | .error failure => ⟨.error failure, first.report, first.state, first.seen⟩
  | .ok a =>
    let second := f a first.state
    ⟨second.result, first.report.append second.report, second.state,
      fun sighting => first.seen sighting ∨ second.seen sighting⟩

instance : Monad Action where
  pure := Action.pure
  bind := Action.bind

/-- Fail. -/
def fail {α : Type} (failure : Failure) : Action α := fun s =>
  ⟨.error failure, .empty, s, fun _ => False⟩

/-- Report events. -/
def report (events : List Event) : Action Unit := fun s =>
  ⟨.ok (), .part events, s, fun _ => False⟩

/-- Change what names stand for. -/
def change (f : Environment → Environment) : Action Unit := fun s =>
  ⟨.ok (), .empty, s.update f, fun sighting => sighting = .moment 0 (s.update f)⟩

/-- Compute something from what names stand for. -/
def compute {α : Type} (f : Environment → Except Failure α) : Action α := fun s =>
  ⟨f s.environment, .empty, s, fun _ => False⟩

/-- Do something between two changes of what names stand for, the second of which is made even if
it fails. -/
def between {α : Type} (before after : Environment → Environment) (x : Action α) : Action α :=
  fun s =>
    let inner := x (s.update before)
    let final := inner.state.update after
    { inner with
      state := final
      seen := fun sighting =>
        sighting = .moment 0 (s.update before) ∨ inner.seen sighting ∨
          sighting = .moment 0 final }

/-- Do something one level deeper, unless so many levels are open that there may be no more.  The
level is closed even if it fails. -/
def inLevel {α : Type} (limit : Nat) (x : Action α) : Action α := fun s =>
  if limit ≤ s.depth then Action.fail (.tooDeep limit) s
  else
    let inner := x s.enter
    let final := inner.state.leave
    { inner with
      state := final
      seen := fun sighting =>
        sighting = .moment 1 s.enter ∨ (∃ seen, inner.seen seen ∧ sighting = seen.inLevel) ∨
          sighting = .moment 0 final }

/-- Mark an action as a routine. -/
def watch {α : Type} (routine : Routine) (x : Action α) : Action α := fun s =>
  let inner := x s
  { inner with
    seen := fun sighting => inner.seen sighting ∨ sighting = .call routine s inner.state }

/-- Do something in a scope of its own. -/
def inScope {α : Type} (x : Action α) : Action α :=
  (x.between Environment.openScope Environment.closeScope).watch .body

/-- Do something in a frame of its own. -/
def inFrame {α : Type} (x : Action α) : Action α :=
  x.between Environment.openFrame Environment.closeFrame

/-- Write an element with what an action writes inside it. -/
def inElement (name : String) (x : Action Unit) : Action Unit := do
  Action.report [.start name]
  x
  Action.report [.stop]

/-- The text that an action writes, which does not go to the result. -/
def text (x : Action Unit) : Action String := fun s =>
  let inner := x s
  ⟨inner.result.map fun _ => Event.textOf inner.report.toList, .empty, inner.state, inner.seen⟩

end Action

end Restyle
