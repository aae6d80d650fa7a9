import Restyle.Proofs.Success
import Restyle.Stylesheet.Assembly

/-!
# Restyle.Proofs.Stylesheet.Readings

What is read from the tags of a stylesheet.

Whatever is wrong with an expression, a pattern, a text template or an attribute, it is a failure of
the stylesheet and never an internal one.

* `Yields` — what a computation gives if it succeeds, and that it fails for no internal reason;
* `Yields.bind`, `Yields.mapM` — computations put together from others;
* `yields_styleExpr`, `yields_styleTemplate`, `Pattern.yields_parse` — texts that are read;
* `StyleTag.yields_required`, `StyleTag.yields_sortKey` and others — attributes that are read.
-/

namespace Restyle

/-- Whether a computation gives what has a property, or fails for a reason that is not internal. -/
inductive Yields {α : Type} (P : α → Prop) : Except Failure α → Prop
  | ok {a : α} : P a → Yields P (.ok a)
  | error {failure : Failure} : failure.kind ≠ .internal → Yields P (.error failure)

section Yields

variable {α β : Type} {P : α → Prop} {Q : β → Prop}

theorem Yields.bind {x : Except Failure α} {f : α → Except Failure β} (hx : Yields P x)
    (hf : ∀ a, P a → Yields Q (f a)) : Yields Q (x >>= f) := by
  cases hx with
  | ok ha => exact hf _ ha
  | error hkind => exact .error hkind

theorem Yields.mono {P' : α → Prop} {x : Except Failure α} (hx : Yields P x)
    (h : ∀ a, P a → P' a) : Yields P' x := by
  cases hx with
  | ok ha => exact .ok (h _ ha)
  | error hkind => exact .error hkind

theorem Yields.map {x : Except Failure α} {f : α → β} (hx : Yields P x)
    (hf : ∀ a, P a → Q (f a)) : Yields Q (x.map f) := by
  cases hx with
  | ok ha => exact .ok (hf _ ha)
  | error hkind => exact .error hkind

theorem Yields.mapM {f : α → Except Failure β} (hf : ∀ a, Yields (fun _ => True) (f a))
    (as : List α) : Yields (fun _ => True) (as.mapM f) := by
  induction as with
  | nil => exact .ok trivial
  | cons a as ih =>
      rw [List.mapM_cons]
      exact (hf a).bind fun _ _ => ih.bind fun _ _ => .ok trivial

theorem Yields.of_ok {a : α} (h : Yields P (.ok a)) : P a := by
  cases h with
  | ok ha => exact ha

theorem Yields.of_error {failure : Failure} (h : Yields P (.error failure)) :
    failure.kind ≠ .internal := by
  cases h with
  | error hkind => exact hkind

end Yields

/-! ## Texts -/

theorem Expr.yields_compile (functions : List String) (source : String) :
    Yields (fun _ => True) (Expr.compile functions source) := by
  unfold Expr.compile
  split
  · exact .error nofun
  · split
    · exact .error nofun
    · exact .ok trivial

theorem yields_styleExpr (source : String) : Yields (fun _ => True) (styleExpr source) :=
  Expr.yields_compile Function.names source

theorem yields_styleTemplate (text : String) : Yields (fun _ => True) (styleTemplate text) := by
  have hsegments (segments : List TextTemplate.Segment) : ∀ before,
      Yields (fun _ => True)
        (TextTemplate.ofSegments Function.names text before segments) := by
    induction segments with
    | nil => exact fun _ => .ok trivial
    | cons segment segments ih =>
        intro before
        cases segment with
        | char c => exact ih (c :: before)
        | source cs =>
            exact (Expr.yields_compile _ _).bind fun _ _ => (ih []).bind fun _ _ => .ok trivial
        | unclosed | unopened => exact .error nofun
  exact hsegments _ []

theorem Pattern.parse_eq_error {functions : List String} {text : String} {failure : Failure}
    (h : Pattern.parse functions text = .error failure) :
    ∃ problem, failure = .expression text problem := by
  unfold Pattern.parse at h
  dsimp only at h
  obtain ⟨problem, -, hfailure⟩ := mapError_eq_error.1 h
  exact ⟨problem, hfailure.symm⟩

theorem Pattern.yields_parse (functions : List String) (text : String) :
    Yields (fun _ => True) (Pattern.parse functions text) := by
  generalize h : Pattern.parse functions text = read
  cases read with
  | ok pattern => exact .ok trivial
  | error failure =>
      obtain ⟨problem, rfl⟩ := Pattern.parse_eq_error h
      exact .error nofun

/-! ## Attributes -/

namespace StyleTag

variable (tag : StyleTag)

theorem yields_problem {α : Type} {P : α → Prop} (problem : StyleProblem) :
    Yields P (.error (tag.problem problem)) := .error nofun

theorem yields_required (name element : String) :
    Yields (fun _ => True) (tag.required name element) := by
  unfold required
  split
  · exact .ok trivial
  · exact tag.yields_problem _

theorem yields_flag (name element : String) : Yields (fun _ => True) (tag.flag name element) := by
  unfold flag
  split
  · exact .ok trivial
  · split
    · exact .ok trivial
    · split
      · exact .ok trivial
      · exact tag.yields_problem _

theorem yields_exprIn (name : String) : Yields (fun _ => True) (tag.exprIn name) := by
  unfold exprIn
  split
  · exact (yields_styleExpr _).map fun _ _ => trivial
  · exact .ok trivial

theorem yields_requiredExpr (name element : String) :
    Yields (fun _ => True) (tag.requiredExpr name element) :=
  (tag.yields_required name element).bind fun source _ => yields_styleExpr source

theorem yields_nameAndSelect (element : String) :
    Yields (fun _ => True) (tag.nameAndSelect element) :=
  (tag.yields_required "name" element).bind fun _ _ =>
    (tag.yields_exprIn "select").bind fun _ _ => .ok trivial

theorem yields_priority : Yields (fun _ => True) tag.priority := by
  unfold priority
  split
  · exact .ok trivial
  · split
    · exact tag.yields_problem _
    · exact .ok trivial

theorem yields_outputForm : Yields (fun _ => True) tag.outputForm := by
  have hform (method : OutputMethod) : Yields (fun _ => True) (do
      let omitted ← tag.flag "omit-xml-declaration" "xsl:output"
      return (⟨method, method == .xml && !omitted⟩ : OutputForm)) :=
    (tag.yields_flag _ _).bind fun _ _ => .ok trivial
  unfold outputForm
  dsimp only
  split
  · exact hform .xml
  · exact hform .html
  · exact hform .text
  · exact tag.yields_problem _

theorem yields_sortKey : Yields (fun _ => True) tag.sortKey := by
  unfold sortKey
  refine (tag.yields_exprIn "select").bind fun select _ => ?_
  dsimp only
  split
  case h_3 => exact tag.yields_problem _
  -- the type is read alike for both orders
  all_goals
    refine Yields.bind (P := fun _ => True) (.ok trivial) fun order _ => ?_
    split
    · exact .ok trivial
    · exact .ok trivial
    · exact tag.yields_problem _

end StyleTag

end Restyle
