import Mathlib
import Restyle.Transform
import Restyle.Proofs.Run.Hereditary

/-!
# Restyle.Proofs.Run.Limits

Runs of one job under two limits.

A run asks for the limit only where it opens a level, and nothing catches the failure there.  So a
run under the lower limit fails at it, or the run under the higher limit does the very same: the
same result, the same events and the same states on the way.

* `Action.SameUnless` — two actions do the same, unless the first one fails in one way;
* `Job.compositional_sameUnless` — it passes from the parts of a run to the whole;
* `Job.enterAt_sameUnless` — and so from level to level;
* `Stylesheet.same_below_limit` — the main result.
-/

namespace Restyle

/-- Something failed because there were to be more levels than there may be. -/
def WentTooDeep {α : Type} (result : Except Failure α) : Prop :=
  ∃ limit, result = .error (.tooDeep limit)

namespace Action

/-- Wherever they start, an action fails in one way, or another one does the same. -/
def SameUnless (failure : Failure) {α : Type} (x y : Action α) : Prop :=
  ∀ s, (x.run s).result = .error failure ∨ y.run s = x.run s

variable {failure : Failure} {α β : Type}

/-! ## The parts of a run -/

theorem sameUnless_refl (x : Action α) : SameUnless failure x x := fun _ => .inr rfl

theorem SameUnless.bind {x y : Action α} {f g : α → Action β} (h : SameUnless failure x y)
    (hfg : ∀ a, SameUnless failure (f a) (g a)) : SameUnless failure (x >>= f) (y >>= g) := by
  intro s
  rcases h s with hfirst | hfirst
  · left
    rw [run_bind_of_error f hfirst]
  · cases hx : (x.run s).result with
    | error other =>
        right
        rw [run_bind_of_error f hx, run_bind_of_error g (hfirst ▸ hx), hfirst]
    | ok a =>
        rw [run_bind_of_ok f hx, run_bind_of_ok g (hfirst ▸ hx), hfirst]
        rcases hfg a (x.run s).state with hsecond | hsecond
        · exact .inl hsecond
        · right
          rw [hsecond]

theorem SameUnless.between {x y : Action α} (h : SameUnless failure x y)
    (before after : Environment → Environment) :
    SameUnless failure (x.between before after) (y.between before after) := by
  intro s
  rcases h (s.update before) with hx | hx
  · exact .inl hx
  · right
    unfold Action.run at hx
    simp only [Action.run, Action.between, hx]

theorem SameUnless.watch {x y : Action α} (h : SameUnless failure x y) (routine : Routine) :
    SameUnless failure (x.watch routine) (y.watch routine) := by
  intro s
  rcases h s with hx | hx
  · exact .inl hx
  · right
    unfold Action.run at hx
    simp only [Action.run, Action.watch, hx]

theorem SameUnless.text {x y : Action Unit} (h : SameUnless failure x y) :
    SameUnless failure x.text y.text := by
  intro s
  rcases h s with hx | hx
  · left
    change (x.run s).result.map _ = _
    rw [hx]
    rfl
  · right
    unfold Action.run at hx
    simp only [Action.run, Action.text, hx]

theorem SameUnless.inElement {x y : Action Unit} (h : SameUnless failure x y) (name : String) :
    SameUnless failure (x.inElement name) (y.inElement name) :=
  (sameUnless_refl _).bind fun _ => h.bind fun _ => sameUnless_refl _

/-- Under the higher limit a level is opened wherever it is opened under the lower one. -/
theorem SameUnless.inLevel {low high : Nat} (hle : low ≤ high) {x y : Action α}
    (h : SameUnless (.tooDeep low) x y) :
    SameUnless (.tooDeep low) (x.inLevel low) (y.inLevel high) := by
  intro s
  by_cases hdepth : low ≤ s.depth
  · left
    rw [run_inLevel_of_le x hdepth]
    rfl
  · by_cases hdepth' : high ≤ s.depth
    · exact absurd (Nat.le_trans hle hdepth') hdepth
    · rw [run_inLevel_of_not_le x hdepth, run_inLevel_of_not_le y hdepth']
      rcases h s.enter with hx | hx
      · exact .inl hx
      · right
        rw [hx]

end Action

namespace Job

/-! ## From the parts of a run to the whole -/

variable (job : Job)

/-- A number for each of two runs. -/
def ofRun (first second : Nat) : Bool → Nat
  | false => first
  | true => second

theorem compositional_sameUnless (failure : Failure) (enter : Bool → Entry → Action Unit) :
    job.Compositional enter (fun _ => True)
      fun _ x => Action.SameUnless failure (x false) (x true) where
  pure _ _ _ := Action.sameUnless_refl _
  bind hx hf := hx.bind fun a => hf a (Yield.holds_true _ a)
  fail _ := Action.sameUnless_refl _
  string _ := trivial
  eval _ _ := Action.sameUnless_refl _
  ruleFor _ _ := Action.sameUnless_refl _
  report _ := Action.sameUnless_refl _
  inElement name hx := hx.inElement name
  bindName _ _ _ := Action.sameUnless_refl _
  inScope hx := (hx.between _ _).watch _
  text hx := hx.text
  watch routine hx _ _ _ := hx.watch routine

variable {low high : Nat} (hle : low ≤ high)

include hle

/-- Where more levels are left under the higher limit than under the lower one, an entry does the
same under both, unless it fails at the lower one. -/
theorem enterAt_sameUnless (levels : Nat) {levels' : Nat} (hlevels : levels ≤ levels')
    (entry : Entry) :
    Action.SameUnless (.tooDeep low) ((job.limited low).enterAt levels entry)
      ((job.limited high).enterAt levels' entry) := by
  induction levels generalizing levels' entry with
  | zero => exact fun _ => .inl rfl
  | succ left ih =>
      obtain ⟨left', rfl⟩ : ∃ left', levels' = left' + 1 := ⟨levels' - 1, by omega⟩
      have h := job.compositional_sameUnless (.tooDeep low) fun i =>
        (job.limited (ofRun low high i)).enterAt (ofRun left left' i)
      have henter (entry : Entry) := ih (by omega : left ≤ left') entry
      cases entry with
      | template template focus passed =>
          exact ((h.inside (ofRun low high) (fun entry _ => henter entry) template focus
            fun _ _ => trivial).between _ _).inLevel hle
      | children node mode =>
          exact (h.applyAll (ofRun low high) (fun entry _ => henter entry) mode
            (fun _ _ => trivial) node.children).inLevel hle

theorem main_sameUnless (params : Scope) :
    Action.SameUnless (.tooDeep low) ((job.limited low).main params)
      ((job.limited high).main params) := by
  have h := job.compositional_sameUnless (.tooDeep low) fun i =>
    (job.limited (ofRun low high i)).enter
  have henter (entry : Entry) := job.enterAt_sameUnless hle low hle entry
  exact h.main (ofRun low high) (fun entry _ => henter entry) (Action.sameUnless_refl _)
    (fun hx => hx.between _ _) (fun _ _ _ => Action.sameUnless_refl _) (fun _ _ => trivial)

/-- Whichever way it is looked at, a run under the lower limit goes too deep or ends as under the
higher one. -/
theorem events_same (params : Scope) :
    (job.limited low).events params = .error (.tooDeep low) ∨
      (job.limited high).events params = (job.limited low).events params := by
  unfold events
  rcases job.main_sameUnless hle params .initial with hrun | hrun
  · left
    dsimp only
    rw [hrun]
    rfl
  · right
    rw [hrun]

end Job

namespace Stylesheet

variable (stylesheet : Stylesheet) (strict : Bool)

section Limits

variable {low high : Nat} (hle : low ≤ high)

include hle

theorem events_same (params : Parameters) (source : String) :
    stylesheet.events ⟨low, strict⟩ params source = .error (.tooDeep low) ∨
      stylesheet.events ⟨high, strict⟩ params source =
        stylesheet.events ⟨low, strict⟩ params source := by
  unfold Stylesheet.events
  cases Document.ofText? source with
  | none => exact .inr rfl
  | some document =>
      exact Job.events_same ⟨stylesheet, document, ⟨low, strict⟩⟩ hle params.scope

theorem transform_same (params : Parameters) (source : String) :
    stylesheet.transform ⟨low, strict⟩ params source = .error (.tooDeep low) ∨
      stylesheet.transform ⟨high, strict⟩ params source =
        stylesheet.transform ⟨low, strict⟩ params source := by
  unfold Stylesheet.transform
  rcases stylesheet.events_same strict hle params source with hevents | hevents
  · left
    rw [hevents]
    rfl
  · right
    rw [hevents]

end Limits

/-- A stylesheet that writes an element around what becomes of the content of the document. -/
def around : Stylesheet where
  rules :=
    { ranked := [⟨⟨true, []⟩, none, .zero false, 0,
        ⟨none, none, none, none, [],
          [.literal ⟨none, "r"⟩ [] [] [.applyTemplates none none [] []]]⟩⟩]
      named := [] }
  globals := []
  output := .standard

end Stylesheet

end Restyle
