import Mathlib
import Restyle.Transform
import Restyle.Proofs.Run.Failing
import Restyle.Proofs.Run.Restoration
import Restyle.Proofs.Success

/-!
# Restyle.Proofs.Run.Ending

How a run may end.

A run that succeeds has reported events that nest, and a run that fails does so for a reason that
the stylesheet, the document or the settings account for.  What is kept of events that nest can
always be written, so writing a result adds no failures.

* `Action.EndsBalanced` — where an action succeeds, its events nest;
* `Job.hereditary_endsBalanced`, `Job.main_endsBalanced` — from the parts of a run to the whole;
* `Job.MayFail.kind_ne` — such a failure is neither internal nor one of reading;
* `Stylesheet.transform_ends` — the main result.
-/

namespace Restyle

namespace Action

variable {α β : Type}

/-- Wherever it starts, an action that succeeds has reported balanced events. -/
def EndsBalanced (x : Action α) : Prop :=
  ∀ s a, (x.run s).result = .ok a → Event.Balanced (x.run s).report.toList

/-! ## The parts of a run -/

theorem endsBalanced_silent {x : Action α} (h : ∀ s, (x.run s).report = .empty) :
    x.EndsBalanced := by
  intro s a _
  rw [h s]
  rfl

theorem endsBalanced_report {events : List Event} (h : Event.Balanced events) :
    (Action.report events).EndsBalanced := by
  intro s a _
  change Event.Balanced (Report.part events).toList
  rwa [Report.toList_part]

theorem EndsBalanced.bind {x : Action α} {f : α → Action β} (hx : x.EndsBalanced)
    (hf : ∀ a, (f a).EndsBalanced) : (x >>= f).EndsBalanced := by
  intro s b h
  obtain ⟨a, hfirst, hsecond, hreport⟩ := ok_of_bind h
  rw [hreport, Report.toList_append]
  exact (hx s a hfirst).append (hf a _ b hsecond)

/-- The state that surrounds an action has no part in what it reports. -/
theorem EndsBalanced.between {x : Action α} (hx : x.EndsBalanced)
    (before after : Environment → Environment) : (x.between before after).EndsBalanced :=
  fun s => hx (s.update before)

theorem EndsBalanced.watch {x : Action α} (hx : x.EndsBalanced) (routine : Routine) :
    (x.watch routine).EndsBalanced := hx

theorem EndsBalanced.inLevel {x : Action α} (hx : x.EndsBalanced) (limit : Nat) :
    (x.inLevel limit).EndsBalanced := by
  intro s a h
  by_cases hdepth : limit ≤ s.depth
  · rw [run_inLevel_of_le x hdepth] at h
    cases h
  · rw [run_inLevel_of_not_le x hdepth] at h ⊢
    exact hx s.enter a h

/-- What an action writes inside an element is balanced together with the element. -/
theorem EndsBalanced.inElement {x : Action Unit} (hx : x.EndsBalanced) (name : String) :
    (x.inElement name).EndsBalanced := by
  intro s a h
  obtain ⟨-, -, h, hreport⟩ := ok_of_bind h
  obtain ⟨inner, hinner, -, hreport'⟩ := ok_of_bind h
  unfold Action.inElement
  rw [hreport, Report.toList_append, hreport', Report.toList_append]
  exact (hx s inner hinner).element name

end Action

namespace Job

variable {job : Job}

/-! ## From the parts of a run to the whole -/

theorem hereditary_endsBalanced (job : Job) : job.Hereditary fun x => x.EndsBalanced where
  pure _ := Action.endsBalanced_silent fun _ => rfl
  bind hx hf := hx.bind hf
  fail _ := Action.endsBalanced_silent fun _ => rfl
  eval _ _ := Action.endsBalanced_silent fun _ => rfl
  ruleFor _ _ := Action.endsBalanced_silent fun _ => rfl
  report h := Action.endsBalanced_report h
  inElement name hx := hx.inElement name
  bindName _ _ := Action.endsBalanced_silent fun _ => rfl
  inScope hx := (hx.between _ _).watch _
  text _ := Action.endsBalanced_silent fun _ => rfl
  watch routine hx _ _ := hx.watch routine

theorem main_endsBalanced (job : Job) (params : Scope) : (job.main params).EndsBalanced :=
  job.hereditary_endsBalanced.main (fun before after hx => hx.between before after)
    (fun hx => hx.inLevel _) (fun _ => Action.endsBalanced_silent fun _ => rfl) params

/-! ## Results -/

/-- The events of a result nest, and their attributes are in place. -/
theorem events_ok {params : Scope} {events : List Event} (h : job.events params = .ok events) :
    Event.Balanced events ∧ Event.AttributesPlaced events := by
  obtain ⟨a, hresult, rfl⟩ := map_eq_ok.1 h
  have hbalanced := job.main_endsBalanced params .initial a hresult
  exact ⟨Event.balanced_kept hbalanced, Event.attributesPlaced_kept _⟩

theorem events_error {params : Scope} {failure : Failure} (h : job.events params = .error failure) :
    job.MayFail failure :=
  job.main_mayFail params .initial failure (map_eq_error.1 h)

/-- The failures of a run are neither internal nor failures of reading. -/
theorem MayFail.kind_ne {failure : Failure} (h : job.MayFail failure) :
    failure.kind ≠ .internal ∧ failure.kind ≠ .stylesheetParse ∧
      failure.kind ≠ .expressionSyntax ∧ failure.kind ≠ .documentParse := by
  cases h <;> exact ⟨nofun, nofun, nofun, nofun⟩

end Job

namespace Stylesheet

section Readable

variable {stylesheet : Stylesheet} {settings : Settings} {params : Parameters} {source : String}
  {document : Document} (hsource : Document.ofText? source = some document)

include hsource

theorem events_eq : stylesheet.events settings params source =
    Job.events ⟨stylesheet, document, settings⟩ params.scope := by
  unfold Stylesheet.events
  rw [hsource]

/-- Writing a result adds no failures to those of the run. -/
theorem mayFail_of_transform {failure : Failure}
    (h : stylesheet.transform settings params source = .error failure) :
    Job.MayFail ⟨stylesheet, document, settings⟩ failure := by
  unfold Stylesheet.transform at h
  rw [events_eq hsource] at h
  obtain hrun | ⟨events, hevents, hwritten⟩ := bind_eq_error.1 h
  · exact Job.events_error hrun
  · obtain ⟨hbalanced, hplaced⟩ := Job.events_ok hevents
    obtain ⟨text, htext⟩ := Written.result_eq_ok hbalanced hplaced stylesheet.output
    rw [htext] at hwritten
    cases hwritten

end Readable

/-- **How a transformation ends.**  For a document that can be read, the events of a result nest and
have their attributes in place, so they can be written in every form; and a transformation fails
only as a run may fail, which is neither an internal failure nor one of reading. -/
theorem transform_ends (stylesheet : Stylesheet) (settings : Settings) (params : Parameters)
    (source : String) (document : Document) (hsource : Document.ofText? source = some document) :
    (∀ events, stylesheet.events settings params source = .ok events →
      Event.Balanced events ∧ Event.AttributesPlaced events ∧
        ∀ form, ∃ text, Written.result form events = .ok text) ∧
    ∀ failure, stylesheet.transform settings params source = .error failure →
      Job.MayFail ⟨stylesheet, document, settings⟩ failure ∧
        failure.kind ≠ .internal ∧ failure.kind ≠ .stylesheetParse ∧
          failure.kind ≠ .expressionSyntax ∧ failure.kind ≠ .documentParse := by
  constructor
  · intro events h
    rw [events_eq hsource] at h
    obtain ⟨hbalanced, hplaced⟩ := Job.events_ok h
    exact ⟨hbalanced, hplaced, Written.result_eq_ok hbalanced hplaced⟩
  · intro failure h
    have hfails := mayFail_of_transform hsource h
    exact ⟨hfails, hfails.kind_ne⟩

/-- A stylesheet that writes an element around a copy of the document. -/
def wrapping : Stylesheet where
  rules :=
    { ranked := [⟨⟨true, []⟩, none, .zero false, 0,
        ⟨none, none, none, none, [], [.literal ⟨none, "r"⟩ [] [] [.copyOf .contextNode]]⟩⟩]
      named := [] }
  globals := []
  output := .standard

/-- A run of `wrapping` that succeeds, and one for which no level may be opened. -/
theorem transform_ends_wrapping :
    Event.Balanced [.start "r", .start "a", .stop, .stop] ∧
      (∃ text, Written.result ⟨.html, false⟩ [.start "r", .start "a", .stop, .stop] = .ok text) ∧
        (Failure.tooDeep 0).kind ≠ .internal := by
  have hsource : Document.ofText? "<a/>" = some ⟨[.element ⟨none, "a"⟩ [] []]⟩ := by cbv
  have hevents : wrapping.events .standard [] "<a/>" =
      .ok [.start "r", .start "a", .stop, .stop] := by
    unfold Stylesheet.events
    rw [hsource]
    cbv
  have hdeep : wrapping.transform ⟨0, false⟩ [] "<a/>" = .error (.tooDeep 0) := by
    unfold Stylesheet.transform Stylesheet.events
    rw [hsource]
    cbv
  have hends := (transform_ends wrapping .standard [] "<a/>" _ hsource).1 _ hevents
  exact ⟨hends.1, hends.2.2 ⟨.html, false⟩,
    ((transform_ends wrapping ⟨0, false⟩ [] "<a/>" _ hsource).2 _ hdeep).2.1⟩

end Stylesheet

end Restyle
