import Restyle.Proofs.Stylesheet.Soundness

/-!
# Restyle.Proofs.Stylesheet.WellFormed

The stylesheets that are made, and the runs that make them.

A run over what is met opens and closes constructs just as elements are opened and closed, up to the
first failure.

* `StyleEvent.openAfter`, `StyleEvent.WellNested` — the elements that are open in what is met;
* `Assembly.Sound.foldlM_meet` — a run keeps the invariant;
* `Stylesheet.wellFormed_of_ofEvents` — a stylesheet that is made is well-formed;
* `Stylesheet.wellNested_steps` — what is well-nested is never a reason for an internal failure.
-/

namespace Restyle

/-! ## Runs -/

namespace StyleEvent

/-- How many elements are open after what is met, where `n` are open before it.  There is no answer
if there is an end tag where no element is open. -/
def openAfter (n : Nat) : List StyleEvent → Option Nat
  | [] => some n
  | .start _ :: events => openAfter (n + 1) events
  | .text .. :: events => openAfter n events
  | .stop :: events =>
    match n with
    | 0 => none
    | n + 1 => openAfter n events

/-- Whether each start tag has its end tag, and there are no other end tags. -/
def WellNested (events : List StyleEvent) : Prop := openAfter 0 events = some 0

theorem openAfter_append (n : Nat) (before after : List StyleEvent) :
    openAfter n (before ++ after) = (openAfter n before).bind fun m => openAfter m after := by
  fun_induction openAfter n before with
  | case1 n => rfl
  | case2 n tag before ih => exact ih
  | case3 n content place before ih => exact ih
  | case4 before => rfl
  | case5 n before ih => exact ih

end StyleEvent

namespace Assembly

open StyleEvent (openAfter)

variable {a : Assembly}

/-- What is met opens and closes constructs as it opens and closes elements. -/
theorem Sound.meet (h : a.Sound) {n m : Nat} (hopened : a.opened.length = n + 1)
    {event : StyleEvent} (hafter : openAfter n [event] = some m) :
    Yields (Reaches (m + 1)) (a.meet event) := by
  cases event with
  | start tag =>
      obtain rfl := Option.some.inj hafter
      have hstart := h.start tag
      rwa [hopened] at hstart
  | text content place =>
      obtain rfl := Option.some.inj hafter
      have htext := h.text content place
      rwa [hopened] at htext
  | stop =>
      cases n with
      | zero => cases hafter
      | succ n =>
          obtain rfl := Option.some.inj hafter
          exact h.stop hopened

/-- So does all that is met, up to the first failure. -/
theorem Sound.foldlM_meet (h : a.Sound) {n m : Nat} (hopened : a.opened.length = n + 1)
    {events : List StyleEvent} (hafter : openAfter n events = some m) :
    Yields (Reaches (m + 1)) (events.foldlM Assembly.meet a) := by
  induction events generalizing a n with
  | nil =>
      obtain rfl := Option.some.inj hafter
      exact .ok ⟨h, hopened⟩
  | cons event events ih =>
      rw [← List.singleton_append, StyleEvent.openAfter_append] at hafter
      obtain ⟨k, hevent, hevents⟩ := Option.bind_eq_some_iff.1 hafter
      rw [List.foldlM_cons]
      exact (h.meet hopened hevent).bind fun next hnext => ih hnext.1 hnext.2 hevents

/-- Whatever is met without a failure, no end tag in it is stray. -/
theorem Sound.exists_openAfter (h : a.Sound) {n : Nat} (hopened : a.opened.length = n + 1)
    {events : List StyleEvent} {a' : Assembly} (hmet : events.foldlM Assembly.meet a = .ok a') :
    ∃ m, openAfter n events = some m := by
  induction events generalizing a n with
  | nil => exact ⟨n, rfl⟩
  | cons event events ih =>
      rw [List.foldlM_cons] at hmet
      obtain ⟨next, hnext, hmet⟩ := bind_eq_ok.1 hmet
      have hstep {k : Nat} (hevent : openAfter n [event] = some k) :
          ∃ m, openAfter n (event :: events) = some m := by
        have hreaches := h.meet hopened hevent
        rw [hnext] at hreaches
        obtain ⟨m, hm⟩ := ih hreaches.of_ok.1 hreaches.of_ok.2 hmet
        refine ⟨m, ?_⟩
        rw [← List.singleton_append, StyleEvent.openAfter_append, hevent]
        exact hm
      cases event with
      | start | text => exact hstep rfl
      | stop =>
          cases n with
          | succ n => exact hstep rfl
          | zero =>
              -- only the document is open, and it cannot be closed
              obtain ⟨bottom, outer, hbottom⟩ := h.exists_opened
              have hground := h.grounded
              rw [hbottom] at hopened hground
              obtain rfl := List.length_eq_zero_iff.1 (Nat.succ.inj hopened)
              change a.stop = .ok next at hnext
              unfold Assembly.stop at hnext
              rw [hbottom] at hnext
              dsimp only at hnext
              rw [show bottom.construct = .document from hground] at hnext
              cases hnext

end Assembly

namespace Stylesheet

open StyleEvent (openAfter WellNested)

/-- A stylesheet that is made is well-formed. -/
theorem wellFormed_of_ofEvents {events : List StyleEvent} {stylesheet : Stylesheet}
    (h : Stylesheet.ofEvents events = .ok stylesheet) : stylesheet.WellFormed := by
  obtain ⟨a, hmet, hfinish⟩ := bind_eq_ok.1 h
  obtain ⟨m, hafter⟩ := Assembly.sound_empty.exists_openAfter rfl hmet
  have hreaches := Assembly.sound_empty.foldlM_meet rfl hafter
  rw [hmet] at hreaches
  unfold Assembly.finish at hfinish
  split at hfinish
  · obtain rfl := Except.ok.inj hfinish
    exact hreaches.of_ok.1.made
  · cases hfinish

/-- **Nothing well-nested fails for an internal reason.**  Of what is well-nested, take as much as is
met without a failure.  Then two lists of the same length are kept, for the elements that are open
and the document around them; what is met next, if it fails, fails for no internal reason.  If all
is met without a failure, a stylesheet is made, and it is well-formed. -/
theorem wellNested_steps {events : List StyleEvent} (h : WellNested events) :
    (∀ before after a, before ++ after = events → before.foldlM Assembly.meet .empty = .ok a →
      ∃ n, openAfter 0 before = some n ∧ a.opened.length = 1 + n ∧ a.bodies.length = 1 + n ∧
        a.opened.getLast?.map OpenConstruct.construct = some .document ∧
        ∀ event rest failure, after = event :: rest → a.meet event = .error failure →
          failure.kind ≠ .internal) ∧
    ∀ a, events.foldlM Assembly.meet .empty = .ok a →
      ∃ stylesheet, a.finish = .ok stylesheet ∧ stylesheet.WellFormed := by
  constructor
  · rintro before after a rfl hmet
    have hafter := StyleEvent.openAfter_append 0 before after
    rw [h] at hafter
    obtain ⟨n, hbefore, hrest⟩ := Option.bind_eq_some_iff.1 hafter.symm
    have hreaches := Assembly.sound_empty.foldlM_meet rfl hbefore
    rw [hmet] at hreaches
    obtain ⟨hsound, hopened⟩ := hreaches.of_ok
    refine ⟨n, hbefore, hopened.trans (Nat.add_comm n 1),
      hsound.inStep.trans (hopened.trans (Nat.add_comm n 1)), hsound.grounded.getLast?, ?_⟩
    rintro event rest failure rfl hfails
    rw [← List.singleton_append, StyleEvent.openAfter_append] at hrest
    obtain ⟨m, hevent, -⟩ := Option.bind_eq_some_iff.1 hrest
    have hyields := hsound.meet hopened hevent
    rw [hfails] at hyields
    exact hyields.of_error
  · intro a hmet
    have hreaches := Assembly.sound_empty.foldlM_meet rfl h
    rw [hmet] at hreaches
    obtain ⟨hsound, hopened⟩ := hreaches.of_ok
    exact ⟨_, if_pos hopened, hsound.made⟩

/-- A stylesheet with a named template in which there is a choice. -/
def choosing : List StyleEvent :=
  [.start ⟨.language "stylesheet", [], [], ⟨1, 1⟩⟩,
    .start ⟨.language "template", [⟨⟨none, "name"⟩, "main"⟩], [], ⟨2, 1⟩⟩,
    .start ⟨.language "choose", [], [], ⟨3, 1⟩⟩,
    .start ⟨.language "when", [⟨⟨none, "test"⟩, "'a'"⟩], [], ⟨4, 1⟩⟩, .text "one" ⟨4, 20⟩,
    .stop, .stop, .stop, .stop]

theorem wellNested_steps_choosing : WellNested choosing ∧
    ∃ a stylesheet, choosing.foldlM Assembly.meet .empty = .ok a ∧ a.finish = .ok stylesheet ∧
      stylesheet.WellFormed := by
  have hnested : WellNested choosing := rfl
  have hmet : choosing.foldlM Assembly.meet .empty =
      .ok ⟨[⟨.document, ⟨1, 1⟩⟩], [[]], ⟨[], [("main", ⟨some "main", none, none, none, [],
        [.choose [(.literal "a", [.text "one"])] none]⟩)]⟩, [], .standard⟩ := by cbv
  obtain ⟨stylesheet, hfinish, hwellFormed⟩ := (wellNested_steps hnested).2 _ hmet
  exact ⟨hnested, _, stylesheet, hmet, hfinish, hwellFormed⟩

end Stylesheet

end Restyle
