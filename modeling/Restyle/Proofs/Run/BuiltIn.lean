import Mathlib
import Restyle.Proofs.Document.Height
import Restyle.Proofs.Document.Texts
import Restyle.Proofs.Result.Encoding
import Restyle.Proofs.Run.Frames
import Restyle.Proofs.Run.Outside
import Restyle.Proofs.Run.Shown

/-!
# Restyle.Proofs.Run.BuiltIn

What a run writes without any rule.

The built-in rules go down to every text node and write it, one level deeper for the root and for
each element on the way, be there anything in the element or not.  If there are enough levels for
the height of the document and one more for the root, the texts are written one after another and
make one event, the string value of the root; if there are not, the run fails at the first element
that lies too deep.

* `Event.kept_texts` — texts written one after another are kept as one;
* `Job.shown_applyTo_of_levels_le`, `Job.result_applyTo_of_lt_levels` — with enough levels for a node,
  and without;
* `Job.builtIn_writes_text` — the main result.
-/

namespace Restyle

/-! ## Texts one after another -/

namespace Event

theorem placedAfter_texts (inTag : Bool) (texts : List String) :
    placedAfter inTag (texts.map .text) = true := by
  induction texts generalizing inTag with
  | nil => rfl
  | cons content texts ih => exact ih false

theorem joinedThen_texts (texts : List String) : joinedThen [] (texts.map .text) =
    if String.join texts = "" then [] else [.text (String.join texts)] := by
  induction texts with
  | nil => rfl
  | cons content texts ih =>
    change join (.text content) (joinedThen [] (texts.map .text)) = _
    rw [ih, String.join_cons, join]
    by_cases hcontent : content = ""
    · simp [hcontent]
    · by_cases hlater : String.join texts = "" <;>
        simp [hcontent, hlater, joinText, String.append_eq_empty_iff]

theorem kept_texts (texts : List String) : kept (texts.map .text) =
    if String.join texts = "" then [] else [.text (String.join texts)] := by
  rw [kept_eq_joined (placedAfter_texts _ texts), joinedThen_texts]

end Event

/-! ## No rule at all -/

namespace Job

variable {job : Job} {mode : Option String} {s : State}

/-- The root and elements lead to their children. -/
theorem shown_builtIn_children (enter : Entry → Action Unit) {node : Node}
    (h : node.MayHaveChildren) : ((builtIn enter mode node).run s).shown =
      ((enter (.children node mode)).run s).shown := by
  obtain hkind | hkind := h <;> (unfold builtIn; rw [hkind]; rfl)

/-- Of what leads nowhere, texts are written. -/
theorem shown_builtIn_leaf (enter : Entry → Action Unit) {node : Node} (h : ¬node.MayHaveChildren)
    (hattr : node.kind ≠ .attr) :
    ((builtIn enter mode node).run s).shown = (.ok (), node.texts.map .text) := by
  unfold builtIn
  cases hkind : node.kind with
  | root => exact absurd (.inl hkind) h
  | element => exact absurd (.inr hkind) h
  | attr => exact absurd hkind hattr
  | text =>
    rw [Node.texts, if_pos hkind]
    exact Action.shown_report [.text node.stringValue] s
  | comment | instruction =>
    have htext : node.kind ≠ .text := by simp [hkind]
    rw [Node.texts_eq_flatMap htext, Node.children_eq_nil h]
    rfl

section NoRules

variable (hnone : job.stylesheet.rules.inMode mode = [])

include hnone

theorem shown_applyTo_builtIn (enter : Entry → Action Unit) (passed : Scope) (focus : Focus) :
    ((job.applyTo enter mode passed focus).run s).shown =
      ((builtIn enter mode focus.node).run s).shown := by
  refine shown_builtIn passed ?_
  rw [Rules.find?, hnone]
  rfl

theorem shown_applyTo_children (enter : Entry → Action Unit) (passed : Scope) {focus : Focus}
    (h : focus.node.MayHaveChildren) :
    ((job.applyTo enter mode passed focus).run s).shown =
      ((enter (.children focus.node mode)).run s).shown := by
  rw [shown_applyTo_builtIn hnone, shown_builtIn_children _ h]

/-- With enough levels left for a node, the texts in it are written. -/
theorem shown_applyTo_of_levels_le (left : Nat) {focus : Focus} (passed : Scope)
    (hkind : focus.node.kind ≠ .attr) (hleft : s.depth + left = job.settings.maxDepth)
    (hlevels : focus.node.levels ≤ left) :
    ((job.applyTo (job.enterAt left) mode passed focus).run s).shown =
      (.ok (), focus.node.texts.map .text) := by
  induction left generalizing focus s passed with
  | zero =>
    have hinner : ¬focus.node.MayHaveChildren := by
      rw [← Node.levels_pos_iff]
      omega
    rw [shown_applyTo_builtIn hnone, shown_builtIn_leaf _ hinner hkind]
  | succ left ih =>
    by_cases hinner : focus.node.MayHaveChildren
    · have hdepth : ¬job.settings.maxDepth ≤ s.depth := by omega
      have hchildren := (Node.levels_le_succ_iff hinner).1 hlevels
      rw [shown_applyTo_children hnone _ passed hinner, shown_children left focus.node mode hdepth,
        Node.texts_eq_flatMap hinner.kind_ne, List.map_flatMap]
      refine shown_handled (job.enterAt_restores left) fun below hbelow => ?_
      have hopened : s.enter.depth = s.depth + 1 := rfl
      exact ih [] (Node.kind_ne_of_mem_children hbelow) (by omega) (hchildren below.node hbelow)
    · rw [shown_applyTo_builtIn hnone, shown_builtIn_leaf _ hinner hkind]

/-- Without enough levels left for a node, the run goes too deep. -/
theorem result_applyTo_of_lt_levels (left : Nat) {focus : Focus} (passed : Scope)
    (hleft : s.depth + left = job.settings.maxDepth) (hlevels : left < focus.node.levels) :
    ((job.applyTo (job.enterAt left) mode passed focus).run s).result =
      .error (.tooDeep job.settings.maxDepth) := by
  induction left generalizing focus s passed with
  | zero =>
    have hinner : focus.node.MayHaveChildren := Node.levels_pos_iff.1 hlevels
    exact congrArg Prod.fst (shown_applyTo_children hnone (job.enterAt 0) passed hinner)
  | succ left ih =>
    have hinner : focus.node.MayHaveChildren := Node.levels_pos_iff.1 (by omega)
    have hdepth : ¬job.settings.maxDepth ≤ s.depth := by omega
    have hopened : s.enter.depth = s.depth + 1 := rfl
    have hchildren := (shown_applyTo_children hnone (job.enterAt (left + 1)) passed hinner).trans
      (shown_children left focus.node mode hdepth)
    refine (congrArg Prod.fst hchildren).trans ?_
    refine Action.result_forM_of_exists (restores_applyTo (job.enterAt_restores left) mode [])
      (fun below hbelow => ?_) ?_
    · by_cases hbelowLevels : below.node.levels ≤ left
      · have hkind := Node.kind_ne_of_mem_children (Focus.node_mem hbelow)
        exact .inl (congrArg Prod.fst
          (shown_applyTo_of_levels_le hnone left [] hkind (by omega) hbelowLevels))
      · exact .inr (ih [] (by omega) (by omega))
    · obtain ⟨c, hc, hlevels⟩ := (Node.succ_lt_levels_iff hinner).1 hlevels
      obtain ⟨below, hbelow, rfl⟩ := Focus.exists_mem_among hc
      exact ⟨below, hbelow, ih [] (by omega) hlevels⟩

end NoRules

/-- **Without rules the text of the document is written.**  Where no rule is for the default mode and
nothing is bound for the whole stylesheet, a run succeeds just if the limit is above the largest number
of elements that lie in each other, whatever values are given from outside.  Then all that is written
is the string value of the root, which joins the text nodes in document order; else the run fails for
going too deep. -/
theorem builtIn_writes_text (job : Job) (hrules : job.stylesheet.rules.inMode none = [])
    (hglobals : job.stylesheet.globals = []) (params : Scope) :
    IsGreatest {n | ∃ node, job.document.Holds node ∧ node.elements = n} job.document.height ∧
    job.document.root.stringValue =
      String.join ((Node.textNodes job.document.nodes).map Node.stringValue) ∧
    (job.document.height + 1 ≤ job.settings.maxDepth → job.events params = .ok
      (if job.document.root.stringValue = "" then [] else [.text job.document.root.stringValue])) ∧
    (job.settings.maxDepth ≤ job.document.height →
      job.events params = .error (.tooDeep job.settings.maxDepth)) := by
  let opened := State.initial.update Environment.openFrame
  have hmain := shown_main hglobals params
  have hdepth : opened.depth + job.settings.maxDepth = job.settings.maxDepth := Nat.zero_add _
  have hlevels : job.rootFocus.node.levels = 1 + job.document.height := rfl
  have hkind : job.rootFocus.node.kind ≠ .attr := nofun
  refine ⟨job.document.isGreatest_height, job.document.stringValue_root, fun hlimit => ?_,
    fun hlimit => ?_⟩
  · have hroot := shown_applyTo_of_levels_le hrules job.settings.maxDepth params hkind hdepth
      (by omega)
    have hjoin : job.document.root.stringValue = String.join job.rootFocus.node.texts := rfl
    rw [events_eq_kept (hmain.trans hroot), Event.kept_texts, hjoin]
  · have hdeep : job.settings.maxDepth < job.rootFocus.node.levels := by omega
    have hroot := result_applyTo_of_lt_levels hrules job.settings.maxDepth params hdepth hdeep
    exact events_eq_error ((congrArg Prod.fst hmain).trans hroot)

/-- A document with texts in elements that lie in each other, and on both sides of a comment. -/
def layered : Document where
  children := [.element ⟨none, "a"⟩ []
    [.text "one", .element ⟨none, "b"⟩ [] [.text "two", .element ⟨none, "c"⟩ [] [.text "three"]],
      .comment " skip ", .text "four"]]

/-- The empty stylesheet writes the text of the document with four levels, and fails with three. -/
theorem builtIn_writes_text_layered :
    ∃ empty, Stylesheet.ofEvents [languageStart "stylesheet" [], .stop] = .ok empty ∧
      empty.rules.inMode none = [] ∧ empty.globals = [] ∧ layered.height = 3 ∧
      Job.events ⟨empty, layered, ⟨4, true⟩⟩ [("x", .boolean true)] =
        .ok [.text "onetwothreefour"] ∧
      Job.events ⟨empty, layered, ⟨3, true⟩⟩ [] = .error (.tooDeep 3) := by
  have hempty : Stylesheet.ofEvents [languageStart "stylesheet" [], .stop] =
      .ok ⟨.empty, [], .standard⟩ := by cbv
  have hheight : layered.height = 3 := by cbv
  have hvalue : layered.root.stringValue = "onetwothreefour" := by cbv
  let job (limit : Nat) : Job := ⟨⟨.empty, [], .standard⟩, layered, ⟨limit, true⟩⟩
  have henough : layered.height + 1 ≤ 4 := Nat.le_of_eq (congrArg (· + 1) hheight)
  have hlacking : 3 ≤ layered.height := Nat.le_of_eq hheight.symm
  obtain ⟨-, -, hwrites, -⟩ := (job 4).builtIn_writes_text rfl rfl [("x", .boolean true)]
  obtain ⟨-, -, -, hfails⟩ := (job 3).builtIn_writes_text rfl rfl []
  refine ⟨_, hempty, rfl, rfl, hheight, (hwrites henough).trans ?_, hfails hlacking⟩
  change Except.ok (if layered.root.stringValue = "" then [] else _) = _
  rw [hvalue]
  rfl

end Job

end Restyle
