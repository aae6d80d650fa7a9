import Mathlib
import Restyle.Proofs.Document.Ascending
import Restyle.Proofs.Pattern.EveryNode
import Restyle.Proofs.Result.Encoding
import Restyle.Proofs.Run.Outside
import Restyle.Proofs.Run.Shown

/-!
# Restyle.Proofs.Run.Copying

The rule that copies one node at a time, and the copy of everything at once.

The first one meets the root by the built-in rule, and every other node by the template of the
rule, which writes the node and goes on to its attributes and then to its children.  Each of them is
handled one level deeper than the node it belongs to, so a document whose nodes lie less deep than
the limit is gone through to its end.  What is reported on the way are the events for a copy of the
root, in the order in which they are reported all at once by the second one.

* `Node.events_of_element` — the events for an element and for what is right below it;
* `Job.shown_identity` — what is shown where the rule handles a node;
* `Stylesheet.ofEvents_identityRule`, `Stylesheet.ofEvents_deepCopyRule` — the two stylesheets;
* `Job.identity_copies` — the main result.
-/

namespace Restyle

/-! ## What is right below a node -/

namespace Node

theorem flatMap_events_childrenFrom (parent : Node) (index order : Nat) (trees : List Tree) :
    (childrenFrom parent index order trees).flatMap events = Tree.forestEvents trees := by
  induction trees generalizing index order with
  | nil => rw [Tree.forestEvents]; rfl
  | cons tree trees ih => rw [childrenFrom, List.flatMap_cons, ih, Tree.forestEvents]; rfl

theorem flatMap_events_attributes (node : Node) :
    node.attributes.flatMap events = node.held.map Attribute.event := by
  unfold attributes
  generalize node.held = held
  suffices h : ∀ f : Nat → Attribute → Node, (∀ i attr, (f i attr).events = [attr.event]) →
      (held.mapIdx f).flatMap events = held.map Attribute.event from h _ fun _ _ => rfl
  induction held with
  | nil => exact fun _ _ => rfl
  | cons attr held ih =>
      intro f hf
      rw [List.mapIdx_cons, List.flatMap_cons, hf, ih _ fun i => hf (i + 1)]
      rfl

/-- A node that is an element is written with the events for its attributes and its children inside
it. -/
theorem events_of_element {node : Node} (h : node.kind = .element) :
    node.events = .start node.writtenName ::
      ((node.attributes ++ node.children).flatMap events ++ [.stop]) := by
  have hbelow : (node.attributes ++ node.children).flatMap events =
      node.held.map Attribute.event ++ Tree.forestEvents node.trees := by
    rw [List.flatMap_append, flatMap_events_attributes, children, flatMap_events_childrenFrom]
  rw [hbelow]
  cases node with
  | root document | attr parent index content => cases h
  | child parent index order tree =>
      cases tree with
      | text content | comment content | instruction target content => cases h
      | element name attributes children =>
          change Tree.events _ = _
          rw [Tree.events, List.append_assoc]
          rfl

/-- What is right below a node lies one step deeper than the node and is no root. -/
theorem of_mem_below {document : Document} {node below : Node} (h : document.Holds node)
    (hbelow : below ∈ node.attributes ++ node.children) :
    document.Holds below ∧ below.kind ≠ .root ∧
      below.ancestors.length = node.ancestors.length + 1 := by
  rcases List.mem_append.1 hbelow with hattr | hchild
  · refine ⟨h.of_mem_attributes hattr, ?_, ?_⟩
    · obtain ⟨i, hi, rfl⟩ := List.mem_mapIdx.1 hattr
      exact nofun
    · rw [ancestors_eq_of_parent (parent_of_mem_attributes hattr), List.length_cons]
  · refine ⟨h.of_mem_children hchild, ?_, ?_⟩
    · obtain ⟨k, tree, -, rfl⟩ := mem_childrenFrom hchild
      exact tree.kind_ne.2
    · rw [ancestors_eq_of_parent (parent_of_mem_children hchild), List.length_cons]

end Node

/-- The attributes and the children of the context node. -/
def Expr.rightBelow : Expr :=
  .binary .union (.path .context [⟨.attr, .any, []⟩]) (.path .context [⟨.child, .node, []⟩])

theorem Expr.eval_step (ctx : Context) (axis : Axis) (test : NodeTest) :
    (Expr.path .context [⟨axis, test, []⟩]).eval ctx =
      .ok (.nodes (Node.inOrder (axis.candidates test ctx.node))) := by
  simp only [Expr.eval, startNodes, followSteps, followStep, narrow, List.mapM_cons, List.mapM_nil,
    bind, Except.bind, pure, Except.pure, List.flatten_cons, List.flatten_nil, List.append_nil]

theorem Expr.eval_rightBelow (ctx : Context) :
    Expr.rightBelow.eval ctx = .ok (.nodes (ctx.node.attributes ++ ctx.node.children)) := by
  have hascending := ctx.node.ascending_below
  have hattr : Axis.candidates .attr .any ctx.node = ctx.node.attributes := by
    refine List.filter_eq_self.2 fun attr hattr => ?_
    obtain ⟨i, hi, rfl⟩ := List.mem_mapIdx.1 hattr
    rfl
  have hchild : Axis.candidates .child .node ctx.node = ctx.node.children :=
    List.filter_eq_self.2 fun _ _ => rfl
  rw [rightBelow, Expr.eval, eval_step, eval_step, hattr, hchild]
  · change Value.union (.nodes _) (.nodes _) = _
    rw [Value.union, Node.inOrder_of_ascending (hascending.sublist (List.sublist_append_left _ _)),
      Node.inOrder_of_ascending (hascending.sublist (List.sublist_append_right _ _)),
      Node.inOrder_of_ascending hascending]
  -- a union is neither of the operators that may leave out their second operand
  · exact BinaryOp.noConfusion
  · exact BinaryOp.noConfusion

/-! ## The rule that copies one node at a time -/

/-- The template that writes a node, and in it what comes of its attributes and children. -/
def Template.identity : Template where
  name := none
  pattern := some .belowRoot
  mode := none
  priority := none
  params := []
  body := [.copy [.applyTemplates (some .rightBelow) none [] []]]

/-- The template that copies everything at once. -/
def Template.deepCopy : Template where
  name := none
  pattern := some ⟨"/", [⟨true, []⟩]⟩
  mode := none
  priority := none
  params := []
  body := [.copyOf (.path .root [])]

namespace Job

variable {job : Job}

section Identity

variable (hdepth : ∀ node, job.document.Holds node →
    node.ancestors.length + 1 ≤ job.settings.maxDepth)
  (honly : job.stylesheet.rules.OnlyTemplate none .identity)

include hdepth honly

/-- Where the rule handles a node with enough levels left, it shows the events for the node. -/
theorem shown_identity (left : Nat) {focus : Focus} {s : State}
    (hheld : job.document.Holds focus.node) (hkind : focus.node.kind ≠ .root)
    (hs : s.depth = focus.node.ancestors.length) (hleft : s.depth + left = job.settings.maxDepth) :
    ((job.applyTo (job.enterAt left) none [] focus).run s).shown =
      (.ok (), focus.node.events) := by
  induction left generalizing focus s with
  | zero => exact absurd (hdepth _ hheld) (by omega)
  | succ left ih =>
      have hlevel : ¬job.settings.maxDepth ≤ s.depth := by omega
      obtain ⟨rule, hrule, hfound⟩ := honly.find?_of_accepts
        (Pattern.belowRoot_tells (job.context focus s.environment) focus.node)
        (Pattern.belowRoot_accepts _ _ hkind)
      let inner := (s.enter.update Environment.openFrame).update Environment.openScope
      rw [shown_applyTo [] hfound, hrule, shown_template rfl left focus [] hlevel]
      refine (shown_performAll_singleton _ _ _ _).trans ?_
      rw [perform]
      cases hnode : focus.node.kind with
      | root => exact absurd hnode hkind
      | text | attr | comment | instruction => exact Action.shown_report _ _
      | element =>
          rw [Node.events_of_element hnode]
          refine Action.shown_inElement ?_ _
          have heval : ((job.eval focus .rightBelow).run
              (inner.update Environment.openScope)).result =
                .ok (.nodes (focus.node.attributes ++ focus.node.children)) :=
            congrArg (Except.mapError Failure.ofExprError) (Expr.eval_rightBelow _)
          refine (Action.shown_inScope _ _).trans ((shown_performAll_singleton _ _ _ _).trans ?_)
          refine (job.shown_applyTemplates heval _ _ _).trans ?_
          refine (Action.shown_bind_of_silent _ (x := job.sorted [] _) rfl
            (job.restores_sorted [] _)).trans ?_
          refine shown_handled (job.enterAt_restores left) fun below hbelow => ?_
          obtain ⟨hheld, hkind, hlength⟩ := Node.of_mem_below hheld hbelow
          have hdepth : (inner.update Environment.openScope).depth = s.depth + 1 := rfl
          exact ih hheld hkind (by omega) (by omega)

/-- With the rule, a run shows the events for the root. -/
theorem shown_main_identity (hglobals : job.stylesheet.globals = []) (params : Scope) :
    ((job.main params).run .initial).shown = (.ok (), job.document.root.events) := by
  have hroot := hdepth _ .root
  obtain ⟨left, hleft⟩ := Nat.exists_eq_add_one_of_ne_zero (Nat.ne_of_gt hroot)
  let opened := State.initial.update Environment.openFrame
  have hnone : job.stylesheet.rules.find? (job.context job.rootFocus opened.environment) none
      job.rootFocus.node = .ok none :=
    honly.find?_of_rejects (Pattern.belowRoot_rejects _ _)
  have hlevel : ¬job.settings.maxDepth ≤ opened.depth := Nat.not_le_of_gt hroot
  rw [shown_main hglobals, shown_builtIn params hnone]
  change ((job.enterAt job.settings.maxDepth (.children job.document.root none)).run
    opened).shown = _
  rw [hleft]
  refine (shown_children left _ _ hlevel).trans ?_
  have hchildren : job.document.root.children.flatMap Node.events = job.document.root.events :=
    Node.flatMap_events_childrenFrom _ _ _ _
  rw [← hchildren]
  refine shown_handled (job.enterAt_restores left) fun child hchild => ?_
  obtain ⟨hheld, hkind, hlength⟩ := Node.of_mem_below .root (List.mem_append_right _ hchild)
  exact job.shown_identity hdepth honly left hheld hkind hlength.symm
    ((Nat.add_comm 1 left).trans hleft.symm)

end Identity

/-- With the template that copies everything at once, a run shows the events for the root. -/
theorem shown_main_deepCopy (hlimit : 0 < job.settings.maxDepth)
    (honly : job.stylesheet.rules.OnlyTemplate none .deepCopy)
    (hglobals : job.stylesheet.globals = []) (params : Scope) :
    ((job.main params).run .initial).shown = (.ok (), job.document.root.events) := by
  obtain ⟨left, s, hmain⟩ := shown_main_rootTemplate hlimit honly rfl rfl hglobals params
  refine hmain.trans ((shown_performAll_singleton _ _ _ _).trans ?_)
  rw [perform]
  have heval : ((job.eval job.rootFocus (.path .root [])).run s).shown =
      (.ok (.nodes [job.document.root]), []) := rfl
  refine (Action.shown_bind_of_silent _ heval (Action.restores_compute _)).trans ?_
  refine (Action.shown_report _ _).trans ?_
  rw [List.flatMap_singleton]

end Job

/-! ## The two stylesheets -/

namespace Stylesheet

open Job (languageStart)

/-- Where one template is open, for which there are rules, these are all that the stylesheet is made
of. -/
theorem ofEvents_template {events : List StyleEvent} {pattern : Option Pattern}
    {place place' : Markup.Place} {hasContent : Bool} {body : List Instruction} {rules : Rules}
    (hinside : events.foldlM Assembly.meet .empty =
      .ok ⟨[⟨.template none pattern none none [] hasContent, place⟩, ⟨.stylesheet, place'⟩,
        ⟨.document, ⟨1, 1⟩⟩], [body, [], []], .empty, [], .standard⟩)
    (hrules : Rules.empty.add ⟨none, pattern, none, none, [], body.reverse⟩ = .ok rules) :
    ofEvents (events ++ [.stop, .stop]) = .ok ⟨rules, [], .standard⟩ := by
  rw [ofEvents, List.foldlM_append, hinside]
  simp only [bind, Except.bind, List.foldlM_cons, List.foldlM_nil, Assembly.meet, Assembly.stop,
    Assembly.close, List.headD_cons, List.tail_cons, hrules, Except.mapError, pure, Except.pure,
    Assembly.finish, List.length_singleton, if_true]

/-- A stylesheet whose only rule is for all nodes but the root: copy the node, and apply templates
to its attributes and children inside. -/
def identityRule : List StyleEvent :=
  [languageStart "stylesheet" [], languageStart "template" [("match", "@*|node()")],
    languageStart "copy" [], languageStart "apply-templates" [("select", "@*|node()")], .stop,
    .stop, .stop, .stop]

/-- A stylesheet whose only rule is for the root: copy the root with all that is below it. -/
def deepCopyRule : List StyleEvent :=
  [languageStart "stylesheet" [], languageStart "template" [("match", "/")],
    languageStart "copy-of" [("select", "/")], .stop, .stop, .stop]

theorem ofEvents_identityRule {rules : Rules} (h : Rules.empty.add .identity = .ok rules) :
    ofEvents identityRule = .ok ⟨rules, [], .standard⟩ := by
  let around : List OpenConstruct := [⟨.template none (some .belowRoot) none none [] true, ⟨1, 1⟩⟩,
    ⟨.stylesheet, ⟨1, 1⟩⟩, ⟨.document, ⟨1, 1⟩⟩]
  let copying : Assembly :=
    ⟨⟨.copy, ⟨1, 1⟩⟩ :: around, [[], [], [], []], .empty, [], .standard⟩
  let tag : StyleTag := ⟨.language "apply-templates", [⟨⟨none, "select"⟩, "@*|node()"⟩], [], ⟨1, 1⟩⟩
  let opening : List StyleEvent := [languageStart "stylesheet" [],
    languageStart "template" [("match", "@*|node()")], languageStart "copy" []]
  let closing : List StyleEvent := [.start tag, .stop, .stop]
  have hcopying : opening.foldlM Assembly.meet .empty = .ok copying := by cbv
  have hselect : tag.exprIn "select" = .ok (some .rightBelow) := by cbv
  have hconstruct : tag.instructionConstruct? "apply-templates" =
      some (.ok (.applyTemplates (some .rightBelow) none [] [])) := by
    unfold StyleTag.instructionConstruct?
    simp only [hselect]
    rfl
  have hstart : copying.start tag =
      .ok (copying.push (.applyTemplates (some .rightBelow) none [] []) ⟨1, 1⟩) :=
    Assembly.start_instruction rfl rfl hconstruct
  have hmeet : copying.meet (.start tag) = copying.start tag := rfl
  have hclosing : closing.foldlM Assembly.meet copying =
      .ok ⟨around, [Template.identity.body, [], []], .empty, [], .standard⟩ := by
    rw [List.foldlM_cons, hmeet, hstart]
    rfl
  have hinside : (opening ++ closing).foldlM Assembly.meet .empty =
      .ok ⟨around, [Template.identity.body, [], []], .empty, [], .standard⟩ := by
    rw [List.foldlM_append]
    exact bind_eq_ok.2 ⟨copying, hcopying, hclosing⟩
  exact ofEvents_template hinside h

theorem ofEvents_deepCopyRule {rules : Rules} (h : Rules.empty.add .deepCopy = .ok rules) :
    ofEvents deepCopyRule = .ok ⟨rules, [], .standard⟩ := by
  have hinside : [languageStart "stylesheet" [], languageStart "template" [("match", "/")],
      languageStart "copy-of" [("select", "/")], .stop].foldlM Assembly.meet .empty =
      .ok ⟨[⟨.template none (some ⟨"/", [⟨true, []⟩]⟩) none none [] true, ⟨1, 1⟩⟩,
        ⟨.stylesheet, ⟨1, 1⟩⟩, ⟨.document, ⟨1, 1⟩⟩], [Template.deepCopy.body, [], []], .empty, [],
        .standard⟩ := by
    cbv
  exact ofEvents_template hinside h

end Stylesheet

namespace Job

theorem events_of_shown {job : Job} {params : Scope}
    (h : ((job.main params).run .initial).shown = (.ok (), job.document.root.events)) :
    job.events params = .ok job.document.encoding := by
  rw [events_eq_kept h, Document.kept_events]

/-- **Copies.**  For every document whose nodes all lie less deep than the limit, strict or not and
with any values from outside, the rule that copies one node at a time and the copy of everything at
once both succeed, and the events of both results are the encoding of the document. -/
theorem identity_copies (document : Document) (settings : Settings) (params : Scope)
    (hdepth : ∀ node, document.Holds node → node.ancestors.length + 1 ≤ settings.maxDepth) :
    ∃ identity deepCopy, Stylesheet.ofEvents Stylesheet.identityRule = .ok identity ∧
      Stylesheet.ofEvents Stylesheet.deepCopyRule = .ok deepCopy ∧
      Job.events ⟨identity, document, settings⟩ params = .ok document.encoding ∧
      Job.events ⟨deepCopy, document, settings⟩ params = .ok document.encoding := by
  obtain ⟨identity, hidentity⟩ := Rules.empty.exists_add .identity rfl
  obtain ⟨deepCopy, hdeepCopy⟩ := Rules.empty.exists_add .deepCopy rfl
  have hlimit : 0 < settings.maxDepth := hdepth _ .root
  refine ⟨⟨identity, [], .standard⟩, ⟨deepCopy, [], .standard⟩,
    Stylesheet.ofEvents_identityRule hidentity, Stylesheet.ofEvents_deepCopyRule hdeepCopy,
    events_of_shown ?_, events_of_shown ?_⟩
  · exact shown_main_identity hdepth (Rules.onlyTemplate_of_add hidentity rfl) rfl params
  · exact shown_main_deepCopy hlimit (Rules.onlyTemplate_of_add hdeepCopy rfl) rfl params

/-- A document with an element with an attribute and texts on both sides of a processing
instruction, and with a comment inside another element. -/
def copied : Document where
  children := [.element ⟨none, "a"⟩ [⟨⟨none, "b"⟩, "1"⟩]
    [.text "x", .instruction "p" "q", .text "y",
      .element ⟨some "n", "c"⟩ [] [.comment "z", .text ""]]]

/-- Where no more levels may be opened than the document needs, both ways to copy it give its
encoding. -/
theorem identity_copies_copied :
    ∃ identity deepCopy, Stylesheet.ofEvents Stylesheet.identityRule = .ok identity ∧
      Stylesheet.ofEvents Stylesheet.deepCopyRule = .ok deepCopy ∧
      Job.events ⟨identity, copied, ⟨4, true⟩⟩ [] = Job.events ⟨deepCopy, copied, ⟨4, true⟩⟩ [] ∧
      Job.events ⟨identity, copied, ⟨4, true⟩⟩ [] = .ok [.start "a", .attr "b" "1", .text "xy",
        .start "n:c", .comment "z", .stop, .stop] := by
  have hdepth : ∀ node, copied.Holds node → node.ancestors.length + 1 ≤ 4 := by
    intro node hnode
    have hall : ∀ node ∈ copied.nodes, node.ancestors.length + 1 ≤ 4 := by decide
    exact hall node (Document.mem_nodes.2 hnode)
  have hencoding : copied.encoding = [.start "a", .attr "b" "1", .text "xy", .start "n:c",
      .comment "z", .stop, .stop] := by cbv
  obtain ⟨identity, deepCopy, hidentity, hdeepCopy, hfirst, hsecond⟩ :=
    identity_copies copied ⟨4, true⟩ [] hdepth
  exact ⟨identity, deepCopy, hidentity, hdeepCopy, hfirst.trans hsecond.symm,
    hfirst.trans (congrArg _ hencoding)⟩

end Job

end Restyle
