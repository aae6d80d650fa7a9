import Mathlib
import Restyle.Proofs.Double.Order
import Restyle.Proofs.Run.Shown

/-!
# Restyle.Proofs.Run.Sorting

What sort keys make of nodes.

Values of a key are in order by what they are: texts by their characters, numbers by size with NaN
before all others and the two zeros in one place.  A descending key turns the order of its own values
round, and of two nodes that goes first which the first key that tells them apart puts first.  Nodes
that no key tells apart stay as they were, in whichever direction the keys go.

* `SortValue.Before`, `SortValue.Same`, `SortKey.Precedes` — the order, apart from how it is computed;
* `SortKey.compareValues_eq_lt`, `SortKey.compareValues_eq_eq` — it is the one that is computed;
* `filter_mergeSort`, `pair_sublist_of_mergeSort` — sorting leaves equals in their order;
* `SortKey.pairwise_mergeSort`, `Job.shown_sorted` — the order of the nodes, and what is shown;
* `Job.sorted_stable` — the main result.
-/

namespace Restyle

open Std

/-! ## Values of a key -/

namespace SortValue

/-- Which value of a key comes before which. -/
def Before : SortValue → SortValue → Prop
  | .text a, .text b => List.Lex (fun c d => c.toNat < d.toNat) a.toList b.toList
  | .number x, .number y => (x.isNaN = true ∧ y.isNaN = false) ∨ x.lt y = true
  | .number _, .text _ => True
  | .text _, .number _ => False

/-- Which values of a key stand in one place. -/
def Same : SortValue → SortValue → Prop
  | .text a, .text b => a = b
  | .number x, .number y => (x.isNaN = true ∧ y.isNaN = true) ∨ x.eq y = true
  | _, _ => False

theorem compareNumbers_eq (x y : Double) :
    compareNumbers x y = Ord.compare x.level y.level := by
  cases hx : x.isNaN <;> cases hy : y.isNaN
  · simp [compareNumbers, hx, hy, Double.lt, Double.compare?_eq_level, Int.compare_eq_ite_lt]
  · rw [Double.isNaN_iff] at hy
    rw [hy, compare_gt_iff_gt.2 (Double.level_nan_lt hx), compareNumbers, hx]
    rfl
  · rw [Double.isNaN_iff] at hx
    rw [hx, compare_lt_iff_lt.2 (Double.level_nan_lt hy), compareNumbers, hy]
    rfl
  · rw [Double.isNaN_iff] at hx hy
    simp [compareNumbers, hx, hy, Double.isNaN]

theorem compareNumbers_eq_lt (x y : Double) : compareNumbers x y = .lt ↔
    (x.isNaN = true ∧ y.isNaN = false) ∨ x.lt y = true := by
  cases hx : x.isNaN <;> cases hy : y.isNaN <;>
    simp [compareNumbers, Double.lt, Double.compare?_of_isNaN, hx, hy]

theorem compareNumbers_eq_eq (x y : Double) : compareNumbers x y = .eq ↔
    (x.isNaN = true ∧ y.isNaN = true) ∨ x.eq y = true := by
  cases hx : x.isNaN <;> cases hy : y.isNaN
  · simp [compareNumbers_eq, Double.eq, Double.compare?_eq_level, hx, hy]
  all_goals simp [compareNumbers, Double.eq, Double.compare?_of_isNaN, hx, hy]

/-- Texts compare by their characters. -/
theorem compareTexts_eq_lt (a b : String) : Ord.compare a b = .lt ↔
    List.Lex (fun c d => c.toNat < d.toNat) a.toList b.toList := by
  have hless : a < b ↔ List.Lex (fun c d => c.toNat < d.toNat) a.toList b.toList :=
    String.lt_iff_toList_lt.trans (List.lt_iff_lex_lt _ _)
  rw [compare_lt_iff_lt, hless]

theorem compare_eq_lt (a b : SortValue) : a.compare b = .lt ↔ a.Before b := by
  cases a <;> cases b <;> simp [compare, Before, compareNumbers_eq_lt, compareTexts_eq_lt]

theorem compare_eq_eq (a b : SortValue) : a.compare b = .eq ↔ a.Same b := by
  cases a <;> cases b <;> simp [compare, Same, compareNumbers_eq_eq]

instance : TransCmp compare where
  eq_swap {a b} := by
    cases a <;> cases b <;> simp only [compare, compareNumbers_eq]
    · exact OrientedCmp.eq_swap
    · rfl
    · rfl
    · exact OrientedCmp.eq_swap
  isLE_trans {a b c} hab hbc := by
    cases a <;> cases b <;> cases c <;> simp only [compare, compareNumbers_eq] at hab hbc ⊢
    all_goals first
      | rfl
      | exact absurd hab Bool.false_ne_true
      | exact absurd hbc Bool.false_ne_true
      | exact TransCmp.isLE_trans hab hbc

end SortValue

/-! ## Values of several keys -/

/-- Which value comes before which in a direction. -/
def SortOrder.Before (order : SortOrder) (a b : SortValue) : Prop :=
  match order with
  | .ascending => a.Before b
  | .descending => b.Before a

namespace SortOrder

variable (order : SortOrder)

theorem compare_eq_lt (a b : SortValue) : order.compare a b = .lt ↔ order.Before a b := by
  cases order with
  | ascending => exact SortValue.compare_eq_lt a b
  | descending => exact SortValue.compare_eq_lt b a

/-- In either direction the same values stand in one place. -/
theorem compare_eq_eq (a b : SortValue) : order.compare a b = .eq ↔ a.Same b := by
  cases order with
  | ascending => exact SortValue.compare_eq_eq a b
  | descending => rw [compare, OrientedCmp.eq_comm, SortValue.compare_eq_eq]

instance : TransCmp order.compare := by
  cases order with
  | ascending => exact inferInstanceAs (TransCmp SortValue.compare)
  | descending => exact inferInstanceAs (TransCmp fun a b => SortValue.compare b a)

end SortOrder

namespace SortKey

/-- Which values of keys come before which: some key tells them apart, and no key before it does. -/
inductive Precedes : List SortKey → List SortValue → List SortValue → Prop
  | first {key keys a as b bs} (h : key.order.Before a b) :
    Precedes (key :: keys) (a :: as) (b :: bs)
  | later {key keys a as b bs} (hsame : a.Same b) (h : Precedes keys as bs) :
    Precedes (key :: keys) (a :: as) (b :: bs)

/-- Lists with one value for each key. -/
def Values (keys : List SortKey) : Type :=
  { values : List SortValue // values.length = keys.length }

/-- How two lists of values compare, one value for each key. -/
def compareValues (keys : List SortKey) (as bs : Values keys) : Ordering :=
  compareAll keys as.val bs.val

theorem compareAll_eq_lt (keys : List SortKey) (as bs : List SortValue) :
    compareAll keys as bs = .lt ↔ Precedes keys as bs := by
  fun_induction compareAll keys as bs with
  | case1 key keys a as b bs ih =>
    rw [Ordering.then_eq_lt, SortOrder.compare_eq_lt, SortOrder.compare_eq_eq, ih]
    constructor
    · rintro (h | ⟨hsame, h⟩)
      · exact .first h
      · exact .later hsame h
    · intro h
      cases h with
      | first h => exact .inl h
      | later hsame h => exact .inr ⟨hsame, h⟩
  | case2 keys as bs hcons =>
    refine ⟨nofun, fun h => ?_⟩
    cases h <;> exact absurd rfl (hcons _ _ _ _ _ _ rfl rfl)

theorem compareAll_eq_eq (keys : List SortKey) (as bs : List SortValue)
    (has : as.length = keys.length) (hbs : bs.length = keys.length) :
    compareAll keys as bs = .eq ↔ List.Forall₂ SortValue.Same as bs := by
  fun_induction compareAll keys as bs with
  | case1 key keys a as b bs ih =>
    have hothers := ih (Nat.succ.inj has) (Nat.succ.inj hbs)
    rw [Ordering.then_eq_eq, SortOrder.compare_eq_eq, hothers, List.forall₂_cons]
  | case2 keys as bs hcons =>
    cases keys with
    | nil => simp_all
    | cons key keys =>
      obtain ⟨a, as, rfl⟩ := List.exists_cons_of_length_eq_add_one has
      obtain ⟨b, bs, rfl⟩ := List.exists_cons_of_length_eq_add_one hbs
      exact absurd rfl (hcons _ _ _ _ _ _ rfl rfl)

theorem compareAll_swap (keys : List SortKey) (as bs : List SortValue) :
    compareAll keys as bs = (compareAll keys bs as).swap := by
  fun_induction compareAll keys as bs with
  | case1 key keys a as b bs ih =>
    rw [compareAll, Ordering.swap_then, ← ih, ← OrientedCmp.eq_swap]
  | case2 keys as bs hcons =>
    rw [compareAll]
    · rfl
    · exact fun _ _ _ _ _ _ h h' h'' => hcons _ _ _ _ _ _ h h'' h'

/-- The middle list has to have a value for each key, else it would compare as equal to all. -/
theorem compareAll_isLE_trans {keys : List SortKey} {as bs cs : List SortValue}
    (hlength : bs.length = keys.length) (hab : (compareAll keys as bs).isLE = true)
    (hbc : (compareAll keys bs cs).isLE = true) : (compareAll keys as cs).isLE = true := by
  induction keys generalizing as bs cs with
  | nil => rfl
  | cons key keys ih =>
    obtain ⟨b, bs, rfl⟩ := List.exists_cons_of_length_eq_add_one hlength
    cases as with
    | nil => rfl
    | cons a as =>
      cases cs with
      | nil => rfl
      | cons c cs =>
        rw [compareAll, Ordering.isLE_then_iff_or] at hab hbc ⊢
        obtain hab | ⟨hab, habs⟩ := hab <;> obtain hbc | ⟨hbc, hbcs⟩ := hbc
        · exact .inl (TransCmp.lt_trans hab hbc)
        · exact .inl (TransCmp.lt_of_lt_of_eq hab hbc)
        · exact .inl (TransCmp.lt_of_eq_of_lt hab hbc)
        · exact .inr ⟨TransCmp.eq_trans hab hbc, ih (Nat.succ.inj hlength) habs hbcs⟩

instance (keys : List SortKey) : TransCmp (compareValues keys) where
  eq_swap := compareAll_swap keys _ _
  isLE_trans {_ bs _} := compareAll_isLE_trans bs.property

/-- Whether a key has a value under some circumstances. -/
def Gives (ctx : Context) (key : SortKey) (value : SortValue) : Prop :=
  ∃ result, key.select.eval ctx = .ok result ∧ value = .ofValue key.type result

end SortKey

/-! ## Sorting in general -/

section Stability

open scoped List

variable {α : Type} {le : α → α → Bool} {a b : α} {l : List α}

/-- What is equal to an element is listed in the same order before sorting and after. -/
theorem filter_mergeSort (htrans : ∀ a b c, le a b = true → le b c = true → le a c = true)
    (htotal : ∀ a b, (le a b || le b a) = true) (a : α) (l : List α) :
    (l.mergeSort le).filter (fun b => le a b && le b a) = l.filter (fun b => le a b && le b a) := by
  let equals := l.filter fun b => le a b && le b a
  have hequal : equals.Pairwise fun b c => le b c = true := by
    refine List.pairwise_of_forall_mem_list fun b hb c hc => ?_
    have hb := List.of_mem_filter hb
    have hc := List.of_mem_filter hc
    simp only [Bool.and_eq_true] at hb hc
    exact htrans b a c hb.2 hc.1
  have hsublist : equals <+ l.mergeSort le :=
    List.sublist_mergeSort htrans htotal hequal List.filter_sublist
  have hfiltered := hsublist.filter fun b => le a b && le b a
  rw [List.filter_filter] at hfiltered
  simp only [Bool.and_self] at hfiltered
  exact (hfiltered.eq_of_length ((List.mergeSort_perm l le).filter _).length_eq.symm).symm

/-- Sorting leaves equals in their order. -/
theorem pair_sublist_of_mergeSort
    (htrans : ∀ a b c, le a b = true → le b c = true → le a c = true)
    (htotal : ∀ a b, (le a b || le b a) = true) (hab : le a b = true) (hba : le b a = true)
    (h : [a, b] <+ l.mergeSort le) : [a, b] <+ l := by
  have haa : le a a = true := htrans a b a hab hba
  have hfiltered := h.filter fun c => le a c && le c a
  rw [filter_mergeSort htrans htotal] at hfiltered
  simp only [List.filter_cons, haa, hab, hba] at hfiltered
  exact hfiltered.trans List.filter_sublist

end Stability

/-! ## Nodes in order -/

/-- Nodes stand in their places in order. -/
theorem Focus.pairwise_among (nodes : List Node) :
    (Focus.among nodes).Pairwise fun a b => a.position < b.position := by
  rw [List.pairwise_iff_getElem]
  intro i j hi hj hij
  simp only [Focus.among, List.getElem_mapIdx]
  omega

namespace SortKey

variable {keys : List SortKey}

theorem compareValues_eq_lt (as bs : Values keys) :
    compareValues keys as bs = .lt ↔ Precedes keys as.val bs.val :=
  compareAll_eq_lt keys as.val bs.val

theorem compareValues_eq_eq (as bs : Values keys) :
    compareValues keys as bs = .eq ↔ List.Forall₂ SortValue.Same as.val bs.val :=
  compareAll_eq_eq keys as.val bs.val as.property bs.property

variable (values : Focus → Values keys)

/-- Which node goes first: the one that the keys put first, else the one that stood first. -/
def GoesFirst (a b : Focus) : Prop :=
  Precedes keys (values a).val (values b).val ∨
    (List.Forall₂ SortValue.Same (values a).val (values b).val ∧ a.position < b.position)

/-- Whether a node may stand before another one. -/
def inOrder (a b : Focus) : Bool := (compareValues keys (values a) (values b)).isLE

theorem inOrder_trans (a b c : Focus) (hab : inOrder values a b = true)
    (hbc : inOrder values b c = true) : inOrder values a c = true :=
  TransCmp.isLE_trans hab hbc

theorem inOrder_total (a b : Focus) : (inOrder values a b || inOrder values b a) = true := by
  have hswap : compareValues keys (values a) (values b) =
      (compareValues keys (values b) (values a)).swap := OrientedCmp.eq_swap
  rw [inOrder, inOrder, hswap]
  cases compareValues keys (values b) (values a) <;> rfl

/-- Sorted by the keys, nodes stand in the order in which they go first. -/
theorem pairwise_mergeSort (nodes : List Node) :
    ((Focus.among nodes).mergeSort (inOrder values)).Pairwise (GoesFirst values) := by
  have htrans := inOrder_trans values
  have htotal := inOrder_total values
  refine List.pairwise_iff_forall_sublist.2 fun {a b} hsublist => ?_
  have hab : inOrder values a b = true :=
    List.pairwise_iff_forall_sublist.1 (List.pairwise_mergeSort htrans htotal _) hsublist
  cases hcompare : compareValues keys (values a) (values b) with
  | lt => exact .inl ((compareValues_eq_lt _ _).1 hcompare)
  | gt => simp [inOrder, hcompare] at hab
  | eq =>
    -- what is equal stood in this order before
    have hba : inOrder values b a = true := by simp [inOrder, OrientedCmp.eq_comm.1 hcompare]
    have hbefore := pair_sublist_of_mergeSort htrans htotal hab hba hsublist
    have hposition := List.pairwise_iff_forall_sublist.1 (Focus.pairwise_among nodes) hbefore
    exact .inr ⟨(compareValues_eq_eq _ _).1 hcompare, hposition⟩

/-- Where all keys have values, there are lists of values. -/
theorem exists_gives {ctx : Context} (keys : List SortKey)
    (h : ∀ key ∈ keys, ∃ value, key.select.eval ctx = .ok value) :
    ∃ values : Values keys, List.Forall₂ (Gives ctx) keys values.val := by
  induction keys with
  | nil => exact ⟨⟨[], rfl⟩, .nil⟩
  | cons key keys ih =>
    obtain ⟨value, hvalue⟩ := h key List.mem_cons_self
    obtain ⟨values, hvalues⟩ := ih fun other hother => h other (List.mem_cons_of_mem _ hother)
    have hlength := congrArg (· + 1) values.property
    exact ⟨⟨.ofValue key.type value :: values.val, hlength⟩, .cons ⟨value, hvalue, rfl⟩ hvalues⟩

end SortKey

namespace Job

variable (job : Job) {keys : List SortKey} {s : State}

theorem shown_sortValues {focus : Focus} {values : List SortValue}
    (h : List.Forall₂ (SortKey.Gives (job.context focus s.environment)) keys values) :
    ((job.sortValues focus keys).run s).shown = (.ok values, []) := by
  induction h with
  | nil => rfl
  | cons hvalue hvalues ih =>
    obtain ⟨result, hresult, rfl⟩ := hvalue
    have heval : ((job.eval focus _).run s).shown = (.ok result, []) :=
      congrArg (fun found => (found.mapError Failure.ofExprError, [])) hresult
    refine (Action.shown_bind_of_silent _ heval (Action.restores_compute _)).trans ?_
    exact Action.shown_bind_of_silent _ ih (job.restores_sortValues focus _)

theorem shown_withSortValues (values : Focus → List SortValue) {foci : List Focus}
    (h : ∀ focus ∈ foci,
      List.Forall₂ (SortKey.Gives (job.context focus s.environment)) keys (values focus)) :
    ((job.withSortValues keys foci).run s).shown =
      (.ok (foci.map fun focus => (values focus, focus.node)), []) := by
  induction foci with
  | nil => rfl
  | cons focus others ih =>
    have hvalues := job.shown_sortValues (h focus List.mem_cons_self)
    have hothers := ih fun other hother => h other (List.mem_cons_of_mem _ hother)
    refine (Action.shown_bind_of_silent _ hvalues (job.restores_sortValues focus _)).trans ?_
    exact Action.shown_bind_of_silent _ hothers (job.restores_withSortValues keys _)

/-- What is sorted is each node in its place, by the values that the keys have there. -/
theorem shown_sorted {nodes : List Node} (values : Focus → SortKey.Values keys)
    (h : ∀ focus ∈ Focus.among nodes,
      List.Forall₂ (SortKey.Gives (job.context focus s.environment)) keys (values focus).val) :
    ((job.sorted keys nodes).run s).shown =
      (.ok (((Focus.among nodes).mergeSort (SortKey.inOrder values)).map Focus.node), []) := by
  have hnodes := Focus.map_node_among nodes
  unfold sorted
  split
  next hfew =>
    -- nothing is compared, but there is nothing to put in another order either
    have hsorted : (Focus.among nodes).mergeSort (SortKey.inOrder values) =
        Focus.among nodes := by
      refine List.mergeSort_of_pairwise (List.pairwise_iff_getElem.2 fun i j hi hj hij => ?_)
      have hlength : j < nodes.length := by rwa [← hnodes, List.length_map]
      cases keys with
      | nil => rfl
      | cons key keys =>
        simp only [List.isEmpty_cons, Bool.false_or, decide_eq_true_eq] at hfew
        omega
    rw [hsorted, hnodes]
    rfl
  next hmany =>
    have hkeyed := job.shown_withSortValues (fun focus => (values focus).val) h
    refine (Action.shown_bind_of_silent _ hkeyed (job.restores_withSortValues keys _)).trans ?_
    let keyed (focus : Focus) : List SortValue × Node := ((values focus).val, focus.node)
    have hsorted : ((Focus.among nodes).mergeSort (SortKey.inOrder values)).map keyed =
        ((Focus.among nodes).map keyed).mergeSort
          fun a b => (SortKey.compareAll keys a.1 b.1).isLE :=
      List.map_mergeSort fun _ _ _ _ => rfl
    have hresult := congrArg (List.map Prod.snd) hsorted
    rw [List.map_map] at hresult
    exact congrArg (fun nodes => (Except.ok nodes, [])) hresult.symm

/-- **Sorting is stable, by several keys.**  If all keys have values for all nodes where they stand,
the result has the nodes with their places in another order: of any two the one comes first that the
keys put first, and where they tell them apart in none, the one that stood first.  What is compared
are lists with a value for each key; on these the comparison is a total preorder, and it is the order
of the keys one after another. -/
theorem sorted_stable (keys : List SortKey) (nodes : List Node) (s : State)
    (hvalues : ∀ focus ∈ Focus.among nodes, ∀ key ∈ keys, ∃ value,
      key.select.eval (job.context focus s.environment) = .ok value) :
    (∃ (values : Focus → SortKey.Values keys) (places : List Focus),
      (∀ focus ∈ Focus.among nodes,
        List.Forall₂ (SortKey.Gives (job.context focus s.environment)) keys (values focus).val) ∧
      ((job.sorted keys nodes).run s).shown = (.ok (places.map Focus.node), []) ∧
      places.Perm (Focus.among nodes) ∧
      places.Pairwise (SortKey.GoesFirst values)) ∧
    (∀ as bs : SortKey.Values keys,
      (SortKey.compareValues keys as bs = .lt ↔ SortKey.Precedes keys as.val bs.val) ∧
      (SortKey.compareValues keys as bs = .eq ↔ List.Forall₂ SortValue.Same as.val bs.val)) ∧
    TransCmp (SortKey.compareValues keys) := by
  have hvalues : ∀ focus, ∃ values : SortKey.Values keys, focus ∈ Focus.among nodes →
      List.Forall₂ (SortKey.Gives (job.context focus s.environment)) keys values.val := by
    intro focus
    by_cases hfocus : focus ∈ Focus.among nodes
    · obtain ⟨values, hgives⟩ := SortKey.exists_gives keys (hvalues focus hfocus)
      exact ⟨values, fun _ => hgives⟩
    · exact ⟨⟨keys.map fun _ => .text "", List.length_map _⟩, fun h => absurd h hfocus⟩
  choose values hvalues using hvalues
  let places := (Focus.among nodes).mergeSort (SortKey.inOrder values)
  have hshown := job.shown_sorted values hvalues
  have hperm : places.Perm (Focus.among nodes) := List.mergeSort_perm _ _
  have hfirst := SortKey.pairwise_mergeSort values nodes
  have horder (as bs : SortKey.Values keys) :=
    And.intro (SortKey.compareValues_eq_lt as bs) (SortKey.compareValues_eq_eq as bs)
  exact ⟨⟨values, places, hvalues, hshown, hperm, hfirst⟩, horder, inferInstance⟩

/-- A job for a document of comments. -/
def commented : Job :=
  ⟨⟨⟨[], []⟩, [], .standard⟩, ⟨[.comment "a", .comment "b", .comment "a", .comment "b"]⟩, .standard⟩

/-- Nodes by a text that is no number, and then by their own texts, last first. -/
def lastFirst : List SortKey :=
  [⟨.literal "same", .ascending, .number⟩, ⟨.path .context [⟨.self, .node, []⟩], .descending, .text⟩]

/-- The first key tells nothing apart, and the second one leaves equal texts as they were. -/
theorem sorted_stable_commented :
    let nodes := commented.document.root.children
    let sorted := (commented.sorted lastFirst nodes).run .initial
    (∀ focus ∈ Focus.among nodes, ∀ key ∈ lastFirst, ∃ value,
      key.select.eval (commented.context focus State.initial.environment) = .ok value) ∧
    nodes.map Node.order = [1, 2, 3, 4] ∧
    sorted.result.map (List.map Node.order) = .ok [2, 4, 1, 3] ∧
    ∃ (values : Focus → SortKey.Values lastFirst) (places : List Focus),
      sorted.shown = (.ok (places.map Focus.node), []) ∧
      places.Perm (Focus.among nodes) ∧ places.Pairwise (SortKey.GoesFirst values) := by
  intro nodes sorted
  have hvalues : ∀ focus ∈ Focus.among nodes, ∀ key ∈ lastFirst, ∃ value,
      key.select.eval (commented.context focus State.initial.environment) = .ok value := by
    intro focus hfocus key hkey
    rw [lastFirst, List.mem_pair] at hkey
    obtain rfl | rfl := hkey
    · exact ⟨.string "same", rfl⟩
    · exact ⟨_, rfl⟩
  have horder : nodes.map Node.order = [1, 2, 3, 4] := by cbv
  have hresult : sorted.result.map (List.map Node.order) = .ok [2, 4, 1, 3] := by cbv
  obtain ⟨⟨values, places, -, hplaces⟩, -⟩ :=
    commented.sorted_stable lastFirst nodes .initial hvalues
  exact ⟨hvalues, horder, hresult, values, places, hplaces⟩

end Job

end Restyle
