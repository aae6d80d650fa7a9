import Restyle.Value.Operator

/-!
# Restyle.Proofs.Value.Comparison

What it means to compare two values.

Two values of which neither is a node-set are the same as booleans if one of them is a boolean, else
as numbers if one of them is a number, else as texts; they are ordered by their numbers.  A node-set
stands for any of its members, by their texts, and next to a boolean for whether it has any.  So
equality may hold together with inequality, and with NaN no order holds; but a comparison always
holds of two values just if the flipped one holds of them the other way round.

* `BinaryOp.Says` — what a comparison says of numbers, and of what counts as the same;
* `Value.Related` — whether a comparison holds of two values;
* `Value.related_flipped`, `Value.compare_iff_related` — it is mirrored, and it is what is computed;
* `Value.comparison_mirrored` — the main result.
-/

namespace Restyle

/-! ## Numbers -/

namespace Double

theorem eq_comm (x y : Double) : x.eq y = y.eq x := by
  rw [eq, eq, ← compare?_swap]
  cases y.compare? x with
  | none => rfl
  | some ordering => cases ordering <;> rfl

end Double

/-! ## What a comparison says -/

namespace BinaryOp

/-- What a comparison says of two values, by whether they count as the same and by their numbers. -/
def Says (op : BinaryOp) (same : Prop) (x y : Double) : Prop :=
  match op with
  | .equals => same
  | .notEquals => ¬same
  | .less => x.lt y = true
  | .lessEqual => x.le y = true
  | .greater => y.lt x = true
  | .greaterEqual => y.le x = true
  | _ => False

theorem says_flipped (op : BinaryOp) {same same' : Prop} (h : same ↔ same') (x y : Double) :
    op.Says same x y ↔ op.flipped.Says same' y x := by
  cases op <;> simp [Says, flipped, h]

end BinaryOp

namespace Value

/-- Whether two values, neither of them a node-set, count as the same. -/
def SameAtoms : Value → Value → Prop
  | .boolean a, right => a = right.toBool
  | left, .boolean b => left.toBool = b
  | .number x, right => x.eq right.toNumber = true
  | left, .number y => left.toNumber.eq y = true
  | left, right => left.toText = right.toText

/-- Whether a comparison holds of two values, neither of them a node-set. -/
def RelatedAtoms (op : BinaryOp) (left right : Value) : Prop :=
  op.Says (SameAtoms left right) left.toNumber right.toNumber

/-- Whether a comparison holds of two values. -/
def Related (op : BinaryOp) : Value → Value → Prop
  | .nodes l, .nodes r =>
    ∃ a ∈ l, ∃ b ∈ r, RelatedAtoms op (.string a.stringValue) (.string b.stringValue)
  | .nodes l, .boolean b => RelatedAtoms op (.boolean (!l.isEmpty)) (.boolean b)
  | .boolean a, .nodes r => RelatedAtoms op (.boolean a) (.boolean (!r.isEmpty))
  | .nodes l, right => ∃ a ∈ l, RelatedAtoms op (.string a.stringValue) right
  | left, .nodes r => ∃ b ∈ r, RelatedAtoms op left (.string b.stringValue)
  | left, right => RelatedAtoms op left right

/-! ## The other way round -/

theorem sameAtoms_comm (left right : Value) : SameAtoms left right ↔ SameAtoms right left := by
  cases left <;> cases right
  case boolean.boolean a b => exact eq_comm
  case number.number x y => simp only [SameAtoms, toNumber, Double.eq_comm x y]
  all_goals simp only [SameAtoms, Double.eq_comm, eq_comm]

theorem relatedAtoms_flipped (op : BinaryOp) (left right : Value) :
    RelatedAtoms op left right ↔ RelatedAtoms op.flipped right left :=
  op.says_flipped (sameAtoms_comm left right) left.toNumber right.toNumber

/-- A comparison holds just if the flipped one holds the other way round. -/
theorem related_flipped (op : BinaryOp) (left right : Value) :
    Related op left right ↔ Related op.flipped right left := by
  cases left with
  | nodes l =>
    cases right with
    | nodes r =>
      -- the two members are chosen in either order
      have hswap (a b : Node) := relatedAtoms_flipped op (.string a.stringValue) (.string b.stringValue)
      simp only [Related, hswap]
      exact ⟨fun ⟨a, ha, b, hb, h⟩ => ⟨b, hb, a, ha, h⟩, fun ⟨b, hb, a, ha, h⟩ => ⟨a, ha, b, hb, h⟩⟩
    | _ => simp only [Related, relatedAtoms_flipped op]
  | _ => cases right <;> simp only [Related, relatedAtoms_flipped op]

/-! ## As computed -/

theorem equalAtoms_iff (left right : Value) : equalAtoms left right = true ↔ SameAtoms left right := by
  cases left <;> cases right <;> simp [equalAtoms, SameAtoms, toBool, toNumber, toText]

theorem compareAtoms_iff (op : BinaryOp) (left right : Value) :
    compareAtoms op left right = true ↔ RelatedAtoms op left right := by
  have hsame := equalAtoms_iff left right
  cases op <;> simp [compareAtoms, RelatedAtoms, BinaryOp.Says, ← hsame]

/-- What an operator compares of two nodes decides as their texts do. -/
theorem compareAtoms_compared (op : BinaryOp) (a b : Node) :
    compareAtoms op (compared op a) (compared op b) =
      compareAtoms op (.string a.stringValue) (.string b.stringValue) := by
  cases op <;> rfl

/-- A node-set on the left, and a value that is none. -/
theorem compareNodes_iff (op : BinaryOp) (l : List Node) (right : Value) (h : ∀ r, right ≠ .nodes r) :
    compareNodes op l right = true ↔ Related op (.nodes l) right := by
  cases right with
  | nodes r => exact absurd rfl (h r)
  | _ => simp [compareNodes, Related, compareAtoms_iff]

/-- What is computed is whether the comparison holds. -/
theorem compare_iff_related (op : BinaryOp) (left right : Value) :
    left.compare op right = true ↔ Related op left right := by
  cases left with
  | nodes l =>
    cases right with
    | nodes r => simp [compare, Related, compareAtoms_compared, compareAtoms_iff]
    | _ => simp [compare, compareNodes_iff]
  | _ =>
    cases right with
    | nodes r =>
      -- the flipped comparison is asked of the node-set
      rw [related_flipped]
      simp [compare, compareNodes_iff]
    | _ => exact compareAtoms_iff op _ _

/-- Of two attributes one is equal to a text and the other is not, so the text is equal to both of them
taken together, and also unequal. -/
example :
    let both : Value := .nodes [.attr default 0 ⟨⟨none, "a"⟩, "1"⟩, .attr default 1 ⟨⟨none, "b"⟩, "2"⟩]
    Value.compare .equals (.string "1") both = true ∧
      Value.compare .notEquals (.string "1") both = true := by decide

/-- **A comparison is mirrored.**  A comparison of two values is the flipped comparison of them the
other way round, and it is true just if it holds: of some members of node-sets by their texts, of a
node-set and a boolean by whether the set has members, and else of booleans, numbers or texts. -/
theorem comparison_mirrored (op : BinaryOp) (left right : Value) :
    left.compare op right = right.compare op.flipped left ∧
      (left.compare op right = true ↔ Related op left right) := by
  have hflipped : left.compare op right = true ↔ right.compare op.flipped left = true := by
    rw [compare_iff_related, compare_iff_related, ← related_flipped]
  exact ⟨Bool.eq_iff_iff.mpr hflipped, compare_iff_related op left right⟩

end Value

end Restyle
