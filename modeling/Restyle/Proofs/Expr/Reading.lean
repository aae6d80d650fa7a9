import Restyle.Pattern
import Restyle.Proofs.Success

/-!
# Restyle.Proofs.Expr.Reading

Paths as they are read.

A location path that starts at the context node has at least one step: the grammar knows no path
without steps but `/`.  The same is true of every alternative of a union, however it is bracketed.

* `Expr.Stepped` — what is said about an expression;
* `Expr.stepped_of_parse` — and it is true of every expression that is read from text.
-/

namespace Restyle

/-- No alternative of an expression is a path from the context node without steps. -/
def Expr.Stepped (e : Expr) : Prop := Expr.path .context [] ∉ Pattern.alternatives e

theorem Expr.Stepped.union {left right : Expr} (hleft : left.Stepped) (hright : right.Stepped) :
    (Expr.binary .union left right).Stepped := by
  unfold Expr.Stepped
  rw [Pattern.alternatives, List.mem_append]
  exact not_or.2 ⟨hleft, hright⟩

theorem Expr.stepped_of_ne {e : Expr} (hunion : ∀ left right, e ≠ .binary .union left right)
    (h : e ≠ .path .context []) : e.Stepped := by
  unfold Expr.Stepped
  rw [Pattern.alternatives.eq_2 e hunion, List.mem_singleton]
  exact h.symm

theorem Expr.Stepped.binary {left right : Expr} (hleft : left.Stepped) (hright : right.Stepped)
    (op : BinaryOp) : (Expr.binary op left right).Stepped := by
  cases op with
  | union => exact hleft.union hright
  | _ => exact Expr.stepped_of_ne nofun nofun

namespace Grammar

/-- A reader gives nothing but stepped expressions. -/
def GivesStepped (reader : Reader Expr) : Prop :=
  ∀ s e rest, reader s = .ok (e, rest) → e.Stepped

theorem stepped_chainFrom {op : List Char → Option (BinaryOp × List Char)} {operand : Reader Expr}
    (hoperand : GivesStepped operand) (limit : Nat) {left : Expr} (hleft : left.Stepped)
    (s : List Char) : (chainFrom op operand limit left s).1.Stepped := by
  induction limit generalizing left s with
  | zero => exact hleft
  | succ limit ih =>
      rw [chainFrom]
      split
      · exact hleft
      · split
        · exact hleft
        · next hright => exact ih (hleft.binary (hoperand _ _ _ hright) _) _

theorem GivesStepped.chain {op : List Char → Option (BinaryOp × List Char)}
    {operand : Reader Expr} (hoperand : GivesStepped operand) (limit : Nat) :
    GivesStepped (chain limit op operand) := by
  intro s e rest h
  unfold Grammar.chain at h
  obtain ⟨found, hfirst, h⟩ := bind_eq_ok.1 h
  have hchain : chainFrom op operand limit found.1 found.2 = (e, rest) := Except.ok.inj h
  have hleft : found.1.Stepped := hoperand _ _ _ hfirst
  have hstepped : (chainFrom op operand limit found.1 found.2).1.Stepped :=
    stepped_chainFrom hoperand limit hleft found.2
  rwa [hchain] at hstepped

section Bracketed

variable (limit : Nat) {inner : Reader Expr} (hinner : GivesStepped inner)

theorem givesStepped_locationPath (inner : Reader Expr) :
    GivesStepped (locationPath limit inner) := by
  intro s e rest h
  unfold locationPath at h
  split at h
  · obtain ⟨found, -, h⟩ := bind_eq_ok.1 h
    obtain ⟨rfl, -⟩ := Prod.mk.inj (Except.ok.inj h)
    exact Expr.stepped_of_ne nofun nofun
  · split at h
    · split at h
      · obtain ⟨rfl, -⟩ := Prod.mk.inj (Except.ok.inj h)
        exact Expr.stepped_of_ne nofun nofun
      · obtain ⟨rfl, -⟩ := Prod.mk.inj (Except.ok.inj h)
        exact Expr.stepped_of_ne nofun nofun
    · obtain ⟨found, -, h⟩ := bind_eq_ok.1 h
      obtain ⟨rfl, -⟩ := Prod.mk.inj (Except.ok.inj h)
      exact Expr.stepped_of_ne nofun nofun

theorem stepped_variableRef {s rest : List Char} {e : Expr}
    (h : variableRef s = some (e, rest)) : e.Stepped := by
  unfold variableRef at h
  obtain ⟨name, -, h⟩ := Option.bind_eq_some_iff.1 h
  obtain ⟨found, -, h⟩ := Option.bind_eq_some_iff.1 h
  obtain ⟨rfl, -⟩ := Prod.mk.inj (Option.some.inj h)
  exact Expr.stepped_of_ne nofun nofun

theorem stepped_functionCall {s rest : List Char} {e : Expr}
    (h : functionCall limit inner s = some (e, rest)) : e.Stepped := by
  unfold functionCall at h
  obtain ⟨name, -, h⟩ := Option.bind_eq_some_iff.1 h
  obtain ⟨inside, -, h⟩ := Option.bind_eq_some_iff.1 h
  obtain ⟨-, -, h⟩ := Option.bind_eq_some_iff.1 h
  obtain ⟨rest', -, h⟩ := Option.bind_eq_some_iff.1 h
  obtain ⟨rfl, -⟩ := Prod.mk.inj (Option.some.inj h)
  exact Expr.stepped_of_ne nofun nofun

include hinner

theorem stepped_bracketed {s rest : List Char} {e : Expr}
    (h : bracketed inner s = some (e, rest)) : e.Stepped := by
  unfold bracketed at h
  obtain ⟨inside, -, h⟩ := Option.bind_eq_some_iff.1 h
  obtain ⟨found, hfound, h⟩ := Option.bind_eq_some_iff.1 h
  obtain ⟨rest', -, h⟩ := Option.bind_eq_some_iff.1 h
  obtain ⟨rfl, -⟩ := Prod.mk.inj (Option.some.inj h)
  cases hread : inner inside with
  | error error =>
      rw [hread] at hfound
      cases hfound
  | ok read =>
      rw [hread] at hfound
      rw [← Option.some.inj hfound]
      exact hinner _ _ _ hread

theorem stepped_primary {s rest : List Char} {e : Expr}
    (h : primary limit inner s = some (e, rest)) : e.Stepped := by
  unfold primary at h
  split at h
  · next found hvariable =>
    obtain rfl := Option.some.inj h
    exact stepped_variableRef hvariable
  · split at h
    · obtain ⟨rfl, -⟩ := Prod.mk.inj (Option.some.inj h)
      exact Expr.stepped_of_ne nofun nofun
    · split at h
      · obtain ⟨rfl, -⟩ := Prod.mk.inj (Option.some.inj h)
        exact Expr.stepped_of_ne nofun nofun
      · split at h
        · next found hcall =>
          obtain rfl := Option.some.inj h
          exact stepped_functionCall limit hcall
        · exact stepped_bracketed hinner h

theorem stepped_filtered {s rest : List Char} {e : Expr}
    (h : filtered limit inner s = some (e, rest)) : e.Stepped := by
  unfold filtered at h
  obtain ⟨found, hfound, h⟩ := Option.bind_eq_some_iff.1 h
  obtain ⟨rfl, -⟩ := Prod.mk.inj (Option.some.inj h)
  split
  · exact stepped_primary limit hinner hfound
  · exact Expr.stepped_of_ne nofun nofun

theorem givesStepped_path : GivesStepped (path limit inner) := by
  intro s e rest h
  unfold path at h
  split at h
  · next start rest hstart =>
    obtain ⟨rfl, -⟩ := Prod.mk.inj (Except.ok.inj h)
    split
    · exact stepped_filtered limit hinner hstart
    · exact Expr.stepped_of_ne nofun nofun
  · obtain ⟨found, hpath, h⟩ := map_eq_ok.1 h
    obtain ⟨rfl, -⟩ := Prod.mk.inj h
    exact givesStepped_locationPath limit inner _ _ _ hpath

theorem givesStepped_signed : GivesStepped (signed limit inner) := by
  have hunion : GivesStepped (unionExpr limit inner) := (givesStepped_path limit hinner).chain limit
  intro s e rest h
  fun_induction signed limit inner s generalizing e rest with
  | case1 s after hsign negated rest' hnegated ih =>
      obtain ⟨rfl, -⟩ := Prod.mk.inj (Except.ok.inj h)
      exact Expr.stepped_of_ne nofun nofun
  | case2 s after hsign error herror ih => exact hunion _ _ _ h
  | case3 s hsign => exact hunion _ _ _ h

theorem givesStepped_expr : GivesStepped (expr limit inner) :=
  ((((((givesStepped_signed limit hinner).chain limit).chain limit).chain limit).chain limit).chain
    limit).chain limit

end Bracketed

theorem givesStepped_exprAt (limit : Nat) : GivesStepped (exprAt limit) := by
  induction limit with
  | zero => exact nofun
  | succ limit ih => exact givesStepped_expr limit ih

end Grammar

/-- What is read from text has no path without steps but from the root. -/
theorem Expr.stepped_of_parse {source : String} {e : Expr} (h : Expr.parse source = .ok e) :
    e.Stepped := by
  unfold Expr.parse at h
  split at h
  · cases h
  · split at h
    · next read hread =>
      obtain rfl := Except.ok.inj h
      exact Grammar.givesStepped_exprAt _ _ _ _ hread
    · cases h
    · cases h

end Restyle
