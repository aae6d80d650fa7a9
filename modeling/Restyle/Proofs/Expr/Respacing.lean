import Mathlib
import Restyle.Proofs.Expr.Spacing

/-!
# Restyle.Proofs.Expr.Respacing

White space between tokens does not count, but in a few places.

Every reader of the grammar is run on two texts that are alike, with a limit of its own for each:
both runs fail, or both read the same and go on in texts that are alike again (`Agree`, `SameRead`).
One lemma says this of each reader, over a reader of what stands in brackets of which it holds
already, and `exprAt_same` closes the circle by induction on the levels of brackets.

* `Expr.parse_respaced` — two spellings of the same tokens are read as the same expression, or both
  as none, if they have white space at the same tokens where it counts;
* `Expr.parse_gap_counts` — behind `@` it does count.
-/

namespace Restyle.Grammar

open Text

/-! ## Axes and node tests -/

/-- Where no name starts, no node test but the asterisk does. -/
theorem nodeTest_of_not_isNameStart {c : Char} (hc : isNameStart c = false) (hstar : c ≠ '*')
    (s : List Char) : nodeTest (c :: s) = .error (c :: s) := by
  have hskip {d : Char} (hd : isNameStart d = true) (word : List Char) :
      skip (d :: word) (c :: s) = none := skip_cons_of_ne (ne_of_isNameStart hd hc) _ _
  have hkind : kindTest (c :: s) = none := by
    rw [kindTest, List.findSome?_eq_none_iff]
    intro entry hentry
    simp only [kindTests, List.mem_cons, List.not_mem_nil, or_false] at hentry
    obtain rfl | rfl | rfl := hentry <;>
      exact congrArg (fun left => (Option.bind left emptyParens).map _) (hskip (by decide) _)
  have hinstruction : instructionTest (c :: s) = none := by
    have hword : skip "processing-instruction".toList (c :: s) = none := hskip (by decide) _
    rw [instructionTest_eq, hword]
    rfl
  have hname : ncName (c :: s) = none := by simp [ncName, hc]
  have hqualified : qualifiedTest (c :: s) = none := by simp [qualifiedTest, hname]
  rw [nodeTest_eq, skip_cons_of_ne hstar.symm, hkind, hinstruction, hqualified,
    qName_of_ncName_none hname]
  rfl

/-- Where no step opens, no node test does. -/
theorem nodeTest_of_not_opensStep {s : List Char} (h : opensStep s = false) :
    nodeTest s = .error s := by
  cases s with
  | nil => rfl
  | cons c s =>
      simp only [opensStep, List.head?_cons, Option.any_some, Bool.or_eq_false_iff,
        beq_eq_false_iff_ne] at h
      obtain ⟨⟨⟨hstart, hstar⟩, -⟩, -⟩ := h
      refine nodeTest_of_not_isNameStart ?_ hstar s
      by_contra hname
      simp [isWordStart_of_isNameStart (by simpa using hname)] at hstart

/-- A node test that has to follow at once is read in both texts, or in none. -/
theorem nodeTest_tight {s s' : List Char} (h : Respaced .step s s') :
    SameRead s s' (nodeTest s) (nodeTest s') := by
  obtain ⟨hs, hs', -, h⟩ | ⟨hs, hs', -⟩ := h.tight (.inl rfl)
  · have hread := nodeTest_same (.inl h)
    rwa [hs, hs'] at hread
  · exact .inl ⟨s, s', nodeTest_of_not_opensStep hs, nodeTest_of_not_opensStep hs'⟩

/-! ## Steps -/

theorem axisTest_of_skip {s rest : List Char} (h : skip ['@'] s = some rest) :
    axisTest s = match nodeTest rest with
      | .ok (test, left) => .ok ((.attr, test), left)
      | .error _ => .error s := by
  obtain rfl := skip_eq_some_iff.1 h
  cases hread : nodeTest rest with
  | ok found => simp only [axisTest, h, Option.map_some, hread]
  | error place =>
      have haxis : axis (['@'] ++ rest) = none := rfl
      have hnone : nodeTest (['@'] ++ rest) = .error (['@'] ++ rest) :=
        nodeTest_of_not_isNameStart (by decide) (by decide) rest
      simp only [axisTest, h, Option.map_some, hread, haxis, Option.getD_none, hnone]
      rfl

theorem axisTest_of_skip_none {s : List Char} (h : skip ['@'] s = none) :
    axisTest s = (nodeTest ((axis s).getD (.child, s)).2).map fun found =>
      ((((axis s).getD (.child, s)).1, found.1), found.2) := by
  simp only [axisTest, h, Option.map_none]

/-- A node test with its axis is read in both texts, or in none. -/
theorem axisTest_same {s s' : List Char} (h : Alike .operand s s') :
    SameRead s s' (axisTest (dropSpace s)) (axisTest (dropSpace s')) := by
  obtain ⟨hat, hat'⟩ | ⟨rest, rest', hat, hat', hrest, hlt, hlt'⟩ :=
    skip_same h (by decide) .attribute rfl (by decide)
  · rw [axisTest_of_skip_none hat, axisTest_of_skip_none hat']
    obtain ⟨haxis, haxis'⟩ | ⟨a, rest, rest', haxis, haxis', hrest, hlt, hlt'⟩ := axis_same h
    · rw [haxis, haxis']
      exact (nodeTest_same h).map fun test => (Axis.child, test)
    · rw [haxis, haxis']
      exact ((nodeTest_tight hrest).mono hlt.le hlt'.le).map fun test => (a, test)
  · rw [axisTest_of_skip hat, axisTest_of_skip hat']
    obtain ⟨place, place', hread, hread'⟩ | ⟨a, left, left', hread, hread', hleft, hlt₂, hlt₂'⟩ :=
      nodeTest_tight hrest
    · rw [hread, hread']
      exact .inl ⟨_, _, rfl, rfl⟩
    · rw [hread, hread']
      exact .inr ⟨_, left, left', rfl, rfl, hleft, by omega, by omega⟩

/-- The steps that are written with points. -/
def pointStep (s : List Char) : Option (Step × List Char) :=
  ((skip ['.', '.'] s).map (Step.parent, ·)).or ((skip ['.'] s).map (Step.self, ·))

theorem lexes_pointStep : Lexes .operand .operator pointStep := by
  refine .of_own (· = '.') rfl ?_ ?_ ?_
  · intro c s hc
    rw [pointStep, skip_cons_of_ne (Ne.symm hc), skip_cons_of_ne (Ne.symm hc)]
    rfl
  · rintro c hc rfl
    exact (hc.not_isDigit (by decide)).2 rfl
  · rintro t c ht hbegins rfl
    have hself {s : List Char} (hs : ∀ c ∈ s.head?, c ≠ '.') :
        pointStep ('.' :: s) = some (Step.self, s) := by
      have hdots : skip ['.', '.'] ('.' :: s) = none := by
        cases s with
        | nil => rfl
        | cons c s =>
            rw [skip_cons]
            exact skip_cons_of_ne (hs c rfl).symm _ _
      rw [pointStep, hdots, skip_cons, skip_empty]
      rfl
    cases t with
    | mark m =>
        cases m with
        | dots => exact .whole ht Step.parent (fun _ _ => rfl) rfl
        | dot =>
            refine .whole ht Step.self (fun rest hrest => hself ?_) rfl
            have hstop : ∀ c ∈ rest.head?, c.isDigit = false ∧ c ≠ '.' := by
              simpa [Token.standsApart, Option.all_eq_true] using hrest.standsApart
            exact fun c hc => (hstop c hc).2
        | _ => simp [Token.Begins, Mark.text] at hbegins
    | number whole fraction =>
        simp only [Token.isProper, Bool.and_eq_true, List.all_eq_true] at ht
        cases whole with
        | cons d whole =>
            have hd : d ≠ '.' := by
              rintro rfl
              exact absurd (ht.1.1 '.' (by simp)) (by decide)
            refine .inl fun rest _ => ?_
            rw [Token.text, List.cons_append, List.cons_append, pointStep, skip_cons_of_ne hd.symm,
              skip_cons_of_ne hd.symm]
            rfl
        | nil =>
            -- A number without digits in front of its point is read in part.
            obtain ⟨d, digits, rfl⟩ : ∃ d digits, fraction = some (d :: digits) := by
              cases fraction with
              | none => simp at ht
              | some fraction =>
                  cases fraction with
                  | nil => simp at ht
                  | cons d digits => exact ⟨d, digits, rfl⟩
            have hd : d.isDigit = true := by
              have hdigits : (d :: digits).all Char.isDigit = true := ht.1.2
              exact List.all_eq_true.1 hdigits d (by simp)
            refine .inr ⟨Step.self, d :: digits,
              ⟨by simp, .inr ⟨d, digits, rfl, stuck_of_isDigit hd⟩⟩, by simp [Token.text], ?_⟩
            intro rest _
            refine hself fun c hc => ?_
            obtain rfl : d = c := by simpa using hc
            rintro rfl
            exact absurd hd (by decide)
    | name first second | anyName qualifier =>
        exact absurd (show isWordStart '.' = true from hbegins) (by decide)
    | reference first second | literal quote text => simp [Token.Begins] at hbegins

/-! ## Repetition -/

section Repetition

variable {α : Type} {s s' : List Char}

/-- Two readers agree on texts that are alike and shorter than given limits. -/
def Agree (p : Place) (n n' : Nat) (f f' : Reader α) : Prop :=
  ∀ s s', Alike p s s' → s.length < n → s'.length < n' → SameRead s s' (f s) (f' s')

/-- Two repetitions read the same and go on in texts that are alike. -/
def SameRun (s s' : List Char) (run run' : α × List Char) : Prop :=
  run.1 = run'.1 ∧ Alike .operator run.2 run'.2 ∧ run.2.length ≤ s.length ∧
    run'.2.length ≤ s'.length

/-- Items that are read alike are repeated alike. -/
theorem many_same {n n' : Nat} {item item' : Reader α} (hitem : Agree .operator n n' item item')
    {limit limit' : Nat} (h : Alike .operator s s') (hn : s.length < n) (hn' : s'.length < n')
    (hlimit : s.length < limit) (hlimit' : s'.length < limit') :
    SameRun s s' (many item limit s) (many item' limit' s') := by
  induction limit generalizing limit' s s' with
  | zero => omega
  | succ limit ih =>
      obtain ⟨limit', rfl⟩ : ∃ m, limit' = m + 1 := Nat.exists_eq_add_of_le' (by omega)
      obtain ⟨place, place', hread, hread'⟩ | ⟨a, rest, rest', hread, hread', hrest, hlt, hlt'⟩ :=
        hitem s s' h hn hn'
      · rw [many_of_error hread, many_of_error hread']
        exact ⟨rfl, h, Nat.le_refl _, Nat.le_refl _⟩
      · have hlimit₂ : rest.length < limit := by omega
        have hlimit₂' : rest'.length < limit' := by omega
        obtain ⟨hsame, hmore, hle, hle'⟩ :=
          ih hrest (hlt.trans hn) (hlt'.trans hn') hlimit₂ hlimit₂'
        simp only [many, hread, hread']
        exact ⟨congrArg (a :: ·) hsame, hmore, hle.trans hlt.le, hle'.trans hlt'.le⟩

/-- Operands that are read alike are joined alike by operators that are tokens. -/
theorem chainFrom_same {n n' : Nat} {op : List Char → Option (BinaryOp × List Char)}
    (hop : Lexes .operator .operand op) {operand operand' : Reader Expr}
    (hoperand : Agree .operand n n' operand operand') {limit limit' : Nat} (left : Expr)
    (h : Alike .operator s s') (hn : s.length < n) (hn' : s'.length < n')
    (hlimit : s.length < limit) (hlimit' : s'.length < limit') :
    SameRun s s' (chainFrom op operand limit left s) (chainFrom op operand' limit' left s') := by
  induction limit generalizing limit' left s s' with
  | zero => omega
  | succ limit ih =>
      obtain ⟨limit', rfl⟩ : ∃ m, limit' = m + 1 := Nat.exists_eq_add_of_le' (by omega)
      obtain ⟨hfound, hfound'⟩ | ⟨o, rest, rest', hfound, hfound', hrest, hlt, hlt'⟩ :=
        hop.same (by decide) h
      · simp only [chainFrom, hfound, hfound']
        exact ⟨rfl, h, Nat.le_refl _, Nat.le_refl _⟩
      · have hle := length_dropSpace_le rest
        have hle' := length_dropSpace_le rest'
        simp only [chainFrom, hfound, hfound']
        obtain ⟨place, place', hread, hread'⟩ |
            ⟨e, tail, tail', hread, hread', htail, hlt₂, hlt₂'⟩ :=
          hoperand _ _ (hrest.flush (.inl rfl)) (hle.trans_lt (hlt.trans hn))
            (hle'.trans_lt (hlt'.trans hn'))
        · simp only [hread, hread']
          exact ⟨rfl, h, Nat.le_refl _, Nat.le_refl _⟩
        · simp only [hread, hread']
          have hlimit₂ : tail.length < limit := by omega
          have hlimit₂' : tail'.length < limit' := by omega
          obtain ⟨hsame, hmore, hle₂, hle₂'⟩ :=
            ih (.binary o left e) htail (by omega) (by omega) hlimit₂ hlimit₂'
          exact ⟨hsame, hmore, by omega, by omega⟩

theorem chain_same {n n' : Nat} {op : List Char → Option (BinaryOp × List Char)}
    (hop : Lexes .operator .operand op) {operand operand' : Reader Expr}
    (hoperand : Agree .operand (n + 1) (n' + 1) operand operand') :
    Agree .operand (n + 1) (n' + 1) (chain n op operand) (chain n' op operand') := by
  intro s s' h hn hn'
  refine (hoperand s s' h hn hn').bind fun left rest rest' hrest hlt hlt' => ?_
  obtain ⟨hsame, hmore, hle, hle'⟩ := chainFrom_same hop hoperand left hrest (hlt.trans hn)
    (hlt'.trans hn') (show rest.length < n by omega) (show rest'.length < n' by omega)
  exact .inr ⟨_, _, _, rfl, by rw [hsame]; rfl, hmore, by omega, by omega⟩

end Repetition

/-! ## What holds expressions in brackets -/

section Bracketed

variable {n n' : Nat} {inner inner' : Reader Expr} {s s' : List Char}

theorem predicate_same (hinner : Agree .operand n n' inner inner') :
    Agree .operator (n + 1) (n' + 1) (predicate inner) (predicate inner') := by
  intro s s' h hn hn'
  obtain ⟨hopen, hopen'⟩ | ⟨inside, inside', hopen, hopen', hinside, -, -, hlt, hlt'⟩ :=
    skipSpaced_same h (by decide) .openSquare rfl (by decide) rfl (.inl rfl)
  · simp only [predicate, hopen, hopen']
    exact .inl ⟨s, s', rfl, rfl⟩
  · simp only [predicate, hopen, hopen']
    have hread := hinner inside inside' (.inl hinside) (by omega) (by omega)
    refine (hread.mono hlt.le hlt'.le).bind ?_
    intro e rest rest' hrest hlt₂ hlt₂'
    obtain ⟨hclose, hclose'⟩ | ⟨left, left', hclose, hclose', hleft, -, -, hlt₃, hlt₃'⟩ :=
      skipSpaced_same hrest (by decide) .closeSquare rfl (by decide) rfl (.inr rfl)
    · simp only [hclose, hclose']
      exact .inl ⟨rest, rest', rfl, rfl⟩
    · simp only [hclose, hclose']
      exact .inr ⟨e, left, left', rfl, rfl, .inl hleft, by omega, by omega⟩

theorem step_eq (s : List Char) :
    step n inner s = (pointStep s).elim (axisTest s >>= fun found =>
      .ok (⟨found.1.1, found.1.2, (many (predicate inner) n found.2).1⟩,
        (many (predicate inner) n found.2).2)) .ok := by
  unfold step pointStep
  cases skip ['.', '.'] s <;> cases skip ['.'] s <;> rfl

/-- A step is read in both texts, or in none. -/
theorem step_same (hinner : Agree .operand n n' inner inner') (h : Alike .operand s s')
    (hn : s.length < n + 1) (hn' : s'.length < n' + 1) :
    SameRead s s' (step n inner (dropSpace s)) (step n' inner' (dropSpace s')) := by
  rw [step_eq, step_eq]
  obtain ⟨hpoint, hpoint'⟩ | ⟨found, rest, rest', hpoint, hpoint', hrest⟩ :=
    lexes_pointStep.same (by decide) h
  · rw [hpoint, hpoint']
    refine (axisTest_same h).bind fun found rest rest' hrest hlt hlt' => ?_
    obtain ⟨hsame, hmore, hle, hle'⟩ := many_same (predicate_same hinner) hrest (hlt.trans hn)
      (hlt'.trans hn') (show rest.length < n by omega) (show rest'.length < n' by omega)
    exact .inr ⟨_, _, _, rfl, by rw [hsame], hmore, hle.trans_lt hlt, hle'.trans_lt hlt'⟩
  · rw [hpoint, hpoint']
    exact .inr ⟨found, rest, rest', rfl, rfl, hrest⟩

/-- Where no step opens, none is read. -/
theorem step_of_not_opensStep (h : opensStep s = false) :
    ∃ place, step n inner s = .error place := by
  have htest : axisTest s = .error s := by
    have hnode := nodeTest_of_not_opensStep h
    cases s with
    | nil => rfl
    | cons c s =>
        simp only [opensStep, List.head?_cons, Option.any_some, Bool.or_eq_false_iff,
          beq_eq_false_iff_ne] at h
        have hname : isNameStart c = false := by
          by_contra hname
          simp [isWordStart_of_isNameStart (by simpa using hname)] at h
        rw [axisTest_of_skip_none (skip_cons_of_ne h.1.2.symm _ _),
          axis_of_head (by simpa using hname), Option.getD_none, hnode]
        rfl
  have hpoint : pointStep s = none := by
    cases s with
    | nil => rfl
    | cons c s =>
        simp only [opensStep, List.head?_cons, Option.any_some, Bool.or_eq_false_iff,
          beq_eq_false_iff_ne] at h
        rw [pointStep, skip_cons_of_ne h.2.symm, skip_cons_of_ne h.2.symm]
        rfl
  exact ⟨s, by rw [step_eq, hpoint, htest]; rfl⟩

/-- A step that has to follow at once is read in both texts, or in none. -/
theorem step_tight (hinner : Agree .operand n n' inner inner') (h : Respaced .step s s')
    (hn : s.length < n + 1) (hn' : s'.length < n' + 1) :
    SameRead s s' (step n inner s) (step n' inner' s') := by
  obtain ⟨hs, hs', -, h⟩ | ⟨hs, hs', -⟩ := h.tight (.inl rfl)
  · have hread := step_same hinner (.inl h) hn hn'
    rwa [hs, hs'] at hread
  · obtain ⟨place, hread⟩ := step_of_not_opensStep hs
    obtain ⟨place', hread'⟩ := step_of_not_opensStep hs'
    exact .inl ⟨place, place', hread, hread'⟩

theorem exists_qName {name rest : List Char} (h : ncName s = some (name, rest)) :
    ∃ found, qName s = some found := by
  by_cases hcolon : ∃ more, rest = ':' :: more
  · obtain ⟨more, rfl⟩ := hcolon
    exact ⟨_, qName_of_ncName_colon h⟩
  · refine ⟨_, qName_of_ncName h fun c hc => ?_⟩
    obtain ⟨more, rfl⟩ := List.head?_eq_some_iff.1 hc
    rintro rfl
    exact hcolon ⟨more, rfl⟩

/-- Where no node test is read no name starts. -/
theorem ncName_of_nodeTest_error {place : List Char} (h : nodeTest s = .error place) :
    ncName s = none := by
  cases hname : ncName s with
  | none => rfl
  | some found =>
      obtain ⟨name, hq⟩ := exists_qName hname
      rw [nodeTest_eq, hq, Option.map_some] at h
      cases hfound : (((skip ['*'] s).map (NodeTest.any, ·)).or ((kindTest s).or
          ((instructionTest s).or ((qualifiedTest s).or
            (some (NodeTest.name (String.ofList name.1), name.2)))))) with
      | some test =>
          rw [hfound] at h
          simp at h
      | none => simp at hfound

theorem nodeTest_of_step_error {c : Char} {cs place : List Char} (hdot : c ≠ '.') (hat : c ≠ '@')
    (haxis : axis (c :: cs) = none) (h : step n inner (c :: cs) = .error place) :
    ∃ place, nodeTest (c :: cs) = .error place := by
  have hpoint : pointStep (c :: cs) = none := by
    rw [pointStep, skip_cons_of_ne hdot.symm, skip_cons_of_ne hdot.symm]
    rfl
  rw [step_eq, hpoint, axisTest_of_skip_none (skip_cons_of_ne hat.symm _ _), haxis,
    Option.getD_none] at h
  cases hnode : nodeTest (c :: cs) with
  | error place => exact ⟨place, rfl⟩
  | ok found => simp [hnode, Except.map, bind, Except.bind] at h

/-- Where no step is read, what opens a step is no operator either. -/
theorem Respaced.operator_of_error (h : Respaced .operand s s') (hopens : opensStep s = true)
    (hflush : dropSpace s = s) (hflush' : dropSpace s' = s') {place : List Char}
    (hread : step n inner s = .error place) : Respaced .operator s s' := by
  obtain ⟨hs, hs'⟩ | ⟨t, rest, rest', ht, hends, hends', h, hs, hs'⟩ := h.front (by decide)
  · rw [← hflush, hs] at hopens
    simp [opensStep] at hopens
  · rw [hflush] at hs
    rw [hflush'] at hs'
    subst hs hs'
    refine .cons ht hends hends' ?_
    suffices hnext : Place.operator.next [] t = Place.operand.next [] t by rwa [hnext]
    cases t with
    | name first second =>
        cases second with
        | some second => rfl
        | none =>
            by_cases hfirst : first ∈ operatorWords
            · -- The words that are operators are names as well, and no axes.
              exfalso
              rw [show Token.text (.name first none) = first from List.append_nil first] at hread
              simp only [operatorWords, List.mem_cons, List.not_mem_nil, or_false] at hfirst
              obtain rfl | rfl | rfl | rfl := hfirst <;>
                · obtain ⟨place, hnode⟩ := nodeTest_of_step_error (by decide) (by decide) rfl hread
                  have hname := ncName_of_nodeTest_error hnode
                  rw [ncName, if_pos (by decide)] at hname
                  simp at hname
            · simp [Place.next, hfirst]
    | mark m =>
        cases m with
        | asterisk =>
            obtain ⟨place, hnode⟩ := nodeTest_of_step_error (by decide) (by decide) rfl hread
            have hany : nodeTest ('*' :: rest) = .ok (.any, rest) := rfl
            exact absurd (hany.symm.trans hnode) (by simp)
        | slash | slashes =>
            exact absurd hopens (by simp [opensStep, Token.text, Mark.text]; decide)
        | _ => rfl
    | _ => rfl

/-- A step that may follow a `/` at the beginning of a path is read in both texts, or the path is
over in both. -/
theorem step_root (hinner : Agree .operand n n' inner inner') (h : Respaced .root s s')
    (hn : s.length < n + 1) (hn' : s'.length < n' + 1) :
    (∃ place place', step n inner s = .error place ∧ step n' inner' s' = .error place' ∧
      Respaced .operator s s') ∨
    ∃ a rest rest', step n inner s = .ok (a, rest) ∧ step n' inner' s' = .ok (a, rest') ∧
      Alike .operator rest rest' ∧ rest.length < s.length ∧ rest'.length < s'.length := by
  obtain ⟨hs, hs', hopens, h⟩ | ⟨hs, hs', hover⟩ := h.tight (.inr rfl)
  · have hread := step_same hinner (.inl h) hn hn'
    rw [hs, hs'] at hread
    obtain ⟨place, place', hread, hread'⟩ | hread := hread
    · exact .inl ⟨place, place', hread, hread', h.operator_of_error hopens hs hs' hread⟩
    · exact .inr hread
  · obtain ⟨place, hread⟩ : ∃ place, step n inner s = .error place := step_of_not_opensStep hs
    obtain ⟨place', hread'⟩ := step_of_not_opensStep hs'
    exact .inl ⟨place, place', hread, hread', hover rfl⟩

theorem furtherStep_same (hinner : Agree .operand n n' inner inner') :
    Agree .operator (n + 1) (n' + 1) (furtherStep n inner) (furtherStep n' inner') := by
  intro s s' h hn hn'
  have hspaced {mark s : List Char} : skipSpaced mark s = (skip mark (dropSpace s)).map dropSpace :=
    rfl
  obtain ⟨htwo, htwo', hone, hone'⟩ | ⟨rest, rest', htwo, htwo', hrest, hlt, hlt'⟩ |
      ⟨rest, rest', htwo, htwo', hone, hone', hrest, hlt, hlt'⟩ := slash_same h (by decide)
  · simp only [furtherStep, hspaced, htwo, htwo', hone, hone', Option.map_none]
    exact .inl ⟨s, s', rfl, rfl⟩
  · simp only [furtherStep, hspaced, htwo, htwo', Option.map_some]
    exact ((step_same hinner (.inl hrest) (by omega) (by omega)).mono hlt.le hlt'.le).map
      fun next => [Step.descendantOrSelf, next]
  · simp only [furtherStep, hspaced, htwo, htwo', hone, hone', Option.map_none, Option.map_some]
    exact ((step_same hinner (.inl hrest) (by omega) (by omega)).mono hlt.le hlt'.le).map
      fun next => [next]

theorem furtherSteps_same (hinner : Agree .operand n n' inner inner') (h : Alike .operator s s')
    (hn : s.length < n) (hn' : s'.length < n') :
    SameRun s s' (furtherSteps n inner s) (furtherSteps n' inner' s') := by
  obtain ⟨hsame, hmore, hle, hle'⟩ :=
    many_same (furtherStep_same hinner) h (hn.trans n.lt_succ_self) (hn'.trans n'.lt_succ_self)
      hn hn'
  exact ⟨congrArg List.flatten hsame, hmore, hle, hle'⟩

/-- A path is read in both texts, or in none. -/
theorem locationPath_same (hinner : Agree .operand n n' inner inner') (h : Alike .operand s s')
    (hn : s.length < n + 1) (hn' : s'.length < n' + 1) :
    SameRead s s' (locationPath n inner (dropSpace s)) (locationPath n' inner' (dropSpace s')) := by
  -- What follows the first step is the same for all three beginnings.
  have hfurther (start : StartOf Expr) (before : List Step) (first : Step) {rest rest' : List Char}
      (hrest : Alike .operator rest rest') (hlt : rest.length < s.length)
      (hlt' : rest'.length < s'.length) :
      SameRead s s'
        (.ok (Expr.path start (before ++ first :: (furtherSteps n inner rest).1),
          (furtherSteps n inner rest).2))
        (.ok (Expr.path start (before ++ first :: (furtherSteps n' inner' rest').1),
          (furtherSteps n' inner' rest').2)) := by
    obtain ⟨hsame, hmore, hle, hle'⟩ := furtherSteps_same hinner hrest
      (show rest.length < n by omega) (show rest'.length < n' by omega)
    exact .inr ⟨_, _, _, rfl, by rw [hsame], hmore, hle.trans_lt hlt, hle'.trans_lt hlt'⟩
  obtain ⟨htwo, htwo', hone, hone'⟩ | ⟨rest, rest', htwo, htwo', hrest, hlt, hlt'⟩ |
      ⟨rest, rest', htwo, htwo', hone, hone', hrest, hlt, hlt'⟩ := slash_same h (by decide)
  · simp only [locationPath, htwo, htwo', hone, hone']
    exact (step_same hinner h hn hn').bind fun first rest rest' hrest hlt hlt' =>
      hfurther .context [] first hrest hlt hlt'
  · simp only [locationPath, htwo, htwo']
    have hrest : Respaced .step rest rest' := hrest
    exact ((step_tight hinner hrest (by omega) (by omega)).mono hlt.le hlt'.le).bind
      fun first rest rest' hrest hlt hlt' =>
        hfurther .root [Step.descendantOrSelf] first hrest hlt hlt'
  · simp only [locationPath, htwo, htwo', hone, hone']
    have hrest : Respaced .root rest rest' := hrest
    obtain ⟨place, place', hread, hread', hover⟩ |
        ⟨first, left, left', hread, hread', hleft, hlt₂, hlt₂'⟩ :=
      step_root hinner hrest (by omega) (by omega)
    · simp only [hread, hread']
      exact .inr ⟨_, rest, rest', rfl, rfl, .inl hover, hlt, hlt'⟩
    · simp only [hread, hread']
      exact hfurther .root [] first hleft (hlt₂.trans hlt) (hlt₂'.trans hlt')

/-! ## Primary expressions -/

theorem furtherArg_same (hinner : Agree .operand n n' inner inner') :
    Agree .operator n n' (furtherArg inner) (furtherArg inner') := by
  intro s s' h hn hn'
  obtain ⟨hcomma, hcomma'⟩ | ⟨rest, rest', hcomma, hcomma', hrest, -, -, hlt, hlt'⟩ :=
    skipSpaced_same h (by decide) .comma rfl (by decide) rfl (.inl rfl)
  · simp only [furtherArg, hcomma, hcomma']
    exact .inl ⟨s, s', rfl, rfl⟩
  · simp only [furtherArg, hcomma, hcomma']
    exact (hinner rest rest' (.inl hrest) (by omega) (by omega)).mono hlt.le hlt'.le

/-- Arguments are read the same, up to where texts are alike. -/
theorem args_same (hinner : Agree .operand n n' inner inner') (h : Alike .operand s s')
    (hn : s.length < n) (hn' : s'.length < n') :
    (args n inner s).1 = (args n' inner' s').1 ∧
    (∃ p : Place, p ≠ .root ∧ Alike p (args n inner s).2 (args n' inner' s').2) ∧
    (args n inner s).2.length ≤ s.length ∧ (args n' inner' s').2.length ≤ s'.length := by
  obtain ⟨place, place', hread, hread'⟩ | ⟨first, rest, rest', hread, hread', hrest, hlt, hlt'⟩ :=
    hinner s s' h hn hn'
  · simp only [args, hread, hread']
    exact ⟨trivial, ⟨.operand, by decide, h⟩, Nat.le_refl _, Nat.le_refl _⟩
  · obtain ⟨hsame, hmore, hle, hle'⟩ := many_same (furtherArg_same hinner) hrest (hlt.trans hn)
      (hlt'.trans hn') (hlt.trans hn) (hlt'.trans hn')
    simp only [args, hread, hread', hsame]
    exact ⟨trivial, ⟨.operator, by decide, hmore⟩, hle.trans hlt.le, hle'.trans hlt'.le⟩

theorem functionCall_same (hinner : Agree .operand n n' inner inner') (h : Alike .operand s s')
    (hn : s.length < n + 1) (hn' : s'.length < n' + 1) :
    SameFind .operator s s' (functionCall n inner (dropSpace s))
      (functionCall n' inner' (dropSpace s')) := by
  obtain ⟨hname, hname'⟩ | ⟨name, rest, rest', hname, hname', hrest, hlt, hlt'⟩ :=
    lexes_qName.same (by decide) h
  · exact .inl ⟨by simp [functionCall, hname], by simp [functionCall, hname']⟩
  · obtain ⟨hopen, hopen'⟩ | ⟨inside, inside', hopen, hopen', hinside, -, -, hlt₂, hlt₂'⟩ :=
      skipSpaced_same hrest (by decide) .openRound rfl (by decide) rfl (.inl rfl)
    · exact .inl ⟨by simp [functionCall, hname, hopen], by simp [functionCall, hname', hopen']⟩
    · obtain ⟨hsame, ⟨p, hp, hmore⟩, hle, hle'⟩ :=
        args_same hinner (.inl hinside) (by omega) (by omega)
      by_cases hkind : String.ofList name ∈ kindNames
      · exact .inl ⟨by simp [functionCall, hname, hopen, hkind, guard],
          by simp [functionCall, hname', hopen', hkind, guard]⟩
      · obtain ⟨hclose, hclose'⟩ | ⟨left, left', hclose, hclose', hleft, -, -, hlt₃, hlt₃'⟩ :=
          skipSpaced_same hmore hp .closeRound rfl (by decide) rfl (.inr rfl)
        · exact .inl ⟨by simp [functionCall, hname, hopen, hclose],
            by simp [functionCall, hname', hopen', hclose']⟩
        · exact .inr ⟨.call (String.ofList name) (args n inner inside).1, left, left',
            by simp [functionCall, hname, hopen, hclose, hkind, guard],
            by simp [functionCall, hname', hopen', hclose', hkind, guard, hsame], .inl hleft,
            by omega, by omega⟩

theorem bracketed_same (hinner : Agree .operand n n' inner inner') (h : Alike .operand s s')
    (hn : s.length < n + 1) (hn' : s'.length < n' + 1) :
    SameFind .operator s s' (bracketed inner (dropSpace s)) (bracketed inner' (dropSpace s')) := by
  have hspace (s : List Char) : skipSpaced ['('] (dropSpace s) = skipSpaced ['('] s :=
    skipSpaced_congr (dropSpace_dropSpace s) _
  obtain ⟨hopen, hopen'⟩ | ⟨inside, inside', hopen, hopen', hinside, -, -, hlt, hlt'⟩ :=
    skipSpaced_same h (by decide) .openRound rfl (by decide) rfl (.inl rfl)
  · exact .inl ⟨by simp [bracketed, hspace, hopen], by simp [bracketed, hspace, hopen']⟩
  · obtain ⟨place, place', hread, hread'⟩ | ⟨e, rest, rest', hread, hread', hrest, hlt₂, hlt₂'⟩ :=
      hinner inside inside' (.inl hinside) (by omega) (by omega)
    · exact .inl ⟨by simp [bracketed, hspace, hopen, hread, Except.toOption],
        by simp [bracketed, hspace, hopen', hread', Except.toOption]⟩
    · obtain ⟨hclose, hclose'⟩ | ⟨left, left', hclose, hclose', hleft, -, -, hlt₃, hlt₃'⟩ :=
        skipSpaced_same hrest (by decide) .closeRound rfl (by decide) rfl (.inr rfl)
      · exact .inl ⟨by simp [bracketed, hspace, hopen, hread, hclose, Except.toOption],
          by simp [bracketed, hspace, hopen', hread', hclose', Except.toOption]⟩
      · exact .inr ⟨e, left, left',
          by simp [bracketed, hspace, hopen, hread, hclose, Except.toOption],
          by simp [bracketed, hspace, hopen', hread', hclose', Except.toOption], .inl hleft,
          by omega, by omega⟩

/-- A primary expression is the first of its kinds that is found. -/
theorem primary_eq (s : List Char) :
    primary n inner s = (variableRef s).or (((number s).map fun found =>
      (Expr.number found.1, found.2)).or (((literal s).map fun found =>
        (Expr.literal (String.ofList found.1), found.2)).or
          ((functionCall n inner s).or (bracketed inner s)))) := by
  unfold primary
  cases variableRef s <;> cases number s <;> cases literal s <;>
    cases functionCall n inner s <;> rfl

theorem filtered_same (hinner : Agree .operand n n' inner inner') (h : Alike .operand s s')
    (hn : s.length < n + 1) (hn' : s'.length < n' + 1) :
    SameFind .operator s s' (filtered n inner (dropSpace s))
      (filtered n' inner' (dropSpace s')) := by
  have hprimary : SameFind .operator s s' (primary n inner (dropSpace s))
      (primary n' inner' (dropSpace s')) := by
    rw [primary_eq, primary_eq]
    exact (lexes_variableRef.same (by decide) h).or
      (((lexes_number.same (by decide) h).map Expr.number).or
        (((lexes_literal.same (by decide) h).map fun text => .literal (String.ofList text)).or
          ((functionCall_same hinner h hn hn').or (bracketed_same hinner h hn hn'))))
  obtain ⟨hfound, hfound'⟩ | ⟨e, rest, rest', hfound, hfound', hrest, hlt, hlt'⟩ := hprimary
  · exact .inl ⟨by simp [filtered, hfound], by simp [filtered, hfound']⟩
  · obtain ⟨hsame, hmore, hle, hle'⟩ := many_same (predicate_same hinner) hrest (hlt.trans hn)
      (hlt'.trans hn') (show rest.length < n by omega) (show rest'.length < n' by omega)
    exact .inr ⟨_, _, _, by simp [filtered, hfound]; rfl, by simp [filtered, hfound', hsame], hmore,
      hle.trans_lt hlt, hle'.trans_lt hlt'⟩

theorem path_same (hinner : Agree .operand n n' inner inner') :
    Agree .operand (n + 1) (n' + 1) (path n inner) (path n' inner') := by
  intro s s' h hn hn'
  obtain ⟨hfound, hfound'⟩ | ⟨e, rest, rest', hfound, hfound', hrest, hlt, hlt'⟩ :=
    filtered_same hinner h hn hn'
  · simp only [path, hfound, hfound']
    obtain ⟨place, place', hread, hread'⟩ | ⟨e, rest, rest', hread, hread', hrest, hlt, hlt'⟩ :=
      locationPath_same hinner h hn hn'
    · rw [hread, hread']
      exact .inl ⟨place, place', rfl, rfl⟩
    · rw [hread, hread']
      exact .inr ⟨e, dropSpace rest, dropSpace rest', rfl, rfl, hrest.flush (.inr rfl),
        (length_dropSpace_le rest).trans_lt hlt, (length_dropSpace_le rest').trans_lt hlt'⟩
  · obtain ⟨hsame, hmore, hle, hle'⟩ := furtherSteps_same hinner hrest
      (show rest.length < n by omega) (show rest'.length < n' by omega)
    simp only [path, hfound, hfound', hsame]
    exact .inr ⟨_, _, _, rfl, rfl, hmore.flush (.inr rfl),
      (length_dropSpace_le _).trans_lt (hle.trans_lt hlt),
      (length_dropSpace_le _).trans_lt (hle'.trans_lt hlt')⟩

/-! ## Expressions -/

theorem unionExpr_same (hinner : Agree .operand n n' inner inner') :
    Agree .operand (n + 1) (n' + 1) (unionExpr n inner) (unionExpr n' inner') :=
  chain_same lexes_unionOp (path_same hinner)

/-- A sign is found in both texts, or in none. -/
theorem minus_same (h : Alike .operand s s') :
    (∀ c ∈ (dropSpace s).head?, c ≠ '-') ∧ (∀ c ∈ (dropSpace s').head?, c ≠ '-') ∨
    ∃ rest rest', dropSpace s = '-' :: rest ∧ dropSpace s' = '-' :: rest' ∧
      Respaced .operand rest rest' ∧ rest.length < s.length ∧ rest'.length < s'.length := by
  obtain ⟨hs, hs'⟩ | ⟨c, cs, cs', hc, hs, hs'⟩ |
      ⟨t, rest, rest', ht, -, -, h, hs, hs', hlt, hlt'⟩ := h.front (by decide)
  · rw [hs, hs']
    exact .inl (by simp)
  · rw [hs, hs']
    exact .inl (by simpa using hc.ne_minus)
  · by_cases hminus : t = .mark .minus
    · subst hminus
      exact .inr ⟨rest, rest', hs, hs', h, hlt, hlt'⟩
    · obtain ⟨c, cs, htext, hbegins⟩ := t.exists_begins ht
      have hc : c ≠ '-' := by
        rintro rfl
        obtain ⟨m, rfl, hm⟩ := hbegins.exists_mark (by decide)
        cases m <;> simp [Mark.text] at hm hminus
      rw [hs, hs', htext]
      exact .inl (by simpa using hc)

/-- Behind a sign a signed expression is tried first. -/
theorem signed_minus {rest : List Char} (h : dropSpace s = '-' :: rest) :
    signed n inner s = match signed n inner (dropSpace rest) with
      | .ok (e, left) => .ok (.negate e, left)
      | .error _ => unionExpr n inner s := by
  rw [signed]
  split
  · next more hmore =>
    obtain rfl := (List.cons.inj (h.symm.trans hmore)).2
    rfl
  · next hother => exact absurd h (hother rest)

theorem signed_same (hinner : Agree .operand n n' inner inner') :
    Agree .operand (n + 1) (n' + 1) (signed n inner) (signed n' inner') := by
  intro s s' h hn hn'
  induction hlength : s.length using Nat.strong_induction_on generalizing s s' with
  | _ length ih =>
      have hunion := unionExpr_same hinner s s' h hn hn'
      obtain ⟨hs, hs'⟩ | ⟨rest, rest', hs, hs', hrest, hlt, hlt'⟩ := minus_same h
      · rw [signed_of_ne hs, signed_of_ne hs']
        exact hunion
      · have hle := length_dropSpace_le rest
        have hle' := length_dropSpace_le rest'
        have hread := ih _ (by omega) (dropSpace rest) (dropSpace rest')
          ((Alike.flush (.inl hrest)) (.inl rfl)) (by omega) (by omega) rfl
        rw [signed_minus hs, signed_minus hs']
        obtain ⟨place, place', hread, hread'⟩ |
            ⟨e, left, left', hread, hread', hleft, hlt₂, hlt₂'⟩ := hread
        · rw [hread, hread']
          exact hunion
        · rw [hread, hread']
          exact .inr ⟨.negate e, left, left', rfl, rfl, hleft, by omega, by omega⟩

theorem expr_same (hinner : Agree .operand n n' inner inner') :
    Agree .operand (n + 1) (n' + 1) (expr n inner) (expr n' inner') :=
  chain_same lexes_orOp (chain_same lexes_andOp (chain_same lexes_equalityOp
    (chain_same lexes_orderOp (chain_same lexes_sumOp (chain_same lexes_productOp
      (signed_same hinner))))))

end Bracketed

/-- Expressions are read alike from texts that are alike, whatever the limits. -/
theorem exprAt_same (n n' : Nat) : Agree .operand n n' (exprAt n) (exprAt n') := by
  induction n generalizing n' with
  | zero =>
      intro s s' _ hn _
      omega
  | succ n ih =>
      cases n' with
      | zero =>
          intro s s' _ _ hn'
          omega
      | succ n' => exact expr_same (ih n')

/-! ## Whole expressions -/

theorem Alike.eq_nil_iff {p : Place} {s s' : List Char} (h : Alike p s s') : s = [] ↔ s' = [] := by
  obtain h | ⟨c, cs, cs', -, rfl, rfl⟩ := h
  · cases h with
    | done => exact Iff.rfl
    | token _ _ ht => simp [Token.text_ne_nil ht]
  · simp

/-- What is read of a text without the blanks around it, and whether that is all of it. -/
theorem toOption_parse (source : String) :
    (Expr.parse source).toOption =
      match exprAt ((trim isBlank source.toList).length + 1) (trim isBlank source.toList) with
      | .ok (e, []) => some e
      | _ => none := by
  have hempty : ∃ place, exprAt 1 [] = .error place :=
    ⟨_, exprAt_of_error (n := 0) (s := []) rfl (by simp [dropSpace])⟩
  unfold Expr.parse
  generalize trim isBlank source.toList = s
  cases s with
  | nil =>
      obtain ⟨place, hplace⟩ := hempty
      rw [List.length_nil, hplace]
      rfl
  | cons c s =>
      simp only
      split <;> simp_all [Except.toOption]

end Restyle.Grammar

namespace Restyle

open Grammar

/-- Two spellings of the same tokens are read as the same expression, or both as none.  They may
differ in all white space between tokens, and in whether there is any, but for the white space
around `::`, and between `@`, or the slashes that begin a path, and the step behind. -/
theorem Expr.parse_respaced {parts parts' : List Spaced} {tail tail' : List Char}
    (hparts : isSpelled parts = true) (hparts' : isSpelled parts' = true)
    (htail : tail.all Text.isXmlSpace = true) (htail' : tail'.all Text.isXmlSpace = true)
    (htokens : parts.map (·.token) = parts'.map (·.token))
    (hties : sameTies .operand parts parts' = true) :
    (Expr.parse (String.ofList (spell parts ++ tail))).toOption =
      (Expr.parse (String.ofList (spell parts' ++ tail'))).toOption := by
  have halike : Alike .operand (dropSpace (spell parts)) (dropSpace (spell parts')) :=
    .inl ((respaced_of_isSpelled hparts hparts' htokens hties).flush (.inl rfl))
  rw [toOption_parse, toOption_parse, String.toList_ofList, String.toList_ofList,
    trim_spell hparts htail, trim_spell hparts' htail']
  obtain ⟨place, place', hread, hread'⟩ | ⟨e, rest, rest', hread, hread', hrest, -, -⟩ :=
    exprAt_same _ _ _ _ halike (Nat.lt_succ_self _) (Nat.lt_succ_self _)
  · rw [hread, hread']
  · rw [hread, hread']
    cases rest with
    | nil => rw [hrest.eq_nil_iff.1 rfl]
    | cons c rest =>
        obtain ⟨d, rest', rfl⟩ := List.exists_cons_of_ne_nil fun hnil =>
          List.cons_ne_nil c rest (hrest.eq_nil_iff.2 hnil)
        rfl

/-- The texts `//a [ @id ]` and `  //a[@id  ]` with a line feed behind it are read as the same
expression. -/
theorem Expr.parse_respaced_predicate :
    (Expr.parse "//a [ @id ]").toOption = (Expr.parse "  //a[@id  ]\n").toOption ∧
      (Expr.parse "//a [ @id ]").toOption.isSome = true :=
  ⟨@Expr.parse_respaced
    [⟨[], .mark .slashes⟩, ⟨[], .name ['a'] none⟩, ⟨[' '], .mark .openSquare⟩,
      ⟨[' '], .mark .attribute⟩, ⟨[], .name ['i', 'd'] none⟩, ⟨[' '], .mark .closeSquare⟩]
    [⟨[' ', ' '], .mark .slashes⟩, ⟨[], .name ['a'] none⟩, ⟨[], .mark .openSquare⟩,
      ⟨[], .mark .attribute⟩, ⟨[], .name ['i', 'd'] none⟩, ⟨[' ', ' '], .mark .closeSquare⟩]
    [] ['\n'] (by decide) (by decide) (by decide) (by decide) (by decide) (by decide), by cbv⟩

/-- White space behind `@` counts: the two tokens of `@id`, written with a space between them, are
no expression any more. -/
theorem Expr.parse_gap_counts :
    ∃ parts parts' : List Spaced, isSpelled parts = true ∧ isSpelled parts' = true ∧
      parts.map (·.token) = parts'.map (·.token) ∧
      (Expr.parse (String.ofList (spell parts))).toOption.isSome = true ∧
      (Expr.parse (String.ofList (spell parts'))).toOption.isSome = false :=
  ⟨[⟨[], .mark .attribute⟩, ⟨[], .name ['i', 'd'] none⟩],
    [⟨[], .mark .attribute⟩, ⟨[' '], .name ['i', 'd'] none⟩], by decide, by decide, rfl,
    by cbv, by cbv⟩

/-- It also counts on both sides of `::` and behind the slashes that begin a path. -/
example : ["child ::a", "child:: a", "/ a", "// a"].map (fun source => (Expr.parse source).isOk) =
    [false, false, false, false] := by cbv

end Restyle
