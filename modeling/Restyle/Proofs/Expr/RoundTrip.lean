import Mathlib
import Restyle.Proofs.Expr.StepText

/-!
# Restyle.Proofs.Expr.RoundTrip

Expressions read back: the text of an expression, with as few brackets as can be, is read as that
expression.

* `reads_call`, `reads_filter`, `readsOn_binary`, … — how each form of expression is read;
* `Expr.readable` — every expression that can be written is read back in every place;
* `Expr.parse_written` — reading undoes writing.
-/

namespace Restyle

open Grammar

variable {n : Nat} {rest : List Char}

/-! ## What paths may start with -/

theorem reads_variable {name : String} (h : isQName name.toList = true) :
    Reads n 0 ('$' :: name.toList) (.variable name) := by
  intro rest hrest
  refine ⟨rest, ?_, rfl⟩
  have hread := qName_append h hrest.not_isNameChar
  simp [primary, variableRef, hread, String.ofList_toList]

/-- What is read as a number in front of anything that may follow is an expression. -/
theorem reads_of_number {c : Char} {cs : List Char} {value : Double} (hc : '$' ≠ c)
    (hread : ∀ rest, (∀ d ∈ rest.head?, d.isDigit = false ∧ d ≠ '.') →
      number (c :: cs ++ rest) = some (value, rest)) : Reads n 0 (c :: cs) (.number value) := by
  intro rest hrest
  refine ⟨rest, ?_, rfl⟩
  have hvariable : variableRef (c :: cs ++ rest) = none := by simp [variableRef, skip_cons_of_ne hc]
  simp only [primary, hvariable, hread rest hrest.not_isDigit]

theorem reads_number {value : Double} (h : value.isPlain = true) :
    Reads n 0 value.text.toList (.number value) := by
  obtain ⟨c, cs, hc, hdigit, -⟩ := exists_digit_text h
  have hne : '$' ≠ c := by
    rintro rfl
    exact absurd hdigit (by decide)
  rw [hc]
  exact reads_of_number hne fun rest hrest => hc ▸ number_text h hrest

theorem reads_literal {text : String} (h : isQuotable text.toList = true) :
    Reads n 0 (quotedText text.toList) (.literal text) := by
  intro rest _
  refine ⟨rest, ?_, rfl⟩
  have hread := literal_quotedText h rest
  have hquote : variableRef (quotedText text.toList ++ rest) = none ∧
      number (quotedText text.toList ++ rest) = none := by
    unfold quotedText
    split <;> exact ⟨rfl, rfl⟩
  simp only [primary, hquote, hread, String.ofList_toList]

/-- What starts like a name is no variable, number or text. -/
theorem primary_of_isNameStart {c : Char} (h : isNameStart c = true) (s : List Char)
    {found : Expr × List Char} (hcall : functionCall n (exprAt n) (c :: s) = some found) :
    primary n (exprAt n) (c :: s) = some found := by
  have hvariable : variableRef (c :: s) = none := by
    have hdollar : '$' ≠ c := (ne_of_isNameStart h (by decide)).symm
    simp [variableRef, skip_cons_of_ne hdollar]
  have hnumber : number (c :: s) = none := by
    have hdigit : c.isDigit = false := by
      by_contra hc
      rw [(digit_facts (by simpa using hc)).2] at h
      simp at h
    have hpoint : c ≠ '.' := ne_of_isNameStart h (by decide)
    simp [number, hdigit]
    split <;> simp_all
  have hliteral : literal (c :: s) = none := by
    have hsingle : c ≠ '\'' := ne_of_isNameStart h (by decide)
    have hdouble : c ≠ '"' := ne_of_isNameStart h (by decide)
    unfold literal
    split <;> simp_all
  simp only [primary, hvariable, hnumber, hliteral, hcall]

theorem reads_call {name : String} {es : List Expr} (hname : isQName name.toList = true)
    (hkind : kindNames.contains name = false) (hes : ∀ e ∈ es, e.Readable)
    (hn : (Expr.call name es).written.length ≤ n) :
    Reads n 0 (Expr.call name es).written (.call name es) := by
  intro rest _
  have htext : (Expr.call name es).written ++ rest =
      name.toList ++ '(' :: (writtenArgs [] es ++ ')' :: rest) := by simp [Expr.written]
  have hlength : (writtenArgs [] es).length < n := by
    simp [Expr.written] at hn
    omega
  have hparen : ∀ c ∈ ('(' :: (writtenArgs [] es ++ ')' :: rest)).head?,
      isNameChar c = false ∧ c ≠ ':' := by
    simp
    decide
  have hread := qName_append hname hparen
  obtain ⟨left, hargs, hleft⟩ := args_written hes hlength rest
  have hopen : skipSpaced ['('] ('(' :: (writtenArgs [] es ++ ')' :: rest)) =
      some (writtenArgs [] es ++ ')' :: rest) := by
    rw [skipSpaced, dropSpace_cons (by decide), skip_cons, skip_empty, Option.map_some]
    cases es with
    | nil => rfl
    | cons e es =>
        simp only [writtenArgs, List.nil_append, List.append_assoc]
        rw [(hes e List.mem_cons_self).starts.dropSpace_append]
  have hclose : skipSpaced [')'] left = some (dropSpace rest) := by
    rw [skipSpaced_congr hleft]
    rfl
  obtain ⟨c, cs, hc, hstart, -⟩ := exists_start_of_isQName hname
  refine ⟨dropSpace rest, ?_, dropSpace_dropSpace rest⟩
  rw [htext]
  rw [hc, List.cons_append] at hread ⊢
  refine primary_of_isNameStart hstart _ ?_
  simp only [functionCall, hread, hopen, hargs, hclose, Option.bind_eq_bind, Option.bind_some]
  rw [← hc, String.ofList_toList, hkind]
  rfl

theorem reads_filter {base : Expr} {predicates : List Expr} (hbase : base.Readable)
    (hne : predicates ≠ []) (hpredicates : ∀ e ∈ predicates, e.Readable)
    (hn : (Expr.filter base predicates).written.length ≤ n) :
    Reads n 1 (Expr.filter base predicates).written (.filter base predicates) := by
  intro rest hrest
  have htext : (Expr.filter base predicates).written =
      base.bracket 0 base.written ++ writtenPredicates predicates := rfl
  rw [htext, List.length_append] at hn
  rw [htext, List.append_assoc]
  have hfollows : Follows 0 (writtenPredicates predicates ++ rest) := by
    cases predicates with
    | nil => exact absurd rfl hne
    | cons e es => exact .bracket (by omega) _
  obtain ⟨middle, hread, hmiddle⟩ :=
    hbase.reads_bracket (n := n) (k := 0) (by omega) _ hfollows
  have hlength : (writtenPredicates predicates).length ≤ n := by omega
  obtain ⟨left, hnarrow, hleft⟩ := many_predicates hpredicates hlength hrest hmiddle
  have hempty : predicates.isEmpty = false := by simpa using hne
  refine ⟨left, ?_, hleft⟩
  simp only [filtered, hread, hnarrow, hempty, Option.bind_eq_bind, Option.bind_some]
  rfl

/-! ## Operators -/

theorem reads_negate {operand : Expr} (h : operand.Readable)
    (hn : (Expr.negate operand).written.length ≤ n) :
    Reads n 4 (Expr.negate operand).written (.negate operand) := by
  intro rest hrest
  have htext : (Expr.negate operand).written = '-' :: operand.bracket 4 operand.written := rfl
  rw [htext, List.length_cons] at hn
  have hread : signed n (exprAt n) (operand.bracket 4 operand.written ++ rest) =
      .ok (operand, dropSpace rest) :=
    h.reads_bracket (n := n) (k := 4) (by omega) rest hrest
  show signed n (exprAt n) _ = _
  rw [htext, List.cons_append, signed]
  split
  · next s hs =>
    rw [dropSpace_cons (by decide)] at hs
    obtain rfl := (List.cons.inj hs).2
    rw [(h.starts_bracket 4).dropSpace_append, hread]
  · next hs => exact absurd (dropSpace_cons (by decide) _) (hs _)

/-- Operands around an operator are read back, and more operators of its strength may follow. -/
theorem readsOn_binary {op : BinaryOp} {left right : Expr} (hleft : left.Readable)
    (hright : right.Readable) (hn : (Expr.binary op left right).written.length ≤ n) {k : Nat}
    (hlevel : op.looseness = k + 1) (hk : k = 2 ∨ 4 ≤ k) :
    ReadsOn n k (Expr.binary op left right).written (.binary op left right) := by
  intro rest hrest
  have htext : (Expr.binary op left right).written = left.bracket (k + 1) left.written ++
      ' ' :: op.mark ++ ' ' :: right.bracket k right.written := by
    simp [Expr.written, hlevel]
  have hlength : (left.bracket (k + 1) left.written).length + op.mark.length +
      (right.bracket k right.written).length + 2 = (Expr.binary op left right).written.length := by
    rw [htext]
    simp
    omega
  -- The left operand starts the chain; what it leaves of the limit is enough for this operator.
  obtain ⟨used, hused, hread⟩ := hleft.readsOn_bracket (n := n) hk (by omega) _
    (.op op (by omega) (right.bracket k right.written ++ rest))
  have hoperand : readerAt n k (right.bracket k right.written ++ rest) =
      .ok (right, dropSpace rest) := by
    obtain ⟨j, rfl⟩ : ∃ j, k = j + 2 := Nat.exists_eq_add_of_le' (by omega)
    exact hright.reads_bracket (n := n) (k := j + 2) (by omega) rest hrest
  have hop : levelOp (k + 1) (op.mark ++ ' ' :: (right.bracket k right.written ++ rest)) =
      some (op, ' ' :: (right.bracket k right.written ++ rest)) := by
    rw [← hlevel]
    exact levelOp_mark op _
  obtain ⟨limit, hlimit⟩ : ∃ limit, n - used = limit + 1 :=
    Nat.exists_eq_add_of_le' (by omega)
  refine ⟨used + 1, by omega, ?_⟩
  have hwhole : (Expr.binary op left right).written ++ rest = left.bracket (k + 1) left.written ++
      (' ' :: op.mark ++ ' ' :: (right.bracket k right.written ++ rest)) := by
    rw [htext]
    simp
  rw [hwhole, hread, hlimit, show n - (used + 1) = limit by omega]
  simp only [chainFrom, List.cons_append, dropSpace_space, dropSpace_mark, hop,
    (hright.starts_bracket k).dropSpace_append, hoperand]

/-! ## Every form of expression -/

theorem Grammar.Starts.append {k : Nat} {text : List Char} (h : Starts k text) (s : List Char) :
    Starts k (text ++ s) := by
  obtain ⟨c, cs, rfl, hc⟩ := h
  exact ⟨c, cs ++ s, rfl, hc⟩

/-- An expression without an operator on top cannot be gone on with at its own level. -/
theorem Expr.Readable.of_reads {e : Expr} (k : Nat) (hlevel : e.looseness = k) (hk : k ≤ 4)
    (hunion : k ≠ 3) (hstarts : Starts k e.written) (hends : Ends e.written)
    (hreads : ∀ n, e.written.length ≤ n → Reads n k e.written e) : e.Readable where
  starts := hlevel ▸ hstarts
  ends := hends
  reads hn := hlevel ▸ hreads _ hn
  readsOn _ _ _ := by omega

theorem readable_literal {text : String} (h : isQuotable text.toList = true) :
    (Expr.literal text).Readable := by
  refine .of_reads 0 rfl (by decide) (by decide) ?_ ?_ fun n _ => reads_literal h
  · simp only [Expr.written]
    unfold quotedText
    split <;> exact ⟨_, _, rfl, by decide, fun _ => by decide⟩
  · simp only [Expr.written]
    unfold quotedText
    split <;> exact ends_append_singleton (by decide) _

theorem readable_number {value : Double} (h : value.isPlain = true) :
    (Expr.number value).Readable := by
  obtain ⟨c, cs, hc, hdigit, hothers⟩ := exists_digit_text h
  have hchar {d : Char} (hd : d.isDigit = true) : Text.isBlank d = false :=
    not_isBlank_of_isNameChar (digit_facts hd).1
  refine .of_reads 0 rfl (by decide) (by decide) ?_ ?_ fun n _ => reads_number h
  · refine ⟨c, cs, hc, hchar hdigit, fun _ => ?_⟩
    rintro rfl
    exact absurd hdigit (by decide)
  · refine ends_of_forall fun d hd => ?_
    rw [Expr.written, hc] at hd
    obtain rfl | hd := List.mem_cons.1 hd
    · exact hchar hdigit
    · obtain hd | rfl := hothers d hd
      · exact hchar hd
      · decide

theorem readable_variable {name : String} (h : isQName name.toList = true) :
    (Expr.variable name).Readable := by
  refine .of_reads 0 rfl (by decide) (by decide) ?_ ?_ fun n _ => reads_variable h
  · exact ⟨'$', _, rfl, by decide, fun _ => by decide⟩
  · refine ends_of_forall fun c hc => ?_
    obtain rfl | hc := List.mem_cons.1 hc
    · decide
    · obtain hc | rfl := isNameChar_or_colon h c hc
      · exact not_isBlank_of_isNameChar hc
      · decide

theorem readable_call {name : String} {es : List Expr} (hname : isQName name.toList = true)
    (hkind : kindNames.contains name = false) (hes : ∀ e ∈ es, e.Readable) :
    (Expr.call name es).Readable := by
  refine .of_reads 0 rfl (by decide) (by decide) ?_ ?_ fun n hn => reads_call hname hkind hes hn
  · obtain ⟨c, cs, hc, hstart, -⟩ := exists_start_of_isQName hname
    have hstarts : Starts 0 name.toList :=
      ⟨c, cs, hc, not_isBlank_of_isNameChar (isNameChar_of_isNameStart hstart),
        fun _ => ne_of_isNameStart hstart (by decide)⟩
    rw [Expr.written, List.append_assoc]
    exact hstarts.append _
  · exact ends_append_singleton (by decide) _

theorem readable_filter {base : Expr} {predicates : List Expr} (hbase : base.Readable)
    (hne : predicates ≠ []) (hpredicates : ∀ e ∈ predicates, e.Readable) :
    (Expr.filter base predicates).Readable :=
  .of_reads 1 rfl (by decide) (by decide) (((hbase.starts_bracket 0).append _).mono (by decide))
    ((hbase.ends_bracket 0).append (ends_predicates predicates))
    fun _ hn => reads_filter hbase hne hpredicates hn

theorem readable_negate {operand : Expr} (h : operand.Readable) : (Expr.negate operand).Readable :=
  .of_reads 4 rfl (by decide) (by decide) ⟨'-', _, rfl, by decide, by decide⟩
    ((ends_append_singleton (by decide) []).append (h.ends_bracket 4))
    fun _ hn => reads_negate h hn

theorem readable_binary {op : BinaryOp} {left right : Expr} (hleft : left.Readable)
    (hright : right.Readable) : (Expr.binary op left right).Readable := by
  obtain ⟨k, hlevel, hk, -⟩ := op.looseness_cases
  have hstarts := hright.starts_bracket (op.looseness - 1)
  have hne : right.bracket (op.looseness - 1) right.written ≠ [] := by
    obtain ⟨c, s, hc, -⟩ := hstarts
    simp [hc]
  refine ⟨?_, ?_, fun {n} hn => ?_, fun {n j} hn hj hj' => ?_⟩
  · rw [Expr.written, List.append_assoc]
    exact (hleft.starts_bracket op.looseness).append _
  · simp only [Expr.written]
    rw [List.append_cons]
    exact ends_append_of_ne_nil (hright.ends_bracket _) hne _
  · rw [Expr.looseness, hlevel]
    exact (readsOn_binary hleft hright hn hlevel hk).reads hk
  · exact readsOn_binary hleft hright hn hj hj'

theorem readable_path {start : StartOf Expr} {steps : List Step}
    (hstart : ∀ e, start = .value e → e.Readable)
    (hne : start.standsAlone = true ∨ steps ≠ []) (hsteps : ∀ next ∈ steps, StepReadable next) :
    (Expr.path start steps).Readable := by
  cases start with
  | root =>
      exact .of_reads 2 rfl (by decide) (by decide) ⟨'/', _, rfl, by decide, fun _ => by decide⟩
        ((ends_append_singleton (by decide) []).append (ends_steps hsteps (by simp [Ends, StartOf.lead])))
        fun _ hn => reads_root hsteps hn
  | context =>
      cases steps with
      | nil => simp [StartOf.standsAlone] at hne
      | cons next others =>
          refine .of_reads 2 rfl (by decide) (by decide) ?_ (ends_steps hsteps (by simp [Ends, StartOf.lead]))
            fun _ hn => reads_context (hsteps next List.mem_cons_self)
              (fun step hstep => hsteps step (List.mem_cons_of_mem next hstep)) hn
          exact starts_step 2 next _
  | value base =>
      have hbase := hstart base rfl
      have hsteps' : steps ≠ [] := by simpa [StartOf.standsAlone] using hne
      exact .of_reads 2 rfl (by decide) (by decide)
        (((hbase.starts_bracket 1).append _).mono (by decide))
        ((hbase.ends_bracket 1).append
          (ends_steps hsteps (ends_append_singleton (by decide) [])))
        fun _ hn => reads_value hbase hsteps' hsteps hn

mutual

/-- Every expression that can be written is read back in every place. -/
theorem Expr.readable : ∀ e : Expr, e.isWritable = true → e.Readable
  | .literal _, h => readable_literal h
  | .number _, h => readable_number h
  | .variable _, h => readable_variable h
  | .call name es, h => by
      simp only [Expr.isWritable, Bool.and_eq_true, Bool.not_eq_true'] at h
      exact readable_call h.1.1 h.1.2 (allReadable es h.2)
  | .filter base predicates, h => by
      simp only [Expr.isWritable, Bool.and_eq_true, Bool.not_eq_true'] at h
      exact readable_filter (Expr.readable base h.1.1) (by simpa using h.1.2)
        (allReadable predicates h.2)
  | .binary op left right, h => by
      simp only [Expr.isWritable, Bool.and_eq_true] at h
      exact readable_binary (Expr.readable left h.1) (Expr.readable right h.2)
  | .negate operand, h => readable_negate (Expr.readable operand h)
  | .path start steps, h => by
      simp only [Expr.isWritable, Bool.and_eq_true, Bool.or_eq_true, Bool.not_eq_true'] at h
      exact readable_path (startReadable start h.1.1) (by simpa using h.1.2)
        (stepsReadable steps h.2)

theorem allReadable : ∀ es : List Expr, allWritable es = true → ∀ e ∈ es, e.Readable
  | [], _ => by simp
  | e :: es, h => by
      simp only [allWritable, Bool.and_eq_true] at h
      exact List.forall_mem_cons.2 ⟨Expr.readable e h.1, allReadable es h.2⟩

theorem startReadable : ∀ start : StartOf Expr, startWritable start = true →
    ∀ e, start = .value e → e.Readable
  | .context, _ => by simp
  | .root, _ => by simp
  | .value base, h => by
      rintro e ⟨⟩
      exact Expr.readable base h

theorem stepsReadable : ∀ steps : List Step, stepsWritable steps = true →
    ∀ next ∈ steps, StepReadable next
  | [], _ => by simp
  | step :: steps, h => by
      simp only [stepsWritable, Bool.and_eq_true] at h
      exact List.forall_mem_cons.2 ⟨stepReadable step h.1, stepsReadable steps h.2⟩

theorem stepReadable : ∀ step : Step, stepWritable step = true → StepReadable step
  | ⟨_, _, predicates⟩, h => by
      simp only [stepWritable, Bool.and_eq_true] at h
      exact ⟨h.1, allReadable predicates h.2⟩

end

/-! ## Whole texts -/

theorem trim_eq_self {k : Nat} {text : List Char} (hstarts : Starts k text) (hends : Ends text) :
    Text.trim Text.isBlank text = text := by
  obtain ⟨c, s, rfl, hc, -⟩ := hstarts
  have hstart : (c :: s).dropWhile Text.isBlank = c :: s := by simp [hc]
  have hend : (c :: s).reverse.dropWhile Text.isBlank = (c :: s).reverse := by
    cases hlast : (c :: s).reverse with
    | nil => rfl
    | cons d others =>
        have hd : Text.isBlank d = false := hends d (by
          rw [← List.head?_reverse, hlast]
          rfl)
        simp [hd]
  rw [Text.trim, hstart, Text.trimEnd, hend, List.reverse_reverse]

/-- Reading undoes writing: every expression that can be written, with as few brackets as can be, is
read back as the expression it is. -/
theorem Expr.parse_written (e : Expr) (h : e.isWritable = true) :
    Expr.parse (String.ofList e.written) = .ok e := by
  have he := e.readable h
  have hread := ((he.reads (Nat.le_refl _)).mono he.starts e.looseness_le) [] .nil
  rw [List.append_nil, ← exprAt_succ] at hread
  have htrim : Text.trim Text.isBlank (String.ofList e.written).toList = e.written := by
    rw [String.toList_ofList, trim_eq_self he.starts he.ends]
  obtain ⟨c, s, hc, -⟩ := he.starts
  unfold Expr.parse
  rw [htrim]
  split
  · next hempty => simp [hc] at hempty
  · rw [hread]
    rfl

/-- An expression in which names are words of operators and of node tests, and some operands need
brackets. -/
def wordy : Expr :=
  .binary .divide
    (.path (.value (.call "or" [.literal "say \"mod\"", .path .root []]))
      [⟨.child, .name "text", [.number (.ofNat 1)]⟩])
    (.binary .times (.negate (.variable "div"))
      (.filter (.path .context [⟨.self, .instruction none, []⟩]) [.call "and" []]))

/-- Words of operators are names where names can stand, and operators elsewhere. -/
theorem Expr.parse_written_wordy :
    wordy.isWritable = true ∧
    String.ofList wordy.written =
      "or('say \"mod\"', /)/child::text[1] div " ++
        "(-$div * (self::processing-instruction())[and()])" ∧
    Expr.parse (String.ofList wordy.written) = .ok wordy := by
  have hwritable : wordy.isWritable = true := by decide
  exact ⟨hwritable, by decide +kernel, Expr.parse_written wordy hwritable⟩

end Restyle
