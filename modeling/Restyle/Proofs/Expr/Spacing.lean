import Mathlib
import Restyle.Proofs.Expr.Lexing

/-!
# Restyle.Proofs.Expr.Spacing

Two texts of the same tokens, and readers that cannot tell them apart.

`Respaced` follows two texts token by token; `Alike` adds the texts that begin with what no reader
takes.  A reader that lexes finds the same in both (`Lexes.same`).  So do those that look at more
than one token: tests with brackets (`kindTest_same`, `instructionTest_same`), axes (`axis_same`) and
slashes (`slash_same`).  Where a step has to follow at once, `Respaced.tight` says that it does so
in both texts or in none.
-/

namespace Restyle.Grammar

open Text

/-! ## Texts with other white space -/

/-- Two texts, in one place, hold the same tokens.  They differ in the white space around these, but
not in whether there is any where that counts. -/
inductive Respaced : Place → List Char → List Char → Prop
  | done {p : Place} : Respaced p [] []
  | token {p : Place} {gap gap' rest rest' : List Char} {t : Token} (hgap : IsGap gap)
      (hgap' : IsGap gap') (ht : t.isProper = true) (hends : t.EndsAt rest)
      (hends' : t.EndsAt rest') (hties : p.gapCounts t = true → (gap = [] ↔ gap' = []))
      (h : Respaced (p.next gap t) rest rest') :
      Respaced p (gap ++ (t.text ++ rest)) (gap' ++ (t.text ++ rest'))

/-- White space in front of a token counts for what comes next only behind a `/` that begins a
path. -/
theorem Place.next_of_ne_root {p : Place} (hp : p ≠ .root) (gap gap' : List Char) (t : Token) :
    p.next gap t = p.next gap' t := by
  cases p <;> first | rfl | exact absurd rfl hp

/-- What two texts begin with, white space apart. -/
theorem Respaced.front {p : Place} {s s' : List Char} (h : Respaced p s s') (hp : p ≠ .root) :
    dropSpace s = [] ∧ dropSpace s' = [] ∨
    ∃ t rest rest', t.isProper = true ∧ t.EndsAt rest ∧ t.EndsAt rest' ∧
      Respaced (p.next [] t) rest rest' ∧ dropSpace s = t.text ++ rest ∧
      dropSpace s' = t.text ++ rest' := by
  cases h with
  | done => exact .inl ⟨rfl, rfl⟩
  | @token _ gap _ rest rest' t hgap hgap' ht hends hends' _ h =>
      rw [p.next_of_ne_root hp gap []] at h
      refine .inr ⟨t, rest, rest', ht, hends, hends', h, ?_, ?_⟩
      · rw [dropSpace_gap hgap, t.dropSpace_text ht]
      · rw [dropSpace_gap hgap', t.dropSpace_text ht]

theorem Respaced.cons {p : Place} {t : Token} {rest rest' : List Char} (ht : t.isProper = true)
    (hends : t.EndsAt rest) (hends' : t.EndsAt rest') (h : Respaced (p.next [] t) rest rest') :
    Respaced p (t.text ++ rest) (t.text ++ rest') :=
  @Respaced.token p [] [] rest rest' t (by simp [IsGap]) (by simp [IsGap]) ht hends hends'
    (fun _ => Iff.rfl) h

/-- White space in front of both texts may go where an operand or an operator is to come. -/
theorem Respaced.flush {p : Place} {s s' : List Char} (h : Respaced p s s')
    (hp : p = .operand ∨ p = .operator) : Respaced p (dropSpace s) (dropSpace s') := by
  have hroot : p ≠ .root := by obtain rfl | rfl := hp <;> decide
  obtain ⟨hs, hs'⟩ | ⟨t, rest, rest', ht, hends, hends', h, hs, hs'⟩ := h.front hroot
  · rw [hs, hs']
    exact .done
  · rw [hs, hs']
    exact .cons ht hends hends' h

/-- Two texts hold the same tokens, or nothing reads them further. -/
def Alike (p : Place) (s s' : List Char) : Prop :=
  Respaced p s s' ∨ ∃ c cs cs', Stuck p c ∧ s = c :: cs ∧ s' = c :: cs'

theorem Alike.flush {p : Place} {s s' : List Char} (h : Alike p s s')
    (hp : p = .operand ∨ p = .operator) : Alike p (dropSpace s) (dropSpace s') := by
  obtain h | ⟨c, cs, cs', hc, rfl, rfl⟩ := h
  · exact .inl (h.flush hp)
  · rw [dropSpace_cons hc.not_isXmlSpace, dropSpace_cons hc.not_isXmlSpace]
    exact .inr ⟨c, cs, cs', hc, rfl, rfl⟩

theorem length_dropSpace_lt {s t rest : List Char} (hs : dropSpace s = t ++ rest) (ht : t ≠ []) :
    rest.length < s.length := by
  have h := length_dropSpace_le s
  have hpos := List.length_pos_iff.2 ht
  rw [hs, List.length_append] at h
  omega

/-- What two texts that are alike begin with: nothing, or something that is stuck, or a token. -/
theorem Alike.front {p : Place} {s s' : List Char} (h : Alike p s s') (hp : p ≠ .root) :
    dropSpace s = [] ∧ dropSpace s' = [] ∨
    (∃ c cs cs', Stuck p c ∧ dropSpace s = c :: cs ∧ dropSpace s' = c :: cs') ∨
    ∃ t rest rest', t.isProper = true ∧ t.EndsAt rest ∧ t.EndsAt rest' ∧
      Respaced (p.next [] t) rest rest' ∧ dropSpace s = t.text ++ rest ∧
      dropSpace s' = t.text ++ rest' ∧ rest.length < s.length ∧ rest'.length < s'.length := by
  obtain h | ⟨c, cs, cs', hc, rfl, rfl⟩ := h
  · obtain hnil | ⟨t, rest, rest', ht, hends, hends', h, hs, hs'⟩ := h.front hp
    · exact .inl hnil
    · exact .inr (.inr ⟨t, rest, rest', ht, hends, hends', h, hs, hs',
        length_dropSpace_lt hs (t.text_ne_nil ht), length_dropSpace_lt hs' (t.text_ne_nil ht)⟩)
  · exact .inr (.inl ⟨c, cs, cs', hc, dropSpace_cons hc.not_isXmlSpace _,
      dropSpace_cons hc.not_isXmlSpace _⟩)

/-- What two texts that are alike begin with, as to words: none, or a word with a single colon behind
it, or a word that is a token. -/
theorem Alike.word_front {s s' : List Char} (h : Alike .operand s s') :
    ((∀ c ∈ (dropSpace s).head?, isNameStart c = false) ∧
      ∀ c ∈ (dropSpace s').head?, isNameStart c = false) ∨
    (∃ word d more more', isWord word = true ∧ d ≠ ':' ∧
      dropSpace s = word ++ ':' :: d :: more ∧ dropSpace s' = word ++ ':' :: d :: more') ∨
    ∃ word rest rest', isWord word = true ∧ EndsName rest ∧ EndsName rest' ∧
      Respaced .operator rest rest' ∧ dropSpace s = word ++ rest ∧ dropSpace s' = word ++ rest' ∧
      rest.length < s.length ∧ rest'.length < s'.length := by
  obtain ⟨hs, hs'⟩ | ⟨c, cs, cs', hc, hs, hs'⟩ |
      ⟨t, rest, rest', ht, hends, hends', h, hs, hs', hlt, hlt'⟩ := h.front (by decide)
  · rw [hs, hs']
    exact .inl (by simp)
  · rw [hs, hs']
    exact .inl (by simpa using hc.not_isNameStart)
  · obtain ⟨word, hword, rfl⟩ | ⟨word, d, others, hword, htext, hd⟩ | ⟨c, cs, htext, hc⟩ :=
      t.word_cases ht
    · have htext : Token.text (.name word none) = word := List.append_nil word
      rw [htext] at hs hs'
      exact .inr (.inr ⟨word, rest, rest', hword, (hends.endsWord rfl).endsName,
        (hends'.endsWord rfl).endsName, h, hs, hs', hlt, hlt'⟩)
    · refine .inr (.inl ⟨word, d, others ++ rest, others ++ rest', hword, hd, ?_, ?_⟩)
      · rw [hs, htext, List.append_assoc, List.cons_append, List.cons_append]
      · rw [hs', htext, List.append_assoc, List.cons_append, List.cons_append]
    · rw [hs, hs', htext]
      exact .inl (by simpa using hc)

/-! ## Readings that agree -/

section Same

variable {α β : Type}

/-- Two searches find nothing, or both find the same and go on in texts that are alike and shorter
than those they began with. -/
def SameFind (q : Place) (s s' : List Char) (found found' : Option (α × List Char)) : Prop :=
  found = none ∧ found' = none ∨
  ∃ a rest rest', found = some (a, rest) ∧ found' = some (a, rest') ∧ Alike q rest rest' ∧
    rest.length < s.length ∧ rest'.length < s'.length

/-- Two readings both fail, or both read the same and go on in texts that are alike and shorter than
those they began with. -/
def SameRead (s s' : List Char) (read read' : Except (List Char) (α × List Char)) : Prop :=
  (∃ place place', read = .error place ∧ read' = .error place') ∨
  ∃ a rest rest', read = .ok (a, rest) ∧ read' = .ok (a, rest') ∧ Alike .operator rest rest' ∧
    rest.length < s.length ∧ rest'.length < s'.length

/-- A reader of tokens cannot tell two texts apart that are alike. -/
theorem Lexes.same {f : List Char → Option (α × List Char)} {p q : Place} (hf : Lexes p q f)
    (hp : p ≠ .root) {s s' : List Char} (h : Alike p s s') :
    SameFind q s s' (f (dropSpace s)) (f (dropSpace s')) := by
  obtain ⟨hs, hs'⟩ | ⟨c, cs, cs', hc, hs, hs'⟩ |
      ⟨t, rest, rest', ht, hends, hends', h, hs, hs', -, -⟩ := h.front hp
  · exact .inl ⟨by rw [hs, hf.nil], by rw [hs', hf.nil]⟩
  · exact .inl ⟨by rw [hs, hf.stuck hc], by rw [hs', hf.stuck hc]⟩
  · have hle := length_dropSpace_le s
    have hle' := length_dropSpace_le s'
    rw [hs, hs'] at *
    obtain hnone | ⟨a, left, ⟨hq, hleft⟩, hlt, hsome⟩ := hf.token ht
    · exact .inl ⟨hnone rest hends, hnone rest' hends'⟩
    · refine .inr ⟨a, left ++ rest, left ++ rest', hsome rest hends, hsome rest' hends',
        ?_, ?_, ?_⟩
      · obtain rfl | ⟨c, cs, rfl, hc⟩ := hleft
        · exact .inl (hq rfl ▸ h)
        · exact .inr ⟨c, _, _, hc, rfl, rfl⟩
      · simp only [List.length_append] at hle ⊢
        omega
      · simp only [List.length_append] at hle' ⊢
        omega

theorem SameFind.or {q : Place} {s s' : List Char}
    {found found' other other' : Option (α × List Char)}
    (h : SameFind q s s' found found') (hother : SameFind q s s' other other') :
    SameFind q s s' (found.or other) (found'.or other') := by
  obtain ⟨rfl, rfl⟩ | ⟨a, rest, rest', rfl, rfl, hrest⟩ := h
  · exact hother
  · exact .inr ⟨a, rest, rest', rfl, rfl, hrest⟩

theorem SameFind.map {q : Place} {s s' : List Char} {found found' : Option (α × List Char)}
    (h : SameFind q s s' found found') (g : α → β) :
    SameFind q s s' (found.map fun found => (g found.1, found.2))
      (found'.map fun found => (g found.1, found.2)) := by
  obtain ⟨rfl, rfl⟩ | ⟨a, rest, rest', rfl, rfl, hrest⟩ := h
  · exact .inl ⟨rfl, rfl⟩
  · exact .inr ⟨g a, rest, rest', rfl, rfl, hrest⟩

/-- What is searched for has to be there where it is read. -/
theorem SameFind.read {s s' : List Char} {found found' : Option (α × List Char)}
    (h : SameFind .operator s s' found found') (place place' : List Char) :
    SameRead s s' (found.elim (.error place) .ok) (found'.elim (.error place') .ok) := by
  obtain ⟨rfl, rfl⟩ | ⟨a, rest, rest', rfl, rfl, hrest⟩ := h
  · exact .inl ⟨place, place', rfl, rfl⟩
  · exact .inr ⟨a, rest, rest', rfl, rfl, hrest⟩

theorem SameRead.mono {s s' t t' : List Char}
    {read read' : Except (List Char) (α × List Char)}
    (h : SameRead t t' read read') (hle : t.length ≤ s.length) (hle' : t'.length ≤ s'.length) :
    SameRead s s' read read' := by
  obtain h | ⟨a, rest, rest', h, h', hrest, hlt, hlt'⟩ := h
  · exact .inl h
  · exact .inr ⟨a, rest, rest', h, h', hrest, by omega, by omega⟩

theorem SameRead.bind {s s' : List Char} {read read' : Except (List Char) (α × List Char)}
    {next next' : α × List Char → Except (List Char) (β × List Char)}
    (h : SameRead s s' read read')
    (hnext : ∀ a rest rest', Alike .operator rest rest' → rest.length < s.length →
      rest'.length < s'.length → SameRead s s' (next (a, rest)) (next' (a, rest'))) :
    SameRead s s' (read >>= next) (read' >>= next') := by
  obtain ⟨place, place', rfl, rfl⟩ | ⟨a, rest, rest', rfl, rfl, hrest, hlt, hlt'⟩ := h
  · exact .inl ⟨place, place', rfl, rfl⟩
  · exact hnext a rest rest' hrest hlt hlt'

theorem SameRead.map {s s' : List Char} {read read' : Except (List Char) (α × List Char)}
    (h : SameRead s s' read read') (g : α → β) :
    SameRead s s' (read.map fun found => (g found.1, found.2))
      (read'.map fun found => (g found.1, found.2)) := by
  obtain ⟨place, place', rfl, rfl⟩ | ⟨a, rest, rest', rfl, rfl, hrest⟩ := h
  · exact .inl ⟨place, place', rfl, rfl⟩
  · exact .inr ⟨g a, rest, rest', rfl, rfl, hrest⟩

/-- Searches that agree one by one agree in what is found first. -/
theorem SameFind.findSome {q : Place} {s s' : List Char} {g g' : β → Option (α × List Char)}
    {entries : List β} (h : ∀ b ∈ entries, SameFind q s s' (g b) (g' b)) :
    SameFind q s s' (entries.findSome? g) (entries.findSome? g') := by
  induction entries with
  | nil => exact .inl ⟨rfl, rfl⟩
  | cons b entries ih =>
      obtain ⟨hnone, hnone'⟩ | ⟨a, rest, rest', hfound, hfound', hrest⟩ := h b (by simp)
      · simp only [List.findSome?_cons, hnone, hnone']
        exact ih fun b hb => h b (List.mem_cons_of_mem _ hb)
      · refine .inr ⟨a, rest, rest', ?_, ?_, hrest⟩ <;> simp [*]

end Same

/-! ## Marks -/

/-- The characters that begin one mark and no other token. -/
def loneSigns : List Char := ['(', ')', '[', ']', ',', '@', '*']

/-- A lone sign is found where its mark stands, and nowhere else. -/
theorem skip_loneSign {m : Mark} {c : Char} (hm : m.text = [c]) (hc : c ∈ loneSigns) {t : Token}
    (ht : t.isProper = true) :
    t = .mark m ∨ ∀ rest, skip [c] (t.text ++ rest) = none := by
  obtain ⟨d, ds, htext, hbegins⟩ := t.exists_begins ht
  by_cases hd : c = d
  · left
    subst hd
    have hmark : ∀ c ∈ loneSigns, c ∈ markSigns := by simp [loneSigns, markSigns]
    obtain ⟨other, rfl, hother⟩ := hbegins.exists_mark (hmark c hc)
    simp only [loneSigns, List.mem_cons, List.not_mem_nil, or_false] at hc
    obtain rfl | rfl | rfl | rfl | rfl | rfl | rfl := hc <;> cases m <;>
      simp [Mark.text] at hm <;> cases other <;> simp [Mark.text] at hother <;> rfl
  · exact .inr fun rest => by rw [htext]; exact skip_cons_of_ne hd _ _

/-- A lone sign is skipped in both texts, or in none. -/
theorem skip_same {p : Place} {s s' : List Char} (h : Alike p s s') (hp : p ≠ .root) {c : Char}
    (m : Mark) (hm : m.text = [c]) (hc : c ∈ loneSigns) :
    skip [c] (dropSpace s) = none ∧ skip [c] (dropSpace s') = none ∨
    ∃ rest rest', skip [c] (dropSpace s) = some rest ∧ skip [c] (dropSpace s') = some rest' ∧
      Respaced (p.next [] (.mark m)) rest rest' ∧ rest.length < s.length ∧
      rest'.length < s'.length := by
  obtain ⟨hs, hs'⟩ | ⟨d, cs, cs', hd, hs, hs'⟩ |
      ⟨t, rest, rest', ht, -, -, h, hs, hs', hlt, hlt'⟩ := h.front hp
  · rw [hs, hs']
    exact .inl ⟨rfl, rfl⟩
  · have hne : c ≠ d := by
      rintro rfl
      have hall : ∀ c ∈ loneSigns, c ∈ signs := by simp [loneSigns, signs]
      exact hd.not_mem (hall c hc)
    rw [hs, hs']
    exact .inl ⟨skip_cons_of_ne hne _ _, skip_cons_of_ne hne _ _⟩
  · obtain rfl | hnone := skip_loneSign hm hc ht
    · refine .inr ⟨rest, rest', ?_, ?_, h, hlt, hlt'⟩
      · rw [hs, Token.text, hm, skip_append]
      · rw [hs', Token.text, hm, skip_append]
    · exact .inl ⟨by rw [hs, hnone], by rw [hs', hnone]⟩

/-- A lone sign with white space around it is skipped in both texts, or in none. -/
theorem skipSpaced_same {p q : Place} {s s' : List Char} (h : Alike p s s') (hp : p ≠ .root)
    {c : Char} (m : Mark) (hm : m.text = [c]) (hc : c ∈ loneSigns)
    (hnext : p.next [] (.mark m) = q) (hq : q = .operand ∨ q = .operator) :
    skipSpaced [c] s = none ∧ skipSpaced [c] s' = none ∨
    ∃ rest rest', skipSpaced [c] s = some rest ∧ skipSpaced [c] s' = some rest' ∧
      Respaced q rest rest' ∧ dropSpace rest = rest ∧ dropSpace rest' = rest' ∧
      rest.length < s.length ∧ rest'.length < s'.length := by
  obtain ⟨hs, hs'⟩ | ⟨rest, rest', hs, hs', hrest, hlt, hlt'⟩ := skip_same h hp m hm hc
  · exact .inl ⟨by rw [skipSpaced, hs]; rfl, by rw [skipSpaced, hs']; rfl⟩
  · rw [hnext] at hrest
    refine .inr ⟨dropSpace rest, dropSpace rest', by rw [skipSpaced, hs]; rfl,
      by rw [skipSpaced, hs']; rfl, hrest.flush hq, dropSpace_dropSpace rest,
      dropSpace_dropSpace rest', ?_, ?_⟩
    · exact (length_dropSpace_le rest).trans_lt hlt
    · exact (length_dropSpace_le rest').trans_lt hlt'

/-! ## Words with brackets -/

/-- Where a word stands in front of a text, another word is read at its beginning or not. -/
theorem skip_word {known word : List Char} (hknown : ∀ c ∈ known, isNameChar c = true)
    (hword : isWord word = true) :
    (∀ rest, EndsName rest → skip known (word ++ rest) = none) ∨ known = word ∨
    ∃ c cs, isWordChar c = true ∧
      ∀ rest, EndsName rest → skip known (word ++ rest) = some (c :: cs ++ rest) := by
  have hread {rest : List Char} (hrest : EndsName rest) :
      skip known (word ++ rest) = (skip known word).map (· ++ rest) := by
    refine skip_append_of_head (fun c hc hmem => ?_) word
    simpa [hrest c hc] using hknown c hmem
  cases hskip : skip known word with
  | none => exact .inl fun rest hrest => by rw [hread hrest, hskip]; rfl
  | some left =>
      have htext := skip_eq_some_iff.1 hskip
      cases left with
      | nil => exact .inr (.inl (by rw [htext, List.append_nil]))
      | cons c cs =>
          have hc : isWordChar c = true := isWordChar_of_mem hword (by simp [htext])
          refine .inr (.inr ⟨c, cs, hc, fun rest hrest => ?_⟩)
          rw [hread hrest, hskip]
          rfl

theorem skipSpaced_paren_of_isWordChar {c : Char} (hc : isWordChar c = true) (s : List Char) :
    skipSpaced ['('] (c :: s) = none :=
  skipSpaced_cons_of_ne (by rintro rfl; exact absurd hc (by decide))
    (isXmlSpace_of_isBlank (isWordChar_iff.1 hc).1) _ _

/-- Where no name starts, no word is found. -/
theorem skip_of_head {known s : List Char}
    (hstart : ∃ c cs, known = c :: cs ∧ isNameStart c = true)
    (hs : ∀ c ∈ s.head?, isNameStart c = false) : skip known s = none := by
  obtain ⟨k, ks, rfl, hk⟩ := hstart
  cases s with
  | nil => rfl
  | cons c s => exact skip_cons_of_ne (ne_of_isNameStart hk (hs c rfl)) _ _

/-- A word with an opening bracket behind it is read in both texts, or in none. -/
theorem word_paren_same {known : List Char} (hknown : ∀ c ∈ known, isNameChar c = true)
    (hstart : ∃ c cs, known = c :: cs ∧ isNameStart c = true) {s s' : List Char}
    (h : Alike .operand s s') :
    (skip known (dropSpace s)).bind (skipSpaced ['(']) = none ∧
      (skip known (dropSpace s')).bind (skipSpaced ['(']) = none ∨
    ∃ rest rest', (skip known (dropSpace s)).bind (skipSpaced ['(']) = some rest ∧
      (skip known (dropSpace s')).bind (skipSpaced ['(']) = some rest' ∧
      Respaced .operand rest rest' ∧ dropSpace rest = rest ∧ dropSpace rest' = rest' ∧
      rest.length < s.length ∧ rest'.length < s'.length := by
  obtain ⟨hs, hs'⟩ | ⟨word, d, more, more', hword, -, hs, hs'⟩ |
      ⟨word, rest, rest', hword, hends, hends', hrest, hs, hs', hlt, hlt'⟩ := h.word_front
  · exact .inl ⟨by rw [skip_of_head hstart hs]; rfl, by rw [skip_of_head hstart hs']; rfl⟩
  · have hnone (more : List Char) :
        (skip known (word ++ ':' :: more)).bind (skipSpaced ['(']) = none := by
      obtain hnone | rfl | ⟨c, cs, hc, hsome⟩ := skip_word hknown hword
      · rw [hnone _ (endsName_colon _), Option.bind_none]
      · rw [skip_append]
        rfl
      · rw [hsome _ (endsName_colon _)]
        exact skipSpaced_paren_of_isWordChar hc _
    rw [hs, hs']
    exact .inl ⟨hnone _, hnone _⟩
  · rw [hs, hs']
    obtain hnone | rfl | ⟨c, cs, hc, hsome⟩ := skip_word hknown hword
    · exact .inl ⟨by rw [hnone _ hends]; rfl, by rw [hnone _ hends']; rfl⟩
    · rw [skip_append, skip_append, Option.bind_some, Option.bind_some]
      obtain hnone | ⟨left, left', hleft, hleft', hinside, hflush, hflush', hlt₂, hlt₂'⟩ :=
        skipSpaced_same (.inl hrest) (by decide) .openRound rfl (by decide) rfl (.inl rfl)
      · exact .inl hnone
      · exact .inr ⟨left, left', hleft, hleft', hinside, hflush, hflush', hlt₂.trans hlt,
          hlt₂'.trans hlt'⟩
    · rw [hsome _ hends, hsome _ hends']
      exact .inl ⟨skipSpaced_paren_of_isWordChar hc _, skipSpaced_paren_of_isWordChar hc _⟩

/-! ## Node tests -/

theorem kindTest_same {s s' : List Char} (h : Alike .operand s s') :
    SameFind .operator s s' (kindTest (dropSpace s)) (kindTest (dropSpace s')) := by
  refine SameFind.findSome fun entry hentry => ?_
  have hknown : (∀ c ∈ entry.1.toList, isNameChar c = true) ∧
      ∃ c cs, entry.1.toList = c :: cs ∧ isNameStart c = true := by
    simp only [kindTests, List.mem_cons, List.not_mem_nil, or_false] at hentry
    obtain rfl | rfl | rfl := hentry <;>
      exact ⟨List.all_eq_true.1 (by decide), _, _, rfl, by decide⟩
  have hbrackets (text : List Char) : ((skip entry.1.toList text).bind emptyParens) =
      ((skip entry.1.toList text).bind (skipSpaced ['('])).bind (skip [')']) := by
    rw [Option.bind_assoc]
    rfl
  simp only [hbrackets]
  obtain ⟨hopen, hopen'⟩ | ⟨rest, rest', hopen, hopen', hrest, hflush, hflush', hlt, hlt'⟩ :=
    word_paren_same hknown.1 hknown.2 h
  · exact .inl ⟨by rw [hopen]; rfl, by rw [hopen']; rfl⟩
  · have hclose := skip_same (.inl hrest) (by decide) .closeRound rfl (by decide)
    rw [hflush, hflush'] at hclose
    obtain ⟨hclose, hclose'⟩ | ⟨left, left', hclose, hclose', hleft, hlt₂, hlt₂'⟩ := hclose
    · refine .inl ⟨?_, ?_⟩ <;> simp [*]
    · refine .inr ⟨entry.2, left, left', ?_, ?_, .inl hleft, hlt₂.trans hlt, hlt₂'.trans hlt'⟩ <;>
        simp [*]

/-- A test for a processing instruction, one bracket after the other. -/
theorem instructionTest_eq (s : List Char) :
    instructionTest s =
      ((skip "processing-instruction".toList s).bind (skipSpaced ['('])).bind fun inside =>
        match literal inside with
        | some (target, rest) => (skipSpaced [')'] rest).map
            (NodeTest.instruction (some (String.ofList target)), ·)
        | none => (skipSpaced [')'] inside).map (NodeTest.instruction none, ·) := by
  simp only [instructionTest, Option.bind_eq_bind, Option.bind_assoc]
  refine Option.bind_congr fun rest _ => Option.bind_congr fun inside _ => ?_
  cases literal inside <;> simp only <;> cases skipSpaced [')'] _ <;> rfl

theorem instructionTest_same {s s' : List Char} (h : Alike .operand s s') :
    SameFind .operator s s' (instructionTest (dropSpace s)) (instructionTest (dropSpace s')) := by
  have hknown : ∀ c ∈ "processing-instruction".toList, isNameChar c = true :=
    List.all_eq_true.1 (by decide)
  have hclose {t t' : List Char} {p : Place} (ht : Alike p t t') (hp : p ≠ .root)
      (hnext : p.next [] (.mark .closeRound) = .operator) :=
    skipSpaced_same ht hp .closeRound rfl (by decide) hnext (.inr rfl)
  rw [instructionTest_eq, instructionTest_eq]
  obtain ⟨hopen, hopen'⟩ | ⟨rest, rest', hopen, hopen', hrest, hflush, hflush', hlt, hlt'⟩ :=
    word_paren_same hknown ⟨_, _, rfl, by decide⟩ h
  · rw [hopen, hopen']
    exact .inl ⟨rfl, rfl⟩
  · rw [hopen, hopen', Option.bind_some, Option.bind_some]
    have hquoted := lexes_literal.same (by decide) (.inl hrest)
    rw [hflush, hflush'] at hquoted
    obtain ⟨hquoted, hquoted'⟩ | ⟨target, left, left', hquoted, hquoted', hleft, hlt₂, hlt₂'⟩ :=
      hquoted
    · rw [hquoted, hquoted']
      obtain ⟨hshut, hshut'⟩ | ⟨last, last', hshut, hshut', hlast, -, -, hlt₃, hlt₃'⟩ :=
        hclose (.inl hrest) (by decide) rfl
      · exact .inl ⟨by rw [hshut]; rfl, by rw [hshut']; rfl⟩
      · exact .inr ⟨_, last, last', by rw [hshut]; rfl, by rw [hshut']; rfl, .inl hlast,
          hlt₃.trans hlt, hlt₃'.trans hlt'⟩
    · rw [hquoted, hquoted']
      obtain ⟨hshut, hshut'⟩ | ⟨last, last', hshut, hshut', hlast, -, -, hlt₃, hlt₃'⟩ :=
        hclose hleft (by decide) rfl
      · exact .inl ⟨by simp [hshut], by simp [hshut']⟩
      · exact .inr ⟨_, last, last', by simp [hshut]; rfl, by simp [hshut'], .inl hlast, by omega,
          by omega⟩


/-- A node test is the first of the tests that is found. -/
theorem nodeTest_eq (s : List Char) :
    nodeTest s = (((skip ['*'] s).map (NodeTest.any, ·)).or ((kindTest s).or ((instructionTest s).or
      ((qualifiedTest s).or ((qName s).map fun found =>
        (NodeTest.name (String.ofList found.1), found.2)))))).elim (.error s) .ok := by
  unfold nodeTest
  cases skip ['*'] s <;> cases kindTest s <;> cases instructionTest s <;> cases qualifiedTest s <;>
    cases qName s <;> rfl

/-- A node test is read in both texts, or in none. -/
theorem nodeTest_same {s s' : List Char} (h : Alike .operand s s') :
    SameRead s s' (nodeTest (dropSpace s)) (nodeTest (dropSpace s')) := by
  have hany : SameFind .operator s s' ((skip ['*'] (dropSpace s)).map (NodeTest.any, ·))
      ((skip ['*'] (dropSpace s')).map (NodeTest.any, ·)) := by
    obtain ⟨hs, hs'⟩ | ⟨rest, rest', hs, hs', hrest, hlt⟩ :=
      skip_same h (by decide) .asterisk rfl (by decide)
    · exact .inl ⟨by rw [hs]; rfl, by rw [hs']; rfl⟩
    · exact .inr ⟨.any, rest, rest', by rw [hs]; rfl, by rw [hs']; rfl, .inl hrest, hlt⟩
  rw [nodeTest_eq, nodeTest_eq]
  exact (hany.or ((kindTest_same h).or ((instructionTest_same h).or
    ((lexes_qualifiedTest.same (by decide) h).or
      ((lexes_qName.same (by decide) h).map fun name => .name (String.ofList name)))))).read _ _

/-! ## Axes -/

/-- Two colons follow in both texts, or in none: white space in front of them counts. -/
theorem Respaced.colons {s s' : List Char} (h : Respaced .operator s s') :
    skip [':', ':'] s = none ∧ skip [':', ':'] s' = none ∨
    ∃ rest rest', skip [':', ':'] s = some rest ∧ skip [':', ':'] s' = some rest' ∧
      Respaced .step rest rest' := by
  have hgap_none {gap : List Char} (hgap : IsGap gap) (hne : gap ≠ []) (rest : List Char) :
      skip [':', ':'] (gap ++ rest) = none := by
    obtain ⟨c, gap, rfl⟩ := List.exists_cons_of_ne_nil hne
    have hspace := hgap c (by simp)
    exact skip_cons_of_ne (by rintro rfl; exact absurd hspace (by decide)) _ _
  cases h with
  | done => exact .inl ⟨rfl, rfl⟩
  | @token _ gap gap' rest rest' t hgap hgap' ht hends hends' hties h =>
      by_cases hcolons : t = .mark .colons
      · subst hcolons
        have hiff := hties rfl
        by_cases hnil : gap = []
        · rw [hnil, hiff.1 hnil]
          exact .inr ⟨rest, rest', rfl, rfl, h⟩
        · exact .inl ⟨hgap_none hgap hnil _, hgap_none hgap' (fun hnil' => hnil (hiff.2 hnil')) _⟩
      · have htext (more : List Char) : skip [':', ':'] (t.text ++ more) = none := by
          obtain ⟨c, cs, htext, hbegins⟩ := t.exists_begins ht
          rw [htext]
          refine skip_cons_of_ne ?_ _ _
          rintro rfl
          obtain ⟨m, rfl, hm⟩ := hbegins.exists_mark (by decide)
          cases m <;> simp [Mark.text] at hm hcolons
        have hnone {gap : List Char} (hgap : IsGap gap) (more : List Char) :
            skip [':', ':'] (gap ++ (t.text ++ more)) = none := by
          by_cases hne : gap = []
          · rw [hne]
            exact htext more
          · exact hgap_none hgap hne _
        exact .inl ⟨hnone hgap _, hnone hgap' _⟩

/-- The axis with a name. -/
def axisNamed (word : List Char) : Option Axis :=
  axisWords.findSome? fun entry => if entry.1.toList = word then some entry.2 else none

theorem skip_append_mark (first second s : List Char) :
    skip (first ++ second) s = (skip first s).bind (skip second) := by
  cases hfirst : skip first s with
  | some left =>
      rw [skip_eq_some_iff.1 hfirst, Option.bind_some]
      cases hsecond : skip second left with
      | some last => rw [skip_eq_some_iff.1 hsecond, ← List.append_assoc, skip_append]
      | none =>
          rw [Option.eq_none_iff_forall_ne_some]
          intro last hlast
          have htext := skip_eq_some_iff.1 hlast
          rw [List.append_assoc] at htext
          rw [List.append_cancel_left htext, skip_append] at hsecond
          simp at hsecond
  | none =>
      rw [Option.bind_none, Option.eq_none_iff_forall_ne_some]
      intro last hlast
      have htext := skip_eq_some_iff.1 hlast
      rw [htext, List.append_assoc, skip_append] at hfirst
      simp at hfirst

/-- Two colons are found behind a word where another word stands only if it is the same. -/
theorem skip_word_colons {known word rest : List Char} (hknown : ∀ c ∈ known, isNameChar c = true)
    (hword : isWord word = true) (hrest : EndsName rest) :
    skip (known ++ [':', ':']) (word ++ rest) =
      if known = word then skip [':', ':'] rest else none := by
  rw [skip_append_mark]
  by_cases hsame : known = word
  · rw [if_pos hsame, hsame, skip_append, Option.bind_some]
  · rw [if_neg hsame]
    obtain hnone | heq | ⟨c, cs, hc, hsome⟩ := skip_word hknown hword
    · rw [hnone rest hrest, Option.bind_none]
    · exact absurd heq hsame
    · rw [hsome rest hrest, Option.bind_some]
      exact skip_cons_of_ne (isWordChar_iff.1 hc).2.1.symm _ _

theorem findSome?_congr {α β : Type} {f g : α → Option β} {entries : List α}
    (h : ∀ a ∈ entries, f a = g a) : entries.findSome? f = entries.findSome? g := by
  induction entries with
  | nil => rfl
  | cons a entries ih =>
      rw [List.findSome?_cons, List.findSome?_cons, h a (by simp),
        ih fun b hb => h b (List.mem_cons_of_mem a hb)]

/-- Behind a word, an axis is read if the word is one for it and two colons follow. -/
theorem axis_word_append {word rest : List Char} (hword : isWord word = true)
    (hrest : EndsName rest) :
    axis (word ++ rest) =
      (skip [':', ':'] rest).bind fun left => (axisNamed word).map (·, left) := by
  have hknown : ∀ entry ∈ axisWords, ∀ c ∈ entry.1.toList, isNameChar c = true := by
    intro entry hentry
    simp only [axisWords, List.mem_cons, List.not_mem_nil, or_false] at hentry
    obtain rfl | rfl | rfl | rfl | rfl | rfl | rfl | rfl | rfl | rfl | rfl | rfl := hentry <;>
      exact List.all_eq_true.1 (by decide)
  have hentry (entry : String × Axis) (hmem : entry ∈ axisWords) :
      (skip (entry.1.toList ++ [':', ':']) (word ++ rest)).map (entry.2, ·) =
        (skip [':', ':'] rest).bind fun left =>
          (if entry.1.toList = word then some entry.2 else none).map (·, left) := by
    rw [skip_word_colons (hknown entry hmem) hword hrest]
    split <;> cases skip [':', ':'] rest <;> rfl
  cases hcolons : skip [':', ':'] rest with
  | none =>
      rw [Option.bind_none, axis, List.findSome?_eq_none_iff]
      intro entry hmem
      refine (hentry entry hmem).trans ?_
      rw [hcolons]
      rfl
  | some left =>
      rw [Option.bind_some, axisNamed, List.map_findSome?, axis]
      refine findSome?_congr fun entry hmem => ?_
      refine (hentry entry hmem).trans ?_
      rw [hcolons]
      rfl

theorem axis_of_head {s : List Char} (hs : ∀ c ∈ s.head?, isNameStart c = false) :
    axis s = none := by
  rw [axis, List.findSome?_eq_none_iff]
  intro entry hentry
  have hstart : ∃ c cs, entry.1.toList ++ [':', ':'] = c :: cs ∧ isNameStart c = true := by
    simp only [axisWords, List.mem_cons, List.not_mem_nil, or_false] at hentry
    obtain rfl | rfl | rfl | rfl | rfl | rfl | rfl | rfl | rfl | rfl | rfl | rfl := hentry <;>
      exact ⟨_, _, rfl, by decide⟩
  exact congrArg (Option.map _) (skip_of_head hstart hs)

/-- An axis is read in both texts, or in none. -/
theorem axis_same {s s' : List Char} (h : Alike .operand s s') :
    axis (dropSpace s) = none ∧ axis (dropSpace s') = none ∨
    ∃ a rest rest', axis (dropSpace s) = some (a, rest) ∧ axis (dropSpace s') = some (a, rest') ∧
      Respaced .step rest rest' ∧ rest.length < s.length ∧ rest'.length < s'.length := by
  obtain ⟨hs, hs'⟩ | ⟨word, d, more, more', hword, hd, hs, hs'⟩ |
      ⟨word, rest, rest', hword, hends, hends', hrest, hs, hs', hlt, hlt'⟩ := h.word_front
  · exact .inl ⟨axis_of_head hs, axis_of_head hs'⟩
  · have hnone (more : List Char) : axis (word ++ ':' :: d :: more) = none := by
      have hcolon : skip [':', ':'] (':' :: d :: more) = none := by
        rw [skip_cons]
        exact skip_cons_of_ne hd.symm _ _
      rw [axis_word_append hword (endsName_colon _), hcolon]
      rfl
    rw [hs, hs']
    exact .inl ⟨hnone _, hnone _⟩
  · rw [hs, hs', axis_word_append hword hends, axis_word_append hword hends']
    obtain ⟨hcolons, hcolons'⟩ | ⟨left, left', hcolons, hcolons', hleft⟩ := hrest.colons
    · rw [hcolons, hcolons']
      exact .inl ⟨rfl, rfl⟩
    · rw [hcolons, hcolons', Option.bind_some, Option.bind_some]
      rw [skip_eq_some_iff.1 hcolons, List.length_append] at hlt
      rw [skip_eq_some_iff.1 hcolons', List.length_append] at hlt'
      cases axisNamed word with
      | none => exact .inl ⟨rfl, rfl⟩
      | some a => exact .inr ⟨a, left, left', rfl, rfl, hleft, by omega, by omega⟩

/-! ## Slashes -/

/-- The slashes that two texts begin with are the same. -/
theorem slash_same {p : Place} {s s' : List Char} (h : Alike p s s') (hp : p ≠ .root) :
    (skip ['/', '/'] (dropSpace s) = none ∧ skip ['/', '/'] (dropSpace s') = none ∧
      skip ['/'] (dropSpace s) = none ∧ skip ['/'] (dropSpace s') = none) ∨
    (∃ rest rest', skip ['/', '/'] (dropSpace s) = some rest ∧
      skip ['/', '/'] (dropSpace s') = some rest' ∧
      Respaced (p.next [] (.mark .slashes)) rest rest' ∧ rest.length < s.length ∧
      rest'.length < s'.length) ∨
    ∃ rest rest', skip ['/', '/'] (dropSpace s) = none ∧ skip ['/', '/'] (dropSpace s') = none ∧
      skip ['/'] (dropSpace s) = some rest ∧ skip ['/'] (dropSpace s') = some rest' ∧
      Respaced (p.next [] (.mark .slash)) rest rest' ∧ rest.length < s.length ∧
      rest'.length < s'.length := by
  have hother {c : Char} (hc : c ≠ '/') (mark cs : List Char) :
      skip ('/' :: mark) (c :: cs) = none := skip_cons_of_ne hc.symm _ _
  obtain ⟨hs, hs'⟩ | ⟨c, cs, cs', hc, hs, hs'⟩ |
      ⟨t, rest, rest', ht, hends, hends', h, hs, hs', hlt, hlt'⟩ := h.front hp
  · rw [hs, hs']
    exact .inl ⟨rfl, rfl, rfl, rfl⟩
  · have hslash : c ≠ '/' := by
      rintro rfl
      exact hc.not_mem (by simp [signs])
    rw [hs, hs']
    exact .inl ⟨hother hslash _ _, hother hslash _ _, hother hslash _ _, hother hslash _ _⟩
  · rw [hs, hs']
    by_cases hslashes : t = .mark .slashes
    · subst hslashes
      exact .inr (.inl ⟨rest, rest', rfl, rfl, h, hlt, hlt'⟩)
    · by_cases hslash : t = .mark .slash
      · subst hslash
        have hsingle {rest : List Char} (hrest : (Token.mark .slash).EndsAt rest) :
            skip ['/', '/'] ('/' :: rest) = none := by
          cases rest with
          | nil => rfl
          | cons c rest =>
              have hc : c ≠ '/' := by simpa [Token.standsApart] using hrest.standsApart
              rw [skip_cons]
              exact hother hc _ _
        exact .inr (.inr ⟨rest, rest', hsingle hends, hsingle hends', rfl, rfl, h, hlt, hlt'⟩)
      · obtain ⟨c, cs, htext, hbegins⟩ := t.exists_begins ht
        have hc : c ≠ '/' := by
          rintro rfl
          obtain ⟨m, rfl, hm⟩ := hbegins.exists_mark (by decide)
          cases m <;> simp [Mark.text] at hm hslashes hslash
        rw [htext]
        exact .inl ⟨hother hc _ _, hother hc _ _, hother hc _ _, hother hc _ _⟩

/-! ## Where a step has to follow at once -/

theorem opensStep_gap {gap : List Char} (h : IsGap gap) (hne : gap ≠ []) (rest : List Char) :
    opensStep (gap ++ rest) = false := by
  obtain ⟨c, gap, rfl⟩ := List.exists_cons_of_ne_nil hne
  have hspace := h c (by simp)
  simp only [isXmlSpace, Bool.or_eq_true, beq_iff_eq] at hspace
  obtain ((rfl | rfl) | rfl) | rfl := hspace <;>
    · simp only [opensStep, List.cons_append, List.head?_cons, Option.any_some]
      decide

theorem opensStep_append {text : List Char} (hne : text ≠ []) (rest : List Char) :
    opensStep (text ++ rest) = opensStep text := by
  obtain ⟨c, text, rfl⟩ := List.exists_cons_of_ne_nil hne
  rfl

/-- Where a step has to follow at once it does so in both texts, or in none.  After a `/` that
begins a path, the path is over in both then. -/
theorem Respaced.tight {p : Place} {s s' : List Char} (h : Respaced p s s')
    (hp : p = .step ∨ p = .root) :
    (dropSpace s = s ∧ dropSpace s' = s' ∧ opensStep s = true ∧ Respaced .operand s s') ∨
    (opensStep s = false ∧ opensStep s' = false ∧ (p = .root → Respaced .operator s s')) := by
  cases h with
  | done => exact .inr ⟨rfl, rfl, fun _ => .done⟩
  | @token _ gap gap' rest rest' t hgap hgap' ht hends hends' hties h =>
      have hne := t.text_ne_nil ht
      by_cases hopens : opensStep t.text = true
      · have hiff : gap = [] ↔ gap' = [] := by
          refine hties ?_
          obtain rfl | rfl := hp <;> simp [Place.gapCounts, hopens]
        by_cases hnil : gap = []
        · have hnil' := hiff.1 hnil
          subst hnil hnil'
          have hnext : p.next [] t = Place.operand.next [] t := by
            obtain rfl | rfl := hp <;> simp [Place.next, hopens]
          rw [hnext] at h
          refine .inl ⟨t.dropSpace_text ht rest, t.dropSpace_text ht rest', ?_, ?_⟩
          · rw [List.nil_append, opensStep_append hne, hopens]
          · exact .token hgap hgap' ht hends hends' (fun _ => Iff.rfl) h
        · refine .inr ⟨opensStep_gap hgap hnil _,
            opensStep_gap hgap' (fun hnil' => hnil (hiff.2 hnil')) _, ?_⟩
          rintro rfl
          have hnext : Place.root.next gap t = Place.operator.next gap t := by
            simp [Place.next, hnil]
          rw [hnext] at h
          exact .token hgap hgap' ht hends hends' (fun hcount => hties (by
            simp only [Place.gapCounts] at hcount ⊢
            simp_all)) h
      · have hnone {gap : List Char} (hgap : IsGap gap) (rest : List Char) :
            opensStep (gap ++ (t.text ++ rest)) = false := by
          by_cases hnil : gap = []
          · rw [hnil, List.nil_append, opensStep_append hne]
            simpa using hopens
          · exact opensStep_gap hgap hnil _
        refine .inr ⟨hnone hgap rest, hnone hgap' rest', ?_⟩
        rintro rfl
        have hnext : Place.root.next gap t = Place.operator.next gap t := by
          simp [Place.next, hopens]
        rw [hnext] at h
        exact .token hgap hgap' ht hends hends' (fun hcount => hties (by
          simp only [Place.gapCounts] at hcount ⊢
          simp_all)) h

theorem respaced_of_isSpelled {parts parts' : List Spaced} {p : Place}
    (h : isSpelled parts = true) (h' : isSpelled parts' = true)
    (htokens : parts.map (·.token) = parts'.map (·.token))
    (hties : sameTies p parts parts' = true) : Respaced p (spell parts) (spell parts') := by
  induction parts generalizing parts' p with
  | nil =>
      obtain rfl : parts' = [] := by simpa using htokens.symm
      exact .done
  | cons part parts ih =>
      cases parts' with
      | nil => simp at htokens
      | cons part' parts' =>
          simp only [List.map_cons, List.cons.injEq] at htokens
          obtain ⟨htoken, htokens⟩ := htokens
          simp only [isSpelled, Bool.and_eq_true, List.all_eq_true] at h h'
          simp only [sameTies, Bool.and_eq_true, Bool.or_eq_true, Bool.not_eq_true',
            beq_iff_eq] at hties
          rw [spell_cons, spell_cons, ← htoken]
          refine .token h.1.1.1 h'.1.1.1 h.1.1.2 ⟨h.1.2, fun s hs => colon_of_isSpelled h.2 hs⟩
            ⟨htoken ▸ h'.1.2, fun s hs => colon_of_isSpelled h'.2 hs⟩ (fun hcount => ?_)
            (ih h.2 h'.2 htokens hties.2)
          have hempty := hties.1.resolve_left (by simp [hcount])
          rw [← List.isEmpty_iff, ← List.isEmpty_iff, hempty]

end Restyle.Grammar
