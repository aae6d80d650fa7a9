import Mathlib
import Restyle.Proofs.Expr.Tokens
import Restyle.Proofs.Result.Described

/-!
# Restyle.Proofs.Result.Decoding

Markup that is written for events is read as the tree the events describe.

Texts that stand together are read as one.  So what is carried through the description of events is
that their markup is read in front of anything that ends an element, also with more text before it
(`Decoded.Reads`).

* `Decoded.unescape_escapeText`, `Decoded.many_tagAttribute`, `Decoded.cutAt?_spaceHyphens` — texts,
  attributes and comments read back;
* `Decoded.exists_written` — events that describe nodes are written as a text that is read as them;
* `Decoded.read_result` — a result in markup is read as the tree of its events, and as no other.
-/

namespace Restyle

namespace Decoded

open Grammar Written

/-! ## References -/

theorem unescape_cons {c : Char} (h : c ≠ '&') (cs : List Char) :
    unescape (c :: cs) = c :: unescape cs := by
  conv_lhs => unfold unescape
  split <;> simp_all

theorem unescape_textChar (c : Char) (s : List Char) : unescape (textChar c ++ s) = c :: unescape s := by
  by_cases hamp : c = '&'
  · subst hamp
    rfl
  by_cases hless : c = '<'
  · subst hless
    rfl
  by_cases hgreater : c = '>'
  · subst hgreater
    rfl
  rw [textChar, if_neg hamp, if_neg hless, if_neg hgreater]
  exact unescape_cons hamp s

theorem unescape_valueChar (c : Char) (s : List Char) :
    unescape (valueChar c ++ s) = c :: unescape s := by
  by_cases hdouble : c = '"'
  · subst hdouble
    rfl
  by_cases hsingle : c = '\''
  · subst hsingle
    rfl
  rw [valueChar, if_neg hdouble, if_neg hsingle]
  exact unescape_textChar c s

/-- What is escaped character by character is read back character by character. -/
theorem unescape_flatMap {escape : Char → List Char}
    (h : ∀ c s, unescape (escape c ++ s) = c :: unescape s) (cs : List Char) :
    unescape (cs.flatMap escape) = cs := by
  induction cs with
  | nil => rfl
  | cons c cs ih => rw [List.flatMap_cons, h, ih]

theorem unescape_escapeText (text : String) : unescape (escapeText text) = text.toList :=
  unescape_flatMap unescape_textChar text.toList

theorem unescape_escapeValue (value : String) : unescape (escapeValue value) = value.toList :=
  unescape_flatMap unescape_valueChar value.toList

/-- No tag opens in text. -/
theorem ne_of_mem_escapeText {text : String} {c : Char} (h : c ∈ escapeText text) : c ≠ '<' := by
  obtain ⟨d, -, hc⟩ := List.mem_flatMap.1 h
  unfold textChar at hc
  rintro rfl
  split_ifs at hc with hamp hless hgreater
  · exact absurd hc (by decide)
  · exact absurd hc (by decide)
  · exact absurd hc (by decide)
  · exact hless (List.mem_singleton.1 hc).symm

/-- No quote closes a value too early. -/
theorem quote_notMem_escapeValue (value : String) : '"' ∉ escapeValue value := by
  intro h
  obtain ⟨d, -, hc⟩ := List.mem_flatMap.1 h
  unfold valueChar textChar at hc
  split_ifs at hc with hdouble hsingle hamp hless hgreater
  · exact absurd hc (by decide)
  · exact absurd hc (by decide)
  · exact absurd hc (by decide)
  · exact absurd hc (by decide)
  · exact absurd hc (by decide)
  · exact hdouble (List.mem_singleton.1 hc).symm

theorem escapeText_append (before content : String) :
    escapeText (before ++ content) = escapeText before ++ escapeText content := by
  simp [escapeText, String.toList_append]

theorem exists_cons_escapeText {content : String} (h : content ≠ "") :
    ∃ c cs, escapeText content = c :: cs ∧ c ≠ '<' := by
  cases hcs : escapeText content with
  | nil =>
      have hempty := unescape_escapeText content
      rw [hcs] at hempty
      exact absurd (String.toList_eq_nil_iff.1 hempty.symm) h
  | cons c cs => exact ⟨c, cs, rfl, ne_of_mem_escapeText (hcs ▸ List.mem_cons_self)⟩

/-! ## Comments -/

/-- The text of a comment ends where it is closed, and not before. -/
theorem cutAt?_spaceHyphens (cs s : List Char) :
    Text.cutAt? ['-', '-', '>'] (spaceHyphens cs ++ '-' :: '-' :: '>' :: s) =
      some (spaceHyphens cs, s) := by
  have hstep (c : Char) (rest : List Char) (h : ['-', '-', '>'].isPrefixOf (c :: rest) = false)
      {before : List Char} (hrest : Text.cutAt? ['-', '-', '>'] rest = some (before, s)) :
      Text.cutAt? ['-', '-', '>'] (c :: rest) = some (c :: before, s) := by
    simp [Text.cutAt?, h, hrest]
  induction cs with
  | nil => simp [spaceHyphens, Text.cutAt?]
  | cons c cs ih =>
      rw [spaceHyphens]
      split
      · next h =>
        obtain rfl : c = '-' := by simp_all
        exact hstep _ _ rfl (hstep _ _ rfl ih)
      · next h =>
        refine hstep _ _ ?_ ih
        by_cases hc : c = '-'
        · subst hc
          cases cs with
          | nil => simp [needsSpace] at h
          | cons d cs =>
              have hd : d ≠ '-' := by simpa [needsSpace] using h
              have hhead : ∃ rest, spaceHyphens (d :: cs) = d :: rest := by
                rw [spaceHyphens]
                split <;> exact ⟨_, rfl⟩
              obtain ⟨rest, hrest⟩ := hhead
              simp [hrest, List.isPrefixOf, hd.symm]
        · simp [List.isPrefixOf, Ne.symm hc]

/-! ## Tags -/

theorem exists_cons_of_isTagName {name : List Char} (h : isTagName name = true) :
    ∃ c cs, name = c :: cs ∧ isTagChar c = true := by
  cases name with
  | nil => simp [isTagName] at h
  | cons c cs =>
      simp only [isTagName, List.all_cons, Bool.and_eq_true] at h
      exact ⟨c, cs, rfl, h.2.1⟩

theorem ne_of_isTagChar {c d : Char} (hc : isTagChar c = true) (hd : isTagChar d = false) :
    d ≠ c := by
  rintro rfl
  simp [hc] at hd

/-- A name is read up to where it cannot go on. -/
theorem tagName_append {name s : List Char} (h : isTagName name = true)
    (hs : ∀ c ∈ s.head?, isTagChar c = false) : tagName (name ++ s) = some (name, s) := by
  obtain ⟨c, cs, rfl, -⟩ := exists_cons_of_isTagName h
  simp only [isTagName, Bool.and_eq_true, List.all_eq_true] at h
  obtain ⟨htake, hdrop⟩ := takeWhile_append_stop h.2 hs
  rw [tagName, htake, hdrop]
  rfl

theorem dropSpace_tagName {name : List Char} (h : isTagName name = true) (s : List Char) :
    dropSpace (name ++ s) = name ++ s := by
  obtain ⟨c, cs, rfl, hc⟩ := exists_cons_of_isTagName h
  refine dropSpace_cons ?_ _
  simp only [isTagChar, Bool.and_eq_true, Bool.not_eq_true'] at hc
  exact hc.1

/-- An attribute as it is written. -/
def attributeText (attr : String × String) : List Char :=
  ' ' :: (attr.1.toList ++ '=' :: '"' :: (escapeValue attr.2 ++ ['"']))

theorem startTag_eq (close : List Char) (name : String) (attrs : List (String × String)) :
    startTag close (name, attrs) = '<' :: (name.toList ++ (attrs.flatMap attributeText ++ close)) := by
  simp [startTag]
  rfl

theorem tagAttribute_append {attr : String × String} (h : isTagName attr.1.toList = true)
    (s : List Char) : tagAttribute (attributeText attr ++ s) = .ok (attr, s) := by
  have htext : attributeText attr ++ s =
      ' ' :: (attr.1.toList ++ '=' :: '"' :: (escapeValue attr.2 ++ '"' :: s)) := by
    simp [attributeText]
  have hname := tagName_append (s := '=' :: '"' :: (escapeValue attr.2 ++ '"' :: s)) h
    (by simp; decide)
  have hvalue := closedBy_append (quote_notMem_escapeValue attr.2) s
  rw [htext, tagAttribute, dropSpace_space, dropSpace_tagName h, hname]
  simp [literal, hvalue, unescape_escapeValue, String.ofList_toList]

/-- The attributes of a tag are read up to what no attribute starts with. -/
theorem many_tagAttribute {attrs : List (String × String)}
    (h : ∀ attr ∈ attrs, isTagName attr.1.toList = true) {rest place : List Char}
    (hrest : tagAttribute rest = .error place) :
    many tagAttribute (attrs.flatMap attributeText ++ rest).length
      (attrs.flatMap attributeText ++ rest) = (attrs, rest) := by
  have hlimit : attrs.length ≤ (attrs.flatMap attributeText ++ rest).length := by
    have : attrs.length ≤ (attrs.flatMap attributeText).length :=
      length_le_length_flatMap fun _ _ => by simp [attributeText]
    rw [List.length_append]
    omega
  obtain ⟨left, hread, hleft⟩ := many_reads attributeText (fun _ => True) Eq
    (fun attr hattr s tail _ hs => ⟨tail, hs ▸ tagAttribute_append (h attr hattr) tail, rfl⟩)
    (fun s hs => ⟨place, hs ▸ hrest⟩) trivial (fun _ _ _ => trivial) hlimit rfl
  rw [hread, hleft]

/-- Where a start tag stands, what is in it is read up to its end. -/
theorem element_startTag {inner : NodesReader} {name : String} {attrs : List (String × String)}
    (hname : isTagName name.toList = true)
    (hattrs : ∀ attr ∈ attrs, isTagName attr.1.toList = true) {rest place : List Char}
    (hrest : tagAttribute rest = .error place)
    (hstop : ∀ c ∈ (attrs.flatMap attributeText ++ rest).head?, isTagChar c = false) :
    element inner (name.toList ++ (attrs.flatMap attributeText ++ rest)) =
      match skip ['/', '>'] (dropSpace rest) with
      | some after => some (.element name attrs [], after)
      | none =>
        (skip ['>'] (dropSpace rest)).bind fun inside =>
          (inner inside).bind fun found =>
            (endTag name.toList found.2).map fun after => (.element name attrs found.1, after) := by
  simp only [element, tagName_append hname hstop, many_tagAttribute hattrs hrest,
    String.ofList_toList, Option.bind_eq_bind, Option.bind_some]
  cases skip ['/', '>'] (dropSpace rest) with
  | some after => rfl
  | none => simp [Option.map_eq_bind, Option.pure_def]

/-- Every mark that ends a tag ends its attributes too. -/
theorem tagEnd_facts {close : List Char} (h : close = ['>'] ∨ close = ['/', '>'])
    (attrs : List (String × String)) (s : List Char) :
    (∃ place, tagAttribute (close ++ s) = .error place) ∧
      ∀ c ∈ (attrs.flatMap attributeText ++ (close ++ s)).head?, isTagChar c = false := by
  refine ⟨?_, ?_⟩
  · obtain rfl | rfl := h <;> exact ⟨_, rfl⟩
  · cases attrs with
    | nil => obtain rfl | rfl := h <;> simp <;> decide
    | cons attr attrs => simp [attributeText]; decide

/-- A text that starts with the start tag of an element is neither other text nor a comment. -/
theorem node_startTag {inner : NodesReader} {name : String} (hname : isTagName name.toList = true)
    (s : List Char) : node inner ('<' :: (name.toList ++ s)) = element inner (name.toList ++ s) := by
  obtain ⟨c, cs, hcs, hc⟩ := exists_cons_of_isTagName hname
  have hmark : skip ['!', '-', '-'] (c :: (cs ++ s)) = none :=
    skip_cons_of_ne (ne_of_isTagChar hc (by decide)) _ _
  simp [node, hcs, hmark]

/-! ## Nodes one after another -/

theorem consText_empty (trees : List ResultTree) : ResultTree.consText "" trees = trees := by
  cases trees with
  | nil => rfl
  | cons tree trees => cases tree <;> simp [ResultTree.consText]

theorem consText_consText (before content : String) (trees : List ResultTree) :
    ResultTree.consText before (ResultTree.consText content trees) =
      ResultTree.consText (before ++ content) trees := by
  by_cases hcontent : content = ""
  · subst hcontent
    rw [consText_empty, String.append_empty]
  · cases trees with
    | nil => simp [ResultTree.consText, hcontent]
    | cons tree trees =>
        cases tree <;> simp [ResultTree.consText, hcontent, String.append_assoc]

/-- Text in front of a mark, or at the end, is one node, or none if it is empty. -/
theorem forest_text {s rest : List Char} {trees : List ResultTree} {m : Nat}
    (hs : ∀ c ∈ s.head?, c = '<') (htrees : ∀ after others, trees ≠ .text after :: others)
    (hread : ∀ limit, m < limit → forest limit s = some (trees, rest)) (content : String)
    {limit : Nat} (hlimit : (escapeText content).length + m < limit) :
    forest limit (escapeText content ++ s) = some (ResultTree.consText content trees, rest) := by
  by_cases hcontent : content = ""
  · subst hcontent
    rw [consText_empty]
    exact hread limit (by omega)
  · obtain ⟨c, cs, hcs, hc⟩ := exists_cons_escapeText hcontent
    have hcons : ResultTree.consText content trees = .text content :: trees := by
      cases trees with
      | nil => simp [ResultTree.consText, hcontent]
      | cons tree others =>
          cases tree with
          | text after => exact absurd rfl (htrees after others)
          | _ => simp [ResultTree.consText, hcontent]
    -- Escaped text holds no mark, so the node ends where the text does.
    have hrun : ∀ d ∈ escapeText content, (d != '<') = true := fun d hd => by
      simpa using ne_of_mem_escapeText hd
    have hstop : ∀ d ∈ s.head?, (d != '<') = false := fun d hd => by simpa using hs d hd
    obtain ⟨htake, hdrop⟩ := takeWhile_append_stop hrun hstop
    have hnode (inner : NodesReader) :
        node inner (escapeText content ++ s) = some (.text content, s) := by
      have hmark : skip ['<'] (escapeText content ++ s) = none := by
        rw [hcs]
        exact skip_cons_of_ne hc.symm _ _
      rw [node, hmark]
      simp only [text, htake, hdrop, unescape_escapeText, String.ofList_toList]
    have hstops : stops (escapeText content ++ s) = false := by
      simp [hcs, stops, List.isPrefixOf, hc.symm]
    obtain ⟨limit, rfl⟩ : ∃ l, limit = l + 1 := Nat.exists_eq_add_of_le' (by omega)
    have hlength : m < limit := by
      rw [hcs, List.length_cons] at hlimit
      omega
    simp [forest, hstops, hnode, hread limit hlength, hcons]

/-- A text is read as nodes in front of anything that ends them, also with more text before it. -/
def Reads (text : List Char) (trees : List ResultTree) : Prop :=
  ∀ (before : String) (limit : Nat) (rest : List Char), stops rest = true →
    (escapeText before ++ text).length < limit →
    forest limit (escapeText before ++ (text ++ rest)) =
      some (ResultTree.consText before trees, rest)

theorem Reads.forest {text : List Char} {trees : List ResultTree} (h : Reads text trees)
    {limit : Nat} (hlimit : text.length < limit) (rest : List Char) (hrest : stops rest = true) :
    Decoded.forest limit (text ++ rest) = some (trees, rest) := by
  have := h "" limit rest hrest hlimit
  rwa [consText_empty] at this

theorem head?_of_stops {rest : List Char} (h : stops rest = true) : ∀ c ∈ rest.head?, c = '<' := by
  cases rest with
  | nil => simp
  | cons c rest =>
      simp only [stops, List.isEmpty_cons, List.isPrefixOf, Bool.false_or, Bool.and_eq_true,
        beq_iff_eq] at h
      simpa using h.1.symm

theorem reads_nil : Reads [] [] := by
  intro before limit rest hrest hlimit
  refine forest_text (m := 0) (head?_of_stops hrest) (by simp) (fun limit hlimit => ?_) before
    (by simpa using hlimit)
  obtain ⟨limit, rfl⟩ : ∃ l, limit = l + 1 := Nat.exists_eq_add_of_le' (by omega)
  simp [Decoded.forest, hrest]

theorem Reads.text {text : List Char} {trees : List ResultTree} (h : Reads text trees)
    (content : String) :
    Reads (escapeText content ++ text) (ResultTree.consText content trees) := by
  intro before limit rest hrest hlimit
  have := h (before ++ content) limit rest hrest
    (by simpa [escapeText_append, Nat.add_assoc] using hlimit)
  rw [consText_consText, ← this, escapeText_append]
  simp

/-- A node that is not text is read in front of others. -/
theorem Reads.node {mark text : List Char} {tree : ResultTree} {trees : List ResultTree}
    (h : Reads text trees) (htree : ∀ content, tree ≠ .text content)
    (hmark : ∃ s, mark = '<' :: s) (hstops : ∀ s, stops (mark ++ s) = false)
    (hnode : ∀ limit s, mark.length ≤ limit →
      Decoded.node (Decoded.forest limit) (mark ++ s) = some (tree, s)) :
    Reads (mark ++ text) (tree :: trees) := by
  intro before limit rest hrest hlimit
  rw [List.append_assoc]
  refine forest_text (m := (mark ++ text).length) ?_ ?_ (fun limit hlimit => ?_) before
    (by simpa using hlimit)
  · obtain ⟨s, rfl⟩ := hmark
    simp
  · intro after others heq
    exact htree after (List.cons.inj heq).1
  · obtain ⟨limit, rfl⟩ : ∃ l, limit = l + 1 := Nat.exists_eq_add_of_le' (by omega)
    rw [List.length_append] at hlimit
    have hpos : 0 < mark.length := by
      obtain ⟨s, rfl⟩ := hmark
      simp
    have hlength : text.length < limit := by omega
    have hothers := h.forest hlength rest hrest
    simp [Decoded.forest, hstops, hnode limit _ (by omega : mark.length ≤ limit), hothers]

theorem Reads.comment {text : List Char} {trees : List ResultTree} (h : Reads text trees)
    (content : List Char) :
    Reads ("<!--".toList ++ spaceHyphens content ++ "-->".toList ++ text)
      (.comment (String.ofList (spaceHyphens content)) :: trees) := by
  refine h.node (by simp) ⟨_, rfl⟩ (fun s => rfl) fun limit s _ => ?_
  have hopen (s : List Char) : Decoded.node (Decoded.forest limit) ("<!--".toList ++ s) =
      Decoded.comment s := rfl
  rw [List.append_assoc, List.append_assoc, hopen, Decoded.comment]
  simp [cutAt?_spaceHyphens]

theorem stops_startTag {close : List Char} {name : String} (hname : isTagName name.toList = true)
    (attrs : List (String × String)) (s : List Char) :
    stops (startTag close (name, attrs) ++ s) = false := by
  obtain ⟨c, cs, hcs, hc⟩ := exists_cons_of_isTagName hname
  have hslash : '/' ≠ c := ne_of_isTagChar hc (by decide)
  simp [startTag_eq, hcs, stops, List.isPrefixOf, hslash]

theorem Reads.emptyElement {text : List Char} {trees : List ResultTree} (h : Reads text trees)
    {name : String} {attrs : List (String × String)} (hname : isTagName name.toList = true)
    (hattrs : ∀ attr ∈ attrs, isTagName attr.1.toList = true) :
    Reads (startTag ['/', '>'] (name, attrs) ++ text) (.element name attrs [] :: trees) := by
  refine h.node (by simp) ⟨_, startTag_eq _ _ _⟩ (stops_startTag hname attrs) fun limit s _ => ?_
  obtain ⟨⟨place, hplace⟩, hstop⟩ := tagEnd_facts (.inr rfl) attrs s
  have hclose : skip ['/', '>'] (dropSpace (['/', '>'] ++ s)) = some s := rfl
  rw [startTag_eq, List.cons_append, List.append_assoc, List.append_assoc, node_startTag hname,
    element_startTag hname hattrs hplace hstop, hclose]

theorem Reads.element {content text : List Char} {children trees : List ResultTree}
    (hcontent : Reads content children) (h : Reads text trees) {name : String}
    {attrs : List (String × String)} (hname : isTagName name.toList = true)
    (hattrs : ∀ attr ∈ attrs, isTagName attr.1.toList = true) :
    Reads (startTag ['>'] (name, attrs) ++ (content ++ '<' :: '/' :: name.toList ++ '>' :: text))
      (.element name attrs children :: trees) := by
  have hmark : startTag ['>'] (name, attrs) ++ (content ++ '<' :: '/' :: name.toList ++ '>' :: text) =
      startTag ['>'] (name, attrs) ++ content ++ ('<' :: '/' :: name.toList ++ ['>']) ++ text := by
    simp
  rw [hmark]
  refine h.node (by simp) ⟨_, by rw [startTag_eq]; rfl⟩ (fun s => ?_) fun limit s hlimit => ?_
  · simp only [List.append_assoc]
    exact stops_startTag hname attrs _
  · have hlength : content.length < limit := by
      simp at hlimit
      omega
    have hinside := hcontent.forest hlength ('<' :: '/' :: name.toList ++ '>' :: s) rfl
    have hend : endTag name.toList ('<' :: '/' :: name.toList ++ '>' :: s) = some s := by
      rw [endTag, skip_append, Option.bind_some, dropSpace_cons (by decide), skip_cons, skip_empty]
    obtain ⟨⟨place, hplace⟩, hstop⟩ := tagEnd_facts (.inl rfl) attrs
      (content ++ ('<' :: '/' :: name.toList ++ '>' :: s))
    have hclose : skip ['/', '>'] (dropSpace (['>'] ++
          (content ++ ('<' :: '/' :: name.toList ++ '>' :: s)))) = none ∧
        skip ['>'] (dropSpace (['>'] ++ (content ++ ('<' :: '/' :: name.toList ++ '>' :: s)))) =
          some (content ++ ('<' :: '/' :: name.toList ++ '>' :: s)) := ⟨rfl, rfl⟩
    have htext : startTag ['>'] (name, attrs) ++ content ++ ('<' :: '/' :: name.toList ++ ['>']) ++
        s = '<' :: (name.toList ++ (attrs.flatMap attributeText ++
          (['>'] ++ (content ++ ('<' :: '/' :: name.toList ++ '>' :: s))))) := by
      simp [startTag_eq]
    rw [htext, node_startTag hname, element_startTag hname hattrs hplace hstop, hclose.1, hclose.2]
    simp only [Option.bind_some, hinside, hend, Option.map_some]

theorem mem_mergedAttributes {attrs : List (String × String)} {attr : String × String}
    (h : attr ∈ mergedAttributes attrs) : ∃ other ∈ attrs, other.1 = attr.1 := by
  obtain ⟨name, hname, rfl⟩ := List.mem_map.1 h
  simpa [List.mem_eraseDups] using hname

/-- Events that describe nodes have markup, and that is read as those nodes. -/
theorem exists_written {events : List Event} {trees : List ResultTree} (h : Describes events trees)
    (hnames : ∀ event ∈ events, isWellNamed event = true) :
    ∃ text, Writes events text ∧ Reads text trees := by
  induction h with
  | nil => exact ⟨[], writes_nil, reads_nil⟩
  | text content h ih =>
      obtain ⟨text, hwrites, hreads⟩ := ih fun event hevent =>
        hnames event (List.mem_cons_of_mem _ hevent)
      exact ⟨_, hwrites.text content, hreads.text content⟩
  | comment content h ih =>
      obtain ⟨text, hwrites, hreads⟩ := ih fun event hevent =>
        hnames event (List.mem_cons_of_mem _ hevent)
      exact ⟨_, hwrites.comment content, hreads.comment content.toList⟩
  | @element name attrs inside events children trees hinside h ihinside ih =>
      have hname : isTagName name.toList = true := hnames (.start name) (by simp)
      have hattrs : ∀ attr ∈ mergedAttributes attrs, isTagName attr.1.toList = true := by
        intro attr hattr
        obtain ⟨other, hother, hsame⟩ := mem_mergedAttributes hattr
        rw [← hsame]
        exact hnames (Event.ofAttribute other) (by simp [List.mem_map_of_mem hother])
      obtain ⟨content, hcontent, hreadsContent⟩ := ihinside fun event hevent =>
        hnames event (by simp [hevent])
      obtain ⟨text, hwrites, hreads⟩ := ih fun event hevent => hnames event (by simp [hevent])
      by_cases hne : inside = []
      · subst hne
        obtain rfl := hinside.of_nil
        rw [List.append_nil]
        exact ⟨_, hwrites.emptyElement name attrs, hreads.emptyElement hname hattrs⟩
      · exact ⟨_, .element hinside hne hcontent hwrites name attrs,
          hreadsContent.element hreads hname hattrs⟩

/-! ## Whole results -/

/-- The declaration is no markup for nodes. -/
theorem forest_declaration (limit : Nat) (s : List Char) : forest limit (declaration ++ s) = none := by
  have htag : declaration = '<' :: ("?xml".toList ++
      ([("version", "1.0"), ("encoding", "UTF-8")].flatMap attributeText ++ ['?', '>', '\n'])) := by
    cbv
  have hnode (inner : NodesReader) : node inner (declaration ++ s) = none := by
    have hplace : tagAttribute (['?', '>', '\n'] ++ s) = .error ('>' :: '\n' :: s) := rfl
    have hclose : skip ['/', '>'] (dropSpace (['?', '>', '\n'] ++ s)) = none ∧
        skip ['>'] (dropSpace (['?', '>', '\n'] ++ s)) = none := ⟨rfl, rfl⟩
    rw [htag, List.cons_append, List.append_assoc, List.append_assoc, node_startTag (by decide),
      element_startTag (by decide) (by decide) hplace (by simp [attributeText]; decide),
      hclose.1, hclose.2]
    rfl
  have hstops : stops (declaration ++ s) = false := rfl
  cases limit with
  | zero => rfl
  | succ limit => simp [forest, hstops, hnode]

/-- Markup that is read as nodes is read so with the declaration in front of it and without. -/
theorem read_of_reads {text : List Char} {trees : List ResultTree} (h : Reads text trees) :
    read (String.ofList text) = some trees ∧
      read (String.ofList (declaration ++ text)) = some trees := by
  have hforest := h.forest (Nat.lt_succ_self _) [] rfl
  rw [List.append_nil] at hforest
  have hbare : skip declaration text = none := by
    cases hskip : skip declaration text with
    | none => rfl
    | some rest =>
        rw [skip_eq_some_iff.1 hskip, forest_declaration] at hforest
        cases hforest
  refine ⟨?_, ?_⟩
  · simp only [read, String.toList_ofList, hbare, Option.getD_none, hforest]
  · simp only [read, String.toList_ofList, skip_append, Option.getD_some, hforest]

/-- What events need so that they can be written as markup: they nest, their attributes are in
place, and their names may be names in markup. -/
structure Legible (events : List Event) : Prop where
  balanced : Event.Balanced events
  placed : Event.AttributesPlaced events
  named : ∀ event ∈ events, isWellNamed event = true

/-- The text of a result in markup is read as the nodes that its events describe. -/
theorem read_of_describes {events : List Event} {trees : List ResultTree} (hevents : Legible events)
    (h : Describes events trees) {form : OutputForm} (hform : form.method ≠ .text) :
    ∃ source, result form events = .ok source ∧ read source = some trees := by
  obtain ⟨text, hwrites, hreads⟩ := exists_written h hevents.named
  have hmarkup : markup events = .ok text := by
    have := hwrites [] []
    rw [List.append_nil] at this
    rw [markup, this]
    simp [markupFrom, enclosing, Functor.map, Except.map]
  obtain ⟨hbare, hdeclared⟩ := read_of_reads hreads
  cases hmethod : form.method with
  | text => exact absurd hmethod hform
  | html => exact ⟨String.ofList text, by rw [result, hmethod, hmarkup]; rfl, hbare⟩
  | xml =>
      by_cases hdeclaration : form.declaration = true
      · refine ⟨String.ofList (declaration ++ text), ?_, hdeclared⟩
        rw [result, hmethod, hmarkup, hdeclaration]
        rfl
      · refine ⟨String.ofList text, ?_, hbare⟩
        simp [result, hmethod, hmarkup, hdeclaration, bind, Except.bind, pure, Except.pure]

/-- What the text of a result is read as is what its events describe. -/
theorem eq_of_read {events : List Event} {described trees : List ResultTree} {form : OutputForm}
    {source : String} (hevents : Legible events) (h : Describes events described)
    (hform : form.method ≠ .text) (hresult : result form events = .ok source)
    (hread : read source = some trees) : described = trees := by
  obtain ⟨source', hresult', hread'⟩ := read_of_describes hevents h hform
  obtain rfl : source' = source := Except.ok.inj (hresult'.symm.trans hresult)
  exact Option.some.inj (hread'.symm.trans hread)

/-- Markup can be decoded: events that nest, with their attributes in place and names that may be
names in markup, describe one tree and no other; their markup, with or without a declaration, is
read as that tree; and no events that describe another tree have the same text. -/
theorem read_result {events : List Event} (h : Legible events) :
    ∃ trees, Describes events trees ∧ (∀ others, Describes events others → others = trees) ∧
      ∀ form : OutputForm, form.method ≠ .text →
        ∃ source, result form events = .ok source ∧ read source = some trees ∧
          ∀ (events' : List Event) (form' : OutputForm) (trees' : List ResultTree), Legible events' →
            form'.method ≠ .text → Describes events' trees' → result form' events' = .ok source →
            trees' = trees := by
  obtain ⟨trees, htrees⟩ := Event.exists_describes h.balanced h.placed
  refine ⟨trees, htrees, fun others hothers => ?_, fun form hform => ?_⟩
  · have hstandard : OutputForm.standard.method ≠ .text := by decide
    obtain ⟨source, hresult, hread⟩ := read_of_describes h htrees hstandard
    exact eq_of_read h hothers hstandard hresult hread
  · obtain ⟨source, hresult, hread⟩ := read_of_describes h htrees hform
    exact ⟨source, hresult, hread, fun events' form' trees' h' hform' htrees' hresult' =>
      eq_of_read h' htrees' hform' hresult' hread⟩

/-- Events with an attribute set twice, text in parts, and hyphens in a comment. -/
def mixed : List Event :=
  [.start "a", .attr "x" "1", .attr "y" "'&'", .attr "x" "<2>", .text "p", .text "", .text "<q>",
    .comment "--", .start "b", .stop, .stop]

/-- The nodes that they describe. -/
def mixedTrees : List ResultTree :=
  [.element "a" [("x", "<2>"), ("y", "'&'")]
    [.text "p<q>", .comment "- - ", .element "b" [] []]]

theorem read_result_mixed :
    Legible mixed ∧
    result ⟨.xml, false⟩ mixed =
      .ok "<a x=\"&lt;2&gt;\" y=\"&apos;&amp;&apos;\">p&lt;q&gt;<!--- - --><b/></a>" ∧
    read "<a x=\"&lt;2&gt;\" y=\"&apos;&amp;&apos;\">p&lt;q&gt;<!--- - --><b/></a>" =
      some mixedTrees := by
  have hlegible : Legible mixed := ⟨by decide, by decide, by decide⟩
  have hdescribes : Describes mixed mixedTrees :=
    .element "a" [("x", "1"), ("y", "'&'"), ("x", "<2>")]
      (.text "p" (.text "" (.text "<q>" (.comment "--" (.element "b" [] .nil .nil))))) .nil
  have hresult : result ⟨.xml, false⟩ mixed =
      .ok "<a x=\"&lt;2&gt;\" y=\"&apos;&amp;&apos;\">p&lt;q&gt;<!--- - --><b/></a>" := by
    cbv
  obtain ⟨trees, -, hunique, hread⟩ := read_result hlegible
  obtain rfl := hunique mixedTrees hdescribes
  obtain ⟨source, hsource, hread, -⟩ := hread ⟨.xml, false⟩ (by decide)
  obtain rfl := Except.ok.inj (hsource.symm.trans hresult)
  exact ⟨hlegible, hresult, hread⟩

end Decoded

end Restyle
