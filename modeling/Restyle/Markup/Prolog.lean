import Restyle.Markup.Token

/-!
# Restyle.Markup.Prolog

What stands before the document element: the declaration, comments, processing instructions and
the document type.  Of a document type only the entities with a value matter, and the comments and
processing instructions in it; other declarations are passed over.
-/

namespace Restyle.Markup

open Source

/-- An entity and the text that it stands for. -/
structure Entity where
  name : String
  value : Source

/-- The value of the first entity with a name. -/
def entityValue? (entities : List Entity) (name : String) : Option Source :=
  (entities.find? fun entity => entity.name == name).map Entity.value

namespace Prolog

/-- A value in quotes, whatever it holds. -/
def quoted : Source → Option (Source × Source) := quotedWith fun _ => true

/-- White space that is needed unless the declaration ends. -/
def spaceOrEnd (s : Source) : Option Source :=
  if starts "?>" s then some s else needSpace s

/-- What is left after the attribute of the declaration that comes next, if its name starts with a
word. -/
def declared (word : String) (s : Source) : Option Source :=
  if starts word s then do
    let (_, rest) ← Token.readAttribute s
    spaceOrEnd rest
  else some s

/-- What is left after the declaration, if there is one. -/
def declaration (s : Source) : Option Source :=
  if !starts "<?xml " s then some s
  else do
    let rest ← spaceOrEnd (← skipText "<?xml" s)
    if starts "version" rest then
      let rest ← declared "standalone" (← declared "encoding" (← declared "version" rest))
      skipText "?>" (dropSpace rest)
    else none

/-- The comment or processing instruction that comes next, if there is one; the inner `none` if
it is not well-formed. -/
def miscItem (s : Source) : Option (Option (Token × Source)) :=
  if starts "<!--" s then some (Token.readComment s)
  else if starts "<?" s then some (Token.readInstruction s)
  else none

theorem length_lt_of_miscItem {s rest : Source} {t : Token}
    (h : miscItem s = some (some (t, rest))) : rest.length < s.length := by
  unfold miscItem at h
  split at h
  · exact Token.length_lt_of_readComment (Option.some.inj h)
  · split at h
    · exact Token.length_lt_of_readInstruction (Option.some.inj h)
    · contradiction

/-- The comments and processing instructions that come next, with white space between them. -/
def misc (s : Source) : Option (List Token × Source) :=
  match _h : miscItem (dropSpace s) with
  | none => some ([], dropSpace s)
  | some none => none
  | some (some (token, rest)) => (misc rest).map fun (tokens, rest') => (token :: tokens, rest')
termination_by s.length
decreasing_by exact Nat.lt_of_lt_of_le (length_lt_of_miscItem _h) (length_dropSpace_le s)

/-- The reference to an outside file, if there is one. -/
def externalId (s : Source) : Option Source :=
  match skipText "SYSTEM" s with
  | some rest => do
    let (_, rest') ← quoted (← needSpace rest)
    return rest'
  | none =>
    match skipText "PUBLIC" s with
    | some rest => do
      let (_, rest') ← quoted (← needSpace rest)
      let (_, rest'') ← quoted (← needSpace rest')
      return rest''
    | none => some s

theorem length_le_of_externalId {s rest : Source} (h : externalId s = some rest) :
    rest.length ≤ s.length := by
  unfold externalId at h
  split at h
  · next rest₁ hs =>
    simp only [Option.bind_eq_bind, Option.bind_eq_some_iff] at h
    obtain ⟨rest₂, hn, ⟨value, rest₃⟩, hq, h⟩ := h
    have h₁ := length_of_skip hs
    have h₂ := length_lt_of_needSpace hn
    have h₃ := length_lt_of_quotedWith hq
    simp only [pure, Option.some.injEq] at h
    rw [← h]; omega
  · split at h
    · next rest₁ hs =>
      simp only [Option.bind_eq_bind, Option.bind_eq_some_iff] at h
      obtain ⟨rest₂, hn, ⟨value, rest₃⟩, hq, rest₄, hn', ⟨value', rest₅⟩, hq', h⟩ := h
      have h₁ := length_of_skip hs
      have h₂ := length_lt_of_needSpace hn
      have h₃ := length_lt_of_quotedWith hq
      have h₄ : rest₄.length < rest₃.length := length_lt_of_needSpace hn'
      have h₅ := length_lt_of_quotedWith hq'
      simp only [pure, Option.some.injEq] at h
      rw [← h]; omega
    · exact Nat.le_of_eq (congrArg List.length (Option.some.inj h).symm)

/-- The notation of an outside entity, if it names one. -/
def notationName (s : Source) : Option Source :=
  match skipText "NDATA" (dropSpace s) with
  | some rest => do
    let (_, rest') ← name (← needSpace rest)
    return rest'
  | none => some (dropSpace s)

theorem length_le_of_notationName {s rest : Source} (h : notationName s = some rest) :
    rest.length ≤ s.length := by
  have hle := length_dropSpace_le s
  unfold notationName at h
  split at h
  · next rest₁ hs =>
    simp only [Option.bind_eq_bind, Option.bind_eq_some_iff] at h
    obtain ⟨rest₂, hn, ⟨written, rest₃⟩, hm, h⟩ := h
    have h₁ := length_of_skip hs
    have h₂ := length_lt_of_needSpace hn
    have h₃ := length_lt_of_name hm
    simp only [pure, Option.some.injEq] at h
    rw [← h]; omega
  · rw [← Option.some.inj h]; exact hle

/-- Whether an entity is a parameter entity, for which there is a percent sign. -/
def parameterSign (s : Source) : Option (Bool × Source) :=
  match skip ['%'] s with
  | some rest => (needSpace rest).map (true, ·)
  | none => some (false, s)

theorem length_le_of_parameterSign {s rest : Source} {parameter : Bool}
    (h : parameterSign s = some (parameter, rest)) : rest.length ≤ s.length := by
  unfold parameterSign at h
  split at h
  · next rest₁ hs =>
    obtain ⟨rest₂, hn, heq⟩ := Option.map_eq_some_iff.1 h
    have h₁ := length_of_skip hs
    have h₂ := length_lt_of_needSpace hn
    rw [← (Prod.mk.inj heq).2]; omega
  · exact Nat.le_of_eq (congrArg List.length (Prod.mk.inj (Option.some.inj h)).2.symm)

/-- What a name is declared to stand for: an entity, if it has a value. -/
def meaning (parameter : Bool) (entityName : String) (s : Source) :
    Option (List Entity × Source) :=
  if starts "SYSTEM" s || starts "PUBLIC" s then do
    let rest ← externalId s
    (if parameter then some rest else notationName rest).map ([], ·)
  else (quoted s).map fun (value, rest) => ([⟨entityName, value⟩], rest)

theorem length_le_of_meaning {s rest : Source} {parameter : Bool} {entityName : String}
    {entities : List Entity} (h : meaning parameter entityName s = some (entities, rest)) :
    rest.length ≤ s.length := by
  unfold meaning at h
  split at h
  · simp only [Option.bind_eq_bind, Option.bind_eq_some_iff, Option.map_eq_some_iff] at h
    obtain ⟨rest₁, he, rest₂, hn, heq⟩ := h
    have h₁ := length_le_of_externalId he
    rw [← (Prod.mk.inj heq).2]
    split at hn
    · rw [← Option.some.inj hn]; exact h₁
    · exact Nat.le_trans (length_le_of_notationName hn) h₁
  · obtain ⟨⟨value, rest₁⟩, hq, heq⟩ := Option.map_eq_some_iff.1 h
    rw [← (Prod.mk.inj heq).2]
    exact Nat.le_of_lt (length_lt_of_quotedWith hq)

/-- The declaration of an entity, if it has a value. -/
def entity (s : Source) : Option (List Entity × Source) := do
  let rest ← needSpace (← skipText "<!ENTITY" s)
  let (parameter, rest) ← parameterSign rest
  let (entityName, rest) ← name rest
  let (entities, rest) ← meaning parameter entityName (← needSpace rest)
  return (entities, ← skip ['>'] (dropSpace rest))

theorem length_lt_of_entity {s rest : Source} {entities : List Entity}
    (h : entity s = some (entities, rest)) : rest.length < s.length := by
  simp only [entity, Option.bind_eq_bind, Option.bind_eq_some_iff] at h
  obtain ⟨rest₁, hs, rest₂, hn, ⟨parameter, rest₃⟩, hp, ⟨entityName, rest₄⟩, hm, rest₅, hn',
    ⟨entities', rest₆⟩, he, rest₇, hk, h⟩ := h
  have h₁ := length_of_skip hs
  have h₂ := length_lt_of_needSpace hn
  have h₃ := length_le_of_parameterSign hp
  have h₄ : rest₄.length < rest₃.length := length_lt_of_name hm
  have h₅ : rest₅.length < rest₄.length := length_lt_of_needSpace hn'
  have h₆ : rest₆.length ≤ rest₅.length := length_le_of_meaning he
  have h₇ : rest₇.length + 1 = (dropSpace rest₆).length := length_of_skip hk
  have h₈ := length_dropSpace_le rest₆
  simp only [pure, Option.some.injEq, Prod.mk.injEq] at h
  rw [← h.2]; omega

/-- What is left after a declaration that is passed over: what follows its first closing bracket. -/
def otherDeclaration (s : Source) : Option Source :=
  match s.dropWhile fun l => l.char != '>' with
  | _ :: rest => some rest
  | [] => none

theorem length_lt_of_otherDeclaration {s rest : Source} (h : otherDeclaration s = some rest) :
    rest.length < s.length := by
  unfold otherDeclaration at h
  split at h
  · next l rest₁ hd =>
    have hle := (List.dropWhile_sublist (l := s) fun l => l.char != '>').length_le
    rw [hd, List.length_cons] at hle
    rw [← Option.some.inj h]; omega
  · contradiction

/-- What a document type holds. -/
structure Subset where
  entities : List Entity
  tokens : List Token

/-- One item of a document type. -/
def subsetItem (s : Source) : Option (Subset × Source) :=
  if starts "<!ENTITY" s then (entity s).map fun (entities, rest) => (⟨entities, []⟩, rest)
  else if starts "<!--" s then
    (Token.readComment s).map fun (token, rest) => (⟨[], [token]⟩, rest)
  else if starts "<?" s then
    (Token.readInstruction s).map fun (token, rest) => (⟨[], [token]⟩, rest)
  else if starts "<!ELEMENT" s || starts "<!ATTLIST" s || starts "<!NOTATION" s then
    (otherDeclaration s).map (⟨[], []⟩, ·)
  else none

theorem length_lt_of_subsetItem {s rest : Source} {item : Subset}
    (h : subsetItem s = some (item, rest)) : rest.length < s.length := by
  unfold subsetItem at h
  split at h
  · obtain ⟨⟨entities, rest₁⟩, he, heq⟩ := Option.map_eq_some_iff.1 h
    rw [← (Prod.mk.inj heq).2]; exact length_lt_of_entity he
  · split at h
    · obtain ⟨⟨token, rest₁⟩, hc, heq⟩ := Option.map_eq_some_iff.1 h
      rw [← (Prod.mk.inj heq).2]; exact Token.length_lt_of_readComment hc
    · split at h
      · obtain ⟨⟨token, rest₁⟩, hi, heq⟩ := Option.map_eq_some_iff.1 h
        rw [← (Prod.mk.inj heq).2]; exact Token.length_lt_of_readInstruction hi
      · split at h
        · obtain ⟨rest₁, hd, heq⟩ := Option.map_eq_some_iff.1 h
          rw [← (Prod.mk.inj heq).2]; exact length_lt_of_otherDeclaration hd
        · contradiction

/-- The items of a document type up to its closing bracket. -/
def subset (s : Source) : Option (Subset × Source) :=
  match skip [']'] (dropSpace s) with
  | some rest => (skip ['>'] (dropSpace rest)).map (⟨[], []⟩, ·)
  | none =>
    match _h : subsetItem (dropSpace s) with
    | none => none
    | some (item, rest) =>
      (subset rest).map fun (others, rest') =>
        (⟨item.entities ++ others.entities, item.tokens ++ others.tokens⟩, rest')
termination_by s.length
decreasing_by exact Nat.lt_of_lt_of_le (length_lt_of_subsetItem _h) (length_dropSpace_le s)

/-- The document type, if there is one. -/
def documentType (s : Source) : Option (Subset × Source) :=
  match skipText "<!DOCTYPE" s with
  | none => some (⟨[], []⟩, s)
  | some rest => do
    let (_, rest) ← name (← needSpace rest)
    let rest := dropSpace (← externalId (dropSpace rest))
    match skip ['['] rest with
    | some rest' => subset rest'
    | none => (skip ['>'] rest).map (⟨[], []⟩, ·)

/-- The byte order mark. -/
def byteOrderMark : List Char := [Char.ofNat 0xFEFF]

/-- What stands before the document element. -/
def read (s : Source) : Option (Subset × Source) := do
  let s ← declaration ((skip byteOrderMark s).getD s)
  let (before, s) ← misc s
  let (type, s) ← documentType s
  let (after, s) ← misc s
  return (⟨type.entities, before ++ type.tokens ++ after⟩, s)

end Prolog

end Restyle.Markup
