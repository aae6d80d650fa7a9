import Restyle.Markup.Source

/-!
# Restyle.Markup.Token

The parts that element content is made of: tags, text, character data sections, comments and
processing instructions.  Names, quotes and the characters allowed are checked here, and whether
tags match is not.

A text may end in the middle of a start tag or of an element, because the text of an entity may be
any part of what is around it.  `Token.content` cuts a text into its parts up to the end tag that
closes what the text stands in; what comes after that end tag is left.
-/

namespace Restyle.Markup

open Source

/-- An attribute as it is written in a tag. -/
structure RawAttribute where
  name : Written
  value : Source

/-- How a start tag ends. -/
inductive TagEnd where
  /-- With the content of its element. -/
  | opening
  /-- With its element, which is empty. -/
  | closing
  /-- With the text that it stands in. -/
  | cutOff
deriving DecidableEq, Repr

/-- A part of element content. -/
inductive Token where
  /-- A start tag. -/
  | start (place : Place) (name : Written) (attributes : List RawAttribute) (tagEnd : TagEnd)
  /-- An end tag. -/
  | stop (name : Written)
  /-- Text in which references count. -/
  | text (content : Source)
  /-- Text in which they do not. -/
  | data (place : Place) (content : Source)
  | comment (content : String)
  | instruction (target content : String)

namespace Token

/-- Whether two dashes stand together somewhere in a text. -/
def holdsDashes : List Char → Bool
  | '-' :: '-' :: _ => true
  | _ :: cs => holdsDashes cs
  | [] => false

/-- A comment. -/
def readComment (s : Source) : Option (Token × Source) := do
  let rest ← skipText "<!--" s
  let (content, rest') ← upTo ['-', '-', '>'] rest
  let cs := chars content
  if holdsDashes cs || cs.getLast? == some '-' then none
  else return (.comment (String.ofList cs), rest')

theorem length_lt_of_readComment {s rest : Source} {t : Token}
    (h : readComment s = some (t, rest)) : rest.length < s.length := by
  simp only [readComment, Option.bind_eq_bind, Option.bind_eq_some_iff] at h
  obtain ⟨rest₁, hs, ⟨content, rest₂⟩, hu, h⟩ := h
  have h₁ : rest₁.length + 4 = s.length := length_of_skip hs
  have h₂ := length_le_of_upTo hu
  split at h
  · contradiction
  · simp only [pure, Option.some.injEq, Prod.mk.injEq] at h
    rw [← h.2]; omega

/-- A processing instruction.  The XML declaration is none. -/
def readInstruction (s : Source) : Option (Token × Source) := do
  if starts "<?xml " s then none
  else
    let rest ← skipText "<?" s
    let (target, rest') ← name rest
    let (content, rest'') ← upTo ['?', '>'] (dropSpace rest')
    return (.instruction target content.text, rest'')

theorem length_lt_of_readInstruction {s rest : Source} {t : Token}
    (h : readInstruction s = some (t, rest)) : rest.length < s.length := by
  simp only [readInstruction] at h
  split at h
  · contradiction
  · simp only [Option.bind_eq_bind, Option.bind_eq_some_iff] at h
    obtain ⟨rest₁, hs, ⟨target, rest₂⟩, hn, ⟨content, rest₃⟩, hu, h⟩ := h
    have h₁ : rest₁.length + 2 = s.length := length_of_skip hs
    have h₂ := length_lt_of_name hn
    have h₃ : rest₃.length ≤ (dropSpace rest₂).length := length_le_of_upTo hu
    have h₄ := length_dropSpace_le rest₂
    simp only [pure, Option.some.injEq, Prod.mk.injEq] at h
    rw [← h.2]; omega

/-- A character data section. -/
def readData (s : Source) : Option (Token × Source) := do
  let rest ← skipText "<![CDATA[" s
  let (content, rest') ← upTo [']', ']', '>'] rest
  return (.data (Source.place s) content, rest')

theorem length_lt_of_readData {s rest : Source} {t : Token}
    (h : readData s = some (t, rest)) : rest.length < s.length := by
  simp only [readData, Option.bind_eq_bind, Option.bind_eq_some_iff] at h
  obtain ⟨rest₁, hs, ⟨content, rest₂⟩, hu, h⟩ := h
  have h₁ : rest₁.length + 9 = s.length := length_of_skip hs
  have h₂ := length_le_of_upTo hu
  simp only [pure, Option.some.injEq, Prod.mk.injEq] at h
  rw [← h.2]; omega

/-- An end tag. -/
def readStop (s : Source) : Option (Token × Source) := do
  let rest ← skipText "</" s
  let (name, rest') ← written rest
  return (.stop name, ← skip ['>'] (dropSpace rest'))

theorem length_lt_of_readStop {s rest : Source} {t : Token}
    (h : readStop s = some (t, rest)) : rest.length < s.length := by
  simp only [readStop, Option.bind_eq_bind, Option.bind_eq_some_iff] at h
  obtain ⟨rest₁, hs, ⟨name, rest₂⟩, hw, rest₃, hk, h⟩ := h
  have h₁ : rest₁.length + 2 = s.length := length_of_skip hs
  have h₂ := length_le_of_written hw
  have h₃ : rest₃.length + 1 = (dropSpace rest₂).length := length_of_skip hk
  have h₄ := length_dropSpace_le rest₂
  simp only [pure, Option.some.injEq, Prod.mk.injEq] at h
  rw [← h.2]; omega

/-- An attribute with its value. -/
def readAttribute (s : Source) : Option (RawAttribute × Source) := do
  let (name, rest) ← written s
  let (value, rest') ← quotedWith (fun c => isMarkupText c && c != '<') (← equals rest)
  return (⟨name, value⟩, rest')

theorem length_lt_of_readAttribute {s rest : Source} {attr : RawAttribute}
    (h : readAttribute s = some (attr, rest)) : rest.length < s.length := by
  simp only [readAttribute, Option.bind_eq_bind, Option.bind_eq_some_iff] at h
  obtain ⟨⟨name, rest₁⟩, hw, rest₂, he, ⟨value, rest₃⟩, hq, h⟩ := h
  have h₁ := length_le_of_written hw
  have h₂ : rest₂.length < rest₁.length := length_lt_of_equals he
  have h₃ := length_lt_of_quotedWith hq
  simp only [pure, Option.some.injEq, Prod.mk.injEq] at h
  rw [← h.2]; omega

/-- An attribute with the white space that must stand in front of it. -/
def readNextAttribute (s : Source) : Option (RawAttribute × Source) :=
  (needSpace s).bind readAttribute

theorem length_lt_of_readNextAttribute {s rest : Source} {attr : RawAttribute}
    (h : readNextAttribute s = some (attr, rest)) : rest.length < s.length := by
  obtain ⟨r, hn, ha⟩ := Option.bind_eq_some_iff.1 h
  exact Nat.lt_trans (length_lt_of_readAttribute ha) (length_lt_of_needSpace hn)

/-- The attributes of a start tag up to its end, and how it ends. -/
def readAttributes (s : Source) : Option ((List RawAttribute × TagEnd) × Source) :=
  if s.isEmpty then some (([], .cutOff), s)
  else
    match skip ['/', '>'] (dropSpace s) with
    | some rest => some (([], .closing), rest)
    | none =>
      match skip ['>'] (dropSpace s) with
      | some rest => some (([], .opening), rest)
      | none =>
        match _h : readNextAttribute s with
        | none => none
        | some (first, rest) =>
          (readAttributes rest).map fun ((others, tagEnd), rest') =>
            ((first :: others, tagEnd), rest')
termination_by s.length
decreasing_by exact length_lt_of_readNextAttribute _h

theorem length_le_of_readAttributes {s rest : Source} {attrs : List RawAttribute × TagEnd}
    (h : readAttributes s = some (attrs, rest)) : rest.length ≤ s.length := by
  fun_induction readAttributes s generalizing attrs with
  | case1 s =>
    simp only [Option.some.injEq, Prod.mk.injEq] at h
    exact Nat.le_of_eq (congrArg List.length h.2.symm)
  | case2 s _ r hr =>
    simp only [Option.some.injEq, Prod.mk.injEq] at h
    have h₁ := length_of_skip hr
    have h₂ := length_dropSpace_le s
    rw [← h.2]; omega
  | case3 s _ _ r hr =>
    simp only [Option.some.injEq, Prod.mk.injEq] at h
    have h₁ := length_of_skip hr
    have h₂ := length_dropSpace_le s
    rw [← h.2]; omega
  | case4 => contradiction
  | case5 s _ _ _ first r hr ih =>
    obtain ⟨⟨⟨others, tagEnd⟩, r'⟩, hr', heq⟩ := Option.map_eq_some_iff.1 h
    simp only [Prod.mk.injEq] at heq
    obtain ⟨_, rfl⟩ := heq
    exact Nat.le_trans (ih hr') (Nat.le_of_lt (length_lt_of_readNextAttribute hr))

/-- A start tag. -/
def readStart (s : Source) : Option (Token × Source) := do
  let rest ← skip ['<'] s
  let (name, rest') ← written rest
  let ((attributes, tagEnd), rest'') ← readAttributes rest'
  return (.start (Source.place s) name attributes tagEnd, rest'')

theorem length_lt_of_readStart {s rest : Source} {t : Token}
    (h : readStart s = some (t, rest)) : rest.length < s.length := by
  simp only [readStart, Option.bind_eq_bind, Option.bind_eq_some_iff] at h
  obtain ⟨rest₁, hs, ⟨name, rest₂⟩, hw, ⟨⟨attributes, tagEnd⟩, rest₃⟩, ha, h⟩ := h
  have h₁ : rest₁.length + 1 = s.length := length_of_skip hs
  have h₂ := length_le_of_written hw
  have h₃ : rest₃.length ≤ rest₂.length := length_le_of_readAttributes ha
  simp only [pure, Option.some.injEq, Prod.mk.injEq] at h
  rw [← h.2]; omega

/-- Whether the end of a character data section stands somewhere in a text. -/
def holdsDataEnd : List Char → Bool
  | ']' :: ']' :: '>' :: _ => true
  | _ :: cs => holdsDataEnd cs
  | [] => false

/-- Text up to the next tag. -/
def readText (s : Source) : Option (Token × Source) :=
  let content : Source := s.takeWhile fun l => l.char != '<'
  let cs := chars content
  if cs.all isMarkupText && !holdsDataEnd cs then
    some (.text content, s.dropWhile fun l => l.char != '<')
  else none

theorem length_lt_of_readText {l : Located} {s rest : Source} {t : Token} (hl : l.char ≠ '<')
    (h : readText (l :: s) = some (t, rest)) : rest.length < (l :: s).length := by
  simp only [readText] at h
  split at h
  · simp only [Option.some.injEq, Prod.mk.injEq] at h
    rw [← h.2, List.dropWhile_cons_of_pos (by simpa using hl)]
    exact Nat.lt_succ_of_le (List.dropWhile_sublist _).length_le
  · contradiction

/-- The first part of a text, which starts with the given character. -/
def read (l : Located) (s : Source) : Option (Token × Source) :=
  if l.char = '<' then
    match s with
    | ⟨'!', _⟩ :: _ => if starts "<!--" (l :: s) then readComment (l :: s) else readData (l :: s)
    | ⟨'?', _⟩ :: _ => readInstruction (l :: s)
    | ⟨'/', _⟩ :: _ => readStop (l :: s)
    | _ => readStart (l :: s)
  else readText (l :: s)

theorem length_lt_of_read {l : Located} {s rest : Source} {t : Token}
    (h : read l s = some (t, rest)) : rest.length < (l :: s).length := by
  unfold read at h
  split at h
  · split at h
    · split at h
      · exact length_lt_of_readComment h
      · exact length_lt_of_readData h
    · exact length_lt_of_readInstruction h
    · exact length_lt_of_readStop h
    · exact length_lt_of_readStart h
  · next hl => exact length_lt_of_readText hl h

/-- How many elements are open after a part, if `depth` are before it; none if the part is the end
tag of what is around them. -/
def depthAfter? (depth : Nat) : Token → Option Nat
  | .start _ _ _ .opening => some (depth + 1)
  | .stop _ => if depth = 0 then none else some (depth - 1)
  | _ => some depth

/-- The parts of a text in which `depth` elements are open, up to the end tag of what is around
them or to the end of the text. -/
def content (depth : Nat) (s : Source) : Option (List Token × Source) :=
  match s with
  | [] => some ([], [])
  | l :: rest =>
    match _h : read l rest with
    | none => none
    | some (token, rest') =>
      match token.depthAfter? depth with
      | none => some ([token], rest')
      | some depth' => (content depth' rest').map fun (tokens, rest'') => (token :: tokens, rest'')
termination_by s.length
decreasing_by exact length_lt_of_read _h

/-- The parts of an element. -/
def element (s : Source) : Option (List Token × Source) := do
  let (token, rest) ← readStart s
  match token with
  | .start _ _ _ .opening => (content 0 rest).map fun (tokens, rest') => (token :: tokens, rest')
  | _ => return ([token], rest)

/-- Whether the first tag among parts is an end tag. -/
def closesFirst : List Token → Bool
  | [] => false
  | .start .. :: _ => false
  | .stop _ :: _ => true
  | _ :: tokens => closesFirst tokens

end Token

end Restyle.Markup
