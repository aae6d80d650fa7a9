import Restyle.Name
import Restyle.Text.Blank

/-!
# Restyle.Markup.Source

Markup as it is read: characters with their places, and the small parts that all of markup is made
of (fixed texts, white space, names, quoted values, references).

Every reader gives back what it read and what is left, or nothing if the markup is not well-formed.
-/

namespace Restyle.Markup

/-- A place in a text; lines and columns count from one, columns in characters. -/
structure Place where
  line : Nat
  column : Nat
deriving DecidableEq, Repr, Inhabited

/-- A character with its place. -/
structure Located where
  char : Char
  place : Place

/-- A text with the places of its characters. -/
abbrev Source := List Located

namespace Source

/-- A text with places, from a first place on. -/
def locateFrom (place : Place) : List Char → Source
  | [] => []
  | c :: cs =>
    let next : Place :=
      if c = '\n' then ⟨place.line + 1, 1⟩ else ⟨place.line, place.column + 1⟩
    ⟨c, place⟩ :: locateFrom next cs

/-- A text with places from its start on. -/
def locate (text : String) : Source := locateFrom ⟨1, 1⟩ text.toList

/-- The characters alone. -/
def chars (s : Source) : List Char := s.map Located.char

/-- The characters alone, as a text. -/
def text (s : Source) : String := String.ofList s.chars

/-- Where a text starts. -/
def place (s : Source) : Place := (s.head?.map Located.place).getD ⟨1, 1⟩

theorem chars_locateFrom (place : Place) (cs : List Char) :
    (locateFrom place cs).chars = cs := by
  induction cs generalizing place with
  | nil => rfl
  | cons c cs ih =>
    simp only [locateFrom, chars, List.map_cons, List.cons.injEq, true_and]
    exact ih _

/-! ## Parts -/

/-- What is left after a fixed text. -/
def skip : List Char → Source → Option Source
  | [], s => some s
  | _ :: _, [] => none
  | c :: cs, l :: s => if l.char == c then skip cs s else none

theorem length_of_skip {mark : List Char} {s rest : Source} (h : skip mark s = some rest) :
    rest.length + mark.length = s.length := by
  induction mark generalizing s with
  | nil => simp only [skip, Option.some.injEq] at h; simp [h]
  | cons c cs ih =>
    cases s with
    | nil => simp [skip] at h
    | cons l s =>
      simp only [skip] at h
      split at h
      · have := ih h; simp only [List.length_cons]; omega
      · contradiction

/-- What is left after a fixed text given as a string. -/
def skipText (mark : String) (s : Source) : Option Source := skip mark.toList s

/-- Whether a text stands first. -/
def starts (mark : String) (s : Source) : Bool := (skipText mark s).isSome

/-- What is left after white space. -/
def dropSpace (s : Source) : Source := s.dropWhile fun l => Text.isXmlSpace l.char

theorem length_dropSpace_le (s : Source) : (dropSpace s).length ≤ s.length :=
  (List.dropWhile_sublist _).length_le

/-- What is left after white space, of which there must be some. -/
def needSpace : Source → Option Source
  | [] => none
  | l :: s => if Text.isXmlSpace l.char then some (dropSpace s) else none

theorem length_lt_of_needSpace {s rest : Source} (h : needSpace s = some rest) :
    rest.length < s.length := by
  cases s with
  | nil => simp [needSpace] at h
  | cons l s =>
    simp only [needSpace] at h
    split at h
    · rw [← Option.some.inj h]; exact Nat.lt_succ_of_le (length_dropSpace_le s)
    · contradiction

/-- What comes before the first occurrence of a fixed text, and what comes after it. -/
def upTo (mark : List Char) : Source → Option (Source × Source)
  | [] => none
  | l :: s =>
    match skip mark (l :: s) with
    | some rest => some ([], rest)
    | none =>
      if isMarkupText l.char then (upTo mark s).map fun (before, rest) => (l :: before, rest)
      else none

theorem length_le_of_upTo {mark : List Char} {s before rest : Source}
    (h : upTo mark s = some (before, rest)) : rest.length ≤ s.length := by
  induction s generalizing before with
  | nil => simp [upTo] at h
  | cons l s ih =>
    simp only [upTo] at h
    split at h
    · next hs =>
      simp only [Option.some.injEq, Prod.mk.injEq] at h
      have := length_of_skip hs
      rw [← h.2]; omega
    · split at h
      · obtain ⟨⟨b, r⟩, hr, heq⟩ := Option.map_eq_some_iff.1 h
        simp only [Prod.mk.injEq] at heq
        obtain ⟨_, rfl⟩ := heq
        exact Nat.le_succ_of_le (ih hr)
      · contradiction

/-- A name, in which colons are allowed. -/
def name : Source → Option (String × Source)
  | [] => none
  | l :: s =>
    if isMarkupStart l.char then
      some (text (l :: s.takeWhile fun l => isMarkupChar l.char),
        s.dropWhile fun l => isMarkupChar l.char)
    else none

theorem length_lt_of_name {s rest : Source} {n : String} (h : name s = some (n, rest)) :
    rest.length < s.length := by
  cases s with
  | nil => simp [name] at h
  | cons l s =>
    simp only [name] at h
    split at h
    · simp only [Option.some.injEq, Prod.mk.injEq] at h
      rw [← h.2]
      exact Nat.lt_succ_of_le (List.dropWhile_sublist _).length_le
    · contradiction

/-- A name as it is written in a tag: what stands before the colon, empty if there is none, and
what stands after it. -/
structure Written where
  qualifier : String
  localPart : String
deriving DecidableEq, Repr, Inhabited

/-- Whether a part of a name starts as a name may. -/
def startsAsName : List Char → Bool
  | [] => false
  | c :: _ => isMarkupStart c

/-- A name with at most one colon. -/
def written (s : Source) : Option (Written × Source) :=
  let cs := chars (s.takeWhile fun l => isMarkupChar l.char)
  let rest := s.dropWhile fun l => isMarkupChar l.char
  let before := cs.takeWhile (· != ':')
  match cs.dropWhile (· != ':') with
  | [] => if startsAsName before then some (⟨"", String.ofList before⟩, rest) else none
  | _ :: after =>
    if (before.isEmpty || startsAsName before) && startsAsName after && !after.contains ':' then
      some (⟨String.ofList before, String.ofList after⟩, rest)
    else none

theorem length_le_of_written {s rest : Source} {n : Written} (h : written s = some (n, rest)) :
    rest.length ≤ s.length := by
  simp only [written] at h
  split at h <;> split at h <;> simp_all only [Option.some.injEq, Prod.mk.injEq, reduceCtorEq]
  all_goals rw [← h.2]; exact (List.dropWhile_sublist _).length_le

/-- What is left after an equals sign with white space around it. -/
def equals (s : Source) : Option Source := (skip ['='] (dropSpace s)).map dropSpace

theorem length_lt_of_equals {s rest : Source} (h : equals s = some rest) :
    rest.length < s.length := by
  obtain ⟨r, hr, rfl⟩ := Option.map_eq_some_iff.1 h
  have h₁ := length_of_skip hr
  have h₂ := length_dropSpace_le s
  have h₃ := length_dropSpace_le r
  simp only [List.length_cons, List.length_nil] at h₁
  omega

/-- A text in single or double quotes whose characters pass a test. -/
def quotedWith (ok : Char → Bool) : Source → Option (Source × Source)
  | [] => none
  | l :: s =>
    if l.char == '"' || l.char == '\'' then
      let value := s.takeWhile fun m => m.char != l.char
      match s.dropWhile fun m => m.char != l.char with
      | _ :: rest => if value.all fun m => ok m.char then some (value, rest) else none
      | [] => none
    else none

theorem length_lt_of_quotedWith {ok : Char → Bool} {s value rest : Source}
    (h : quotedWith ok s = some (value, rest)) : rest.length < s.length := by
  cases s with
  | nil => simp [quotedWith] at h
  | cons l s =>
    simp only [quotedWith] at h
    split at h
    · split at h
      · next m r hr =>
        split at h
        · simp only [Option.some.injEq, Prod.mk.injEq] at h
          have hle :=
            (List.dropWhile_sublist (fun m : Located => m.char != l.char) (l := s)).length_le
          rw [hr, List.length_cons] at hle
          rw [← h.2, List.length_cons]; omega
        · contradiction
      · contradiction
    · contradiction

/-! ## References -/

/-- What a reference stands for: a character, or the entity with a name. -/
inductive Reference where
  | char (c : Char)
  | entity (name : String)

/-- The entities that need no declaration. -/
def predefined : List (String × Char) :=
  [("quot", '"'), ("amp", '&'), ("apos", '\''), ("lt", '<'), ("gt", '>')]

/-- The value of digits in a base. -/
def digitsIn (base : Nat) (cs : List Char) : Nat :=
  cs.foldl (fun n c =>
    n * base + if c.isDigit then c.toNat - '0'.toNat
      else if c.isLower then c.toNat - 'a'.toNat + 10 else c.toNat - 'A'.toNat + 10) 0

/-- Whether a character is a hexadecimal digit. -/
def isHexDigit (c : Char) : Bool :=
  c.isDigit || ('a' ≤ c && c ≤ 'f') || ('A' ≤ c && c ≤ 'F')

/-- The character with a number.  Numbers of no character give the replacement character; a
character that markup may not hold cannot be referred to. -/
def numberedChar (base : Nat) (digits : List Char) : Option Char :=
  let code := digitsIn base digits
  if digits.isEmpty || Nat.pow 2 32 ≤ code then none
  else
    let c := if code.isValidChar then Char.ofNat code else Char.ofNat 0xFFFD
    if isMarkupText c then some c else none

/-- A reference after its ampersand, up to and with the semicolon. -/
def reference (s : Source) : Option (Reference × Source) :=
  match skip ['#', 'x'] s with
  | some rest => numbered 16 isHexDigit rest
  | none =>
    match skip ['#'] s with
    | some rest => numbered 10 Char.isDigit rest
    | none => do
      let (name, rest) ← name s
      let rest' ← skip [';'] rest
      match predefined.lookup name with
      | some c => return (.char c, rest')
      | none => return (.entity name, rest')
where
  /-- A reference by number after its mark. -/
  numbered (base : Nat) (isDigit : Char → Bool) (s : Source) : Option (Reference × Source) := do
    let c ← numberedChar base (chars (s.takeWhile fun l => isDigit l.char))
    let rest ← skip [';'] (s.dropWhile fun l => isDigit l.char)
    return (.char c, rest)

theorem length_le_of_reference {s rest : Source} {r : Reference}
    (h : reference s = some (r, rest)) : rest.length ≤ s.length := by
  have numbered_le {base : Nat} {isDigit : Char → Bool} {s rest : Source} {r : Reference}
      (h : reference.numbered base isDigit s = some (r, rest)) : rest.length ≤ s.length := by
    simp only [reference.numbered, Option.bind_eq_bind, Option.bind_eq_some_iff] at h
    obtain ⟨c, -, rest', hs, heq⟩ := h
    simp only [pure, Option.some.injEq, Prod.mk.injEq] at heq
    have h₁ := length_of_skip hs
    have h₂ := (List.dropWhile_sublist (fun l : Located => isDigit l.char) (l := s)).length_le
    rw [← heq.2]; omega
  unfold reference at h
  split at h
  · next hs => have := length_of_skip hs; have := numbered_le h; omega
  · split at h
    · next hs => have := length_of_skip hs; have := numbered_le h; omega
    · simp only [Option.bind_eq_bind, Option.bind_eq_some_iff] at h
      obtain ⟨⟨n, rest₁⟩, hn, rest₂, hs, h⟩ := h
      have h₁ := length_lt_of_name hn
      have h₂ : rest₂.length + 1 = rest₁.length := length_of_skip hs
      split at h <;> simp only [pure, Option.some.injEq, Prod.mk.injEq] at h <;>
        (rw [← h.2]; omega)

/-- A piece of a text in which references count. -/
inductive Piece where
  /-- A character written as itself. -/
  | plain (c : Char)
  /-- A character written as a reference. -/
  | char (c : Char)
  /-- A reference to an entity. -/
  | entity (name : String)

/-- What a reference counts as. -/
def Reference.piece : Reference → Piece
  | .char c => .char c
  | .entity name => .entity name

/-- The pieces of a text. -/
def pieces (s : Source) : Option (List Piece) :=
  match s with
  | [] => some []
  | l :: rest =>
    if l.char == '&' then
      match _h : reference rest with
      | none => none
      | some (reference, rest') => (pieces rest').map (reference.piece :: ·)
    else (pieces rest).map (.plain l.char :: ·)
termination_by s.length
decreasing_by
  · exact Nat.lt_succ_of_le (length_le_of_reference _h)
  · exact Nat.lt_succ_self _

end Source

end Restyle.Markup
