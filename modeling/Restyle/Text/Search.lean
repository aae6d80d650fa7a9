/-!
# Restyle.Text.Search

The first occurrence of one text in another, and what stands before and after it.
-/

namespace Restyle.Text

/-- Cut `text` at the first occurrence of `mark`: what stands before it and what stands after it.
The empty mark occurs at the start of every text. -/
def cutAt? (mark : List Char) : List Char → Option (List Char × List Char)
  | [] => if mark.isEmpty then some ([], []) else none
  | c :: cs =>
    if mark.isPrefixOf (c :: cs) then some ([], (c :: cs).drop mark.length)
    else (cutAt? mark cs).map fun (before, after) => (c :: before, after)

/-- The two sides of a cut and the mark between them make up the text. -/
theorem eq_append_of_cutAt? {mark text before after : List Char}
    (h : cutAt? mark text = some (before, after)) : text = before ++ mark ++ after := by
  induction text generalizing before after with
  | nil =>
    unfold cutAt? at h
    split at h <;> simp_all
  | cons c cs ih =>
    unfold cutAt? at h
    split at h
    · next hp =>
      obtain ⟨rest, hrest⟩ := List.isPrefixOf_iff_prefix.1 hp
      simp only [Option.some.injEq, Prod.mk.injEq] at h
      obtain ⟨rfl, rfl⟩ := h
      simp [← hrest]
    · obtain ⟨⟨b, a⟩, hcut, heq⟩ := Option.map_eq_some_iff.1 h
      simp only [Prod.mk.injEq] at heq
      obtain ⟨rfl, rfl⟩ := heq
      simp [ih hcut]

/-- Whether `mark` occurs in `text`. -/
def occursIn (mark text : List Char) : Bool := (cutAt? mark text).isSome

end Restyle.Text
