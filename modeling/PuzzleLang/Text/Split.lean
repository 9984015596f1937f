/-!
# Splitting

A text is cut at every leftmost occurrence of a separator.
-/

namespace PuzzleLang

/-- What follows `separator` when `cs` starts with it. -/
def afterSeparator? : (separator cs : List Char) → Option (List Char)
  | [], cs => some cs
  | _ :: _, [] => none
  | s :: separator, c :: cs => if s == c then afterSeparator? separator cs else none

/-- The text before and after the leftmost occurrence of the separator `first :: more`, where
`seen` is what came before, last character first. -/
def cut? (first : Char) (more seen : List Char) : List Char → Option (List Char × List Char)
  | [] => none
  | c :: cs =>
    match afterSeparator? (first :: more) (c :: cs) with
    | some rest => some (seen.reverse, rest)
    | none => cut? first more (c :: seen) cs

theorem length_le_of_afterSeparator?
    {separator cs rest : List Char} (h : afterSeparator? separator cs = some rest) :
    rest.length + separator.length ≤ cs.length := by
  induction separator generalizing cs with
  | nil =>
    simp only [afterSeparator?, Option.some.injEq] at h
    simp [h]
  | cons s separator ih =>
    cases cs with
    | nil => simp [afterSeparator?] at h
    | cons c cs =>
      simp only [afterSeparator?] at h
      split at h
      · have := ih h
        simp only [List.length_cons]
        omega
      · simp at h

theorem length_lt_of_cut?
    {first : Char} {more seen cs piece rest : List Char}
    (h : cut? first more seen cs = some (piece, rest)) :
    rest.length < cs.length := by
  induction cs generalizing seen with
  | nil => simp [cut?] at h
  | cons c cs ih =>
    simp only [cut?] at h
    split at h
    · rename_i hfound
      have := length_le_of_afterSeparator? hfound
      simp only [Option.some.injEq, Prod.mk.injEq] at h
      obtain ⟨-, rfl⟩ := h
      simp only [List.length_cons] at this ⊢
      omega
    · have := ih h
      simp only [List.length_cons]
      omega

/-- The pieces of `cs` between the leftmost occurrences of the separator `first :: more`. -/
def splitOn (first : Char) (more cs : List Char) : List (List Char) :=
  match h : cut? first more [] cs with
  | none => [cs]
  | some (piece, rest) =>
    have := length_lt_of_cut? h
    piece :: splitOn first more rest
termination_by cs.length

/-- The pieces of a text between the occurrences of a separator, or its single characters when
the separator is empty. -/
def splitText (text separator : String) : List String :=
  match separator.toList with
  | [] => text.toList.map String.singleton
  | first :: more => (splitOn first more text.toList).map String.ofList

/-- The lines of a list of characters. -/
def splitLines (cs : List Char) : List (List Char) :=
  splitOn '\n' [] cs

end PuzzleLang
