/-!
# Positions

A position in a script is an offset in characters.  Its line and its column, both counted from one,
are found by going through the text up to the offset and noting where lines start.
-/

namespace PuzzleLang

/-- Goes through the characters from an index on, up to an offset, and gives the line that is
reached and the index at which it starts. -/
def scanLines (offset : Int) : (rest : List Char) → (index line start : Nat) → Nat × Nat
  | [], _, line, start => (line, start)
  | c :: rest, index, line, start =>
    if offset ≤ index then (line, start)
    else if c = '\n' then scanLines offset rest (index + 1) (line + 1) (index + 1)
    else scanLines offset rest (index + 1) line start

/-- The line and the column of an offset, both counted from one.  An offset before the text lies on
its first line and one after the text on its last. -/
def lineAndColumn (source : List Char) (offset : Int) : Nat × Int :=
  let (line, start) := scanLines offset source 0 1 0
  (line, offset - start + 1)

/-- The line of an offset. -/
def lineAt (source : List Char) (offset : Nat) : Nat :=
  (lineAndColumn source offset).1

end PuzzleLang
