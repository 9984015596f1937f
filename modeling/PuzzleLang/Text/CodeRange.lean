/-!
# Ranges of code points

A property of characters is kept as an ascending list of closed ranges of code points.  Looking a
code point up walks the list and leaves it at the first range that starts later.
-/

namespace PuzzleLang

/-- A property of characters: the closed ranges of code points that have it, in ascending order. -/
abbrev CodeRanges := List (Nat × Nat)

namespace CodeRanges

/-- Whether `code` lies in one of the ranges. -/
def contains : CodeRanges → Nat → Bool
  | [], _ => false
  | (first, last) :: later, code =>
    if code < first then false
    else if code ≤ last then true
    else contains later code

end CodeRanges

end PuzzleLang
