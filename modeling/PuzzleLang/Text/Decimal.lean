import PuzzleLang.Text.Blank
import PuzzleLang.Text.Numeral

/-!
# Decimal numbers

Whole numbers are written in base ten, with a leading minus sign when negative, and read back
from a run of ASCII digits with an optional sign.
-/

namespace PuzzleLang

/-- The number that a list of digits denotes in base ten. -/
def digitsValue (cs : List Char) : Nat :=
  cs.foldl (fun value c => 10 * value + (c.toNat - '0'.toNat)) 0

/-- The number written by a nonempty run of ASCII digits. -/
def naturalOf? (cs : List Char) : Option Nat :=
  if cs.isEmpty || !cs.all isDigit then none else some (digitsValue cs)

/-- The number written by an optional sign and a nonempty run of ASCII digits. -/
def integerOf? : List Char → Option Int
  | '+' :: cs => (naturalOf? cs).map Int.ofNat
  | '-' :: cs => (naturalOf? cs).map fun n => -Int.ofNat n
  | cs => (naturalOf? cs).map Int.ofNat

/-- The number a text holds, white space around it aside. -/
def readInteger? (text : String) : Option Int :=
  integerOf? (strip text.toList)

/-- A natural number in base ten. -/
def naturalText (n : Nat) : String :=
  String.ofList (Nat.toDigits 10 n)

/-- A whole number in base ten. -/
def integerText : Int → String
  | .ofNat n => naturalText n
  | .negSucc n => "-" ++ naturalText (n + 1)

end PuzzleLang
