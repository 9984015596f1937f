import PuzzleLang.Position
import PuzzleLang.Text.Split
import PuzzleLang.Token.Lexer

/-!
# Listing tokens

The tokens of a script are listed line by line: the text of each line that has a token, and below it
the kinds of its tokens with their texts.
-/

namespace PuzzleLang

namespace Listing

/-- A number in at least two places. -/
def twoPlaces (n : Nat) : String :=
  if n < 10 then " " ++ naturalText n else naturalText n

/-- The text of a line, counted from one. -/
def lineText (lines : List (List Char)) (line : Nat) : String :=
  String.ofList ((lines[line - 1]?).getD [])

/-- What stands above the first token of a line. -/
def header (lines : List (List Char)) (line : Nat) : String :=
  "line " ++ twoPlaces line ++ ": \"" ++ lineText lines line ++ "\"\n     " ++ twoPlaces line ++
    ": "

/-- One token. -/
def tokenText (token : Token) : String :=
  if token.text.isEmpty then token.kind.text ++ " "
  else token.kind.text ++ "(" ++ quoted token.text ++ ") "

/-- The listing of tokens after a token on line `current`, or at the start if that is zero. -/
def list (source : List Char) (lines : List (List Char)) (current : Nat) : List Token → String
  | [] => ""
  | token :: tokens =>
    let line := lineAt source token.offset
    let start :=
      if line = current then ""
      else (if 0 < current then "\n" else "") ++ header lines line
    start ++ tokenText token ++ list source lines line tokens

end Listing

/-- The listing of a script's tokens, as far as they go, and what is wrong after them. -/
def listTokens (source : List Char) : String × Option Fault :=
  let lexed := Lexed.ofSource source
  let list := Listing.list source (splitLines source) 0
  match lexed.ending with
  | .eof offset => (list (lexed.tokens ++ [⟨.eof, "", offset⟩]) ++ "\n", none)
  | .broken fault => (list lexed.tokens, some fault)

end PuzzleLang
