/-!
# Kinds of tokens

Every token of a script has one of these kinds.  A kind is shown as the word or sign it stands
for.
-/

namespace PuzzleLang

/-- The kinds of tokens. -/
inductive TokenKind
  | eof
  | identifier
  | string
  | number
  | colon
  | leftBrace
  | rightBrace
  | leftParen
  | rightParen
  | leftBracket
  | rightBracket
  | comma
  | plus
  | minus
  | star
  | slash
  | percent
  | assign
  | equal
  | notEqual
  | less
  | lessEqual
  | greater
  | greaterEqual
  | both
  | either
  | varWord
  | forWord
  | inWord
  | ifWord
  | elseWord
  | returnWord
  | continueWord
  | breakWord
  | matchWord
  | fnWord
  | nilWord
deriving DecidableEq, Repr

namespace TokenKind

/-- The word or sign of a kind. -/
def text : TokenKind → String
  | eof => "EOF"
  | identifier => "identifier"
  | string => "string"
  | number => "number"
  | colon => ":"
  | leftBrace => "\x7b"
  | rightBrace => "\x7d"
  | leftParen => "("
  | rightParen => ")"
  | leftBracket => "["
  | rightBracket => "]"
  | comma => ","
  | plus => "+"
  | minus => "-"
  | star => "*"
  | slash => "/"
  | percent => "%"
  | assign => "="
  | equal => "=="
  | notEqual => "!="
  | less => "<"
  | lessEqual => "<="
  | greater => ">"
  | greaterEqual => ">="
  | both => "&&"
  | either => "||"
  | varWord => "var"
  | forWord => "for"
  | inWord => "in"
  | ifWord => "if"
  | elseWord => "else"
  | returnWord => "return"
  | continueWord => "continue"
  | breakWord => "break"
  | matchWord => "match"
  | fnWord => "fn"
  | nilWord => "nil"

/-- The kinds whose text is a reserved word. -/
def words : List TokenKind :=
  [varWord, forWord, inWord, ifWord, elseWord, returnWord, continueWord, breakWord, matchWord,
   fnWord, nilWord]

/-- The kinds whose text is a sign of one or two characters. -/
def signs : List TokenKind :=
  [colon, leftBrace, rightBrace, leftParen, rightParen, leftBracket, rightBracket, comma, plus,
   minus, star, slash, percent, assign, equal, notEqual, less, lessEqual, greater, greaterEqual,
   both, either]

/-- All kinds. -/
def all : List TokenKind :=
  [eof, identifier, string, number] ++ signs ++ words

/-- The kind of a word: the reserved word it spells, or an identifier. -/
def ofWord (word : String) : TokenKind :=
  (words.find? (·.text == word)).getD identifier

/-- The kind that is shown as `text`. -/
def ofText? (text : String) : Option TokenKind :=
  all.find? (·.text == text)

end TokenKind

end PuzzleLang
