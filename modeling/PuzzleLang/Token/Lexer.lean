import PuzzleLang.Fault
import PuzzleLang.Text.Numeral

/-!
# Tokens

A script is cut into tokens from left to right.  Blanks and comments separate tokens; each token
is the longest word, number, quoted text or sign at its place.  A character that starts no token
is a fault, and so is a quoted text without an end; cutting can go on after either.
-/

namespace PuzzleLang

/-- A token: its kind, its text and the offset of the text.  The text of a quoted text stands
without its quotes. -/
structure Token where
  kind : TokenKind
  text : String
  offset : Nat
deriving DecidableEq, Repr

/-- A place in a script: the characters from there on, and the offset. -/
structure Cursor where
  rest : List Char
  offset : Nat
deriving DecidableEq, Repr

/-- The place before the first character. -/
def Cursor.start (source : List Char) : Cursor :=
  ⟨source, 0⟩

/-- Whether a name can start with a character. -/
def isNameStart (c : Char) : Bool :=
  isLetter c || c == '_'

/-- Whether a name can go on with a character. -/
def isNamePart (c : Char) : Bool :=
  isAlphanumeric c || c == '_'

/-- Whether a character only separates tokens. -/
def isLayout (c : Char) : Bool :=
  c == ' ' || c == '\t' || c == '\r' || c == '\n'

/-- The first place at or after one that is neither layout nor part of a comment, where
`inComment` tells whether a comment has started and not ended. -/
def skipLayout (inComment : Bool) : (cs : List Char) → (offset : Nat) → Cursor
  | [], offset => ⟨[], offset⟩
  | c :: cs, offset =>
    if inComment then skipLayout (c != '\n') cs (offset + 1)
    else if isLayout c then skipLayout false cs (offset + 1)
    else if c == '#' then skipLayout true cs (offset + 1)
    else ⟨c :: cs, offset⟩

/-- The signs with their characters, those of two characters first. -/
def signTable : List (List Char × TokenKind) :=
  [(['=', '='], .equal), (['!', '='], .notEqual), (['<', '='], .lessEqual),
   (['>', '='], .greaterEqual), (['&', '&'], .both), (['|', '|'], .either),
   ([':'], .colon), (['\x7b'], .leftBrace), (['\x7d'], .rightBrace), (['('], .leftParen),
   ([')'], .rightParen), (['['], .leftBracket), ([']'], .rightBracket), ([','], .comma),
   (['+'], .plus), (['-'], .minus), (['*'], .star), (['/'], .slash), (['%'], .percent),
   (['='], .assign), (['<'], .less), (['>'], .greater)]

/-- The sign at the start of a text, the longer one first: its characters and its kind. -/
def sign? (cs : List Char) : Option (List Char × TokenKind) :=
  signTable.find? fun entry => entry.1.isPrefixOf cs

/-- The token at a place where layout has been skipped and the characters are `c :: cs`, or what
is wrong there, with the place after it. -/
def lexeme (c : Char) (cs : List Char) (offset : Nat) : Except Fault Token × Cursor :=
  if isNameStart c then
    let word := c :: cs.takeWhile isNamePart
    let text := String.ofList word
    (.ok ⟨.ofWord text, text, offset⟩, ⟨cs.dropWhile isNamePart, offset + word.length⟩)
  else if isDigit c then
    let digits := c :: cs.takeWhile isDigit
    (.ok ⟨.number, String.ofList digits, offset⟩, ⟨cs.dropWhile isDigit, offset + digits.length⟩)
  else if c == '\'' then
    let content := cs.takeWhile (· != '\'')
    match cs.dropWhile (· != '\'') with
    | [] => (.error ⟨.unterminatedString, some offset⟩, ⟨[], offset + 1 + content.length⟩)
    | _ :: after =>
      (.ok ⟨.string, String.ofList content, offset + 1⟩, ⟨after, offset + 2 + content.length⟩)
  else
    match sign? (c :: cs) with
    | some (sign, kind) =>
      (.ok ⟨kind, String.ofList sign, offset⟩,
        ⟨(c :: cs).drop sign.length, offset + sign.length⟩)
    | none => (.error ⟨.unexpectedCharacter c, some offset⟩, ⟨cs, offset + 1⟩)

/-- The next token from a place on, or what is wrong, with the place after it.  At the end of the
script this is an `eof` token, again and again. -/
def nextToken (place : Cursor) : Except Fault Token × Cursor :=
  match skipLayout false place.rest place.offset with
  | ⟨[], offset⟩ => (.ok ⟨.eof, "", offset⟩, ⟨[], offset⟩)
  | ⟨c :: cs, offset⟩ => lexeme c cs offset

/-! ## Progress -/

theorem length_dropWhile_le (p : Char → Bool) (cs : List Char) :
    (cs.dropWhile p).length ≤ cs.length :=
  (List.dropWhile_sublist p).length_le

theorem skipLayout_length_le (inComment : Bool) (cs : List Char) (offset : Nat) :
    (skipLayout inComment cs offset).rest.length ≤ cs.length := by
  induction cs generalizing inComment offset with
  | nil => simp [skipLayout]
  | cons c cs ih =>
    simp only [skipLayout]
    split
    · exact Nat.le_succ_of_le (ih _ _)
    · split
      · exact Nat.le_succ_of_le (ih _ _)
      · split
        · exact Nat.le_succ_of_le (ih _ _)
        · simp

theorem sign?_ne_nil {cs sign : List Char} {kind : TokenKind} (h : sign? cs = some (sign, kind)) :
    sign ≠ [] := by
  have hnonempty : ∀ entry ∈ signTable, entry.1 ≠ [] := by decide
  exact hnonempty _ (List.mem_of_find?_eq_some h)

theorem lexeme_length_le (c : Char) (cs : List Char) (offset : Nat) :
    (lexeme c cs offset).2.rest.length ≤ cs.length := by
  unfold lexeme
  split
  · exact length_dropWhile_le _ _
  · split
    · exact length_dropWhile_le _ _
    · split
      · have := length_dropWhile_le (· != '\'') cs
        split
        · simp
        · rename_i after hequation
          rw [hequation] at this
          simp only [List.length_cons] at this
          exact Nat.le_of_succ_le this
      · split
        · rename_i sign kind hfound
          have := List.length_pos_iff.mpr (sign?_ne_nil hfound)
          simp only [List.length_drop, List.length_cons]
          omega
        · simp

/-! ## The whole script -/

/-- How the tokens of a script end. -/
inductive Ending
  /-- The script ends, at this offset. -/
  | eof (offset : Nat)
  /-- Something is wrong after the last token. -/
  | broken (fault : Fault)
deriving DecidableEq, Repr

/-- The tokens of a script up to its end or to the first thing that is wrong. -/
structure Lexed where
  tokens : List Token
  ending : Ending
deriving DecidableEq, Repr

/-- The tokens from a place on. -/
def Lexed.ofCursor (place : Cursor) : Lexed :=
  match h : skipLayout false place.rest place.offset with
  | ⟨[], offset⟩ => ⟨[], .eof offset⟩
  | ⟨c :: cs, offset⟩ =>
    match hlex : lexeme c cs offset with
    | (.error fault, _) => ⟨[], .broken fault⟩
    | (.ok token, after) =>
      have hshorter : after.rest.length < place.rest.length := by
        have hskipped := skipLayout_length_le false place.rest place.offset
        have htaken : after.rest.length ≤ cs.length := by
          simpa [hlex] using lexeme_length_le c cs offset
        rw [h] at hskipped
        simp only [List.length_cons] at hskipped
        omega
      let later := Lexed.ofCursor after
      ⟨token :: later.tokens, later.ending⟩
termination_by place.rest.length

/-- The tokens of a script. -/
def Lexed.ofSource (source : List Char) : Lexed :=
  Lexed.ofCursor (.start source)

/-- All tokens of a script, the `eof` token included, if nothing is wrong. -/
def tokenize (source : List Char) : Except Fault (List Token) :=
  let lexed := Lexed.ofSource source
  match lexed.ending with
  | .eof offset => .ok (lexed.tokens ++ [⟨.eof, "", offset⟩])
  | .broken fault => .error fault

end PuzzleLang
