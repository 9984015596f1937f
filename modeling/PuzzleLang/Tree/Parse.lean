import PuzzleLang.Token.Lexer
import PuzzleLang.Tree

/-!
# Reading a script

A script is read by recursive descent over its tokens with one token in view.  Expressions are read
by climbing over operator strengths; a minus sign in front, calls and subscripts bind more tightly
than every operator.

Passing a token brings the next one into view, and if the script is broken there, reading stops with
that fault before anything else is checked.  Every reader returns the tokens it left over with a
proof that it passed at least one, which is why reading ends.
-/

namespace PuzzleLang

/-- What a reader makes of the tokens `ts`: a value and the tokens left over. -/
structure Parsed (α : Type) (ts : List Token) where
  value : α
  rest : List Token
  shorter : rest.length < ts.length

namespace Parse

/-- The kind of the token in view. -/
def viewKind : List Token → TokenKind
  | [] => .eof
  | t :: _ => t.kind

/-- The offset of the token in view. -/
def viewOffset (ending : Ending) : List Token → Nat
  | [] =>
    match ending with
    | .eof offset => offset
    | .broken _ => 0
  | t :: _ => t.offset

/-- A fault at the token in view. -/
def failHere {α : Type} (ending : Ending) (cause : Cause) (ts : List Token) : Except Fault α :=
  .error ⟨cause, some (viewOffset ending ts)⟩

/-- Brings the first of the tokens `rest` into view. -/
def bring (ending : Ending) (rest : List Token) : Except Fault Unit :=
  match rest, ending with
  | [], .broken fault => .error fault
  | _, _ => .ok ()

/-- Passes a token of one of the allowed kinds. -/
def expect (ending : Ending) (allowed : List TokenKind) (ts : List Token) :
    Except Fault (Parsed Token ts) :=
  match ts with
  | [] => failHere ending (.expectedToken allowed .eof) []
  | t :: rest =>
    if t.kind ∈ allowed then do
      bring ending rest
      return ⟨t, rest, by simp⟩
    else failHere ending (.expectedToken allowed t.kind) (t :: rest)

/-- Reads the parameters of a function up to the closing parenthesis. -/
def params (ending : Ending) (ts : List Token) : Except Fault (Parsed (List String) ts) := do
  if viewKind ts = .rightParen then
    let ⟨_, rest, h⟩ ← expect ending [.rightParen] ts
    return ⟨[], rest, h⟩
  else
    let ⟨param, rest, h⟩ ← expect ending [.identifier] ts
    if viewKind rest = .comma then
      let ⟨_, rest', h'⟩ ← expect ending [.comma] rest
      let ⟨more, rest'', h''⟩ ← params ending rest'
      return ⟨param.text :: more, rest'', by omega⟩
    else
      let ⟨_, rest', h'⟩ ← expect ending [.rightParen] rest
      return ⟨[param.text], rest', by omega⟩
termination_by ts.length

/-- Reads the name for the index of a loop, if there is one, and the word that ends the names. -/
def loopIndex (ending : Ending) (ts : List Token) :
    Except Fault (Parsed (Option String) ts) := do
  if viewKind ts = .comma then
    let ⟨_, rest, h⟩ ← expect ending [.comma] ts
    let ⟨index, rest₁, h₁⟩ ← expect ending [.identifier] rest
    let ⟨_, rest₂, h₂⟩ ← expect ending [.inWord] rest₁
    return ⟨some index.text, rest₂, by omega⟩
  else
    let ⟨_, rest, h⟩ ← expect ending [.inWord] ts
    return ⟨none, rest, h⟩

mutual

/-- Reads an expression whose operators all have at least the given strength. -/
def expr (ending : Ending) (least : Nat) (ts : List Token) : Except Fault (Parsed Expr ts) := do
  let ⟨left, rest, h⟩ ← unary ending ts
  climb ending least ts left rest h
termination_by (ts.length, 4)

/-- Reads on after the operand `left`, while operators of at least the given strength follow. -/
def climb (ending : Ending) (least : Nat) (ts : List Token) (left : Expr) (rest : List Token)
    (h : rest.length < ts.length) : Except Fault (Parsed Expr ts) :=
  match rest, h with
  | [], h => return ⟨left, [], h⟩
  | t :: rest, h =>
    if t.kind = .assign then
      if 1 < least then return ⟨left, t :: rest, h⟩
      else do
        bring ending rest
        match left.target? with
        | none => .error ⟨.invalidTarget, some t.offset⟩
        | some target =>
          let ⟨value, rest', h'⟩ ← expr ending 1 rest
          climb ending least ts (target.assign t.offset value) rest'
            (by simp only [List.length_cons] at h; omega)
    else
      match Operator.ofKind? t.kind with
      | none => return ⟨left, t :: rest, h⟩
      | some op =>
        if op.strength < least then return ⟨left, t :: rest, h⟩
        else do
          bring ending rest
          let ⟨right, rest', h'⟩ ← expr ending (op.strength + 1) rest
          climb ending least ts (.binary t.offset op left right) rest'
            (by simp only [List.length_cons] at h; omega)
termination_by (rest.length, 5)

/-- Reads an operand with the minus signs in front of it. -/
def unary (ending : Ending) (ts : List Token) : Except Fault (Parsed Expr ts) :=
  match ts with
  | [] => postfixed ending []
  | t :: rest =>
    if t.kind = .minus then do
      bring ending rest
      let ⟨operand, rest', h⟩ ← unary ending rest
      return ⟨.negate t.offset operand, rest', by simp only [List.length_cons]; omega⟩
    else postfixed ending (t :: rest)
termination_by (ts.length, 3)

/-- Reads a primary expression with the calls and subscripts after it. -/
def postfixed (ending : Ending) (ts : List Token) : Except Fault (Parsed Expr ts) := do
  let ⟨head, rest, h⟩ ← primary ending ts
  extend ending (viewOffset ending ts) ts head rest h
termination_by (ts.length, 2)

/-- Reads on after `head`, while calls and subscripts follow.  A call has the offset at which the
whole chain started. -/
def extend (ending : Ending) (start : Nat) (ts : List Token) (head : Expr) (rest : List Token)
    (h : rest.length < ts.length) : Except Fault (Parsed Expr ts) :=
  match rest, h with
  | [], h => return ⟨head, [], h⟩
  | t :: rest, h =>
    if t.kind = .leftParen then do
      bring ending rest
      let ⟨args, rest', h'⟩ ← exprs ending .rightParen rest
      extend ending start ts (.call start head args) rest'
        (by simp only [List.length_cons] at h; omega)
    else if t.kind = .leftBracket then do
      bring ending rest
      let ⟨key, rest', h'⟩ ← expr ending 1 rest
      let ⟨_, rest'', h''⟩ ← expect ending [.rightBracket] rest'
      extend ending start ts (.subscript t.offset head key) rest''
        (by simp only [List.length_cons] at h; omega)
    else return ⟨head, t :: rest, h⟩
termination_by (rest.length, 0)

/-- Reads a literal, a name, a function or an expression in parentheses. -/
def primary (ending : Ending) (ts : List Token) : Except Fault (Parsed Expr ts) :=
  match ts with
  | [] => failHere ending (.expectedValue .eof) []
  | t :: rest =>
    match t.kind with
    | .string => do
      bring ending rest
      return ⟨.string t.offset t.text, rest, by simp⟩
    | .number => do
      bring ending rest
      return ⟨.number t.offset (digitsValue t.text.toList), rest, by simp⟩
    | .nilWord => do
      bring ending rest
      return ⟨.nil t.offset, rest, by simp⟩
    | .identifier => do
      bring ending rest
      return ⟨.ident t.offset t.text, rest, by simp⟩
    | .leftBracket => do
      bring ending rest
      let ⟨items, rest', h⟩ ← exprs ending .rightBracket rest
      return ⟨.array t.offset items, rest', by simp only [List.length_cons]; omega⟩
    | .leftBrace => do
      bring ending rest
      let ⟨items, rest', h⟩ ← entries ending rest
      return ⟨.map t.offset items, rest', by simp only [List.length_cons]; omega⟩
    | .leftParen => do
      bring ending rest
      let ⟨inner, rest', h⟩ ← expr ending 1 rest
      let ⟨_, rest'', h'⟩ ← expect ending [.rightParen] rest'
      return ⟨inner, rest'', by simp only [List.length_cons]; omega⟩
    | .fnWord => do
      let ⟨f, rest', h⟩ ← function ending (t :: rest)
      return ⟨.function f, rest', h⟩
    | kind => failHere ending (.expectedValue kind) (t :: rest)
termination_by (ts.length, 1)

/-- Reads expressions with commas between them up to the closing token.  A comma may stand before
the closing token. -/
def exprs (ending : Ending) (closing : TokenKind) (ts : List Token) :
    Except Fault (Parsed (List Expr) ts) := do
  if viewKind ts = closing then
    let ⟨_, rest, h⟩ ← expect ending [closing] ts
    return ⟨[], rest, h⟩
  else
    let ⟨item, rest, h⟩ ← expr ending 1 ts
    if viewKind rest = .comma then
      let ⟨_, rest', h'⟩ ← expect ending [.comma] rest
      let ⟨more, rest'', h''⟩ ← exprs ending closing rest'
      return ⟨item :: more, rest'', by omega⟩
    else
      let ⟨_, rest', h'⟩ ← expect ending [closing] rest
      return ⟨[item], rest', by omega⟩
termination_by (ts.length, 5)

/-- Reads the entries of a map up to the closing brace.  A comma may stand before it. -/
def entries (ending : Ending) (ts : List Token) :
    Except Fault (Parsed (List (String × Expr)) ts) := do
  if viewKind ts = .rightBrace then
    let ⟨_, rest, h⟩ ← expect ending [.rightBrace] ts
    return ⟨[], rest, h⟩
  else
    let ⟨key, rest, h⟩ ← expect ending [.identifier, .number] ts
    let ⟨_, rest₁, h₁⟩ ← expect ending [.colon] rest
    let ⟨value, rest₂, h₂⟩ ← expr ending 1 rest₁
    if viewKind rest₂ = .comma then
      let ⟨_, rest₃, h₃⟩ ← expect ending [.comma] rest₂
      let ⟨more, rest₄, h₄⟩ ← entries ending rest₃
      return ⟨(key.text, value) :: more, rest₄, by omega⟩
    else
      let ⟨_, rest₃, h₃⟩ ← expect ending [.rightBrace] rest₂
      return ⟨[(key.text, value)], rest₃, by omega⟩
termination_by (ts.length, 5)

/-- Reads a function literal. -/
def function (ending : Ending) (ts : List Token) : Except Fault (Parsed Function ts) := do
  let ⟨opening, rest, h⟩ ← expect ending [.fnWord] ts
  if viewKind rest = .identifier then
    let ⟨name, rest₁, h₁⟩ ← expect ending [.identifier] rest
    let ⟨_, rest₂, h₂⟩ ← expect ending [.leftParen] rest₁
    let ⟨names, rest₃, h₃⟩ ← params ending rest₂
    let ⟨body, rest₄, h₄⟩ ← block ending rest₃
    return ⟨⟨opening.offset, some name.text, names, body⟩, rest₄, by omega⟩
  else
    let ⟨_, rest₂, h₂⟩ ← expect ending [.leftParen] rest
    let ⟨names, rest₃, h₃⟩ ← params ending rest₂
    let ⟨body, rest₄, h₄⟩ ← block ending rest₃
    return ⟨⟨opening.offset, none, names, body⟩, rest₄, by omega⟩
termination_by (ts.length, 0)

/-- Reads statements in braces. -/
def block (ending : Ending) (ts : List Token) : Except Fault (Parsed Block ts) := do
  let ⟨opening, rest, h⟩ ← expect ending [.leftBrace] ts
  let ⟨statements, rest', h'⟩ ← statements ending rest
  return ⟨⟨opening.offset, statements⟩, rest', by omega⟩
termination_by (ts.length, 0)

/-- Reads statements up to the closing brace. -/
def statements (ending : Ending) (ts : List Token) : Except Fault (Parsed (List Stmt) ts) := do
  if viewKind ts = .rightBrace then
    let ⟨_, rest, h⟩ ← expect ending [.rightBrace] ts
    return ⟨[], rest, h⟩
  else if viewKind ts = .eof then
    failHere ending (.expectedToken [.rightBrace] .eof) ts
  else
    let ⟨first, rest, h⟩ ← statement ending ts
    let ⟨more, rest', h'⟩ ← statements ending rest
    return ⟨first :: more, rest', by omega⟩
termination_by (ts.length, 6)

/-- Reads one statement. -/
def statement (ending : Ending) (ts : List Token) : Except Fault (Parsed Stmt ts) :=
  match viewKind ts with
  | .varWord => do
    let ⟨_, rest, h⟩ ← expect ending [.varWord] ts
    let ⟨name, rest₁, h₁⟩ ← expect ending [.identifier] rest
    let ⟨_, rest₂, h₂⟩ ← expect ending [.assign] rest₁
    let ⟨value, rest₃, h₃⟩ ← expr ending 1 rest₂
    return ⟨.var name.offset name.text value, rest₃, by omega⟩
  | .forWord => do
    let ⟨opening, rest, h⟩ ← expect ending [.forWord] ts
    if viewKind rest = .leftBrace then
      let ⟨body, rest₁, h₁⟩ ← block ending rest
      return ⟨.forever opening.offset body, rest₁, by omega⟩
    else
      let ⟨item, rest₁, h₁⟩ ← expect ending [.identifier] rest
      let ⟨index, rest₂, h₂⟩ ← loopIndex ending rest₁
      let ⟨iterable, rest₃, h₃⟩ ← expr ending 1 rest₂
      let ⟨body, rest₄, h₄⟩ ← block ending rest₃
      return ⟨.forEach opening.offset item.text index iterable body, rest₄, by omega⟩
  | .ifWord => do
    let ⟨conditional, rest, h⟩ ← conditional ending ts
    return ⟨.conditional conditional, rest, h⟩
  | .returnWord => do
    let ⟨opening, rest, h⟩ ← expect ending [.returnWord] ts
    if viewKind rest = .rightBrace then
      return ⟨.returns opening.offset none, rest, h⟩
    else
      let ⟨value, rest', h'⟩ ← expr ending 1 rest
      return ⟨.returns opening.offset (some value), rest', by omega⟩
  | .continueWord => do
    let ⟨opening, rest, h⟩ ← expect ending [.continueWord] ts
    return ⟨.continues opening.offset, rest, h⟩
  | .breakWord => do
    let ⟨opening, rest, h⟩ ← expect ending [.breakWord] ts
    return ⟨.breaks opening.offset, rest, h⟩
  | .matchWord => do
    let ⟨opening, rest, h⟩ ← expect ending [.matchWord] ts
    let ⟨subject, rest₁, h₁⟩ ← expr ending 1 rest
    let ⟨_, rest₂, h₂⟩ ← expect ending [.leftBrace] rest₁
    let ⟨arms, rest₃, h₃⟩ ← arms ending rest₂
    return ⟨.select opening.offset subject arms, rest₃, by omega⟩
  | .leftBrace => do
    let ⟨inner, rest, h⟩ ← block ending ts
    return ⟨.block inner, rest, h⟩
  | _ => do
    let ⟨value, rest, h⟩ ← expr ending 1 ts
    return ⟨.expr (viewOffset ending ts) value, rest, h⟩
termination_by (ts.length, 5)

/-- Reads a condition with its blocks. -/
def conditional (ending : Ending) (ts : List Token) : Except Fault (Parsed Conditional ts) := do
  let ⟨opening, rest, h⟩ ← expect ending [.ifWord] ts
  let ⟨condition, rest₁, h₁⟩ ← expr ending 1 rest
  let ⟨thenBlock, rest₂, h₂⟩ ← block ending rest₁
  if viewKind rest₂ = .elseWord then
    let ⟨_, rest₃, h₃⟩ ← expect ending [.elseWord] rest₂
    if viewKind rest₃ = .ifWord then
      let ⟨next, rest₄, h₄⟩ ← conditional ending rest₃
      return ⟨⟨opening.offset, condition, thenBlock, .conditional next⟩, rest₄, by omega⟩
    else
      let ⟨elseBlock, rest₄, h₄⟩ ← block ending rest₃
      return ⟨⟨opening.offset, condition, thenBlock, .block elseBlock⟩, rest₄, by omega⟩
  else
    return ⟨⟨opening.offset, condition, thenBlock, .nothing⟩, rest₂, by omega⟩
termination_by (ts.length, 0)

/-- Reads the arms of a selection up to the closing brace. -/
def arms (ending : Ending) (ts : List Token) : Except Fault (Parsed (List Arm) ts) := do
  if viewKind ts = .rightBrace then
    let ⟨_, rest, h⟩ ← expect ending [.rightBrace] ts
    return ⟨[], rest, h⟩
  else
    let ⟨pattern, rest, h⟩ ← expr ending 1 ts
    let ⟨_, rest₁, h₁⟩ ← expect ending [.colon] rest
    let ⟨body, rest₂, h₂⟩ ← block ending rest₁
    let ⟨more, rest₃, h₃⟩ ← arms ending rest₂
    return ⟨⟨pattern, body⟩ :: more, rest₃, by omega⟩
termination_by (ts.length, 5)

end

/-- Reads a section. -/
def labelled (ending : Ending) (ts : List Token) : Except Fault (Parsed Section ts) := do
  let ⟨label, rest, h⟩ ← expect ending [.identifier] ts
  let ⟨_, rest₁, h₁⟩ ← expect ending [.colon] rest
  if viewKind rest₁ = .leftBrace then
    let ⟨body, rest₂, h₂⟩ ← block ending rest₁
    return ⟨⟨label.offset, label.text, .block body⟩, rest₂, by omega⟩
  else
    let ⟨body, rest₂, h₂⟩ ← expr ending 1 rest₁
    return ⟨⟨label.offset, label.text, .expr body⟩, rest₂, by omega⟩

/-- Reads the parts of a script. -/
def items (ending : Ending) (ts : List Token) : Except Fault (List Item) :=
  match viewKind ts with
  | .eof => return []
  | .identifier => do
    let ⟨part, rest, _⟩ ← labelled ending ts
    return .labelled part :: (← items ending rest)
  | .fnWord => do
    let ⟨f, rest, _⟩ ← function ending ts
    return .function f :: (← items ending rest)
  | kind => failHere ending (.expectedToken [.identifier, .fnWord] kind) ts
termination_by ts.length

end Parse

/-- Reads the tokens of a script. -/
def Lexed.parse (lexed : Lexed) : Except Fault (List Item) := do
  Parse.bring lexed.ending lexed.tokens
  Parse.items lexed.ending lexed.tokens

/-- Reads a script. -/
def Program.parse (source : List Char) : Except Fault Program := do
  let items ← (Lexed.ofSource source).parse
  return ⟨items, source⟩

end PuzzleLang
