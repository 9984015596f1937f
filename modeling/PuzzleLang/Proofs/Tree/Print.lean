import PuzzleLang.Proofs.Grammar
import PuzzleLang.Proofs.Token.Terminal
import PuzzleLang.Text.Decimal

/-!
# Printing trees

A tree is printed as a list of terminals.  Parentheses stand only where the tiers of expressions
need them, and around an expression that would start a statement or the body of a section with a
brace, since a brace there opens a block.
-/

namespace PuzzleLang

/-! ## Numbers in base ten -/

theorem digitsValue_naturalText (n : Nat) : digitsValue (naturalText n).toList = n := by
  rw [naturalText, String.toList_ofList]
  exact Nat.ofDigitChars_toDigits (by decide) (by decide)

theorem isNumber_naturalText (n : Nat) : isNumber (naturalText n) = true := by
  have hdigits : ∀ c ∈ Nat.toDigits 10 n, isDigit c = true := by
    intro c hmember
    have := Nat.isDigit_of_mem_toDigits (by decide) (by decide) hmember
    simpa [isDigit, Char.isDigit, Char.le_def] using this
  rw [isNumber, naturalText, String.toList_ofList, Bool.and_eq_true]
  exact ⟨by simp [Nat.toDigits_ne_nil], List.all_eq_true.mpr hdigits⟩

/-! ## Prints -/

/-- The kind of the first terminal, or `eof` if there is none. -/
def firstKind : List Terminal → TokenKind
  | [] => .eof
  | t :: _ => t.kind

namespace Print

/-- The terminals in parentheses. -/
def parenthesized (printed : List Terminal) : List Terminal :=
  .ofKind .leftParen :: printed ++ [.ofKind .rightParen]

/-- The print of an expression where one of at least the given tier is needed. -/
def fit (tier : Nat) (e : Expr) (printed : List Terminal) : List Terminal :=
  if e.tier < tier then parenthesized printed else printed

/-- The print of an expression where a brace would open a block. -/
def leading (printed : List Terminal) : List Terminal :=
  if firstKind printed = .leftBrace then parenthesized printed else printed

/-- The terminal of a name. -/
def name (text : String) : Terminal :=
  ⟨.identifier, text⟩

/-- The terminal of the key of a map. -/
def key (text : String) : Terminal :=
  if isNumber text then ⟨.number, text⟩ else name text

/-- The print of the parameters of a function. -/
def params : List String → List Terminal
  | [] => []
  | [param] => [name param]
  | param :: more => name param :: .ofKind .comma :: params more

mutual

/-- The print of an expression. -/
def expr : Expr → List Terminal
  | .string _ value => [⟨.string, value⟩]
  | .number _ value => [⟨.number, naturalText value⟩]
  | .nil _ => [.ofKind .nilWord]
  | .ident _ text => [name text]
  | .array _ items => .ofKind .leftBracket :: exprs items ++ [.ofKind .rightBracket]
  | .map _ parts => .ofKind .leftBrace :: entries parts ++ [.ofKind .rightBrace]
  | .negate _ operand => .ofKind .minus :: fit 6 operand (expr operand)
  | .binary _ op left right =>
    fit op.tier left (expr left) ++
      .ofKind op.kind :: fit (op.tier + 1) right (expr right)
  | .subscript _ container index =>
    fit 7 container (expr container) ++
      .ofKind .leftBracket :: expr index ++ [.ofKind .rightBracket]
  | .assign _ _ text value => name text :: .ofKind .assign :: expr value
  | .store _ _ container index value =>
    (fit 7 container (expr container) ++
      .ofKind .leftBracket :: expr index ++ [.ofKind .rightBracket]) ++
      .ofKind .assign :: expr value
  | .call _ callee args =>
    fit 7 callee (expr callee) ++ .ofKind .leftParen :: exprs args ++ [.ofKind .rightParen]
  | .function f => function f

/-- The print of expressions with commas between them. -/
def exprs : List Expr → List Terminal
  | [] => []
  | item :: items => expr item ++ if items.isEmpty then [] else .ofKind .comma :: exprs items

/-- The print of the entries of a map with commas between them. -/
def entries : List (String × Expr) → List Terminal
  | [] => []
  | (text, value) :: more =>
    key text :: .ofKind .colon :: expr value ++
      if more.isEmpty then [] else .ofKind .comma :: entries more

/-- The print of a function literal. -/
def function : Function → List Terminal
  | ⟨_, some text, names, body⟩ =>
    .ofKind .fnWord :: name text :: .ofKind .leftParen :: params names ++
      .ofKind .rightParen :: block body
  | ⟨_, none, names, body⟩ =>
    .ofKind .fnWord :: .ofKind .leftParen :: params names ++ .ofKind .rightParen :: block body

/-- The print of a block. -/
def block : Block → List Terminal
  | ⟨_, body⟩ => .ofKind .leftBrace :: statements body ++ [.ofKind .rightBrace]

/-- The print of statements one after another. -/
def statements : List Stmt → List Terminal
  | [] => []
  | first :: more => statement first ++ statements more

/-- The print of a statement. -/
def statement : Stmt → List Terminal
  | .expr _ value => leading (expr value)
  | .var _ text value => .ofKind .varWord :: name text :: .ofKind .assign :: expr value
  | .block inner => block inner
  | .forever _ body => .ofKind .forWord :: block body
  | .forEach _ item none iterable body =>
    .ofKind .forWord :: name item :: .ofKind .inWord :: expr iterable ++ block body
  | .forEach _ item (some index) iterable body =>
    .ofKind .forWord :: name item :: .ofKind .comma :: name index :: .ofKind .inWord ::
      expr iterable ++ block body
  | .conditional inner => conditional inner
  | .select _ subject cases =>
    .ofKind .matchWord :: expr subject ++
      .ofKind .leftBrace :: arms cases ++ [.ofKind .rightBrace]
  | .returns _ none => [.ofKind .returnWord]
  | .returns _ (some value) => .ofKind .returnWord :: expr value
  | .breaks _ => [.ofKind .breakWord]
  | .continues _ => [.ofKind .continueWord]

/-- The print of a condition with its blocks. -/
def conditional : Conditional → List Terminal
  | ⟨_, condition, thenBlock, otherwise⟩ =>
    .ofKind .ifWord :: expr condition ++ block thenBlock ++ alternative otherwise

/-- The print of what is done when a condition does not hold. -/
def alternative : Alternative → List Terminal
  | .nothing => []
  | .block inner => .ofKind .elseWord :: block inner
  | .conditional inner => .ofKind .elseWord :: conditional inner

/-- The print of the arms of a selection. -/
def arms : List Arm → List Terminal
  | [] => []
  | ⟨pattern, body⟩ :: more => expr pattern ++ .ofKind .colon :: block body ++ arms more

end

/-- The print of a section. -/
def labelled : Section → List Terminal
  | ⟨_, text, .block body⟩ => name text :: .ofKind .colon :: block body
  | ⟨_, text, .expr body⟩ => name text :: .ofKind .colon :: leading (expr body)

/-- The print of the parts of a script. -/
def items : List Item → List Terminal
  | [] => []
  | .labelled part :: more => labelled part ++ items more
  | .function f :: more => function f ++ items more

/-- Terminals written down with a space between any two of them. -/
def text (printed : List Terminal) : List Char :=
  [' '].intercalate (printed.map Terminal.written)

end Print

/-- The canonical text of a script. -/
def Program.print (program : Program) : List Char :=
  Print.text (Print.items program.items)

end PuzzleLang
