import PuzzleLang.Tree.Parse
import Mathlib.Data.Nat.Digits.Defs

/-!
# The grammar of scripts

The grammar says which lists of tokens can be read as which trees, without saying how they are read.
Expressions come in tiers.  Tier 1 is assignment, tier 2 has the logical operators, tier 3 the
comparisons, tier 4 sums and differences, and tier 5 products, quotients and remainders.  Tier 6 is
the minus sign in front, tier 7 has calls and subscripts, and tier 8 has literals, names and
everything in brackets.  An expression of a tier is one of every lower tier as well.

A derivation fixes the tree with its offsets: every node has the offset of the token that introduced
it.  Statements stand next to each other without a separator, so a statement that ends in an
expression must not be followed by a token with which the expression would go on.
-/

namespace PuzzleLang

/-- The tier of an operation: operations of a higher tier hold their operands more tightly. -/
def Operator.tier : Operator → Nat
  | .both | .either => 2
  | .equal | .notEqual | .less | .lessEqual | .greater | .greaterEqual => 3
  | .add | .subtract => 4
  | .multiply | .divide | .modulo => 5

/-- Whether an expression that is read with operations of at least the given tier goes on with a
token of this kind. -/
def TokenKind.continues (kind : TokenKind) (least : Nat) : Bool :=
  match kind with
  | .leftParen | .leftBracket => true
  | .assign => least ≤ 1
  | .both | .either => least ≤ 2
  | .equal | .notEqual | .less | .lessEqual | .greater | .greaterEqual => least ≤ 3
  | .plus | .minus => least ≤ 4
  | .star | .slash | .percent => least ≤ 5
  | _ => false

/-- The number that digits denote in base ten, where the last digit counts the ones. -/
def placeValue (digits : List Char) : Nat :=
  Nat.ofDigits 10 (digits.map fun c => c.toNat - '0'.toNat).reverse

/-- Whether a statement ends in an expression. -/
def Stmt.isOpen : Stmt → Bool
  | .expr _ _ | .var _ _ _ | .returns _ (some _) => true
  | _ => false

/-- The tier of an expression that has no parentheses around it. -/
def Expr.tier : Expr → Nat
  | .assign _ _ _ _ | .store _ _ _ _ _ => 1
  | .binary _ op _ _ => op.tier
  | .negate _ _ => 6
  | .call _ _ _ | .subscript _ _ _ => 7
  | _ => 8

/-- The offset of the first token. -/
def firstOffset : List Token → Nat
  | [] => 0
  | t :: _ => t.offset

/-- What a list of tokens can be: a part of the grammar together with its tree. -/
inductive Phrase
  /-- An expression of at least the given tier. -/
  | expr (tier : Nat) (expr : Expr)
  /-- Expressions with commas between them. -/
  | exprs (exprs : List Expr)
  /-- The entries of a map with commas between them. -/
  | entries (entries : List (String × Expr))
  /-- The parameters of a function with commas between them. -/
  | params (params : List String)
  | function (function : Function)
  | block (block : Block)
  /-- The statements of a block, without its braces. -/
  | statements (statements : List Stmt)
  /-- A statement other than a return without a value. -/
  | statement (statement : Stmt)
  | conditional (conditional : Conditional)
  /-- The arms of a selection, without its braces. -/
  | arms (arms : List Arm)
  | labelled (part : Section)
  /-- A whole script. -/
  | items (items : List Item)

/-- The derivations of the grammar. -/
inductive Derives : Phrase → List Token → Prop
  -- Expressions, from the loosest tier to the tightest.
  -- The target of an assignment is a name or a subscript, also in parentheses.
  | assign {ts ts' : List Token} {offset : Nat} {name : String} {value : Expr} {sign : Token} :
      Derives (.expr 7 (.ident offset name)) ts →
      sign.kind = .assign →
      Derives (.expr 1 value) ts' →
      Derives (.expr 1 (.assign sign.offset offset name value)) (ts ++ sign :: ts')
  | store {ts ts' : List Token} {offset : Nat} {container key value : Expr} {sign : Token} :
      Derives (.expr 7 (.subscript offset container key)) ts →
      sign.kind = .assign →
      Derives (.expr 1 value) ts' →
      Derives (.expr 1 (.store sign.offset offset container key value)) (ts ++ sign :: ts')
  -- Operations of one tier are taken from the left, since only the left operand may be of it.
  | binary {ts ts' : List Token} {op : Operator} {left right : Expr} {sign : Token} :
      Derives (.expr op.tier left) ts →
      sign.kind = op.kind →
      Derives (.expr (op.tier + 1) right) ts' →
      Derives (.expr op.tier (.binary sign.offset op left right)) (ts ++ sign :: ts')
  | looser {tier : Nat} {expr : Expr} {ts : List Token} :
      1 ≤ tier →
      Derives (.expr (tier + 1) expr) ts →
      Derives (.expr tier expr) ts
  | negate {operand : Expr} {sign : Token} {ts : List Token} :
      sign.kind = .minus →
      Derives (.expr 6 operand) ts →
      Derives (.expr 6 (.negate sign.offset operand)) (sign :: ts)
  | call {ts ts' : List Token} {callee : Expr} {args : List Expr} {opening closing : Token} :
      Derives (.expr 7 callee) ts →
      opening.kind = .leftParen →
      Derives (.exprs args) ts' →
      closing.kind = .rightParen →
      Derives (.expr 7 (.call (firstOffset ts) callee args)) (ts ++ opening :: ts' ++ [closing])
  | subscript {ts ts' : List Token} {container key : Expr} {opening closing : Token} :
      Derives (.expr 7 container) ts →
      opening.kind = .leftBracket →
      Derives (.expr 1 key) ts' →
      closing.kind = .rightBracket →
      Derives (.expr 7 (.subscript opening.offset container key))
        (ts ++ opening :: ts' ++ [closing])
  | string {t : Token} :
      t.kind = .string →
      Derives (.expr 8 (.string t.offset t.text)) [t]
  | number {t : Token} :
      t.kind = .number →
      Derives (.expr 8 (.number t.offset (placeValue t.text.toList))) [t]
  | nil {t : Token} :
      t.kind = .nilWord →
      Derives (.expr 8 (.nil t.offset)) [t]
  | ident {t : Token} :
      t.kind = .identifier →
      Derives (.expr 8 (.ident t.offset t.text)) [t]
  | array {items : List Expr} {opening closing : Token} {ts : List Token} :
      opening.kind = .leftBracket →
      Derives (.exprs items) ts →
      closing.kind = .rightBracket →
      Derives (.expr 8 (.array opening.offset items)) (opening :: ts ++ [closing])
  | map {entries : List (String × Expr)} {opening closing : Token} {ts : List Token} :
      opening.kind = .leftBrace →
      Derives (.entries entries) ts →
      closing.kind = .rightBrace →
      Derives (.expr 8 (.map opening.offset entries)) (opening :: ts ++ [closing])
  | parenthesized {expr : Expr} {opening closing : Token} {ts : List Token} :
      opening.kind = .leftParen →
      Derives (.expr 1 expr) ts →
      closing.kind = .rightParen →
      Derives (.expr 8 expr) (opening :: ts ++ [closing])
  | functionExpr {f : Function} {ts : List Token} :
      Derives (.function f) ts →
      Derives (.expr 8 (.function f)) ts
  -- Lists with commas, where one more comma may stand at the end.
  | noExprs :
      Derives (.exprs []) []
  | lastExpr {item : Expr} {ts : List Token} :
      Derives (.expr 1 item) ts →
      Derives (.exprs [item]) ts
  | consExpr {item : Expr} {items : List Expr} {comma : Token} {ts ts' : List Token} :
      Derives (.expr 1 item) ts →
      comma.kind = .comma →
      Derives (.exprs items) ts' →
      Derives (.exprs (item :: items)) (ts ++ comma :: ts')
  | noEntries :
      Derives (.entries []) []
  | lastEntry {value : Expr} {key colon : Token} {ts : List Token} :
      key.kind ∈ [.identifier, .number] →
      colon.kind = .colon →
      Derives (.expr 1 value) ts →
      Derives (.entries [(key.text, value)]) (key :: colon :: ts)
  | consEntry {value : Expr} {entries : List (String × Expr)} {key colon comma : Token}
      {ts ts' : List Token} :
      key.kind ∈ [.identifier, .number] →
      colon.kind = .colon →
      Derives (.expr 1 value) ts →
      comma.kind = .comma →
      Derives (.entries entries) ts' →
      Derives (.entries ((key.text, value) :: entries)) (key :: colon :: ts ++ comma :: ts')
  | noParams :
      Derives (.params []) []
  | lastParam {param : Token} :
      param.kind = .identifier →
      Derives (.params [param.text]) [param]
  | consParam {params : List String} {param comma : Token} {ts : List Token} :
      param.kind = .identifier →
      comma.kind = .comma →
      Derives (.params params) ts →
      Derives (.params (param.text :: params)) (param :: comma :: ts)
  -- Functions and blocks.
  | named {params : List String} {body : Block} {word name opening closing : Token}
      {ts ts' : List Token} :
      word.kind = .fnWord →
      name.kind = .identifier →
      opening.kind = .leftParen →
      Derives (.params params) ts →
      closing.kind = .rightParen →
      Derives (.block body) ts' →
      Derives (.function ⟨word.offset, some name.text, params, body⟩)
        (word :: name :: opening :: ts ++ closing :: ts')
  | unnamed {params : List String} {body : Block} {word opening closing : Token}
      {ts ts' : List Token} :
      word.kind = .fnWord →
      opening.kind = .leftParen →
      Derives (.params params) ts →
      closing.kind = .rightParen →
      Derives (.block body) ts' →
      Derives (.function ⟨word.offset, none, params, body⟩)
        (word :: opening :: ts ++ closing :: ts')
  | block {statements : List Stmt} {opening closing : Token} {ts : List Token} :
      opening.kind = .leftBrace →
      Derives (.statements statements) ts →
      closing.kind = .rightBrace →
      Derives (.block ⟨opening.offset, statements⟩) (opening :: ts ++ [closing])
  | noStatements :
      Derives (.statements []) []
  -- A return without a value stands directly before the closing brace.
  | bareReturn {word : Token} :
      word.kind = .returnWord →
      Derives (.statements [.returns word.offset none]) [word]
  | consStatement {first : Stmt} {more : List Stmt} {ts ts' : List Token} :
      Derives (.statement first) ts →
      Derives (.statements more) ts' →
      (first.isOpen → ¬(Parse.viewKind ts').continues 1) →
      Derives (.statements (first :: more)) (ts ++ ts')
  -- Statements.
  | declaration {value : Expr} {word name sign : Token} {ts : List Token} :
      word.kind = .varWord →
      name.kind = .identifier →
      sign.kind = .assign →
      Derives (.expr 1 value) ts →
      Derives (.statement (.var name.offset name.text value)) (word :: name :: sign :: ts)
  | forever {body : Block} {word : Token} {ts : List Token} :
      word.kind = .forWord →
      Derives (.block body) ts →
      Derives (.statement (.forever word.offset body)) (word :: ts)
  | forEach {iterable : Expr} {body : Block} {word item within : Token} {ts ts' : List Token} :
      word.kind = .forWord →
      item.kind = .identifier →
      within.kind = .inWord →
      Derives (.expr 1 iterable) ts →
      Derives (.block body) ts' →
      Derives (.statement (.forEach word.offset item.text none iterable body))
        (word :: item :: within :: ts ++ ts')
  | forEachIndexed {iterable : Expr} {body : Block} {word item comma index within : Token}
      {ts ts' : List Token} :
      word.kind = .forWord →
      item.kind = .identifier →
      comma.kind = .comma →
      index.kind = .identifier →
      within.kind = .inWord →
      Derives (.expr 1 iterable) ts →
      Derives (.block body) ts' →
      Derives (.statement (.forEach word.offset item.text (some index.text) iterable body))
        (word :: item :: comma :: index :: within :: ts ++ ts')
  | conditionalStatement {conditional : Conditional} {ts : List Token} :
      Derives (.conditional conditional) ts →
      Derives (.statement (.conditional conditional)) ts
  | returns {value : Expr} {word : Token} {ts : List Token} :
      word.kind = .returnWord →
      Derives (.expr 1 value) ts →
      Derives (.statement (.returns word.offset (some value))) (word :: ts)
  | continues {word : Token} :
      word.kind = .continueWord →
      Derives (.statement (.continues word.offset)) [word]
  | breaks {word : Token} :
      word.kind = .breakWord →
      Derives (.statement (.breaks word.offset)) [word]
  | select {subject : Expr} {arms : List Arm} {word opening closing : Token}
      {ts ts' : List Token} :
      word.kind = .matchWord →
      Derives (.expr 1 subject) ts →
      opening.kind = .leftBrace →
      Derives (.arms arms) ts' →
      closing.kind = .rightBrace →
      Derives (.statement (.select word.offset subject arms))
        (word :: ts ++ opening :: ts' ++ [closing])
  | blockStatement {block : Block} {ts : List Token} :
      Derives (.block block) ts →
      Derives (.statement (.block block)) ts
  -- A brace at the start of a statement opens a block and never a map.
  | exprStatement {expr : Expr} {ts : List Token} :
      Derives (.expr 1 expr) ts →
      Parse.viewKind ts ≠ .leftBrace →
      Derives (.statement (.expr (firstOffset ts) expr)) ts
  | onlyIf {condition : Expr} {body : Block} {word : Token} {ts ts' : List Token} :
      word.kind = .ifWord →
      Derives (.expr 1 condition) ts →
      Derives (.block body) ts' →
      Derives (.conditional ⟨word.offset, condition, body, .nothing⟩) (word :: ts ++ ts')
  | ifElse {condition : Expr} {body other : Block} {word between : Token}
      {ts ts' ts'' : List Token} :
      word.kind = .ifWord →
      Derives (.expr 1 condition) ts →
      Derives (.block body) ts' →
      between.kind = .elseWord →
      Derives (.block other) ts'' →
      Derives (.conditional ⟨word.offset, condition, body, .block other⟩)
        (word :: ts ++ ts' ++ between :: ts'')
  | ifElseIf {condition : Expr} {body : Block} {other : Conditional} {word between : Token}
      {ts ts' ts'' : List Token} :
      word.kind = .ifWord →
      Derives (.expr 1 condition) ts →
      Derives (.block body) ts' →
      between.kind = .elseWord →
      Derives (.conditional other) ts'' →
      Derives (.conditional ⟨word.offset, condition, body, .conditional other⟩)
        (word :: ts ++ ts' ++ between :: ts'')
  | noArms :
      Derives (.arms []) []
  | consArm {pattern : Expr} {body : Block} {arms : List Arm} {colon : Token}
      {ts ts' ts'' : List Token} :
      Derives (.expr 1 pattern) ts →
      colon.kind = .colon →
      Derives (.block body) ts' →
      Derives (.arms arms) ts'' →
      Derives (.arms (⟨pattern, body⟩ :: arms)) (ts ++ colon :: ts' ++ ts'')
  -- Scripts.
  | blockSection {body : Block} {label colon : Token} {ts : List Token} :
      label.kind = .identifier →
      colon.kind = .colon →
      Derives (.block body) ts →
      Derives (.labelled ⟨label.offset, label.text, .block body⟩) (label :: colon :: ts)
  | exprSection {body : Expr} {label colon : Token} {ts : List Token} :
      label.kind = .identifier →
      colon.kind = .colon →
      Derives (.expr 1 body) ts →
      Parse.viewKind ts ≠ .leftBrace →
      Derives (.labelled ⟨label.offset, label.text, .expr body⟩) (label :: colon :: ts)
  | noItems :
      Derives (.items []) []
  | consSection {part : Section} {items : List Item} {ts ts' : List Token} :
      Derives (.labelled part) ts →
      Derives (.items items) ts' →
      Derives (.items (.labelled part :: items)) (ts ++ ts')
  | consFunction {f : Function} {items : List Item} {ts ts' : List Token} :
      Derives (.function f) ts →
      Derives (.items items) ts' →
      Derives (.items (.function f :: items)) (ts ++ ts')

end PuzzleLang
