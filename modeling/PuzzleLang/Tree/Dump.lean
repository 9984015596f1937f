import PuzzleLang.Json
import PuzzleLang.Position
import PuzzleLang.Tree

/-!
# Dumping a script

A tree is written as JSON: every node is an object with its type, its line if lines are asked for,
its operator if it has one, and its parts.
-/

namespace PuzzleLang

namespace Dump

/-- A node: its type, its line if `line?` gives one for its offset, and its parts. -/
def node (line? : Nat → Option Nat) (type : String) (offset : Nat) (parts : List (String × Json)) :
    Json :=
  .object <|
    ("type", .string type) ::
      match line? offset with
      | some line => ("line", .number line) :: parts
      | none => parts

/-- A text or nothing. -/
def optional : Option String → Json
  | some text => .string text
  | none => .null

variable (line? : Nat → Option Nat)

/-- A node with two operands. -/
def binaryNode (offset : Nat) (kind : TokenKind) (left right : Json) : Json :=
  node line? "BinaryOp" offset [("op", .string kind.text), ("left", left), ("right", right)]

mutual

/-- The dump of an expression. -/
def expr : Expr → Json
  | .string offset value => node line? "StringLit" offset [("value", .string value)]
  | .number offset value => node line? "NumberLit" offset [("value", .number value)]
  | .nil offset => node line? "NilLit" offset []
  | .ident offset name => node line? "Ident" offset [("name", .string name)]
  | .array offset items => node line? "ArrayLit" offset [("items", .array (exprs items))]
  | .map offset parts => node line? "MapLit" offset [("entries", .array (entries parts))]
  | .negate offset operand =>
    node line? "UnaryOp" offset [("op", .string TokenKind.minus.text), ("operand", expr operand)]
  | .binary offset op left right => binaryNode line? offset op.kind (expr left) (expr right)
  | .subscript offset container key =>
    binaryNode line? offset .leftBracket (expr container) (expr key)
  | .assign offset targetOffset name value =>
    binaryNode line? offset .assign
      (node line? "Ident" targetOffset [("name", .string name)]) (expr value)
  | .store offset targetOffset container key value =>
    binaryNode line? offset .assign
      (binaryNode line? targetOffset .leftBracket (expr container) (expr key)) (expr value)
  | .call offset callee args =>
    node line? "Call" offset [("callee", expr callee), ("args", .array (exprs args))]
  | .function f => function f

/-- The dump of a list of expressions. -/
def exprs : List Expr → List Json
  | [] => []
  | item :: items => expr item :: exprs items

/-- The dump of the entries of a map, as pairs. -/
def entries : List (String × Expr) → List Json
  | [] => []
  | (key, value) :: more => .array [.string key, expr value] :: entries more

/-- The dump of a function literal. -/
def function : Function → Json
  | ⟨offset, name, params, body⟩ =>
    node line? "FuncLit" offset
      [("name", .string (name.getD Function.anonymous)),
       ("params", .array (params.map Json.string)), ("body", block body)]

/-- The dump of a block. -/
def block : Block → Json
  | ⟨offset, body⟩ => node line? "Block" offset [("statements", .array (statements body))]

/-- The dump of a list of statements. -/
def statements : List Stmt → List Json
  | [] => []
  | first :: more => statement first :: statements more

/-- The dump of a statement. -/
def statement : Stmt → Json
  | .expr offset value => node line? "ExprStmt" offset [("expr", expr value)]
  | .var offset name value =>
    node line? "VarDecl" offset [("name", .string name), ("value", expr value)]
  | .block inner => block inner
  | .forever offset body =>
    node line? "ForStmt" offset
      [("name", .null), ("index_name", .null), ("iterable", .null), ("body", block body)]
  | .forEach offset item index iterable body =>
    node line? "ForStmt" offset
      [("name", .string item), ("index_name", optional index), ("iterable", expr iterable),
       ("body", block body)]
  | .conditional inner => conditional inner
  | .select offset subject cases =>
    node line? "MatchStmt" offset [("subject", expr subject), ("cases", .array (arms cases))]
  | .returns offset none => node line? "ReturnStmt" offset [("value", .null)]
  | .returns offset (some value) => node line? "ReturnStmt" offset [("value", expr value)]
  | .breaks offset => node line? "BreakStmt" offset []
  | .continues offset => node line? "ContinueStmt" offset []

/-- The dump of a condition with its blocks. -/
def conditional : Conditional → Json
  | ⟨offset, condition, thenBlock, otherwise⟩ =>
    node line? "IfStmt" offset
      [("condition", expr condition), ("then_block", block thenBlock),
       ("else_branch", alternative otherwise)]

/-- The dump of what is done when a condition does not hold. -/
def alternative : Alternative → Json
  | .nothing => .null
  | .block inner => block inner
  | .conditional inner => conditional inner

/-- The dump of the arms of a selection. -/
def arms : List Arm → List Json
  | [] => []
  | ⟨pattern, body⟩ :: more =>
    .object [("type", .string "MatchCase"), ("pattern", expr pattern), ("body", block body)] ::
      arms more

end

/-- The dump of a part of a script. -/
def item : Item → Json
  | .labelled ⟨offset, name, .block body⟩ =>
    node line? "Section" offset [("name", .string name), ("body", block line? body)]
  | .labelled ⟨offset, name, .expr body⟩ =>
    node line? "Section" offset [("name", .string name), ("body", expr line? body)]
  | .function f => node line? "ExprStmt" f.offset [("expr", function line? f)]

end Dump

namespace Program

/-- The dump of a script, with lines. -/
def dump (program : Program) : Json :=
  .object
    [("type", .string "Program"),
     ("body", .array (program.items.map (Dump.item fun offset =>
       some (lineAt program.source offset))))]

/-- The dumps of the parts of a script, without lines. -/
def dumpParts (program : Program) : List Json :=
  program.items.map (Dump.item fun _ => none)

end Program

end PuzzleLang
