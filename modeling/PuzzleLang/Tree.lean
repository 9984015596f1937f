import PuzzleLang.Token.Kind

/-!
# Trees

A script is read as a list of sections and function definitions.  Every node keeps the offset of
the token that introduced it; offsets serve only to attribute faults and dump lines.
-/

namespace PuzzleLang

/-- The operators on two values. -/
inductive Operator
  | add
  | subtract
  | multiply
  | divide
  | modulo
  | equal
  | notEqual
  | less
  | lessEqual
  | greater
  | greaterEqual
  | both
  | either
deriving DecidableEq, Repr

namespace Operator

/-- The token kind of an operator. -/
def kind : Operator → TokenKind
  | add => .plus
  | subtract => .minus
  | multiply => .star
  | divide => .slash
  | modulo => .percent
  | equal => .equal
  | notEqual => .notEqual
  | less => .less
  | lessEqual => .lessEqual
  | greater => .greater
  | greaterEqual => .greaterEqual
  | both => .both
  | either => .either

/-- The operator of a token kind. -/
def ofKind? : TokenKind → Option Operator
  | .plus => some add
  | .minus => some subtract
  | .star => some multiply
  | .slash => some divide
  | .percent => some modulo
  | .equal => some equal
  | .notEqual => some notEqual
  | .less => some less
  | .lessEqual => some lessEqual
  | .greater => some greater
  | .greaterEqual => some greaterEqual
  | .both => some both
  | .either => some either
  | _ => none

/-- How tightly an operator binds.  Assignment binds with strength one, more loosely than all
operators. -/
def strength : Operator → Nat
  | both | either => 2
  | equal | notEqual | less | lessEqual | greater | greaterEqual => 3
  | add | subtract => 4
  | multiply | divide | modulo => 5

theorem ofKind?_kind (op : Operator) : ofKind? op.kind = some op := by
  cases op <;> rfl

theorem kind_of_ofKind? {kind : TokenKind} {op : Operator} (h : ofKind? kind = some op) :
    op.kind = kind := by
  cases kind <;> simp [ofKind?] at h <;> subst h <;> rfl

end Operator

mutual

/-- Statements in braces. -/
structure Block where
  offset : Nat
  statements : List Stmt

/-- A function literal. -/
structure Function where
  offset : Nat
  name : Option String
  params : List String
  body : Block

/-- Expressions. -/
inductive Expr
  | string (offset : Nat) (value : String)
  | number (offset : Nat) (value : Nat)
  | nil (offset : Nat)
  | ident (offset : Nat) (name : String)
  | array (offset : Nat) (items : List Expr)
  | map (offset : Nat) (entries : List (String × Expr))
  | negate (offset : Nat) (operand : Expr)
  | binary (offset : Nat) (op : Operator) (left right : Expr)
  | subscript (offset : Nat) (container key : Expr)
  /-- Assignment to a name. -/
  | assign (offset targetOffset : Nat) (name : String) (value : Expr)
  /-- Assignment to a subscript. -/
  | store (offset targetOffset : Nat) (container key value : Expr)
  | call (offset : Nat) (callee : Expr) (args : List Expr)
  | function (function : Function)

/-- A condition with what is done when it holds and when it does not. -/
structure Conditional where
  offset : Nat
  condition : Expr
  thenBlock : Block
  otherwise : Alternative

/-- What is done when a condition does not hold. -/
inductive Alternative
  | nothing
  | block (block : Block)
  | conditional (conditional : Conditional)

/-- A pattern with what is done for a subject that matches it. -/
structure Arm where
  pattern : Expr
  body : Block

/-- Statements. -/
inductive Stmt
  | expr (offset : Nat) (expr : Expr)
  | var (offset : Nat) (name : String) (value : Expr)
  | block (block : Block)
  /-- A loop without an end of its own. -/
  | forever (offset : Nat) (body : Block)
  /-- A loop over the elements of a value. -/
  | forEach (offset : Nat) (item : String) (index : Option String) (iterable : Expr) (body : Block)
  | conditional (conditional : Conditional)
  | select (offset : Nat) (subject : Expr) (arms : List Arm)
  | returns (offset : Nat) (value : Option Expr)
  | breaks (offset : Nat)
  | continues (offset : Nat)

end

namespace Function

/-- What is shown in place of a name for a function without one. -/
def anonymous : String :=
  "<anonymous>"

/-- The name under which a function is shown. -/
def displayName (f : Function) : String :=
  f.name.getD anonymous

end Function

namespace Expr

/-- The offset of an expression. -/
def offset : Expr → Nat
  | string offset _ | number offset _ | nil offset | ident offset _ | array offset _
  | map offset _ | negate offset _ | binary offset _ _ _ | subscript offset _ _
  | assign offset _ _ _ | store offset _ _ _ _ | call offset _ _ => offset
  | function f => f.offset

end Expr

/-- What an assignment can write to. -/
inductive Target
  | ident (offset : Nat) (name : String)
  | slot (offset : Nat) (container key : Expr)

/-- The target that an expression on the left of an assignment stands for. -/
def Expr.target? : Expr → Option Target
  | .ident offset name => some (.ident offset name)
  | .subscript offset container key => some (.slot offset container key)
  | _ => none

/-- The assignment of a value to a target. -/
def Target.assign (offset : Nat) (value : Expr) : Target → Expr
  | .ident targetOffset name => .assign offset targetOffset name value
  | .slot targetOffset container key => .store offset targetOffset container key value

/-- What a section evaluates. -/
inductive SectionBody
  | block (block : Block)
  | expr (expr : Expr)

/-- A labelled part of a script that is evaluated on demand. -/
structure Section where
  offset : Nat
  name : String
  body : SectionBody

/-- The top-level parts of a script. -/
inductive Item
  | labelled (part : Section)
  | function (function : Function)

/-- A script that has been read, with its text. -/
structure Program where
  items : List Item
  source : List Char

namespace Program

/-- The sections of a script, in order. -/
def sections (program : Program) : List Section :=
  program.items.filterMap fun
    | .labelled part => some part
    | .function _ => none

end Program

end PuzzleLang
