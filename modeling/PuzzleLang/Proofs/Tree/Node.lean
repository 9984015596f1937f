import PuzzleLang.Token.Lexer
import PuzzleLang.Tree
import Mathlib.Logic.Relation

/-!
# Nodes

A node of a script is a section, a statement or an expression.  A block is a statement, wherever it
stands, and the left side of an assignment is an expression.  The nodes inside a node are its
children and those inside them.

A jump, that is a `break` or a `continue`, belongs to the nearest loop around it.  It is stray if
there is no loop between it and the function or the section whose body it stands in.
-/

namespace PuzzleLang

/-- A node of a script. -/
inductive Node
  | part (part : Section)
  | statement (statement : Stmt)
  | expr (expr : Expr)

/-- The offset of a statement. -/
def Stmt.offset : Stmt → Nat
  | expr offset _ | var offset _ _ | forever offset _ | forEach offset _ _ _ _
  | select offset _ _ | returns offset _ | breaks offset | continues offset => offset
  | block inner => inner.offset
  | conditional inner => inner.offset

/-- The offset of a node. -/
def Node.offset : Node → Nat
  | part inner => inner.offset
  | statement inner => inner.offset
  | expr inner => inner.offset

/-- The kind of the token of an expression that a sign makes. -/
def Expr.sign? : Expr → Option TokenKind
  | binary _ op _ _ => some op.kind
  | subscript _ _ _ => some .leftBracket
  | assign _ _ _ _ | store _ _ _ _ _ => some .assign
  | negate _ _ => some .minus
  | string _ _ | number _ _ | nil _ | ident _ _ | array _ _ | map _ _ | call _ _ _
  | function _ => none

/-- The kind of the token of a node that a sign makes. -/
def Node.sign? : Node → Option TokenKind
  | part _ | statement _ => none
  | expr inner => inner.sign?

/-- A token is that of a node: it has the offset of the node, and if a sign makes the node, it is
that sign. -/
structure Token.Marks (t : Token) (node : Node) : Prop where
  offset : t.offset = node.offset
  sign {kind : TokenKind} : node.sign? = some kind → t.kind = kind

/-! ## Children -/

/-- The nodes directly inside an expression. -/
def Expr.children : Expr → List Node
  | string _ _ | number _ _ | nil _ | ident _ _ => []
  | array _ items => items.map .expr
  | map _ entries => entries.map fun entry => .expr entry.2
  | negate _ operand => [.expr operand]
  | binary _ _ left right => [.expr left, .expr right]
  | subscript _ container key => [.expr container, .expr key]
  | assign _ targetOffset name value => [.expr (.ident targetOffset name), .expr value]
  | store _ targetOffset container key value =>
    [.expr (.subscript targetOffset container key), .expr value]
  | call _ callee args => .expr callee :: args.map .expr
  | function f => [.statement (.block f.body)]

/-- The nodes of what is done when a condition does not hold. -/
def Alternative.children : Alternative → List Node
  | nothing => []
  | block inner => [.statement (.block inner)]
  | conditional inner => [.statement (.conditional inner)]

/-- The nodes directly inside a statement. -/
def Stmt.children : Stmt → List Node
  | expr _ value | var _ _ value => [.expr value]
  | block inner => inner.statements.map .statement
  | forever _ body => [.statement (.block body)]
  | forEach _ _ _ iterable body => [.expr iterable, .statement (.block body)]
  | conditional inner =>
    .expr inner.condition :: .statement (.block inner.thenBlock) :: inner.otherwise.children
  | select _ subject arms =>
    .expr subject :: arms.flatMap fun arm => [.expr arm.pattern, .statement (.block arm.body)]
  | returns _ value => value.toList.map .expr
  | breaks _ | continues _ => []

/-- The node that a section evaluates. -/
def SectionBody.node : SectionBody → Node
  | block inner => .statement (.block inner)
  | expr inner => .expr inner

namespace Node

/-- The nodes directly inside a node. -/
def children : Node → List Node
  | part inner => [inner.body.node]
  | statement inner => inner.children
  | expr inner => inner.children

/-- A node is another one or lies inside it. -/
def Contains : Node → Node → Prop :=
  Relation.ReflTransGen fun node child => child ∈ node.children

variable {node child inner : Node}

theorem Contains.refl (node : Node) : node.Contains node :=
  Relation.ReflTransGen.refl

theorem Contains.of_child (hchild : child ∈ node.children) (h : child.Contains inner) :
    node.Contains inner :=
  Relation.ReflTransGen.head hchild h

theorem Contains.trans (h : node.Contains child) (h' : child.Contains inner) :
    node.Contains inner :=
  Relation.ReflTransGen.trans h h'

/-- A node is one of some nodes or lies inside one of them. -/
def InsideAny (nodes : List Node) (inner : Node) : Prop :=
  ∃ node ∈ nodes, node.Contains inner

@[simp] theorem not_insideAny_nil (inner : Node) : ¬ InsideAny [] inner := by
  simp [InsideAny]

@[simp] theorem insideAny_cons {nodes : List Node} :
    InsideAny (node :: nodes) inner ↔ node.Contains inner ∨ InsideAny nodes inner := by
  simp [InsideAny]

theorem contains_iff : node.Contains inner ↔ inner = node ∨ InsideAny node.children inner := by
  unfold Contains InsideAny
  rw [Relation.ReflTransGen.cases_head_iff]
  exact or_congr eq_comm Iff.rfl

end Node

/-! ## Jumps -/

/-- Whether a statement is a loop. -/
def Stmt.isLoop : Stmt → Bool
  | forever _ _ | forEach _ _ _ _ _ => true
  | _ => false

/-- The fault of a jump that leaves the body of a function or of a section. -/
def Stmt.strayFault? : Stmt → Option Fault
  | breaks offset => some ⟨.breakOutsideLoop, some offset⟩
  | continues offset => some ⟨.continueOutsideLoop, some offset⟩
  | _ => none

theorem Stmt.cases_of_strayFault
    {jump : Stmt} {fault : Fault} (hfault : jump.strayFault? = some fault) :
    (∃ offset, jump = .breaks offset ∧ fault = ⟨.breakOutsideLoop, some offset⟩) ∨
      ∃ offset, jump = .continues offset ∧ fault = ⟨.continueOutsideLoop, some offset⟩ := by
  cases jump with
  | breaks offset =>
    cases hfault
    exact .inl ⟨offset, rfl, rfl⟩
  | continues offset =>
    cases hfault
    exact .inr ⟨offset, rfl, rfl⟩
  | _ => cases hfault

namespace Node

/-- A node is another one, or lies inside it with neither a loop nor a function around it there. -/
def Exposes : Node → Node → Prop :=
  Relation.ReflTransGen fun node child =>
    child ∈ node.children ∧ ∃ outer, node = .statement outer ∧ outer.isLoop = false

variable {node child inner : Node} {outer : Stmt}

theorem Exposes.refl (node : Node) : node.Exposes node :=
  Relation.ReflTransGen.refl

theorem Exposes.of_child
    (hnoLoop : outer.isLoop = false) (hchild : child ∈ outer.children) (h : child.Exposes inner) :
    (Node.statement outer).Exposes inner :=
  Relation.ReflTransGen.head ⟨hchild, outer, rfl, hnoLoop⟩ h

theorem Exposes.contains (h : node.Exposes inner) : node.Contains inner := by
  induction h with
  | refl => exact Contains.refl node
  | tail _ hstep ih => exact Relation.ReflTransGen.tail ih hstep.1

/-- The block that is the body of a function or of a section. -/
def body? : Node → Option Block
  | expr (.function f) => some f.body
  | part ⟨_, _, .block block⟩ => some block
  | _ => none

theorem contains_body {body : Block} (hbody : node.body? = some body) :
    node.Contains (.statement (.block body)) := by
  refine Contains.of_child ?_ (Contains.refl _)
  unfold body? at hbody
  split at hbody
  case h_1 f =>
    cases hbody
    exact List.mem_singleton_self _
  case h_2 offset name block =>
    cases hbody
    exact List.mem_singleton_self _
  case h_3 => cases hbody

end Node

/-! ## The nodes of a script -/

/-- The outermost node of a part of a script. -/
def Item.node : Item → Node
  | labelled part => .part part
  | function f => .expr (.function f)

namespace Program

/-- A script has a node. -/
def Contains (program : Program) (node : Node) : Prop :=
  ∃ item ∈ program.items, item.node.Contains node

/-- A script has a jump with no loop around it inside the function or the section whose body it
stands in. -/
def HasStray (program : Program) (jump : Stmt) : Prop :=
  ∃ node body, program.Contains node ∧ node.body? = some body ∧
    (Node.statement (.block body)).Exposes (.statement jump)

variable {program : Program} {node inner : Node}

theorem Contains.trans (h : program.Contains node) (h' : node.Contains inner) :
    program.Contains inner := by
  obtain ⟨item, hitem, hfound⟩ := h
  exact ⟨item, hitem, hfound.trans h'⟩

theorem HasStray.contains {jump : Stmt} (h : program.HasStray jump) :
    program.Contains (.statement jump) := by
  obtain ⟨node, body, hcontains, hbody, hexposes⟩ := h
  exact hcontains.trans ((Node.contains_body hbody).trans hexposes.contains)

theorem contains_iff :
    program.Contains inner ↔ Node.InsideAny (program.items.map Item.node) inner := by
  constructor
  · rintro ⟨item, hitem, h⟩
    exact ⟨item.node, List.mem_map_of_mem hitem, h⟩
  · rintro ⟨node, hnode, h⟩
    obtain ⟨item, hitem, rfl⟩ := List.mem_map.mp hnode
    exact ⟨item, hitem, h⟩

theorem contains_item {item : Item} (hitem : item ∈ program.items) : program.Contains item.node :=
  ⟨item, hitem, Node.Contains.refl _⟩

theorem contains_part {part : Section} (hsection : part ∈ program.sections) :
    program.Contains (.part part) := by
  obtain ⟨item, hitem, hpart⟩ := List.mem_filterMap.mp hsection
  cases item with
  | function f => cases hpart
  | labelled inner =>
    cases hpart
    exact contains_item hitem

end Program

end PuzzleLang
