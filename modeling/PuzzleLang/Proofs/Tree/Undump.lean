import PuzzleLang.Proofs.Tree.Erase
import PuzzleLang.Proofs.Tree.Node
import PuzzleLang.Tree.Dump

/-!
# Reading a dump back

A dump says everything about a script but the offsets of its nodes: the script can be read back from
it, with or without lines.  Fields are told apart by their order, lines aside.  One name must not be
given to a function, since it is shown for functions without a name.
-/

namespace PuzzleLang

/-- The types of nodes. -/
inductive NodeType
  | stringLit
  | numberLit
  | nilLit
  | ident
  | arrayLit
  | mapLit
  | unaryOp
  | binaryOp
  | call
  | funcLit
  | exprStmt
  | varDecl
  | block
  | forStmt
  | ifStmt
  | matchStmt
  | matchCase
  | returnStmt
  | breakStmt
  | continueStmt
  | labelled

namespace NodeType

/-- The name of a type. -/
def text : NodeType → String
  | stringLit => "StringLit"
  | numberLit => "NumberLit"
  | nilLit => "NilLit"
  | ident => "Ident"
  | arrayLit => "ArrayLit"
  | mapLit => "MapLit"
  | unaryOp => "UnaryOp"
  | binaryOp => "BinaryOp"
  | call => "Call"
  | funcLit => "FuncLit"
  | exprStmt => "ExprStmt"
  | varDecl => "VarDecl"
  | block => "Block"
  | forStmt => "ForStmt"
  | ifStmt => "IfStmt"
  | matchStmt => "MatchStmt"
  | matchCase => "MatchCase"
  | returnStmt => "ReturnStmt"
  | breakStmt => "BreakStmt"
  | continueStmt => "ContinueStmt"
  | labelled => "Section"

/-- All types. -/
def all : List NodeType :=
  [stringLit, numberLit, nilLit, ident, arrayLit, mapLit, unaryOp, binaryOp, call, funcLit,
   exprStmt, varDecl, block, forStmt, ifStmt, matchStmt, matchCase, returnStmt, breakStmt,
   continueStmt, labelled]

/-- The type with a name. -/
def ofText? (name : String) : Option NodeType :=
  all.find? (·.text == name)

theorem ofText?_text (type : NodeType) : ofText? type.text = some type := by
  cases type <;> rfl

end NodeType

theorem TokenKind.ofText?_text (kind : TokenKind) : ofText? kind.text = some kind := by
  cases kind <;> rfl

/-- No function among some nodes and those inside them has the name that is shown for functions
without one. -/
def Named (nodes : List Node) : Prop :=
  ∀ f, Node.InsideAny nodes (.expr (.function f)) → f.name ≠ some Function.anonymous

@[simp] theorem named_nil : Named [] :=
  fun _ hinside => absurd hinside (Node.not_insideAny_nil _)

@[simp] theorem named_cons {node : Node} {nodes : List Node} :
    Named (node :: nodes) ↔
      (∀ f, node = .expr (.function f) → f.name ≠ some Function.anonymous) ∧
        Named node.children ∧ Named nodes := by
  simp only [Named, Node.insideAny_cons, Node.contains_iff, or_imp, forall_and, and_assoc]
  simp only [eq_comm]

theorem Named.head {node : Node} {nodes : List Node} (hnamed : Named (node :: nodes)) :
    Named [node] :=
  named_cons.mpr ⟨(named_cons.mp hnamed).1, (named_cons.mp hnamed).2.1, named_nil⟩

theorem Named.tail {node : Node} {nodes : List Node} (hnamed : Named (node :: nodes)) :
    Named nodes :=
  (named_cons.mp hnamed).2.2

theorem Named.children {node : Node} (hnamed : Named [node]) : Named node.children :=
  (named_cons.mp hnamed).2.1

namespace Undump

/-- What has been read back from a part of a dump.  A block and a condition are statements. -/
inductive Part
  | nothing
  | number (value : Int)
  | text (value : String)
  | list (items : List Part)
  | expr (expr : Expr)
  | statement (statement : Stmt)
  | arm (arm : Arm)
  | labelled (part : Section)

namespace Part

def text? : Part → Option String
  | text value => some value
  | _ => none

def expr? : Part → Option Expr
  | expr inner => some inner
  | _ => none

def entry? : Part → Option (String × Expr)
  | list [text key, expr value] => some (key, value)
  | _ => none

def statement? : Part → Option Stmt
  | statement inner => some inner
  | _ => none

def arm? : Part → Option Arm
  | arm inner => some inner
  | _ => none

/-- A name that may be missing. -/
def name? : Part → Option (Option String)
  | nothing => some none
  | text value => some (some value)
  | _ => none

def alternative? : Part → Option Alternative
  | nothing => some .nothing
  | statement (.block inner) => some (.block inner)
  | statement (.conditional inner) => some (.conditional inner)
  | _ => none

/-- A top-level part.  A function definition is shown as a statement. -/
def item? : Part → Option Item
  | labelled part => some (.labelled part)
  | statement (.expr _ (.function f)) => some (.function f)
  | _ => none

end Part

/-- The node with two operands that a token makes. -/
def binary? (left right : Expr) : TokenKind → Option Expr
  | .assign => left.target?.map (Target.assign 0 right)
  | .leftBracket => some (.subscript 0 left right)
  | kind => (Operator.ofKind? kind).map fun op => .binary 0 op left right

/-- The name of a function from the one it is shown under. -/
def functionName (shown : String) : Option String :=
  if shown = Function.anonymous then none else some shown

/-- A node from its type and its parts. -/
def build : NodeType → List Part → Option Part
  | .stringLit, [.text value] => some (.expr (.string 0 value))
  | .numberLit, [.number (.ofNat value)] => some (.expr (.number 0 value))
  | .nilLit, [] => some (.expr (.nil 0))
  | .ident, [.text name] => some (.expr (.ident 0 name))
  | .arrayLit, [.list items] => (items.mapM Part.expr?).map fun items => .expr (.array 0 items)
  | .mapLit, [.list entries] =>
    (entries.mapM Part.entry?).map fun entries => .expr (.map 0 entries)
  | .unaryOp, [.text sign, .expr operand] =>
    if sign = TokenKind.minus.text then some (.expr (.negate 0 operand)) else none
  | .binaryOp, [.text sign, .expr left, .expr right] =>
    ((TokenKind.ofText? sign).bind (binary? left right)).map .expr
  | .call, [.expr callee, .list args] =>
    (args.mapM Part.expr?).map fun args => .expr (.call 0 callee args)
  | .funcLit, [.text shown, .list params, .statement (.block body)] =>
    (params.mapM Part.text?).map fun params =>
      .expr (.function ⟨0, functionName shown, params, body⟩)
  | .exprStmt, [.expr value] => some (.statement (.expr 0 value))
  | .varDecl, [.text name, .expr value] => some (.statement (.var 0 name value))
  | .block, [.list statements] =>
    (statements.mapM Part.statement?).map fun statements => .statement (.block ⟨0, statements⟩)
  | .forStmt, [.nothing, .nothing, .nothing, .statement (.block body)] =>
    some (.statement (.forever 0 body))
  | .forStmt, [.text item, index, .expr iterable, .statement (.block body)] =>
    index.name?.map fun index => .statement (.forEach 0 item index iterable body)
  | .ifStmt, [.expr condition, .statement (.block thenBlock), otherwise] =>
    otherwise.alternative?.map fun otherwise =>
      .statement (.conditional ⟨0, condition, thenBlock, otherwise⟩)
  | .matchStmt, [.expr subject, .list cases] =>
    (cases.mapM Part.arm?).map fun cases => .statement (.select 0 subject cases)
  | .matchCase, [.expr pattern, .statement (.block body)] => some (.arm ⟨pattern, body⟩)
  | .returnStmt, [.nothing] => some (.statement (.returns 0 none))
  | .returnStmt, [.expr value] => some (.statement (.returns 0 (some value)))
  | .breakStmt, [] => some (.statement (.breaks 0))
  | .continueStmt, [] => some (.statement (.continues 0))
  | .labelled, [.text name, .statement (.block body)] =>
    some (.labelled ⟨0, name, .block body⟩)
  | .labelled, [.text name, .expr body] => some (.labelled ⟨0, name, .expr body⟩)
  | _, _ => none

/-- A node from its parts, of which the name of its type is the first. -/
def node : List Part → Option Part
  | .text name :: found => (NodeType.ofText? name).bind fun type => build type found
  | _ => none

mutual

/-- What a part of a dump says. -/
def part : Json → Option Part
  | .null => some .nothing
  | .number value => some (.number value)
  | .string value => some (.text value)
  | .array items => (parts items).map .list
  | .object fields => (fieldParts fields).bind node

/-- What the items of an array in a dump say. -/
def parts : List Json → Option (List Part)
  | [] => some []
  | item :: items => (part item).bind fun first => (parts items).map (first :: ·)

/-- What the fields of a node say.  Lines are passed over. -/
def fieldParts : List (String × Json) → Option (List Part)
  | [] => some []
  | (name, value) :: fields =>
    if name = "line" then fieldParts fields
    else (part value).bind fun first => (fieldParts fields).map (first :: ·)

end

/-- The top-level parts of a script from their dumps. -/
def items (dumps : List Json) : Option (List Item) :=
  (parts dumps).bind fun found => found.mapM Part.item?

/-- The top-level parts of a script from the dump of the script. -/
def program : Json → Option (List Item)
  | .object [_, (_, .array dumps)] => items dumps
  | _ => none

/-! ## Nodes -/

theorem fieldParts_cons
    {name : String} {value : Json} {found : Part} {fields : List (String × Json)} {more : List Part}
    (hnotLine : name ≠ "line") (hpart : part value = some found)
    (hmore : fieldParts fields = some more) :
    fieldParts ((name, value) :: fields) = some (found :: more) := by
  rw [fieldParts, if_neg hnotLine, hpart, Option.bind_some, hmore, Option.map_some]

theorem parts_cons
    {item : Json} {found : Part} {items : List Json} {more : List Part}
    (hpart : part item = some found) (hmore : parts items = some more) :
    parts (item :: items) = some (found :: more) := by
  rw [parts, hpart, Option.bind_some, hmore, Option.map_some]

theorem part_array {items : List Json} {found : List Part} (hfound : parts items = some found) :
    part (.array items) = some (.list found) := by
  rw [part, hfound, Option.map_some]

theorem mapM_map_eq_some
    {α β : Type}
    (wrap : α → β) (unwrap : β → Option α) (hinverse : ∀ x, unwrap (wrap x) = some x)
    (xs : List α) :
    (xs.map wrap).mapM unwrap = some xs := by
  induction xs with
  | nil => rfl
  | cons x xs ih => rw [List.map_cons, List.mapM_cons, hinverse, ih]; rfl

theorem part_object
    (type : NodeType)
    {fields : List (String × Json)} {found : List Part} {result : Part}
    (hfound : fieldParts fields = some found) (hbuilt : build type found = some result) :
    part (.object (("type", .string type.text) :: fields)) = some result := by
  rw [part, fieldParts_cons (by decide) rfl hfound, Option.bind_some, node,
    NodeType.ofText?_text, Option.bind_some, hbuilt]

section

variable (line? : Nat → Option Nat)

theorem part_node
    (type : NodeType)
    {offset : Nat} {fields : List (String × Json)} {found : List Part} {result : Part}
    (hfound : fieldParts fields = some found) (hbuilt : build type found = some result) :
    part (Dump.node line? type.text offset fields) = some result := by
  refine part_object type ?_ hbuilt
  split
  · rwa [fieldParts, if_pos rfl]
  · exact hfound

theorem part_binaryNode
    {offset : Nat} {kind : TokenKind} {left right result : Expr} {left' right' : Json}
    (hleft : part left' = some (.expr left)) (hright : part right' = some (.expr right))
    (hbinary : binary? left right kind = some result) :
    part (Dump.binaryNode line? offset kind left' right') = some (.expr result) := by
  refine part_node line? .binaryOp (fieldParts_cons (by decide) rfl
    (fieldParts_cons (by decide) hleft (fieldParts_cons (by decide) hright rfl))) ?_
  rw [build, TokenKind.ofText?_text, Option.bind_some, hbinary, Option.map_some]

theorem part_ident (offset : Nat) (name : String) :
    part (Dump.node line? "Ident" offset [("name", .string name)]) =
      some (.expr (.ident 0 name)) :=
  part_node line? .ident (fieldParts_cons (by decide) rfl rfl) rfl

theorem binary?_kind (op : Operator) (left right : Expr) :
    binary? left right op.kind = some (.binary 0 op left right) := by
  cases op <;> rfl

theorem functionName_getD {name : Option String} (hne : name ≠ some Function.anonymous) :
    functionName (name.getD Function.anonymous) = name := by
  cases name with
  | none => exact if_pos rfl
  | some name => exact if_neg fun hsame => hne (congrArg some hsame)

theorem parts_params (params : List String) :
    parts (params.map Json.string) = some (params.map .text) := by
  induction params with
  | nil => rfl
  | cons param params ih => exact parts_cons rfl ih

theorem part_optional (name : Option String) :
    ∃ found, part (Dump.optional name) = some found ∧ found.name? = some name := by
  cases name with
  | none => exact ⟨.nothing, rfl, rfl⟩
  | some name => exact ⟨.text name, rfl, rfl⟩

/-! ## Trees -/

mutual

theorem part_expr : ∀ e : Expr, Named [.expr e] →
    part (Dump.expr line? e) = some (.expr (Erase.expr e))
  | .string offset value, _ =>
    part_node line? .stringLit (fieldParts_cons (by decide) rfl rfl) rfl
  | .number offset value, _ =>
    part_node line? .numberLit (fieldParts_cons (by decide) rfl rfl) rfl
  | .nil offset, _ => part_node line? .nilLit rfl rfl
  | .ident offset name, _ => part_ident line? offset name
  | .array offset items, hnamed => by
    have hitems := part_array (parts_exprs items hnamed.children)
    refine part_node line? .arrayLit (fieldParts_cons (by decide) hitems rfl) ?_
    rw [build, mapM_map_eq_some _ Part.expr? fun _ => rfl]
    rfl
  | .map offset pairs, hnamed => by
    have hentries := part_array (parts_entries pairs hnamed.children)
    refine part_node line? .mapLit (fieldParts_cons (by decide) hentries rfl) ?_
    rw [build, mapM_map_eq_some _ Part.entry? fun _ => rfl]
    rfl
  | .negate offset operand, hnamed =>
    part_node line? .unaryOp (fieldParts_cons (by decide) rfl
      (fieldParts_cons (by decide) (part_expr operand hnamed.children) rfl)) rfl
  | .binary offset op left right, hnamed =>
    part_binaryNode line? (part_expr left hnamed.children.head)
      (part_expr right hnamed.children.tail) (binary?_kind op _ _)
  | .subscript offset container key, hnamed =>
    part_binaryNode line? (part_expr container hnamed.children.head)
      (part_expr key hnamed.children.tail) rfl
  | .assign offset targetOffset name value, hnamed =>
    part_binaryNode line? (part_ident line? targetOffset name)
      (part_expr value hnamed.children.tail) rfl
  | .store offset targetOffset container key value, hnamed =>
    part_binaryNode line?
      (part_binaryNode line? (part_expr container hnamed.children.head.children.head)
        (part_expr key hnamed.children.head.children.tail) rfl)
      (part_expr value hnamed.children.tail) rfl
  | .call offset callee args, hnamed => by
    have hargs := part_array (parts_exprs args hnamed.children.tail)
    refine part_node line? .call (fieldParts_cons (by decide)
      (part_expr callee hnamed.children.head) (fieldParts_cons (by decide) hargs rfl)) ?_
    rw [build, mapM_map_eq_some _ Part.expr? fun _ => rfl]
    rfl
  | .function f, hnamed => part_function f hnamed

theorem parts_exprs : ∀ items : List Expr, Named (items.map .expr) →
    parts (Dump.exprs line? items) = some ((Erase.exprs items).map .expr)
  | [], _ => rfl
  | item :: items, hnamed => parts_cons (part_expr item hnamed.head) (parts_exprs items hnamed.tail)

theorem parts_entries : ∀ pairs : List (String × Expr),
    Named (pairs.map fun entry => .expr entry.2) →
    parts (Dump.entries line? pairs) =
      some ((Erase.entries pairs).map fun entry => .list [.text entry.1, .expr entry.2])
  | [], _ => rfl
  | (_, value) :: more, hnamed =>
    parts_cons (part_array (parts_cons rfl (parts_cons (part_expr value hnamed.head) rfl)))
      (parts_entries more hnamed.tail)

theorem part_function : ∀ f : Function, Named [.expr (.function f)] →
    part (Dump.function line? f) = some (.expr (.function (Erase.function f)))
  | ⟨offset, name, params, body⟩, hnamed => by
    refine part_node line? .funcLit (fieldParts_cons (by decide) rfl
      (fieldParts_cons (by decide) (part_array (parts_params params))
        (fieldParts_cons (by decide) (part_block body hnamed.children) rfl))) ?_
    have hname : name ≠ some Function.anonymous := (named_cons.mp hnamed).1 _ rfl
    rw [build, mapM_map_eq_some _ Part.text? fun _ => rfl, functionName_getD hname]
    rfl

theorem part_block : ∀ body : Block, Named [.statement (.block body)] →
    part (Dump.block line? body) = some (.statement (.block (Erase.block body)))
  | ⟨offset, body⟩, hnamed => by
    have hbody := part_array (parts_statements body hnamed.children)
    refine part_node line? .block (fieldParts_cons (by decide) hbody rfl) ?_
    rw [build, mapM_map_eq_some _ Part.statement? fun _ => rfl]
    rfl

theorem parts_statements : ∀ body : List Stmt, Named (body.map .statement) →
    parts (Dump.statements line? body) = some ((Erase.statements body).map .statement)
  | [], _ => rfl
  | first :: more, hnamed =>
    parts_cons (part_statement first hnamed.head) (parts_statements more hnamed.tail)

theorem part_statement : ∀ s : Stmt, Named [.statement s] →
    part (Dump.statement line? s) = some (.statement (Erase.statement s))
  | .expr offset value, hnamed =>
    part_node line? .exprStmt
      (fieldParts_cons (by decide) (part_expr value hnamed.children) rfl) rfl
  | .var offset name value, hnamed =>
    part_node line? .varDecl (fieldParts_cons (by decide) rfl
      (fieldParts_cons (by decide) (part_expr value hnamed.children) rfl)) rfl
  | .block inner, hnamed => part_block inner hnamed
  | .forever offset body, hnamed =>
    part_node line? .forStmt (fieldParts_cons (by decide) rfl
      (fieldParts_cons (by decide) rfl (fieldParts_cons (by decide) rfl
        (fieldParts_cons (by decide) (part_block body hnamed.children) rfl)))) rfl
  | .forEach offset item index iterable body, hnamed => by
    obtain ⟨found, hpart, hindex⟩ := part_optional index
    refine part_node line? .forStmt (fieldParts_cons (by decide) rfl
      (fieldParts_cons (by decide) hpart (fieldParts_cons (by decide)
        (part_expr iterable hnamed.children.head) (fieldParts_cons (by decide)
          (part_block body hnamed.children.tail) rfl)))) ?_
    rw [build, hindex]
    rfl
  | .conditional inner, hnamed => part_conditional inner hnamed
  | .select offset subject cases, hnamed => by
    have harms := part_array (parts_arms cases hnamed.children.tail)
    refine part_node line? .matchStmt (fieldParts_cons (by decide)
      (part_expr subject hnamed.children.head) (fieldParts_cons (by decide) harms rfl)) ?_
    rw [build, mapM_map_eq_some _ Part.arm? fun _ => rfl]
    rfl
  | .returns offset none, _ =>
    part_node line? .returnStmt (fieldParts_cons (by decide) rfl rfl) rfl
  | .returns offset (some value), hnamed =>
    part_node line? .returnStmt
      (fieldParts_cons (by decide) (part_expr value hnamed.children) rfl) rfl
  | .breaks offset, _ => part_node line? .breakStmt rfl rfl
  | .continues offset, _ => part_node line? .continueStmt rfl rfl

theorem part_conditional : ∀ inner : Conditional, Named [.statement (.conditional inner)] →
    part (Dump.conditional line? inner) =
      some (.statement (.conditional (Erase.conditional inner)))
  | ⟨offset, condition, thenBlock, otherwise⟩, hnamed => by
    obtain ⟨found, hpart, hotherwise⟩ := part_alternative otherwise hnamed.children.tail.tail
    refine part_node line? .ifStmt (fieldParts_cons (by decide)
      (part_expr condition hnamed.children.head) (fieldParts_cons (by decide)
        (part_block thenBlock hnamed.children.tail.head)
          (fieldParts_cons (by decide) hpart rfl))) ?_
    rw [build, hotherwise]
    rfl

theorem part_alternative : ∀ otherwise : Alternative, Named otherwise.children →
    ∃ found, part (Dump.alternative line? otherwise) = some found ∧
      found.alternative? = some (Erase.alternative otherwise)
  | .nothing, _ => ⟨.nothing, rfl, rfl⟩
  | .block inner, hnamed => ⟨_, part_block inner hnamed, rfl⟩
  | .conditional inner, hnamed => ⟨_, part_conditional inner hnamed, rfl⟩

theorem parts_arms : ∀ cases : List Arm,
    Named (cases.flatMap fun arm => [.expr arm.pattern, .statement (.block arm.body)]) →
    parts (Dump.arms line? cases) = some ((Erase.arms cases).map .arm)
  | [], _ => rfl
  | ⟨pattern, body⟩ :: more, hnamed =>
    parts_cons
      (part_object .matchCase (fieldParts_cons (by decide) (part_expr pattern hnamed.head)
        (fieldParts_cons (by decide) (part_block body hnamed.tail.head) rfl)) rfl)
      (parts_arms more hnamed.tail.tail)

end

theorem items_cons
    {dump : Json} {found : Part} {item : Item} {dumps : List Json} {more : List Item}
    (hpart : part dump = some found) (hitem : found.item? = some item)
    (hmore : items dumps = some more) :
    items (dump :: dumps) = some (item :: more) := by
  obtain ⟨rest, hrest, hitems⟩ := Option.bind_eq_some_iff.mp hmore
  rw [items, parts_cons hpart hrest, Option.bind_some, List.mapM_cons, hitem, hitems]
  rfl

/-- The parts of a script can be read back from their dumps, with or without lines. -/
theorem items_dump (parts : List Item) (hnamed : Named (parts.map Item.node)) :
    items (parts.map (Dump.item line?)) = some (Erase.items parts) := by
  induction parts with
  | nil => rfl
  | cons item more ih =>
    have hmore := ih hnamed.tail
    have hnamed := hnamed.head
    cases item with
    | labelled inner =>
      obtain ⟨offset, name, body⟩ := inner
      cases body with
      | block body =>
        exact items_cons (part_node line? .labelled (fieldParts_cons (by decide) rfl
          (fieldParts_cons (by decide) (part_block line? body hnamed.children) rfl)) rfl) rfl hmore
      | expr body =>
        exact items_cons (part_node line? .labelled (fieldParts_cons (by decide) rfl
          (fieldParts_cons (by decide) (part_expr line? body hnamed.children) rfl)) rfl) rfl hmore
    | function f =>
      exact items_cons (part_node line? .exprStmt
        (fieldParts_cons (by decide) (part_function line? f hnamed) rfl) rfl) rfl hmore

end

end Undump

/-! ## Leaving lines out -/

namespace Json

mutual

/-- The value without the lines in it. -/
def unlined : Json → Json
  | null => null
  | number value => number value
  | string value => string value
  | array items => array (unlinedItems items)
  | object fields => object (unlinedFields fields)

/-- The items of an array without the lines in them. -/
def unlinedItems : List Json → List Json
  | [] => []
  | item :: items => unlined item :: unlinedItems items

/-- The fields of an object other than its line, without the lines in them. -/
def unlinedFields : List (String × Json) → List (String × Json)
  | [] => []
  | (name, value) :: fields =>
    if name = "line" then unlinedFields fields else (name, unlined value) :: unlinedFields fields

end

end Json

namespace Undump

mutual

theorem part_unlined : ∀ json : Json, part json.unlined = part json
  | .null | .number _ | .string _ => rfl
  | .array items => by rw [Json.unlined, part, part, parts_unlined items]
  | .object fields => by rw [Json.unlined, part, part, fieldParts_unlined fields]

theorem parts_unlined : ∀ items : List Json, parts (Json.unlinedItems items) = parts items
  | [] => rfl
  | item :: items => by
    rw [Json.unlinedItems, parts, parts, part_unlined item, parts_unlined items]

theorem fieldParts_unlined : ∀ fields : List (String × Json),
    fieldParts (Json.unlinedFields fields) = fieldParts fields
  | [] => rfl
  | (name, value) :: fields => by
    rw [Json.unlinedFields, fieldParts]
    split
    · exact fieldParts_unlined fields
    · next hnotLine =>
      rw [fieldParts, if_neg hnotLine, part_unlined value, fieldParts_unlined fields]

end

end Undump

namespace Program

variable {program : Program}

theorem undump_dumpParts (hnamed : Named (program.items.map Item.node)) :
    Undump.items program.dumpParts = some (Erase.items program.items) :=
  Undump.items_dump _ program.items hnamed

theorem undump_dump (hnamed : Named (program.items.map Item.node)) :
    Undump.program program.dump = some (Erase.items program.items) :=
  Undump.items_dump _ program.items hnamed

theorem undump_unlined (program : Program) :
    Undump.program program.dump.unlined = Undump.program program.dump := by
  have hsameParts := Undump.parts_unlined
    (program.items.map (Dump.item fun offset => some (lineAt program.source offset)))
  exact congrArg (Option.bind · fun found => found.mapM Undump.Part.item?) hsameParts

end Program

end PuzzleLang
