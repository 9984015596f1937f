import PuzzleLang.Proofs.Grammar

/-!
# Trees without offsets

Two trees say the same if they differ only in the offsets of their nodes, that is, if they are equal
once all offsets have been erased.
-/

namespace PuzzleLang

namespace Erase

mutual

/-- The expression with all offsets set to zero. -/
def expr : Expr → Expr
  | .string _ value => .string 0 value
  | .number _ value => .number 0 value
  | .nil _ => .nil 0
  | .ident _ name => .ident 0 name
  | .array _ items => .array 0 (exprs items)
  | .map _ parts => .map 0 (entries parts)
  | .negate _ operand => .negate 0 (expr operand)
  | .binary _ op left right => .binary 0 op (expr left) (expr right)
  | .subscript _ container key => .subscript 0 (expr container) (expr key)
  | .assign _ _ name value => .assign 0 0 name (expr value)
  | .store _ _ container key value => .store 0 0 (expr container) (expr key) (expr value)
  | .call _ callee args => .call 0 (expr callee) (exprs args)
  | .function f => .function (function f)

/-- The expressions with all offsets set to zero. -/
def exprs : List Expr → List Expr
  | [] => []
  | item :: items => expr item :: exprs items

/-- The entries of a map with all offsets set to zero. -/
def entries : List (String × Expr) → List (String × Expr)
  | [] => []
  | (key, value) :: more => (key, expr value) :: entries more

/-- The function with all offsets set to zero. -/
def function : Function → Function
  | ⟨_, name, params, body⟩ => ⟨0, name, params, block body⟩

/-- The block with all offsets set to zero. -/
def block : Block → Block
  | ⟨_, body⟩ => ⟨0, statements body⟩

/-- The statements with all offsets set to zero. -/
def statements : List Stmt → List Stmt
  | [] => []
  | first :: more => statement first :: statements more

/-- The statement with all offsets set to zero. -/
def statement : Stmt → Stmt
  | .expr _ value => .expr 0 (expr value)
  | .var _ name value => .var 0 name (expr value)
  | .block inner => .block (block inner)
  | .forever _ body => .forever 0 (block body)
  | .forEach _ item index iterable body => .forEach 0 item index (expr iterable) (block body)
  | .conditional inner => .conditional (conditional inner)
  | .select _ subject cases => .select 0 (expr subject) (arms cases)
  | .returns _ none => .returns 0 none
  | .returns _ (some value) => .returns 0 (some (expr value))
  | .breaks _ => .breaks 0
  | .continues _ => .continues 0

/-- The condition with its blocks, with all offsets set to zero. -/
def conditional : Conditional → Conditional
  | ⟨_, condition, thenBlock, otherwise⟩ =>
    ⟨0, expr condition, block thenBlock, alternative otherwise⟩

/-- What is done when a condition does not hold, with all offsets set to zero. -/
def alternative : Alternative → Alternative
  | .nothing => .nothing
  | .block inner => .block (block inner)
  | .conditional inner => .conditional (conditional inner)

/-- The arms of a selection with all offsets set to zero. -/
def arms : List Arm → List Arm
  | [] => []
  | ⟨pattern, body⟩ :: more => ⟨expr pattern, block body⟩ :: arms more

end

/-- The section with all offsets set to zero. -/
def labelled : Section → Section
  | ⟨_, name, .block body⟩ => ⟨0, name, .block (block body)⟩
  | ⟨_, name, .expr body⟩ => ⟨0, name, .expr (expr body)⟩

/-- The parts of a script with all offsets set to zero. -/
def items : List Item → List Item
  | [] => []
  | .labelled part :: more => .labelled (labelled part) :: items more
  | .function f :: more => .function (function f) :: items more

/-! ## Trees with a given erasure -/

theorem statement_eq_returns
    {statement' : Stmt} {value : Expr} (h : statement statement' = .returns 0 (some value)) :
    ∃ offset value', statement' = .returns offset (some value') ∧ expr value' = value := by
  cases statement' with
  | returns offset value' =>
    cases value' with
    | none => cases h
    | some value' =>
      cases h
      exact ⟨offset, value', rfl, rfl⟩
  | _ => cases h

theorem statements_eq_singleton {body : List Stmt} {first : Stmt} (h : statements body = [first]) :
    ∃ first', body = [first'] ∧ statement first' = first := by
  match body with
  | [first'] =>
    cases h
    exact ⟨first', rfl, rfl⟩
  | [] | _ :: _ :: _ => cases h

theorem items_eq_singleton_block
    {parts : List Item} {name : String} {body : List Stmt}
    (h : items parts = [.labelled ⟨0, name, .block ⟨0, body⟩⟩]) :
    ∃ offset offset' body', parts = [.labelled ⟨offset, name, .block ⟨offset', body'⟩⟩] ∧
      statements body' = body := by
  match parts with
  | [.labelled ⟨offset, _, .block ⟨offset', body'⟩⟩] =>
    cases h
    exact ⟨offset, offset', body', rfl, rfl⟩
  | [] | [.labelled ⟨_, _, .expr _⟩] | .function _ :: _ => cases h
  | .labelled _ :: .labelled _ :: _ | .labelled _ :: .function _ :: _ => cases (List.cons.inj h).2

end Erase

end PuzzleLang
