import PuzzleLang.Proofs.Tree.Erase
import Mathlib.Data.List.Forall2

/-!
# Trees that are alike

Two trees are alike if they differ in the offsets of their nodes at most, and offsets at the same
place in the two trees correspond to each other.  Which offsets correspond is left open.  If any two
do, trees that are alike have the same erasure; if only equal ones do, they are equal.
-/

namespace PuzzleLang

variable (offsets : Nat → Nat → Prop)

mutual

/-- Two expressions are alike. -/
inductive Expr.Like : Expr → Expr → Prop
  | string {o o' : Nat} {value : String} :
    offsets o o' → Expr.Like (.string o value) (.string o' value)
  | number {o o' : Nat} {value : Nat} :
    offsets o o' → Expr.Like (.number o value) (.number o' value)
  | nil {o o' : Nat} :
    offsets o o' → Expr.Like (.nil o) (.nil o')
  | ident {o o' : Nat} {name : String} :
    offsets o o' → Expr.Like (.ident o name) (.ident o' name)
  | array {o o' : Nat} {items items' : List Expr} :
    offsets o o' → Expr.LikeAll items items' → Expr.Like (.array o items) (.array o' items')
  | map {o o' : Nat} {entries entries' : List (String × Expr)} :
    offsets o o' → Expr.LikeEntries entries entries' →
      Expr.Like (.map o entries) (.map o' entries')
  | negate {o o' : Nat} {operand operand' : Expr} :
    offsets o o' → Expr.Like operand operand' →
      Expr.Like (.negate o operand) (.negate o' operand')
  | binary {o o' : Nat} {op : Operator} {left left' right right' : Expr} :
    offsets o o' → Expr.Like left left' → Expr.Like right right' →
      Expr.Like (.binary o op left right) (.binary o' op left' right')
  | subscript {o o' : Nat} {container container' key key' : Expr} :
    offsets o o' → Expr.Like container container' → Expr.Like key key' →
      Expr.Like (.subscript o container key) (.subscript o' container' key')
  | assign {o o' target target' : Nat} {name : String} {value value' : Expr} :
    offsets o o' → offsets target target' → Expr.Like value value' →
      Expr.Like (.assign o target name value) (.assign o' target' name value')
  | store {o o' target target' : Nat} {container container' key key' value value' : Expr} :
    offsets o o' → offsets target target' → Expr.Like container container' → Expr.Like key key' →
      Expr.Like value value' →
      Expr.Like (.store o target container key value) (.store o' target' container' key' value')
  | call {o o' : Nat} {callee callee' : Expr} {args args' : List Expr} :
    offsets o o' → Expr.Like callee callee' → Expr.LikeAll args args' →
      Expr.Like (.call o callee args) (.call o' callee' args')
  | function {f f' : Function} :
    Function.Like f f' → Expr.Like (.function f) (.function f')

/-- Two lists of expressions are alike. -/
inductive Expr.LikeAll : List Expr → List Expr → Prop
  | nil : Expr.LikeAll [] []
  | cons {item item' : Expr} {items items' : List Expr} :
    Expr.Like item item' → Expr.LikeAll items items' →
      Expr.LikeAll (item :: items) (item' :: items')

/-- The entries of two maps are alike. -/
inductive Expr.LikeEntries : List (String × Expr) → List (String × Expr) → Prop
  | nil : Expr.LikeEntries [] []
  | cons {key : String} {value value' : Expr} {entries entries' : List (String × Expr)} :
    Expr.Like value value' → Expr.LikeEntries entries entries' →
      Expr.LikeEntries ((key, value) :: entries) ((key, value') :: entries')

/-- Two functions are alike. -/
inductive Function.Like : Function → Function → Prop
  | mk {o o' : Nat} {name : Option String} {params : List String} {body body' : Block} :
    offsets o o' → Block.Like body body' →
      Function.Like ⟨o, name, params, body⟩ ⟨o', name, params, body'⟩

/-- Two blocks are alike. -/
inductive Block.Like : Block → Block → Prop
  | mk {o o' : Nat} {statements statements' : List Stmt} :
    offsets o o' → Stmt.LikeAll statements statements' →
      Block.Like ⟨o, statements⟩ ⟨o', statements'⟩

/-- Two lists of statements are alike. -/
inductive Stmt.LikeAll : List Stmt → List Stmt → Prop
  | nil : Stmt.LikeAll [] []
  | cons {first first' : Stmt} {more more' : List Stmt} :
    Stmt.Like first first' → Stmt.LikeAll more more' →
      Stmt.LikeAll (first :: more) (first' :: more')

/-- Two statements are alike. -/
inductive Stmt.Like : Stmt → Stmt → Prop
  | expr {o o' : Nat} {value value' : Expr} :
    offsets o o' → Expr.Like value value' → Stmt.Like (.expr o value) (.expr o' value')
  | var {o o' : Nat} {name : String} {value value' : Expr} :
    offsets o o' → Expr.Like value value' →
      Stmt.Like (.var o name value) (.var o' name value')
  | block {body body' : Block} :
    Block.Like body body' → Stmt.Like (.block body) (.block body')
  | forever {o o' : Nat} {body body' : Block} :
    offsets o o' → Block.Like body body' → Stmt.Like (.forever o body) (.forever o' body')
  | forEach {o o' : Nat} {item : String} {index : Option String} {iterable iterable' : Expr}
      {body body' : Block} :
    offsets o o' → Expr.Like iterable iterable' → Block.Like body body' →
      Stmt.Like (.forEach o item index iterable body) (.forEach o' item index iterable' body')
  | conditional {inner inner' : Conditional} :
    Conditional.Like inner inner' → Stmt.Like (.conditional inner) (.conditional inner')
  | select {o o' : Nat} {subject subject' : Expr} {arms arms' : List Arm} :
    offsets o o' → Expr.Like subject subject' → Arm.LikeAll arms arms' →
      Stmt.Like (.select o subject arms) (.select o' subject' arms')
  | returnsNil {o o' : Nat} :
    offsets o o' → Stmt.Like (.returns o none) (.returns o' none)
  | returns {o o' : Nat} {value value' : Expr} :
    offsets o o' → Expr.Like value value' →
      Stmt.Like (.returns o (some value)) (.returns o' (some value'))
  | breaks {o o' : Nat} :
    offsets o o' → Stmt.Like (.breaks o) (.breaks o')
  | continues {o o' : Nat} :
    offsets o o' → Stmt.Like (.continues o) (.continues o')

/-- Two conditions with their blocks are alike. -/
inductive Conditional.Like : Conditional → Conditional → Prop
  | mk {o o' : Nat} {condition condition' : Expr} {thenBlock thenBlock' : Block}
      {otherwise otherwise' : Alternative} :
    offsets o o' → Expr.Like condition condition' → Block.Like thenBlock thenBlock' →
      Alternative.Like otherwise otherwise' →
      Conditional.Like ⟨o, condition, thenBlock, otherwise⟩
        ⟨o', condition', thenBlock', otherwise'⟩

/-- What is done when a condition does not hold is alike. -/
inductive Alternative.Like : Alternative → Alternative → Prop
  | nothing : Alternative.Like .nothing .nothing
  | block {body body' : Block} :
    Block.Like body body' → Alternative.Like (.block body) (.block body')
  | conditional {inner inner' : Conditional} :
    Conditional.Like inner inner' →
      Alternative.Like (.conditional inner) (.conditional inner')

/-- The arms of two selections are alike. -/
inductive Arm.LikeAll : List Arm → List Arm → Prop
  | nil : Arm.LikeAll [] []
  | cons {pattern pattern' : Expr} {body body' : Block} {arms arms' : List Arm} :
    Expr.Like pattern pattern' → Block.Like body body' → Arm.LikeAll arms arms' →
      Arm.LikeAll (⟨pattern, body⟩ :: arms) (⟨pattern', body'⟩ :: arms')

end

/-- What two sections evaluate is alike. -/
inductive SectionBody.Like : SectionBody → SectionBody → Prop
  | block {body body' : Block} :
    Block.Like offsets body body' → SectionBody.Like (.block body) (.block body')
  | expr {body body' : Expr} :
    Expr.Like offsets body body' → SectionBody.Like (.expr body) (.expr body')

/-- Two sections are alike. -/
structure Section.Like (part part' : Section) : Prop where
  offset : offsets part.offset part'.offset
  name : part.name = part'.name
  body : SectionBody.Like offsets part.body part'.body

/-- Two parts of a script are alike. -/
inductive Item.Like : Item → Item → Prop
  | labelled {part part' : Section} :
    Section.Like offsets part part' → Item.Like (.labelled part) (.labelled part')
  | function {f f' : Function} :
    Function.Like offsets f f' → Item.Like (.function f) (.function f')

variable {offsets}

theorem Expr.Like.offset {e e' : Expr} (h : Expr.Like offsets e e') :
    offsets e.offset e'.offset := by
  cases h with
  | function hlikeFunction =>
    cases hlikeFunction with
    | mk ho _ => exact ho
  | _ => assumption

/-! ## A tree is like itself -/

mutual

theorem Expr.like_self (hreflexive : ∀ o, offsets o o) :
    ∀ e : Expr, Expr.Like offsets e e
  | .string o _ => .string (hreflexive o)
  | .number o _ => .number (hreflexive o)
  | .nil o => .nil (hreflexive o)
  | .ident o _ => .ident (hreflexive o)
  | .array o items => .array (hreflexive o) (Expr.likeAll_self hreflexive items)
  | .map o entries => .map (hreflexive o) (Expr.likeEntries_self hreflexive entries)
  | .negate o operand => .negate (hreflexive o) (Expr.like_self hreflexive operand)
  | .binary o _ left right =>
    .binary (hreflexive o) (Expr.like_self hreflexive left) (Expr.like_self hreflexive right)
  | .subscript o container key =>
    .subscript (hreflexive o) (Expr.like_self hreflexive container) (Expr.like_self hreflexive key)
  | .assign o target _ value =>
    .assign (hreflexive o) (hreflexive target) (Expr.like_self hreflexive value)
  | .store o target container key value =>
    .store (hreflexive o) (hreflexive target) (Expr.like_self hreflexive container)
      (Expr.like_self hreflexive key) (Expr.like_self hreflexive value)
  | .call o callee args =>
    .call (hreflexive o) (Expr.like_self hreflexive callee) (Expr.likeAll_self hreflexive args)
  | .function f => .function (Function.like_self hreflexive f)

theorem Expr.likeAll_self (hreflexive : ∀ o, offsets o o) :
    ∀ items : List Expr, Expr.LikeAll offsets items items
  | [] => .nil
  | item :: items => .cons (Expr.like_self hreflexive item) (Expr.likeAll_self hreflexive items)

theorem Expr.likeEntries_self (hreflexive : ∀ o, offsets o o) :
    ∀ entries : List (String × Expr), Expr.LikeEntries offsets entries entries
  | [] => .nil
  | (_, value) :: entries =>
    .cons (Expr.like_self hreflexive value) (Expr.likeEntries_self hreflexive entries)

theorem Function.like_self (hreflexive : ∀ o, offsets o o) :
    ∀ f : Function, Function.Like offsets f f
  | ⟨o, _, _, body⟩ => .mk (hreflexive o) (Block.like_self hreflexive body)

theorem Block.like_self (hreflexive : ∀ o, offsets o o) :
    ∀ body : Block, Block.Like offsets body body
  | ⟨o, statements⟩ => .mk (hreflexive o) (Stmt.likeAll_self hreflexive statements)

theorem Stmt.likeAll_self (hreflexive : ∀ o, offsets o o) :
    ∀ statements : List Stmt, Stmt.LikeAll offsets statements statements
  | [] => .nil
  | first :: more => .cons (Stmt.like_self hreflexive first) (Stmt.likeAll_self hreflexive more)

theorem Stmt.like_self (hreflexive : ∀ o, offsets o o) :
    ∀ statement : Stmt, Stmt.Like offsets statement statement
  | .expr o value => .expr (hreflexive o) (Expr.like_self hreflexive value)
  | .var o _ value => .var (hreflexive o) (Expr.like_self hreflexive value)
  | .block body => .block (Block.like_self hreflexive body)
  | .forever o body => .forever (hreflexive o) (Block.like_self hreflexive body)
  | .forEach o _ _ iterable body =>
    .forEach (hreflexive o) (Expr.like_self hreflexive iterable) (Block.like_self hreflexive body)
  | .conditional inner => .conditional (Conditional.like_self hreflexive inner)
  | .select o subject arms =>
    .select (hreflexive o) (Expr.like_self hreflexive subject) (Arm.likeAll_self hreflexive arms)
  | .returns o none => .returnsNil (hreflexive o)
  | .returns o (some value) => .returns (hreflexive o) (Expr.like_self hreflexive value)
  | .breaks o => .breaks (hreflexive o)
  | .continues o => .continues (hreflexive o)

theorem Conditional.like_self (hreflexive : ∀ o, offsets o o) :
    ∀ inner : Conditional, Conditional.Like offsets inner inner
  | ⟨o, condition, thenBlock, otherwise⟩ =>
    .mk (hreflexive o) (Expr.like_self hreflexive condition) (Block.like_self hreflexive thenBlock)
      (Alternative.like_self hreflexive otherwise)

theorem Alternative.like_self (hreflexive : ∀ o, offsets o o) :
    ∀ otherwise : Alternative, Alternative.Like offsets otherwise otherwise
  | .nothing => .nothing
  | .block body => .block (Block.like_self hreflexive body)
  | .conditional inner => .conditional (Conditional.like_self hreflexive inner)

theorem Arm.likeAll_self (hreflexive : ∀ o, offsets o o) :
    ∀ arms : List Arm, Arm.LikeAll offsets arms arms
  | [] => .nil
  | ⟨pattern, body⟩ :: arms =>
    .cons (Expr.like_self hreflexive pattern) (Block.like_self hreflexive body)
      (Arm.likeAll_self hreflexive arms)

end

theorem Section.like_self (hreflexive : ∀ o, offsets o o) :
    ∀ part : Section, Section.Like offsets part part
  | ⟨o, _, .block body⟩ => ⟨hreflexive o, rfl, .block (Block.like_self hreflexive body)⟩
  | ⟨o, _, .expr body⟩ => ⟨hreflexive o, rfl, .expr (Expr.like_self hreflexive body)⟩

theorem Item.like_self (hreflexive : ∀ o, offsets o o) :
    ∀ item : Item, Item.Like offsets item item
  | .labelled part => .labelled (Section.like_self hreflexive part)
  | .function f => .function (Function.like_self hreflexive f)

/-! ## Trees that are alike have the same erasure -/

mutual

theorem Expr.Like.erase : ∀ {e e' : Expr}, Expr.Like offsets e e' → Erase.expr e = Erase.expr e'
  | _, _, .string _ | _, _, .number _ | _, _, .nil _ | _, _, .ident _ => rfl
  | _, _, .array _ hitems => by rw [Erase.expr, Erase.expr, hitems.erase]
  | _, _, .map _ hentries => by rw [Erase.expr, Erase.expr, hentries.erase]
  | _, _, .negate _ hoperand => by rw [Erase.expr, Erase.expr, hoperand.erase]
  | _, _, .binary _ hleft hright => by rw [Erase.expr, Erase.expr, hleft.erase, hright.erase]
  | _, _, .subscript _ hcontainer hkey => by
    rw [Erase.expr, Erase.expr, hcontainer.erase, hkey.erase]
  | _, _, .assign _ _ hvalue => by rw [Erase.expr, Erase.expr, hvalue.erase]
  | _, _, .store _ _ hcontainer hkey hvalue => by
    rw [Erase.expr, Erase.expr, hcontainer.erase, hkey.erase, hvalue.erase]
  | _, _, .call _ hcallee hargs => by rw [Erase.expr, Erase.expr, hcallee.erase, hargs.erase]
  | _, _, .function hf => by rw [Erase.expr, Erase.expr, hf.erase]

theorem Expr.LikeAll.erase : ∀ {items items' : List Expr},
    Expr.LikeAll offsets items items' → Erase.exprs items = Erase.exprs items'
  | _, _, .nil => rfl
  | _, _, .cons hitem hitems => by rw [Erase.exprs, Erase.exprs, hitem.erase, hitems.erase]

theorem Expr.LikeEntries.erase : ∀ {entries entries' : List (String × Expr)},
    Expr.LikeEntries offsets entries entries' → Erase.entries entries = Erase.entries entries'
  | _, _, .nil => rfl
  | _, _, .cons hvalue hentries => by
    rw [Erase.entries, Erase.entries, hvalue.erase, hentries.erase]

theorem Function.Like.erase : ∀ {f f' : Function},
    Function.Like offsets f f' → Erase.function f = Erase.function f'
  | _, _, .mk _ hbody => by rw [Erase.function, Erase.function, hbody.erase]

theorem Block.Like.erase : ∀ {body body' : Block},
    Block.Like offsets body body' → Erase.block body = Erase.block body'
  | _, _, .mk _ hstatements => by rw [Erase.block, Erase.block, hstatements.erase]

theorem Stmt.LikeAll.erase : ∀ {statements statements' : List Stmt},
    Stmt.LikeAll offsets statements statements' →
      Erase.statements statements = Erase.statements statements'
  | _, _, .nil => rfl
  | _, _, .cons hfirst hmore => by
    rw [Erase.statements, Erase.statements, hfirst.erase, hmore.erase]

theorem Stmt.Like.erase : ∀ {statement statement' : Stmt},
    Stmt.Like offsets statement statement' → Erase.statement statement = Erase.statement statement'
  | _, _, .expr _ hvalue => by rw [Erase.statement, Erase.statement, hvalue.erase]
  | _, _, .var _ hvalue => by rw [Erase.statement, Erase.statement, hvalue.erase]
  | _, _, .block hbody => by rw [Erase.statement, Erase.statement, hbody.erase]
  | _, _, .forever _ hbody => by rw [Erase.statement, Erase.statement, hbody.erase]
  | _, _, .forEach _ hiterable hbody => by
    rw [Erase.statement, Erase.statement, hiterable.erase, hbody.erase]
  | _, _, .conditional hinner => by rw [Erase.statement, Erase.statement, hinner.erase]
  | _, _, .select _ hsubject harms => by
    rw [Erase.statement, Erase.statement, hsubject.erase, harms.erase]
  | _, _, .returns _ hvalue => by rw [Erase.statement, Erase.statement, hvalue.erase]
  | _, _, .returnsNil _ | _, _, .breaks _ | _, _, .continues _ => rfl

theorem Conditional.Like.erase : ∀ {inner inner' : Conditional},
    Conditional.Like offsets inner inner' → Erase.conditional inner = Erase.conditional inner'
  | _, _, .mk _ hcondition hthenBlock hotherwise => by
    rw [Erase.conditional, Erase.conditional, hcondition.erase, hthenBlock.erase, hotherwise.erase]

theorem Alternative.Like.erase : ∀ {otherwise otherwise' : Alternative},
    Alternative.Like offsets otherwise otherwise' →
      Erase.alternative otherwise = Erase.alternative otherwise'
  | _, _, .nothing => rfl
  | _, _, .block hbody => by rw [Erase.alternative, Erase.alternative, hbody.erase]
  | _, _, .conditional hinner => by rw [Erase.alternative, Erase.alternative, hinner.erase]

theorem Arm.LikeAll.erase : ∀ {arms arms' : List Arm},
    Arm.LikeAll offsets arms arms' → Erase.arms arms = Erase.arms arms'
  | _, _, .nil => rfl
  | _, _, .cons hpattern hbody harms => by
    rw [Erase.arms, Erase.arms, hpattern.erase, hbody.erase, harms.erase]

end

/-! ## Trees that are alike with equal offsets are equal -/

mutual

theorem Expr.Like.eq : ∀ {e e' : Expr}, Expr.Like Eq e e' → e = e'
  | _, _, .string rfl | _, _, .number rfl | _, _, .nil rfl | _, _, .ident rfl => rfl
  | _, _, .array rfl hitems => by rw [hitems.eq]
  | _, _, .map rfl hentries => by rw [hentries.eq]
  | _, _, .negate rfl hoperand => by rw [hoperand.eq]
  | _, _, .binary rfl hleft hright => by rw [hleft.eq, hright.eq]
  | _, _, .subscript rfl hcontainer hkey => by rw [hcontainer.eq, hkey.eq]
  | _, _, .assign rfl rfl hvalue => by rw [hvalue.eq]
  | _, _, .store rfl rfl hcontainer hkey hvalue => by rw [hcontainer.eq, hkey.eq, hvalue.eq]
  | _, _, .call rfl hcallee hargs => by rw [hcallee.eq, hargs.eq]
  | _, _, .function hf => by rw [hf.eq]

theorem Expr.LikeAll.eq : ∀ {items items' : List Expr},
    Expr.LikeAll Eq items items' → items = items'
  | _, _, .nil => rfl
  | _, _, .cons hitem hitems => by rw [hitem.eq, hitems.eq]

theorem Expr.LikeEntries.eq : ∀ {entries entries' : List (String × Expr)},
    Expr.LikeEntries Eq entries entries' → entries = entries'
  | _, _, .nil => rfl
  | _, _, .cons hvalue hentries => by rw [hvalue.eq, hentries.eq]

theorem Function.Like.eq : ∀ {f f' : Function}, Function.Like Eq f f' → f = f'
  | _, _, .mk rfl hbody => by rw [hbody.eq]

theorem Block.Like.eq : ∀ {body body' : Block}, Block.Like Eq body body' → body = body'
  | _, _, .mk rfl hstatements => by rw [hstatements.eq]

theorem Stmt.LikeAll.eq : ∀ {statements statements' : List Stmt},
    Stmt.LikeAll Eq statements statements' → statements = statements'
  | _, _, .nil => rfl
  | _, _, .cons hfirst hmore => by rw [hfirst.eq, hmore.eq]

theorem Stmt.Like.eq : ∀ {statement statement' : Stmt},
    Stmt.Like Eq statement statement' → statement = statement'
  | _, _, .expr rfl hvalue | _, _, .var rfl hvalue | _, _, .returns rfl hvalue => by rw [hvalue.eq]
  | _, _, .block hbody | _, _, .forever rfl hbody => by rw [hbody.eq]
  | _, _, .forEach rfl hiterable hbody => by rw [hiterable.eq, hbody.eq]
  | _, _, .conditional hinner => by rw [hinner.eq]
  | _, _, .select rfl hsubject harms => by rw [hsubject.eq, harms.eq]
  | _, _, .returnsNil rfl | _, _, .breaks rfl | _, _, .continues rfl => rfl

theorem Conditional.Like.eq : ∀ {inner inner' : Conditional},
    Conditional.Like Eq inner inner' → inner = inner'
  | _, _, .mk rfl hcondition hthenBlock hotherwise => by
    rw [hcondition.eq, hthenBlock.eq, hotherwise.eq]

theorem Alternative.Like.eq : ∀ {otherwise otherwise' : Alternative},
    Alternative.Like Eq otherwise otherwise' → otherwise = otherwise'
  | _, _, .nothing => rfl
  | _, _, .block hbody => by rw [hbody.eq]
  | _, _, .conditional hinner => by rw [hinner.eq]

theorem Arm.LikeAll.eq : ∀ {arms arms' : List Arm}, Arm.LikeAll Eq arms arms' → arms = arms'
  | _, _, .nil => rfl
  | _, _, .cons hpattern hbody harms => by rw [hpattern.eq, hbody.eq, harms.eq]

end

end PuzzleLang
