import PuzzleLang.Tree.Parse

/-!
# Reading on demand

A script need not be cut into tokens beforehand.  A reader can have one token in view and cut off
the next one only when it passes that token; at the end of the script it then sees the `eof` token
as often as it looks.

Nothing here says that reading ends: the readers call each other without any measure, and loops go
on as long as they are not left.  Only the depth of nested calls is bounded, where the next round of
a loop counts as a call in the round before.  A reader that would go deeper is unfinished, so a
reader that never ends is unfinished at all depths.

Each loop is given by its round.  A round either leaves the loop or comes back with what it has
read, and then the loop goes on with the next round.
-/

namespace PuzzleLang

/-- The token in view and the place after it. -/
structure View where
  token : Token
  after : Cursor

/-- A reading on demand, which goes from one view to another, fails or is unfinished. -/
abbrev Reader :=
  StateT View (ExceptT Fault Option)

/-- What a reader gives at a view: nothing if it is unfinished. -/
def Reader.resultAt {α : Type} (reader : Reader α) (view : View) :
    Option (Except Fault (α × View)) :=
  (reader.run view).run

/-- The lists with commas between their items. -/
inductive Listed
  | exprs (closing : TokenKind) (noEof : closing ≠ .eof)
  | entries
  | params

namespace Listed

/-- The items of a list. -/
abbrev Item : Listed → Type
  | exprs _ _ => Expr
  | entries => String × Expr
  | params => String

/-- The token after a list. -/
def closing : Listed → TokenKind
  | exprs closing _ => closing
  | entries => .rightBrace
  | params => .rightParen

theorem eof_notMem_closing (listed : Listed) : .eof ∉ [listed.closing] := by
  cases listed with
  | exprs closing hnoEof => exact fun hmem => hnoEof (List.mem_singleton.mp hmem).symm
  | entries => decide
  | params => decide

end Listed

namespace OnDemand

/-- A reading that would go deeper. -/
def unfinished {α : Type} : Reader α :=
  fun _ => ExceptT.mk none

/-- The token in view. -/
def inView : Reader Token := do
  return (← get).token

/-- Passes the token in view. -/
def advance : Reader Unit := do
  match nextToken (← get).after with
  | (.ok token, after) => set (View.mk token after)
  | (.error fault, _) => throw fault

/-- Fails at a token. -/
def failAt {α : Type} (cause : Cause) (token : Token) : Reader α :=
  throw ⟨cause, some token.offset⟩

/-- Passes a token of one of the allowed kinds. -/
def consume (allowed : List TokenKind) : Reader Token := do
  let token ← inView
  if token.kind ∈ allowed then
    advance
    return token
  else failAt (.expectedToken allowed token.kind) token

/-- Reads a parameter of a function. -/
def param : Reader String := do
  return (← consume [.identifier]).text

/-- Reads the name of a function, if it has one. -/
def name? : Reader (Option String) := do
  if (← inView).kind = .identifier then
    return some (← consume [.identifier]).text
  else return none

/-- Reads the name for the index of a loop, if there is one, and the word that ends the names. -/
def loopIndex : Reader (Option String) := do
  if (← inView).kind = .comma then
    let _ ← consume [.comma]
    let index ← consume [.identifier]
    let _ ← consume [.inWord]
    return some index.text
  else
    let _ ← consume [.inWord]
    return none

section

variable (expr : (least : Nat) → Reader Expr) (list : (listed : Listed) → Reader (List listed.Item))
  (block : Reader Block)

/-- Reads an operator of at least the given strength with its right operand. -/
def operatorRound (least : Nat) (left : Expr) : Reader (Option Expr) := do
  let sign ← inView
  if sign.kind = .assign then
    if 1 < least then return none
    else
      advance
      match left.target? with
      | none => failAt .invalidTarget sign
      | some target => return some (target.assign sign.offset (← expr 1))
  else
    match Operator.ofKind? sign.kind with
    | none => return none
    | some op =>
      if op.strength < least then return none
      else
        advance
        return some (.binary sign.offset op left (← expr (op.strength + 1)))

/-- Reads a call or a subscript. -/
def chainRound (start : Nat) (head : Expr) : Reader (Option Expr) := do
  if (← inView).kind = .leftParen then
    let _ ← consume [.leftParen]
    return some (.call start head (← list (.exprs .rightParen (by decide))))
  else if (← inView).kind = .leftBracket then
    let sign ← consume [.leftBracket]
    let key ← expr 1
    let _ ← consume [.rightBracket]
    return some (.subscript sign.offset head key)
  else return none

/-- Reads an entry of a map. -/
def entry : Reader (String × Expr) := do
  let key ← consume [.identifier, .number]
  let _ ← consume [.colon]
  return (key.text, ← expr 1)

/-- Reads an item of a list. -/
def listItem : (listed : Listed) → Reader listed.Item
  | .exprs _ _ => expr 1
  | .entries => entry expr
  | .params => param

/-- Reads an item of a list and the comma after it, if there is one. -/
def listRound (listed : Listed) : Reader (Option (listed.Item × Bool)) := do
  if (← inView).kind = listed.closing then return none
  else
    let item ← listItem expr listed
    if (← inView).kind = .comma then
      let _ ← consume [.comma]
      return some (item, true)
    else return some (item, false)

/-- Reads an arm of a selection. -/
def armRound : Reader (Option Arm) := do
  if (← inView).kind = .rightBrace then return none
  else
    let pattern ← expr 1
    let _ ← consume [.colon]
    return some ⟨pattern, ← block⟩

end

/-- Reads a statement of a block. -/
def statementRound (statement : Reader Stmt) : Reader (Option Stmt) := do
  let first ← inView
  if first.kind = .rightBrace then return none
  else if first.kind = .eof then failAt (.expectedToken [.rightBrace] .eof) first
  else return some (← statement)

mutual

/-- Reads an expression whose operators all have at least the given strength. -/
def expr : (depth least : Nat) → Reader Expr
  | 0, _ => unfinished
  | depth + 1, least => do
    climb depth least (← unary depth)

/-- Reads operators with their right operands after `left`. -/
def climb : (depth least : Nat) → (left : Expr) → Reader Expr
  | 0, _, _ => unfinished
  | depth + 1, least, left => do
    match ← operatorRound (expr depth) least left with
    | none => return left
    | some left => climb depth least left

/-- Reads an operand with the minus signs in front of it. -/
def unary : (depth : Nat) → Reader Expr
  | 0 => unfinished
  | depth + 1 => do
    if (← inView).kind = .minus then
      let sign ← consume [.minus]
      return .negate sign.offset (← unary depth)
    else postfixed depth

/-- Reads a primary expression with the calls and subscripts after it. -/
def postfixed : (depth : Nat) → Reader Expr
  | 0 => unfinished
  | depth + 1 => do
    let start ← inView
    extend depth start.offset (← primary depth)

/-- Reads calls and subscripts after `head`. -/
def extend : (depth start : Nat) → (head : Expr) → Reader Expr
  | 0, _, _ => unfinished
  | depth + 1, start, head => do
    match ← chainRound (expr depth) (list depth) start head with
    | none => return head
    | some head => extend depth start head

/-- Reads a literal, a name, a function or an expression in parentheses. -/
def primary : (depth : Nat) → Reader Expr
  | 0 => unfinished
  | depth + 1 => do
    let first ← inView
    match first.kind with
    | .string =>
      advance
      return .string first.offset first.text
    | .number =>
      advance
      return .number first.offset (digitsValue first.text.toList)
    | .nilWord =>
      advance
      return .nil first.offset
    | .identifier =>
      advance
      return .ident first.offset first.text
    | .leftBracket =>
      advance
      return .array first.offset (← list depth (.exprs .rightBracket (by decide)))
    | .leftBrace =>
      advance
      return .map first.offset (← list depth .entries)
    | .leftParen =>
      advance
      let inner ← expr depth 1
      let _ ← consume [.rightParen]
      return inner
    | .fnWord => return .function (← function depth)
    | kind => failAt (.expectedValue kind) first

/-- Reads the items of a list up to the closing token.  A comma may stand before the closing
token. -/
def list : (depth : Nat) → (listed : Listed) → Reader (List listed.Item)
  | 0, _ => unfinished
  | depth + 1, listed => do
    match ← listRound (expr depth) listed with
    | none =>
      let _ ← consume [listed.closing]
      return []
    | some (item, true) => return item :: (← list depth listed)
    | some (item, false) =>
      let _ ← consume [listed.closing]
      return [item]

/-- Reads a function literal. -/
def function : (depth : Nat) → Reader Function
  | 0 => unfinished
  | depth + 1 => do
    let opening ← consume [.fnWord]
    let name ← name?
    let _ ← consume [.leftParen]
    let params ← list depth .params
    let body ← block depth
    return ⟨opening.offset, name, params, body⟩

/-- Reads statements in braces. -/
def block : (depth : Nat) → Reader Block
  | 0 => unfinished
  | depth + 1 => do
    let opening ← consume [.leftBrace]
    return ⟨opening.offset, ← statements depth⟩

/-- Reads statements up to the closing brace. -/
def statements : (depth : Nat) → Reader (List Stmt)
  | 0 => unfinished
  | depth + 1 => do
    match ← statementRound (statement depth) with
    | none =>
      let _ ← consume [.rightBrace]
      return []
    | some first => return first :: (← statements depth)

/-- Reads one statement. -/
def statement : (depth : Nat) → Reader Stmt
  | 0 => unfinished
  | depth + 1 => do
    let first ← inView
    match first.kind with
    | .varWord =>
      let _ ← consume [.varWord]
      let name ← consume [.identifier]
      let _ ← consume [.assign]
      return .var name.offset name.text (← expr depth 1)
    | .forWord =>
      let opening ← consume [.forWord]
      if (← inView).kind = .leftBrace then
        return .forever opening.offset (← block depth)
      else
        let item ← consume [.identifier]
        let index ← loopIndex
        let iterable ← expr depth 1
        return .forEach opening.offset item.text index iterable (← block depth)
    | .ifWord => return .conditional (← conditional depth)
    | .returnWord =>
      let opening ← consume [.returnWord]
      if (← inView).kind = .rightBrace then return .returns opening.offset none
      else return .returns opening.offset (some (← expr depth 1))
    | .continueWord => return .continues (← consume [.continueWord]).offset
    | .breakWord => return .breaks (← consume [.breakWord]).offset
    | .matchWord =>
      let opening ← consume [.matchWord]
      let subject ← expr depth 1
      let _ ← consume [.leftBrace]
      return .select opening.offset subject (← arms depth)
    | .leftBrace => return .block (← block depth)
    | _ => return .expr first.offset (← expr depth 1)

/-- Reads a condition with its blocks. -/
def conditional : (depth : Nat) → Reader Conditional
  | 0 => unfinished
  | depth + 1 => do
    let opening ← consume [.ifWord]
    let condition ← expr depth 1
    let thenBlock ← block depth
    if (← inView).kind = .elseWord then
      let _ ← consume [.elseWord]
      if (← inView).kind = .ifWord then
        return ⟨opening.offset, condition, thenBlock, .conditional (← conditional depth)⟩
      else return ⟨opening.offset, condition, thenBlock, .block (← block depth)⟩
    else return ⟨opening.offset, condition, thenBlock, .nothing⟩

/-- Reads the arms of a selection up to the closing brace. -/
def arms : (depth : Nat) → Reader (List Arm)
  | 0 => unfinished
  | depth + 1 => do
    match ← armRound (expr depth) (block depth) with
    | none =>
      let _ ← consume [.rightBrace]
      return []
    | some first => return first :: (← arms depth)

end

/-- Reads a section. -/
def labelled (depth : Nat) : Reader Section := do
  let label ← consume [.identifier]
  let _ ← consume [.colon]
  if (← inView).kind = .leftBrace then
    return ⟨label.offset, label.text, .block (← block depth)⟩
  else return ⟨label.offset, label.text, .expr (← expr depth 1)⟩

/-- Reads a part of a script. -/
def itemRound (depth : Nat) : Reader (Option Item) := do
  let first ← inView
  match first.kind with
  | .eof => return none
  | .identifier => return some (.labelled (← labelled depth))
  | .fnWord => return some (.function (← function depth))
  | kind => failAt (.expectedToken [.identifier, .fnWord] kind) first

/-- Reads the parts of a script. -/
def items : (depth : Nat) → Reader (List Item)
  | 0 => unfinished
  | depth + 1 => do
    match ← itemRound depth with
    | none => return []
    | some first => return first :: (← items depth)

/-- Reads a script from its start, where no token is in view yet. -/
def program (depth : Nat) (source : List Char) : Option (Except Fault Program) :=
  let reader : Reader Program := do
    advance
    return ⟨← items depth, source⟩
  (reader.resultAt ⟨⟨.eof, "", 0⟩, .start source⟩).map (Except.map Prod.fst)

theorem name?_bind {α : Type} (more : Option String → Reader α) :
    name? >>= more = (do
      if (← inView).kind = .identifier then
        let name ← consume [.identifier]
        more (some name.text)
      else more none) := by
  rw [name?, bind_assoc]
  congr 1
  funext first
  split
  · rw [bind_assoc]
    simp only [pure_bind]
  · rw [pure_bind]

/-! ## Loops, one round at a time -/

theorem climb_eq (depth least : Nat) (left : Expr) :
    climb (depth + 1) least left = (do
      let sign ← inView
      if sign.kind = .assign then
        if 1 < least then return left
        else
          advance
          match left.target? with
          | none => failAt .invalidTarget sign
          | some target => climb depth least (target.assign sign.offset (← expr depth 1))
      else
        match Operator.ofKind? sign.kind with
        | none => return left
        | some op =>
          if op.strength < least then return left
          else
            advance
            climb depth least
              (.binary sign.offset op left (← expr depth (op.strength + 1)))) := by
  rw [climb, operatorRound, bind_assoc]
  congr 1
  funext sign
  split
  · split
    · rw [pure_bind]
    · rw [bind_assoc]
      congr 1
      funext _
      cases left.target? with
      | none => rfl
      | some target => rw [bind_assoc]; simp only [pure_bind]
  · cases Operator.ofKind? sign.kind with
    | none => rfl
    | some op =>
      dsimp only
      split
      · rw [pure_bind]
      · rw [bind_assoc]; simp only [bind_assoc, pure_bind]

theorem extend_eq (depth start : Nat) (head : Expr) :
    extend (depth + 1) start head = (do
      if (← inView).kind = .leftParen then
        let _ ← consume [.leftParen]
        extend depth start (.call start head (← list depth (.exprs .rightParen (by decide))))
      else if (← inView).kind = .leftBracket then
        let sign ← consume [.leftBracket]
        let key ← expr depth 1
        let _ ← consume [.rightBracket]
        extend depth start (.subscript sign.offset head key)
      else return head) := by
  rw [extend, chainRound, bind_assoc]
  congr 1
  funext first
  split
  · simp only [bind_assoc, pure_bind]
  · rw [bind_assoc]
    congr 1
    funext first
    split
    · simp only [bind_assoc, pure_bind]
    · rw [pure_bind]

theorem list_eq (depth : Nat) (listed : Listed) :
    list (depth + 1) listed = (do
      if (← inView).kind = listed.closing then
        let _ ← consume [listed.closing]
        return []
      else
        let item ← listItem (expr depth) listed
        if (← inView).kind = .comma then
          let _ ← consume [.comma]
          return item :: (← list depth listed)
        else
          let _ ← consume [listed.closing]
          return [item]) := by
  rw [list, listRound, bind_assoc]
  congr 1
  funext first
  split
  · rw [pure_bind]
  · simp only [bind_assoc]
    congr 1
    funext item
    congr 1
    funext next
    split
    · simp only [bind_assoc, pure_bind]
    · rw [pure_bind]

theorem statements_eq (depth : Nat) :
    statements (depth + 1) = (do
      let first ← inView
      if first.kind = .rightBrace then
        let _ ← consume [.rightBrace]
        return []
      else if first.kind = .eof then failAt (.expectedToken [.rightBrace] .eof) first
      else
        let first ← statement depth
        return first :: (← statements depth)) := by
  rw [statements, statementRound, bind_assoc]
  congr 1
  funext first
  split
  · rw [pure_bind]
  · split
    · rfl
    · simp only [bind_assoc, pure_bind]

theorem arms_eq (depth : Nat) :
    arms (depth + 1) = (do
      if (← inView).kind = .rightBrace then
        let _ ← consume [.rightBrace]
        return []
      else
        let pattern ← expr depth 1
        let _ ← consume [.colon]
        let body ← block depth
        return ⟨pattern, body⟩ :: (← arms depth)) := by
  rw [arms, armRound, bind_assoc]
  congr 1
  funext first
  split
  · rw [pure_bind]
  · simp only [bind_assoc, pure_bind]

theorem items_eq (depth : Nat) :
    items (depth + 1) = (do
      let first ← inView
      match first.kind with
      | .eof => return []
      | .identifier =>
        let part ← labelled depth
        return .labelled part :: (← items depth)
      | .fnWord =>
        let f ← function depth
        return .function f :: (← items depth)
      | kind => failAt (.expectedToken [.identifier, .fnWord] kind) first) := by
  rw [items, itemRound, bind_assoc]
  congr 1
  funext first
  cases first.kind with
  | identifier => simp only [bind_assoc, pure_bind]
  | fnWord => simp only [bind_assoc, pure_bind]
  | _ => rfl

end OnDemand

end PuzzleLang
