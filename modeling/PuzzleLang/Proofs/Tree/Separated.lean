import PuzzleLang.Proofs.Grammar.Shape
import PuzzleLang.Proofs.Tree.Print

/-!
# Trees whose statements stay apart

Statements are printed one after another without a separator.  They can be told apart again if a
return without a value is the last statement of its block, and if no statement that ends in an
expression is followed by a terminal with which the expression would go on.

Every tree of the grammar has this property.  Printing may drop parentheses at the start of a
statement, but after a statement that ends in an expression there are none to drop: an opening
parenthesis there would have been read as a call.
-/

namespace PuzzleLang

open Parse

/-- Whether a statement is a return without a value. -/
def Stmt.isBareReturn : Stmt → Bool
  | .returns _ none => true
  | _ => false

namespace Separated

mutual

/-- The statements in the functions of an expression stay apart. -/
def expr : Expr → Prop
  | .string _ _ | .number _ _ | .nil _ | .ident _ _ => True
  | .array _ items => exprs items
  | .map _ parts => entries parts
  | .negate _ operand => expr operand
  | .binary _ _ left right => expr left ∧ expr right
  | .subscript _ container index => expr container ∧ expr index
  | .assign _ _ _ value => expr value
  | .store _ _ container index value => expr container ∧ expr index ∧ expr value
  | .call _ callee args => expr callee ∧ exprs args
  | .function f => function f

/-- The statements in the functions of some expressions stay apart. -/
def exprs : List Expr → Prop
  | [] => True
  | item :: items => expr item ∧ exprs items

/-- The statements in the functions of the entries of a map stay apart. -/
def entries : List (String × Expr) → Prop
  | [] => True
  | (_, value) :: more => expr value ∧ entries more

/-- The statements of a function stay apart. -/
def function : Function → Prop
  | ⟨_, _, _, body⟩ => block body

/-- The statements of a block stay apart. -/
def block : Block → Prop
  | ⟨_, body⟩ => statements body

/-- The statements stay apart, and so do the statements in each of them. -/
def statements : List Stmt → Prop
  | [] => True
  | first :: more =>
    statement first ∧ (first.isBareReturn → more = []) ∧
      (first.isOpen → ¬(firstKind (Print.statements more)).continues 1) ∧ statements more

/-- The statements in a statement stay apart. -/
def statement : Stmt → Prop
  | .expr _ value | .var _ _ value | .returns _ (some value) => expr value
  | .block inner => block inner
  | .forever _ body => block body
  | .forEach _ _ _ iterable body => expr iterable ∧ block body
  | .conditional inner => conditional inner
  | .select _ subject cases => expr subject ∧ arms cases
  | .returns _ none | .breaks _ | .continues _ => True

/-- The statements in the blocks of a condition stay apart. -/
def conditional : Conditional → Prop
  | ⟨_, condition, thenBlock, otherwise⟩ =>
    expr condition ∧ block thenBlock ∧ alternative otherwise

/-- The statements for when a condition does not hold stay apart. -/
def alternative : Alternative → Prop
  | .nothing => True
  | .block inner => block inner
  | .conditional inner => conditional inner

/-- The statements in the arms of a selection stay apart. -/
def arms : List Arm → Prop
  | [] => True
  | ⟨pattern, body⟩ :: more => expr pattern ∧ block body ∧ arms more

end

/-- The statements in a section stay apart. -/
def labelled : Section → Prop
  | ⟨_, _, .block body⟩ => block body
  | ⟨_, _, .expr body⟩ => expr body

/-- The statements in the parts of a script stay apart. -/
def items : List Item → Prop
  | [] => True
  | .labelled part :: more => labelled part ∧ items more
  | .function f :: more => function f ∧ items more

end Separated

namespace Phrase

/-- The print of a phrase. -/
def print : Phrase → List Terminal
  | .expr tier e => Print.fit tier e (Print.expr e)
  | .exprs es => Print.exprs es
  | .entries es => Print.entries es
  | .params names => Print.params names
  | .function f => Print.function f
  | .block b => Print.block b
  | .statements ss => Print.statements ss
  | .statement s => Print.statement s
  | .conditional c => Print.conditional c
  | .arms as => Print.arms as
  | .labelled part => Print.labelled part
  | .items parts => Print.items parts

/-- The statements in a phrase stay apart. -/
def Separated : Phrase → Prop
  | .expr _ e => PuzzleLang.Separated.expr e
  | .exprs es => PuzzleLang.Separated.exprs es
  | .entries es => PuzzleLang.Separated.entries es
  | .params _ => True
  | .function f => PuzzleLang.Separated.function f
  | .block b => PuzzleLang.Separated.block b
  | .statements ss => PuzzleLang.Separated.statements ss
  | .statement s => PuzzleLang.Separated.statement s
  | .conditional c => PuzzleLang.Separated.conditional c
  | .arms as => PuzzleLang.Separated.arms as
  | .labelled part => PuzzleLang.Separated.labelled part
  | .items parts => PuzzleLang.Separated.items parts

end Phrase

/-! ## The first terminal of a print -/

theorem firstKind_append
    {printed : List Terminal} (h : firstKind printed ≠ .eof) (more : List Terminal) :
    firstKind (printed ++ more) = firstKind printed := by
  cases printed with
  | nil => exact (h rfl).elim
  | cons t printed => rfl

theorem Expr.one_le_tier (e : Expr) : 1 ≤ e.tier := by
  cases e with
  | binary offset op left right => exact Nat.le_trans (by decide) op.two_le_tier
  | _ => simp [Expr.tier]

namespace Print

theorem fit_of_le {tier : Nat} {e : Expr} (hle : tier ≤ e.tier) (printed : List Terminal) :
    fit tier e printed = printed :=
  if_neg (by omega)

theorem fit_one (e : Expr) (printed : List Terminal) : fit 1 e printed = printed :=
  fit_of_le e.one_le_tier printed

/-- A print in parentheses starts with one. -/
theorem le_tier_of_firstKind_fit
    {tier : Nat} {e : Expr} {printed : List Terminal}
    (h : firstKind (fit tier e printed) ≠ .leftParen) :
    tier ≤ e.tier := by
  by_cases hbelow : e.tier < tier
  · rw [fit, if_pos hbelow] at h
    exact (h rfl).elim
  · omega

end Print

/-- A phrase that does not start with a parenthesis is printed with the same kind first.  Nothing is
said of lists with commas. -/
def Phrase.KeepsStart : Phrase → List Token → Prop
  | .exprs _, _ | .entries _, _ | .params _, _ | .arms _, _ | .items _, _ => True
  | phrase, ts => viewKind ts ≠ .leftParen → firstKind phrase.print = viewKind ts

theorem Derives.keepsStart {phrase : Phrase} {ts : List Token} (h : Derives phrase ts) :
    phrase.KeepsStart ts := by
  -- The first terminal of an operation is the first terminal of its left operand.
  have happend {tier : Nat} {e : Expr} {ts ts' : List Token} (printed : List Terminal)
      (hderives : Derives (.expr tier e) ts) (hkeeps : (Phrase.expr tier e).KeepsStart ts)
      (hnoParen : viewKind (ts ++ ts') ≠ .leftParen) :
      firstKind (Print.fit tier e (Print.expr e) ++ printed) = viewKind (ts ++ ts') := by
    rw [hderives.viewKind_append] at hnoParen ⊢
    have hsame : firstKind (Print.fit tier e (Print.expr e)) = viewKind ts := hkeeps hnoParen
    rw [firstKind_append, hsame]
    rw [hsame]
    exact TokenKind.ne_eof_of_startsExpr hderives.startsExpr
  induction h with
  | @assign _ _ _ _ value _ hderives _ _ hkeeps | @store _ _ _ _ _ value _ hderives _ _ hkeeps =>
    intro hnoParen
    rw [Phrase.print, Print.fit_one]
    exact happend (.ofKind .assign :: Print.expr value) hderives hkeeps hnoParen
  | binary hderives _ _ hkeeps =>
    intro hnoParen
    simp only [Phrase.print, Print.fit, Expr.tier, Nat.lt_irrefl, if_false, Print.expr]
    exact happend _ hderives hkeeps hnoParen
  | looser _ _ hkeeps =>
    intro hnoParen
    have hfirst := hkeeps hnoParen
    have hle := Print.le_tier_of_firstKind_fit (by rwa [← hfirst] at hnoParen)
    rw [Phrase.print, Print.fit_of_le hle] at hfirst
    rwa [Phrase.print, Print.fit_of_le (Nat.le_of_succ_le hle)]
  | call hderives _ _ _ hkeeps | subscript hderives _ _ _ hkeeps =>
    intro hnoParen
    rw [List.append_assoc] at hnoParen ⊢
    simp only [Phrase.print, Print.expr, List.append_assoc]
    exact happend _ hderives hkeeps hnoParen
  | parenthesized hopening => exact fun hnoParen => (hnoParen hopening).elim
  | negate hkind | string hkind | number hkind | nil hkind | ident hkind | array hkind
  | map hkind | named hkind | unnamed hkind | block hkind | bareReturn hkind
  | declaration hkind | forever hkind | forEach hkind | forEachIndexed hkind | returns hkind
  | continues hkind | breaks hkind | select hkind | onlyIf hkind | ifElse hkind
  | ifElseIf hkind | blockSection hkind | exprSection hkind =>
    exact fun _ => hkind.symm
  | noStatements => exact fun _ => rfl
  | consStatement hderives _ _ hkeeps =>
    intro hnoParen
    have hstart := TokenKind.ne_eof_of_startsStatement hderives.startsWith
    rw [Parse.viewKind_append hstart] at hnoParen ⊢
    have hsame : firstKind (Print.statement _) = _ := hkeeps hnoParen
    rw [Phrase.print, Print.statements, firstKind_append (by rwa [hsame]), hsame]
  | functionExpr _ hkeeps | conditionalStatement _ hkeeps | blockStatement _ hkeeps => exact hkeeps
  | exprStatement _ hnoBrace hkeeps =>
    intro hnoParen
    have hsame := hkeeps hnoParen
    rw [Phrase.print, Print.fit_one] at hsame
    rwa [Phrase.print, Print.statement, Print.leading, if_neg (by rwa [hsame])]
  | _ => trivial

/-! ## Separation of derived trees -/

theorem Derives.isBareReturn {s : Stmt} {ts : List Token} (h : Derives (.statement s) ts) :
    s.isBareReturn = false := by
  cases h <;> rfl

/-- The statements of a derived tree stay apart when they are printed. -/
theorem Derives.separated {phrase : Phrase} {ts : List Token} (h : Derives phrase ts) :
    phrase.Separated := by
  induction h with
  | assign _ _ _ _ hvalue => exact hvalue
  | store _ _ _ htarget hvalue => exact ⟨htarget.1, htarget.2, hvalue⟩
  | @consStatement first more ts ts' hderives hderivesMore hapart hseparated hseparatedMore =>
    refine ⟨hseparated, by simp [hderives.isBareReturn], ?_, hseparatedMore⟩
    intro hopen
    -- A parenthesis would go on with the statement before, so that none has been dropped.
    have hnoParen : viewKind ts' ≠ .leftParen := by
      intro hparen
      have hstops := hapart hopen
      rw [hparen] at hstops
      exact hstops rfl
    have hsame : firstKind (Print.statements more) = viewKind ts' :=
      hderivesMore.keepsStart hnoParen
    rw [hsame]
    exact hapart hopen
  | bareReturn => exact ⟨trivial, fun _ => rfl, by simp [Stmt.isOpen], trivial⟩
  | binary _ _ _ hleft hright | call _ _ _ _ hleft hright | subscript _ _ _ _ hleft hright
  | consExpr _ _ _ hleft hright | consEntry _ _ _ _ _ hleft hright | forEach _ _ _ _ _ hleft hright
  | forEachIndexed _ _ _ _ _ _ _ hleft hright | select _ _ _ _ _ hleft hright
  | consSection _ _ hleft hright | consFunction _ _ hleft hright => exact ⟨hleft, hright⟩
  | lastExpr _ hseparated | lastEntry _ _ _ hseparated => exact ⟨hseparated, trivial⟩
  | onlyIf _ _ _ hcondition hbody => exact ⟨hcondition, hbody, trivial⟩
  | ifElse _ _ _ _ _ hcondition hbody hother | ifElseIf _ _ _ _ _ hcondition hbody hother =>
    exact ⟨hcondition, hbody, hother⟩
  | consArm _ _ _ _ hpattern hbody hmore => exact ⟨hpattern, hbody, hmore⟩
  | named _ _ _ _ _ _ _ hbody | unnamed _ _ _ _ _ _ hbody => exact hbody
  | looser _ _ hseparated | negate _ _ hseparated | array _ _ _ hseparated | map _ _ _ hseparated
  | parenthesized _ _ _ hseparated | functionExpr _ hseparated | block _ _ _ hseparated
  | declaration _ _ _ _ hseparated | forever _ _ hseparated | conditionalStatement _ hseparated
  | returns _ _ hseparated | blockStatement _ hseparated | exprStatement _ _ hseparated
  | blockSection _ _ _ hseparated | exprSection _ _ _ _ hseparated => exact hseparated
  | _ => trivial

end PuzzleLang
