import PuzzleLang.Proofs.Grammar.Reading

/-!
# The shape of derivations

A derivation of an expression or a statement starts with a token of one of a few kinds.  An
expression without parentheses around it is derived at the tier of its outermost part.
-/

namespace PuzzleLang

open Parse

/-- Whether an expression can start with a token of this kind. -/
def TokenKind.startsExpr : TokenKind → Bool
  | .string | .number | .nilWord | .identifier | .leftBracket | .leftBrace | .leftParen | .fnWord
  | .minus => true
  | _ => false

/-- Whether a statement can start with a token of this kind. -/
def TokenKind.startsStatement : TokenKind → Bool
  | .varWord | .forWord | .ifWord | .returnWord | .continueWord | .breakWord | .matchWord => true
  | kind => kind.startsExpr

/-- What is known of the first token of a phrase, where the kind is `eof` if there is none. -/
def Phrase.StartsWith : Phrase → TokenKind → Prop
  | .expr tier _, kind => kind.startsExpr = true ∧ (7 ≤ tier → kind ≠ .minus)
  | .function _, kind => kind = .fnWord
  | .block _, kind => kind = .leftBrace
  | .statements _, kind => kind = .eof ∨ kind.startsStatement = true
  | .statement _, kind => kind.startsStatement = true
  | .conditional _, kind => kind = .ifWord
  | .labelled _, kind => kind = .identifier
  | .items _, kind => kind = .eof ∨ kind = .identifier ∨ kind = .fnWord
  | _, _ => True

theorem TokenKind.startsStatement_of_startsExpr {kind : TokenKind} (h : kind.startsExpr = true) :
    kind.startsStatement = true := by
  cases kind <;> first | rfl | exact h

theorem TokenKind.ne_eof_of_startsExpr {kind : TokenKind} (h : kind.startsExpr = true) :
    kind ≠ .eof := by
  rintro rfl
  cases h

theorem TokenKind.ne_eof_of_startsStatement {kind : TokenKind} (h : kind.startsStatement = true) :
    kind ≠ .eof := by
  rintro rfl
  cases h

theorem Operator.two_le_tier (op : Operator) : 2 ≤ op.tier := by
  cases op <;> decide

theorem Operator.tier_le (op : Operator) : op.tier ≤ 5 := by
  cases op <;> decide

theorem Derives.startsWith {phrase : Phrase} {ts : List Token} (h : Derives phrase ts) :
    phrase.StartsWith (viewKind ts) := by
  -- The first token of an operation is the first token of its left operand.
  have happend {tier tier' : Nat} {e e' : Expr} {ts : List Token} (more : List Token)
      (hstart : (Phrase.expr tier e).StartsWith (viewKind ts)) (hle : tier' ≤ tier) :
      (Phrase.expr tier' e').StartsWith (viewKind (ts ++ more)) := by
    rw [Parse.viewKind_append (TokenKind.ne_eof_of_startsExpr hstart.1)]
    exact ⟨hstart.1, fun hbound => hstart.2 (by omega)⟩
  induction h with
  | assign _ _ _ hstart | store _ _ _ hstart => exact happend _ hstart (by decide)
  | binary _ _ _ hstart => exact happend _ hstart (Nat.le_refl _)
  | looser _ _ hstart => exact ⟨hstart.1, fun hbound => hstart.2 (by omega)⟩
  | negate hsign => exact ⟨by simp [viewKind, hsign, TokenKind.startsExpr], by omega⟩
  | call _ _ _ _ hstart =>
    rw [List.append_assoc]
    exact happend _ hstart (by omega)
  | subscript _ _ _ _ hstart =>
    rw [List.append_assoc]
    exact happend _ hstart (by omega)
  | string hkind | number hkind | nil hkind | ident hkind | array hkind | map hkind
  | parenthesized hkind =>
    exact ⟨by simp [viewKind, hkind, TokenKind.startsExpr], by simp [viewKind, hkind]⟩
  | functionExpr _ hstart =>
    change viewKind _ = _ at hstart
    rw [hstart]
    exact ⟨rfl, by simp⟩
  | named hword | unnamed hword | block hword | onlyIf hword | ifElse hword | ifElseIf hword
  | blockSection hword | exprSection hword => exact hword
  | declaration hword | forever hword | forEach hword | forEachIndexed hword | returns hword
  | continues hword | breaks hword | select hword =>
    simp [Phrase.StartsWith, viewKind, hword, TokenKind.startsStatement]
  | conditionalStatement _ hstart | blockStatement _ hstart =>
    change viewKind _ = _ at hstart
    simp [Phrase.StartsWith, hstart, TokenKind.startsStatement, TokenKind.startsExpr]
  | exprStatement _ _ hstart => exact TokenKind.startsStatement_of_startsExpr hstart.1
  | noStatements | noItems => exact .inl rfl
  | bareReturn hword => exact .inr (by simp [viewKind, hword, TokenKind.startsStatement])
  | consStatement _ _ _ hstart =>
    refine .inr ?_
    rwa [Parse.viewKind_append (TokenKind.ne_eof_of_startsStatement hstart)]
  | consSection _ _ hstart =>
    change viewKind _ = _ at hstart
    refine .inr (.inl ?_)
    rwa [Parse.viewKind_append (by simp [hstart])]
  | consFunction _ _ hstart =>
    change viewKind _ = _ at hstart
    refine .inr (.inr ?_)
    rwa [Parse.viewKind_append (by simp [hstart])]
  | _ => trivial

theorem Derives.startsExpr
    {tier : Nat} {expr : Expr} {ts : List Token} (h : Derives (.expr tier expr) ts) :
    (viewKind ts).startsExpr = true :=
  h.startsWith.1

theorem Derives.expr_ne_nil
    {tier : Nat} {expr : Expr} {ts : List Token} (h : Derives (.expr tier expr) ts) :
    ts ≠ [] := by
  rintro rfl
  cases h.startsExpr

theorem Derives.viewKind_append
    {tier : Nat} {expr : Expr} {ts : List Token}
    (h : Derives (.expr tier expr) ts) (rest : List Token) :
    viewKind (ts ++ rest) = viewKind ts :=
  Parse.viewKind_append (TokenKind.ne_eof_of_startsExpr h.startsExpr) rest

theorem Derives.viewOffset_append
    {tier : Nat} {expr : Expr} {ts : List Token}
    (h : Derives (.expr tier expr) ts) (ending : Ending) (rest : List Token) :
    viewOffset ending (ts ++ rest) = firstOffset ts := by
  cases ts with
  | nil => exact (h.expr_ne_nil rfl).elim
  | cons t ts => rfl

theorem Derives.viewKind_block_append
    {block : Block} {ts : List Token} (h : Derives (.block block) ts) (rest : List Token) :
    viewKind (ts ++ rest) = .leftBrace := by
  have hstart : viewKind ts = .leftBrace := h.startsWith
  rw [Parse.viewKind_append (by simp [hstart]), hstart]

theorem Derives.viewKind_conditional_append
    {conditional : Conditional} {ts : List Token}
    (h : Derives (.conditional conditional) ts) (rest : List Token) :
    viewKind (ts ++ rest) = .ifWord := by
  have hstart : viewKind ts = .ifWord := h.startsWith
  rw [Parse.viewKind_append (by simp [hstart]), hstart]

theorem Derives.block_ne_nil {block : Block} {ts : List Token} (h : Derives (.block block) ts) :
    ts ≠ [] := by
  rintro rfl
  cases h.startsWith

/-! ## Tiers -/

theorem Derives.loosen
    {tier tier' : Nat} {expr : Expr} {ts : List Token}
    (h : Derives (.expr tier' expr) ts) (hpos : 1 ≤ tier) (hle : tier ≤ tier') :
    Derives (.expr tier expr) ts := by
  induction hle with
  | refl => exact h
  | step hle ih => exact ih (.looser (Nat.le_trans hpos hle) h)

theorem Expr.tier_le (expr : Expr) : expr.tier ≤ 8 := by
  cases expr with
  | binary offset op left right => exact Nat.le_trans op.tier_le (by decide)
  | _ => simp [Expr.tier]

theorem Expr.le_tier_of_target? {expr : Expr} {target : Target} (h : expr.target? = some target) :
    7 ≤ expr.tier := by
  cases expr with
  | ident | subscript => simp [Expr.tier]
  | _ => cases h

/-- What the reader takes for the target of an assignment is a name or a subscript. -/
theorem Derives.assign_target
    {left value : Expr} {target : Target} {sign : Token} {ts ts' : List Token}
    (hleft : Derives (.expr 7 left) ts) (htarget : left.target? = some target)
    (hsign : sign.kind = .assign) (hvalue : Derives (.expr 1 value) ts') :
    Derives (.expr 1 (target.assign sign.offset value)) (ts ++ sign :: ts') := by
  cases left with
  | ident =>
    cases htarget
    exact .assign hleft hsign hvalue
  | subscript =>
    cases htarget
    exact .store hleft hsign hvalue
  | _ => cases htarget

theorem Derives.tighten_succ
    {tier : Nat} {expr : Expr} {ts : List Token}
    (h : Derives (.expr tier expr) ts) (hlt : tier < expr.tier) :
    Derives (.expr (tier + 1) expr) ts := by
  cases h with
  | looser _ hinner => exact hinner
  | parenthesized =>
    have := expr.tier_le
    omega
  | _ => exact (Nat.lt_irrefl _ hlt).elim

/-- A derivation below the tier of the outermost part of an expression is one at every tier between
the two: only parentheses could have changed the tier. -/
theorem Derives.tighten
    {tier tier' : Nat} {expr : Expr} {ts : List Token}
    (h : Derives (.expr tier expr) ts) (hlower : tier ≤ tier') (hupper : tier' ≤ expr.tier) :
    Derives (.expr tier' expr) ts := by
  induction hlower with
  | refl => exact h
  | step _ ih => exact (ih (Nat.le_of_succ_le hupper)).tighten_succ hupper

end PuzzleLang
