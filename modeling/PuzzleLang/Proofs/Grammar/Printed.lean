import PuzzleLang.Proofs.Tree.Erase
import PuzzleLang.Proofs.Tree.Separated

/-!
# Printed trees are derived

Tokens that spell the print of a tree are derived by the grammar, with a tree that differs from it
only in its offsets.  The proof follows the tree: each node is derived from the derivations of its
parts.
-/

namespace PuzzleLang

open Parse

theorem viewKind_eq_firstKind
    {ts : List Token} {printed : List Terminal} (hspelled : ts.map Token.terminal = printed) :
    viewKind ts = firstKind printed := by
  subst hspelled
  cases ts <;> rfl

theorem kind_of_terminal {t : Token} {kind : TokenKind} (hspelled : t.terminal = .ofKind kind) :
    t.kind = kind :=
  congrArg Terminal.kind hspelled

theorem Stmt.isOpen_erase (s : Stmt) : (Erase.statement s).isOpen = s.isOpen := by
  cases s with
  | returns offset value => cases value <;> rfl
  | _ => rfl

theorem Stmt.eq_returns_of_isBareReturn {s : Stmt} (h : s.isBareReturn = true) :
    ∃ offset, s = .returns offset none := by
  cases s with
  | returns offset value =>
    cases value with
    | none => exact ⟨offset, rfl⟩
    | some value => cases h
  | _ => cases h

/-- Tokens that spell the print of an expression are derived at its tier. -/
def DerivesPrint (e : Expr) : Prop :=
  ∀ ⦃ts : List Token⦄, ts.map Token.terminal = Print.expr e →
    ∃ e', Derives (.expr e.tier e') ts ∧ Erase.expr e' = Erase.expr e

namespace DerivesPrint

variable {e : Expr} (h : DerivesPrint e) {ts : List Token}

include h

theorem expr (hspelled : ts.map Token.terminal = Print.expr e) :
    ∃ e', Derives (.expr 1 e') ts ∧ Erase.expr e' = Erase.expr e := by
  obtain ⟨e', hderives, hsame⟩ := h hspelled
  exact ⟨e', hderives.loosen (Nat.le_refl 1) e.one_le_tier, hsame⟩

theorem parenthesized (hspelled : ts.map Token.terminal = Print.parenthesized (Print.expr e)) :
    viewKind ts = .leftParen ∧
      ∃ e', Derives (.expr 8 e') ts ∧ Erase.expr e' = Erase.expr e := by
  simp only [Print.parenthesized, List.cons_append, List.map_eq_cons_iff, List.map_eq_append_iff,
    List.map_eq_nil_iff] at hspelled
  obtain ⟨opening, _, rfl, hopening, inner, _, rfl, hspelled, closing, _, rfl, hclosing, rfl⟩ :=
    hspelled
  obtain ⟨e', hderives, hsame⟩ := h.expr hspelled
  have hwhole := Derives.parenthesized (kind_of_terminal hopening) hderives
    (kind_of_terminal hclosing)
  exact ⟨kind_of_terminal hopening, e', hwhole, hsame⟩

theorem fit
    {tier : Nat}
    (hspelled : ts.map Token.terminal = Print.fit tier e (Print.expr e)) (hlower : 1 ≤ tier)
    (hupper : tier ≤ 8) :
    ∃ e', Derives (.expr tier e') ts ∧ Erase.expr e' = Erase.expr e := by
  by_cases hbelow : e.tier < tier
  · rw [Print.fit, if_pos hbelow] at hspelled
    obtain ⟨-, e', hderives, hsame⟩ := h.parenthesized hspelled
    exact ⟨e', hderives.loosen hlower hupper, hsame⟩
  · rw [Print.fit, if_neg hbelow] at hspelled
    obtain ⟨e', hderives, hsame⟩ := h hspelled
    exact ⟨e', hderives.loosen hlower (by omega), hsame⟩

theorem leading (hspelled : ts.map Token.terminal = Print.leading (Print.expr e)) :
    ∃ e', Derives (.expr 1 e') ts ∧ viewKind ts ≠ .leftBrace ∧ Erase.expr e' = Erase.expr e := by
  by_cases hbrace : firstKind (Print.expr e) = .leftBrace
  · rw [Print.leading, if_pos hbrace] at hspelled
    obtain ⟨hparen, e', hderives, hsame⟩ := h.parenthesized hspelled
    exact ⟨e', hderives.loosen (Nat.le_refl 1) (by decide), by simp [hparen], hsame⟩
  · rw [Print.leading, if_neg hbrace] at hspelled
    obtain ⟨e', hderives, hsame⟩ := h.expr hspelled
    refine ⟨e', hderives, ?_, hsame⟩
    rwa [viewKind_eq_firstKind hspelled]

end DerivesPrint

theorem derives_params
    {names : List String} {ts : List Token}
    (hspelled : ts.map Token.terminal = Print.params names) :
    Derives (.params names) ts := by
  fun_induction Print.params names generalizing ts with
  | case1 =>
    rw [List.map_eq_nil_iff.mp hspelled]
    exact .noParams
  | case2 param =>
    simp only [List.map_eq_cons_iff, List.map_eq_nil_iff] at hspelled
    obtain ⟨t, _, rfl, hparam, rfl⟩ := hspelled
    obtain rfl : t.text = param := congrArg Terminal.text hparam
    exact .lastParam (congrArg Terminal.kind hparam)
  | case3 param more _ ih =>
    simp only [List.map_eq_cons_iff] at hspelled
    obtain ⟨t, _, rfl, hparam, comma, _, rfl, hcomma, hspelled⟩ := hspelled
    obtain rfl : t.text = param := congrArg Terminal.text hparam
    exact .consParam (congrArg Terminal.kind hparam) (kind_of_terminal hcomma) (ih hspelled)

theorem isKey_of_terminal {t : Token} {text : String} (hspelled : t.terminal = Print.key text) :
    t.kind ∈ [.identifier, .number] ∧ t.text = text := by
  have hkind := congrArg Terminal.kind hspelled
  have hsame := congrArg Terminal.text hspelled
  unfold Print.key at hkind hsame
  split at hkind <;> rename_i hnumber
  · rw [if_pos hnumber] at hsame
    exact ⟨by simp [show t.kind = .number from hkind], hsame⟩
  · rw [if_neg hnumber] at hsame
    exact ⟨by simp [show t.kind = .identifier from hkind], hsame⟩

mutual

theorem derives_expr : ∀ e : Expr, Separated.expr e → DerivesPrint e
  | .string _ value, _, ts, hspelled => by
    simp only [Print.expr, List.map_eq_cons_iff, List.map_eq_nil_iff] at hspelled
    obtain ⟨t, _, rfl, hstring, rfl⟩ := hspelled
    obtain rfl : t.text = value := congrArg Terminal.text hstring
    exact ⟨_, .string (congrArg Terminal.kind hstring), rfl⟩
  | .number _ value, _, ts, hspelled => by
    simp only [Print.expr, List.map_eq_cons_iff, List.map_eq_nil_iff] at hspelled
    obtain ⟨t, _, rfl, hnumber, rfl⟩ := hspelled
    have htext : t.text = naturalText value := congrArg Terminal.text hnumber
    refine ⟨_, .number (congrArg Terminal.kind hnumber), ?_⟩
    rw [htext, Erase.expr, Erase.expr, ← digitsValue_eq_placeValue, digitsValue_naturalText]
  | .nil _, _, ts, hspelled => by
    simp only [Print.expr, List.map_eq_cons_iff, List.map_eq_nil_iff] at hspelled
    obtain ⟨t, _, rfl, hnil, rfl⟩ := hspelled
    exact ⟨_, .nil (kind_of_terminal hnil), rfl⟩
  | .ident _ name, _, ts, hspelled => by
    simp only [Print.expr, List.map_eq_cons_iff, List.map_eq_nil_iff] at hspelled
    obtain ⟨t, _, rfl, hname, rfl⟩ := hspelled
    obtain rfl : t.text = name := congrArg Terminal.text hname
    exact ⟨_, .ident (congrArg Terminal.kind hname), rfl⟩
  | .array _ items, hseparated, ts, hspelled => by
    simp only [Print.expr, List.cons_append, List.map_eq_cons_iff, List.map_eq_append_iff,
      List.map_eq_nil_iff] at hspelled
    obtain ⟨opening, _, rfl, hopening, inner, _, rfl, hspelled, closing, _, rfl, hclosing, rfl⟩ :=
      hspelled
    obtain ⟨items', hderives, hsame⟩ := derives_exprs items hseparated hspelled
    exact ⟨_, .array (kind_of_terminal hopening) hderives (kind_of_terminal hclosing),
      by rw [Erase.expr, Erase.expr, hsame]⟩
  | .map _ parts, hseparated, ts, hspelled => by
    simp only [Print.expr, List.cons_append, List.map_eq_cons_iff, List.map_eq_append_iff,
      List.map_eq_nil_iff] at hspelled
    obtain ⟨opening, _, rfl, hopening, inner, _, rfl, hspelled, closing, _, rfl, hclosing, rfl⟩ :=
      hspelled
    obtain ⟨parts', hderives, hsame⟩ := derives_entries parts hseparated hspelled
    exact ⟨_, .map (kind_of_terminal hopening) hderives (kind_of_terminal hclosing),
      by rw [Erase.expr, Erase.expr, hsame]⟩
  | .negate _ operand, hseparated, ts, hspelled => by
    simp only [Print.expr, List.map_eq_cons_iff] at hspelled
    obtain ⟨sign, _, rfl, hsign, hspelled⟩ := hspelled
    obtain ⟨operand', hderives, hsame⟩ :=
      (derives_expr operand hseparated).fit hspelled (by decide) (by decide)
    exact ⟨_, .negate (kind_of_terminal hsign) hderives, by rw [Erase.expr, Erase.expr, hsame]⟩
  | .binary _ op left right, hseparated, ts, hspelled => by
    have hlower := op.two_le_tier
    have hupper := op.tier_le
    simp only [Print.expr, List.map_eq_append_iff, List.map_eq_cons_iff] at hspelled
    obtain ⟨ts₁, _, rfl, hspelled₁, sign, ts₂, rfl, hsign, hspelled₂⟩ := hspelled
    obtain ⟨left', hderives₁, hsame₁⟩ :=
      (derives_expr left hseparated.1).fit hspelled₁ (by omega) (by omega)
    obtain ⟨right', hderives₂, hsame₂⟩ :=
      (derives_expr right hseparated.2).fit hspelled₂ (by omega) (by omega)
    exact ⟨_, .binary hderives₁ (kind_of_terminal hsign) hderives₂,
      by rw [Erase.expr, Erase.expr, hsame₁, hsame₂]⟩
  | .subscript _ container index, hseparated, ts, hspelled => by
    simp only [Print.expr, List.append_assoc, List.cons_append, List.map_eq_append_iff,
      List.map_eq_cons_iff, List.map_eq_nil_iff] at hspelled
    obtain ⟨ts₁, _, rfl, hspelled₁, opening, _, rfl, hopening, ts₂, _, rfl, hspelled₂, closing, _,
      rfl, hclosing, rfl⟩ := hspelled
    obtain ⟨container', hderives₁, hsame₁⟩ :=
      (derives_expr container hseparated.1).fit hspelled₁ (by decide) (by decide)
    obtain ⟨index', hderives₂, hsame₂⟩ := (derives_expr index hseparated.2).expr hspelled₂
    have hwhole := Derives.subscript hderives₁ (kind_of_terminal hopening) hderives₂
      (kind_of_terminal hclosing)
    rw [List.append_assoc] at hwhole
    exact ⟨_, hwhole, by rw [Erase.expr, Erase.expr, hsame₁, hsame₂]⟩
  | .assign _ _ name value, hseparated, ts, hspelled => by
    simp only [Print.expr, List.map_eq_cons_iff] at hspelled
    obtain ⟨t, _, rfl, hname, sign, _, rfl, hsign, hspelled⟩ := hspelled
    obtain rfl : t.text = name := congrArg Terminal.text hname
    obtain ⟨value', hderives, hsame⟩ := (derives_expr value hseparated).expr hspelled
    have htarget := (Derives.ident (congrArg Terminal.kind hname)).looser (by decide)
    exact ⟨_, .assign htarget (kind_of_terminal hsign) hderives,
      by rw [Erase.expr, Erase.expr, hsame]⟩
  | .store _ _ container index value, hseparated, ts, hspelled => by
    simp only [Print.expr, List.append_assoc, List.cons_append, List.nil_append,
      List.map_eq_append_iff, List.map_eq_cons_iff] at hspelled
    obtain ⟨ts₁, _, rfl, hspelled₁, opening, _, rfl, hopening, ts₂, _, rfl, hspelled₂, closing, _,
      rfl, hclosing, sign, ts₃, rfl, hsign, hspelled₃⟩ := hspelled
    obtain ⟨container', hderives₁, hsame₁⟩ :=
      (derives_expr container hseparated.1).fit hspelled₁ (by decide) (by decide)
    obtain ⟨index', hderives₂, hsame₂⟩ := (derives_expr index hseparated.2.1).expr hspelled₂
    obtain ⟨value', hderives₃, hsame₃⟩ := (derives_expr value hseparated.2.2).expr hspelled₃
    have htarget := Derives.subscript hderives₁ (kind_of_terminal hopening) hderives₂
      (kind_of_terminal hclosing)
    have hwhole := Derives.store htarget (kind_of_terminal hsign) hderives₃
    simp only [List.append_assoc, List.cons_append, List.nil_append] at hwhole
    exact ⟨_, hwhole, by rw [Erase.expr, Erase.expr, hsame₁, hsame₂, hsame₃]⟩
  | .call _ callee args, hseparated, ts, hspelled => by
    simp only [Print.expr, List.append_assoc, List.cons_append, List.map_eq_append_iff,
      List.map_eq_cons_iff, List.map_eq_nil_iff] at hspelled
    obtain ⟨ts₁, _, rfl, hspelled₁, opening, _, rfl, hopening, ts₂, _, rfl, hspelled₂, closing, _,
      rfl, hclosing, rfl⟩ := hspelled
    obtain ⟨callee', hderives₁, hsame₁⟩ :=
      (derives_expr callee hseparated.1).fit hspelled₁ (by decide) (by decide)
    obtain ⟨args', hderives₂, hsame₂⟩ := derives_exprs args hseparated.2 hspelled₂
    have hwhole := Derives.call hderives₁ (kind_of_terminal hopening) hderives₂
      (kind_of_terminal hclosing)
    rw [List.append_assoc] at hwhole
    exact ⟨_, hwhole, by rw [Erase.expr, Erase.expr, hsame₁, hsame₂]⟩
  | .function f, hseparated, ts, hspelled => by
    obtain ⟨f', hderives, hsame⟩ := derives_function f hseparated hspelled
    exact ⟨_, .functionExpr hderives, by rw [Erase.expr, Erase.expr, hsame]⟩

theorem derives_exprs : ∀ items : List Expr, Separated.exprs items → ∀ {ts : List Token},
    ts.map Token.terminal = Print.exprs items →
      ∃ items', Derives (.exprs items') ts ∧ Erase.exprs items' = Erase.exprs items
  | [], _, ts, hspelled => by
    rw [Print.exprs, List.map_eq_nil_iff] at hspelled
    subst hspelled
    exact ⟨[], .noExprs, rfl⟩
  | [item], hseparated, ts, hspelled => by
    simp only [Print.exprs, List.isEmpty_nil, if_true, List.append_nil] at hspelled
    obtain ⟨item', hderives, hsame⟩ := (derives_expr item hseparated.1).expr hspelled
    exact ⟨_, .lastExpr hderives, by simp only [Erase.exprs, hsame]⟩
  | item :: next :: more, hseparated, ts, hspelled => by
    rw [Print.exprs] at hspelled
    simp only [List.isEmpty_cons, Bool.false_eq_true, if_false, List.map_eq_append_iff,
      List.map_eq_cons_iff] at hspelled
    obtain ⟨ts₁, _, rfl, hspelled₁, comma, ts₂, rfl, hcomma, hspelled₂⟩ := hspelled
    obtain ⟨item', hderives₁, hsame₁⟩ := (derives_expr item hseparated.1).expr hspelled₁
    obtain ⟨more', hderives₂, hsame₂⟩ := derives_exprs (next :: more) hseparated.2 hspelled₂
    exact ⟨_, .consExpr hderives₁ (kind_of_terminal hcomma) hderives₂,
      by simp only [Erase.exprs, hsame₁, hsame₂]⟩

theorem derives_entries : ∀ parts : List (String × Expr), Separated.entries parts →
    ∀ {ts : List Token}, ts.map Token.terminal = Print.entries parts →
      ∃ parts', Derives (.entries parts') ts ∧ Erase.entries parts' = Erase.entries parts
  | [], _, ts, hspelled => by
    rw [Print.entries, List.map_eq_nil_iff] at hspelled
    subst hspelled
    exact ⟨[], .noEntries, rfl⟩
  | [(text, value)], hseparated, ts, hspelled => by
    simp only [Print.entries, List.isEmpty_nil, if_true, List.append_nil,
      List.map_eq_cons_iff] at hspelled
    obtain ⟨key, _, rfl, hkeyed, colon, _, rfl, hcolon, hspelled⟩ := hspelled
    obtain ⟨hkey, rfl⟩ := isKey_of_terminal hkeyed
    obtain ⟨value', hderives, hsame⟩ := (derives_expr value hseparated.1).expr hspelled
    exact ⟨_, .lastEntry hkey (kind_of_terminal hcolon) hderives,
      by simp only [Erase.entries, hsame]⟩
  | (text, value) :: next :: more, hseparated, ts, hspelled => by
    rw [Print.entries] at hspelled
    simp only [List.isEmpty_cons, Bool.false_eq_true, if_false, List.cons_append,
      List.map_eq_append_iff, List.map_eq_cons_iff] at hspelled
    obtain ⟨key, _, rfl, hkeyed, colon, _, rfl, hcolon, ts₁, _, rfl, hspelled₁, comma, ts₂, rfl,
      hcomma, hspelled₂⟩ := hspelled
    obtain ⟨hkey, rfl⟩ := isKey_of_terminal hkeyed
    obtain ⟨value', hderives₁, hsame₁⟩ := (derives_expr value hseparated.1).expr hspelled₁
    obtain ⟨more', hderives₂, hsame₂⟩ := derives_entries (next :: more) hseparated.2 hspelled₂
    exact ⟨_, .consEntry hkey (kind_of_terminal hcolon) hderives₁ (kind_of_terminal hcomma)
      hderives₂, by simp only [Erase.entries, hsame₁, hsame₂]⟩

theorem derives_function : ∀ f : Function, Separated.function f → ∀ {ts : List Token},
    ts.map Token.terminal = Print.function f →
      ∃ f', Derives (.function f') ts ∧ Erase.function f' = Erase.function f
  | ⟨_, some text, names, body⟩, hseparated, ts, hspelled => by
    simp only [Print.function, List.cons_append, List.map_eq_cons_iff,
      List.map_eq_append_iff] at hspelled
    obtain ⟨word, _, rfl, hword, name, _, rfl, hname, opening, _, rfl, hopening, ts₁, _, rfl,
      hspelled₁, closing, ts₂, rfl, hclosing, hspelled₂⟩ := hspelled
    obtain rfl : name.text = text := congrArg Terminal.text hname
    obtain ⟨body', hderives, hsame⟩ := derives_block body hseparated hspelled₂
    exact ⟨_, .named (kind_of_terminal hword) (congrArg Terminal.kind hname)
      (kind_of_terminal hopening) (derives_params hspelled₁) (kind_of_terminal hclosing) hderives,
      by rw [Erase.function, Erase.function, hsame]⟩
  | ⟨_, none, names, body⟩, hseparated, ts, hspelled => by
    simp only [Print.function, List.cons_append, List.map_eq_cons_iff,
      List.map_eq_append_iff] at hspelled
    obtain ⟨word, _, rfl, hword, opening, _, rfl, hopening, ts₁, _, rfl, hspelled₁, closing, ts₂,
      rfl, hclosing, hspelled₂⟩ := hspelled
    obtain ⟨body', hderives, hsame⟩ := derives_block body hseparated hspelled₂
    exact ⟨_, .unnamed (kind_of_terminal hword) (kind_of_terminal hopening)
      (derives_params hspelled₁) (kind_of_terminal hclosing) hderives,
      by rw [Erase.function, Erase.function, hsame]⟩

theorem derives_block : ∀ b : Block, Separated.block b → ∀ {ts : List Token},
    ts.map Token.terminal = Print.block b →
      ∃ b', Derives (.block b') ts ∧ Erase.block b' = Erase.block b
  | ⟨_, body⟩, hseparated, ts, hspelled => by
    simp only [Print.block, List.cons_append, List.map_eq_cons_iff, List.map_eq_append_iff,
      List.map_eq_nil_iff] at hspelled
    obtain ⟨opening, _, rfl, hopening, inner, _, rfl, hspelled, closing, _, rfl, hclosing, rfl⟩ :=
      hspelled
    obtain ⟨body', hderives, hsame⟩ := derives_statements body hseparated hspelled
    exact ⟨_, .block (kind_of_terminal hopening) hderives (kind_of_terminal hclosing),
      by rw [Erase.block, Erase.block, hsame]⟩

theorem derives_statements : ∀ ss : List Stmt, Separated.statements ss → ∀ {ts : List Token},
    ts.map Token.terminal = Print.statements ss →
      ∃ ss', Derives (.statements ss') ts ∧ Erase.statements ss' = Erase.statements ss
  | [], _, ts, hspelled => by
    rw [Print.statements, List.map_eq_nil_iff] at hspelled
    subst hspelled
    exact ⟨[], .noStatements, rfl⟩
  | first :: more, hseparated, ts, hspelled => by
    obtain ⟨hseparated₁, hlast, hapart, hseparated₂⟩ := hseparated
    by_cases hbare : first.isBareReturn = true
    · obtain rfl : more = [] := hlast hbare
      obtain ⟨offset, rfl⟩ := Stmt.eq_returns_of_isBareReturn hbare
      simp only [Print.statements, Print.statement, List.append_nil, List.map_eq_cons_iff,
        List.map_eq_nil_iff] at hspelled
      obtain ⟨word, _, rfl, hword, rfl⟩ := hspelled
      exact ⟨_, .bareReturn (kind_of_terminal hword), rfl⟩
    rw [Print.statements, List.map_eq_append_iff] at hspelled
    obtain ⟨ts₁, ts₂, rfl, hspelled₁, hspelled₂⟩ := hspelled
    obtain ⟨first', hderives₁, hsame₁⟩ := derives_statement first hseparated₁ hbare hspelled₁
    obtain ⟨more', hderives₂, hsame₂⟩ := derives_statements more hseparated₂ hspelled₂
    have hapart' : first'.isOpen → ¬(viewKind ts₂).continues 1 := by
      rw [← Stmt.isOpen_erase, hsame₁, Stmt.isOpen_erase, viewKind_eq_firstKind hspelled₂]
      exact hapart
    exact ⟨_, .consStatement hderives₁ hderives₂ hapart',
      by rw [Erase.statements, Erase.statements, hsame₁, hsame₂]⟩

theorem derives_statement : ∀ s : Stmt, Separated.statement s → ¬s.isBareReturn →
    ∀ {ts : List Token}, ts.map Token.terminal = Print.statement s →
      ∃ s', Derives (.statement s') ts ∧ Erase.statement s' = Erase.statement s
  | .expr _ value, hseparated, _, ts, hspelled => by
    rw [Print.statement] at hspelled
    obtain ⟨value', hderives, hnoBrace, hsame⟩ := (derives_expr value hseparated).leading hspelled
    exact ⟨_, .exprStatement hderives hnoBrace, by rw [Erase.statement, Erase.statement, hsame]⟩
  | .var _ text value, hseparated, _, ts, hspelled => by
    simp only [Print.statement, List.map_eq_cons_iff] at hspelled
    obtain ⟨word, _, rfl, hword, name, _, rfl, hname, sign, _, rfl, hsign, hspelled⟩ := hspelled
    obtain rfl : name.text = text := congrArg Terminal.text hname
    obtain ⟨value', hderives, hsame⟩ := (derives_expr value hseparated).expr hspelled
    exact ⟨_, .declaration (kind_of_terminal hword) (congrArg Terminal.kind hname)
      (kind_of_terminal hsign) hderives, by rw [Erase.statement, Erase.statement, hsame]⟩
  | .block inner, hseparated, _, ts, hspelled => by
    obtain ⟨inner', hderives, hsame⟩ := derives_block inner hseparated hspelled
    exact ⟨_, .blockStatement hderives, by rw [Erase.statement, Erase.statement, hsame]⟩
  | .forever _ body, hseparated, _, ts, hspelled => by
    simp only [Print.statement, List.map_eq_cons_iff] at hspelled
    obtain ⟨word, _, rfl, hword, hspelled⟩ := hspelled
    obtain ⟨body', hderives, hsame⟩ := derives_block body hseparated hspelled
    exact ⟨_, .forever (kind_of_terminal hword) hderives,
      by rw [Erase.statement, Erase.statement, hsame]⟩
  | .forEach _ text none iterable body, hseparated, _, ts, hspelled => by
    simp only [Print.statement, List.cons_append, List.map_eq_cons_iff,
      List.map_eq_append_iff] at hspelled
    obtain ⟨word, _, rfl, hword, item, _, rfl, hitem, within, _, rfl, hwithin, ts₁, ts₂, rfl,
      hspelled₁, hspelled₂⟩ := hspelled
    obtain rfl : item.text = text := congrArg Terminal.text hitem
    obtain ⟨iterable', hderives₁, hsame₁⟩ := (derives_expr iterable hseparated.1).expr hspelled₁
    obtain ⟨body', hderives₂, hsame₂⟩ := derives_block body hseparated.2 hspelled₂
    exact ⟨_, .forEach (kind_of_terminal hword) (congrArg Terminal.kind hitem)
      (kind_of_terminal hwithin) hderives₁ hderives₂,
      by rw [Erase.statement, Erase.statement, hsame₁, hsame₂]⟩
  | .forEach _ text (some text') iterable body, hseparated, _, ts, hspelled => by
    simp only [Print.statement, List.cons_append, List.map_eq_cons_iff,
      List.map_eq_append_iff] at hspelled
    obtain ⟨word, _, rfl, hword, item, _, rfl, hitem, comma, _, rfl, hcomma, index, _, rfl,
      hindex, within, _, rfl, hwithin, ts₁, ts₂, rfl, hspelled₁, hspelled₂⟩ := hspelled
    obtain rfl : item.text = text := congrArg Terminal.text hitem
    obtain rfl : index.text = text' := congrArg Terminal.text hindex
    obtain ⟨iterable', hderives₁, hsame₁⟩ := (derives_expr iterable hseparated.1).expr hspelled₁
    obtain ⟨body', hderives₂, hsame₂⟩ := derives_block body hseparated.2 hspelled₂
    exact ⟨_, .forEachIndexed (kind_of_terminal hword) (congrArg Terminal.kind hitem)
      (kind_of_terminal hcomma) (congrArg Terminal.kind hindex) (kind_of_terminal hwithin)
      hderives₁ hderives₂, by rw [Erase.statement, Erase.statement, hsame₁, hsame₂]⟩
  | .conditional inner, hseparated, _, ts, hspelled => by
    obtain ⟨inner', hderives, hsame⟩ := derives_conditional inner hseparated hspelled
    exact ⟨_, .conditionalStatement hderives, by rw [Erase.statement, Erase.statement, hsame]⟩
  | .select _ subject cases, hseparated, _, ts, hspelled => by
    simp only [Print.statement, List.cons_append, List.append_assoc, List.map_eq_cons_iff,
      List.map_eq_append_iff, List.map_eq_nil_iff] at hspelled
    obtain ⟨word, _, rfl, hword, ts₁, _, rfl, hspelled₁, opening, _, rfl, hopening, ts₂, _, rfl,
      hspelled₂, closing, _, rfl, hclosing, rfl⟩ := hspelled
    obtain ⟨subject', hderives₁, hsame₁⟩ := (derives_expr subject hseparated.1).expr hspelled₁
    obtain ⟨cases', hderives₂, hsame₂⟩ := derives_arms cases hseparated.2 hspelled₂
    have hwhole := Derives.select (kind_of_terminal hword) hderives₁ (kind_of_terminal hopening)
      hderives₂ (kind_of_terminal hclosing)
    rw [List.append_assoc] at hwhole
    exact ⟨_, hwhole, by rw [Erase.statement, Erase.statement, hsame₁, hsame₂]⟩
  | .returns _ none, _, hbare, ts, hspelled => (hbare rfl).elim
  | .returns _ (some value), hseparated, _, ts, hspelled => by
    simp only [Print.statement, List.map_eq_cons_iff] at hspelled
    obtain ⟨word, _, rfl, hword, hspelled⟩ := hspelled
    obtain ⟨value', hderives, hsame⟩ := (derives_expr value hseparated).expr hspelled
    exact ⟨_, .returns (kind_of_terminal hword) hderives,
      by rw [Erase.statement, Erase.statement, hsame]⟩
  | .breaks _, _, _, ts, hspelled => by
    simp only [Print.statement, List.map_eq_cons_iff, List.map_eq_nil_iff] at hspelled
    obtain ⟨word, _, rfl, hword, rfl⟩ := hspelled
    exact ⟨_, .breaks (kind_of_terminal hword), rfl⟩
  | .continues _, _, _, ts, hspelled => by
    simp only [Print.statement, List.map_eq_cons_iff, List.map_eq_nil_iff] at hspelled
    obtain ⟨word, _, rfl, hword, rfl⟩ := hspelled
    exact ⟨_, .continues (kind_of_terminal hword), rfl⟩

theorem derives_conditional : ∀ c : Conditional, Separated.conditional c → ∀ {ts : List Token},
    ts.map Token.terminal = Print.conditional c →
      ∃ c', Derives (.conditional c') ts ∧ Erase.conditional c' = Erase.conditional c
  | ⟨_, condition, body, .nothing⟩, hseparated, ts, hspelled => by
    simp only [Print.conditional, Print.alternative, List.append_nil, List.cons_append,
      List.map_eq_cons_iff, List.map_eq_append_iff] at hspelled
    obtain ⟨word, _, rfl, hword, ts₁, ts₂, rfl, hspelled₁, hspelled₂⟩ := hspelled
    obtain ⟨condition', hderives₁, hsame₁⟩ := (derives_expr condition hseparated.1).expr hspelled₁
    obtain ⟨body', hderives₂, hsame₂⟩ := derives_block body hseparated.2.1 hspelled₂
    exact ⟨_, .onlyIf (kind_of_terminal hword) hderives₁ hderives₂,
      by rw [Erase.conditional, Erase.conditional, hsame₁, hsame₂]⟩
  | ⟨_, condition, body, .block other⟩, hseparated, ts, hspelled => by
    simp only [Print.conditional, Print.alternative, List.cons_append, List.append_assoc,
      List.map_eq_cons_iff, List.map_eq_append_iff] at hspelled
    obtain ⟨word, _, rfl, hword, ts₁, _, rfl, hspelled₁, ts₂, _, rfl, hspelled₂, between, ts₃, rfl,
      hbetween, hspelled₃⟩ := hspelled
    obtain ⟨condition', hderives₁, hsame₁⟩ := (derives_expr condition hseparated.1).expr hspelled₁
    obtain ⟨body', hderives₂, hsame₂⟩ := derives_block body hseparated.2.1 hspelled₂
    obtain ⟨other', hderives₃, hsame₃⟩ := derives_block other hseparated.2.2 hspelled₃
    have hwhole := Derives.ifElse (kind_of_terminal hword) hderives₁ hderives₂
      (kind_of_terminal hbetween) hderives₃
    rw [List.append_assoc] at hwhole
    exact ⟨_, hwhole, by simp only [Erase.conditional, Erase.alternative, hsame₁, hsame₂, hsame₃]⟩
  | ⟨_, condition, body, .conditional other⟩, hseparated, ts, hspelled => by
    simp only [Print.conditional, Print.alternative, List.cons_append, List.append_assoc,
      List.map_eq_cons_iff, List.map_eq_append_iff] at hspelled
    obtain ⟨word, _, rfl, hword, ts₁, _, rfl, hspelled₁, ts₂, _, rfl, hspelled₂, between, ts₃, rfl,
      hbetween, hspelled₃⟩ := hspelled
    obtain ⟨condition', hderives₁, hsame₁⟩ := (derives_expr condition hseparated.1).expr hspelled₁
    obtain ⟨body', hderives₂, hsame₂⟩ := derives_block body hseparated.2.1 hspelled₂
    obtain ⟨other', hderives₃, hsame₃⟩ := derives_conditional other hseparated.2.2 hspelled₃
    have hwhole := Derives.ifElseIf (kind_of_terminal hword) hderives₁ hderives₂
      (kind_of_terminal hbetween) hderives₃
    rw [List.append_assoc] at hwhole
    exact ⟨_, hwhole, by simp only [Erase.conditional, Erase.alternative, hsame₁, hsame₂, hsame₃]⟩

theorem derives_arms : ∀ cases : List Arm, Separated.arms cases → ∀ {ts : List Token},
    ts.map Token.terminal = Print.arms cases →
      ∃ cases', Derives (.arms cases') ts ∧ Erase.arms cases' = Erase.arms cases
  | [], _, ts, hspelled => by
    rw [Print.arms, List.map_eq_nil_iff] at hspelled
    subst hspelled
    exact ⟨[], .noArms, rfl⟩
  | ⟨pattern, body⟩ :: more, hseparated, ts, hspelled => by
    simp only [Print.arms, List.append_assoc, List.cons_append, List.map_eq_append_iff,
      List.map_eq_cons_iff] at hspelled
    obtain ⟨ts₁, _, rfl, hspelled₁, colon, _, rfl, hcolon, ts₂, ts₃, rfl, hspelled₂, hspelled₃⟩ :=
      hspelled
    obtain ⟨pattern', hderives₁, hsame₁⟩ := (derives_expr pattern hseparated.1).expr hspelled₁
    obtain ⟨body', hderives₂, hsame₂⟩ := derives_block body hseparated.2.1 hspelled₂
    obtain ⟨more', hderives₃, hsame₃⟩ := derives_arms more hseparated.2.2 hspelled₃
    have hwhole := Derives.consArm hderives₁ (kind_of_terminal hcolon) hderives₂ hderives₃
    rw [List.append_assoc] at hwhole
    exact ⟨_, hwhole, by rw [Erase.arms, Erase.arms, hsame₁, hsame₂, hsame₃]⟩

end

theorem derives_labelled
    {part : Section} {ts : List Token}
    (hseparated : Separated.labelled part)
    (hspelled : ts.map Token.terminal = Print.labelled part) :
    ∃ part', Derives (.labelled part') ts ∧ Erase.labelled part' = Erase.labelled part := by
  match part with
  | ⟨_, text, .block body⟩ =>
    simp only [Print.labelled, List.map_eq_cons_iff] at hspelled
    obtain ⟨label, _, rfl, hlabel, colon, _, rfl, hcolon, hspelled⟩ := hspelled
    obtain rfl : label.text = text := congrArg Terminal.text hlabel
    obtain ⟨body', hderives, hsame⟩ := derives_block body hseparated hspelled
    exact ⟨_, .blockSection (congrArg Terminal.kind hlabel) (kind_of_terminal hcolon) hderives,
      by rw [Erase.labelled, Erase.labelled, hsame]⟩
  | ⟨_, text, .expr body⟩ =>
    simp only [Print.labelled, List.map_eq_cons_iff] at hspelled
    obtain ⟨label, _, rfl, hlabel, colon, _, rfl, hcolon, hspelled⟩ := hspelled
    obtain rfl : label.text = text := congrArg Terminal.text hlabel
    obtain ⟨body', hderives, hnoBrace, hsame⟩ := (derives_expr body hseparated).leading hspelled
    exact ⟨_, .exprSection (congrArg Terminal.kind hlabel) (kind_of_terminal hcolon) hderives
      hnoBrace, by rw [Erase.labelled, Erase.labelled, hsame]⟩

/-- Tokens that spell the print of a script are derived, with parts that differ only in offsets. -/
theorem derives_items
    {parts : List Item} {ts : List Token}
    (hseparated : Separated.items parts) (hspelled : ts.map Token.terminal = Print.items parts) :
    ∃ parts', Derives (.items parts') ts ∧ Erase.items parts' = Erase.items parts := by
  fun_induction Print.items parts generalizing ts with
  | case1 =>
    rw [List.map_eq_nil_iff.mp hspelled]
    exact ⟨[], .noItems, rfl⟩
  | case2 part more ih =>
    rw [List.map_eq_append_iff] at hspelled
    obtain ⟨ts₁, ts₂, rfl, hspelled₁, hspelled₂⟩ := hspelled
    obtain ⟨part', hderives₁, hsame₁⟩ := derives_labelled hseparated.1 hspelled₁
    obtain ⟨more', hderives₂, hsame₂⟩ := ih hseparated.2 hspelled₂
    exact ⟨_, .consSection hderives₁ hderives₂, by rw [Erase.items, Erase.items, hsame₁, hsame₂]⟩
  | case3 f more ih =>
    rw [List.map_eq_append_iff] at hspelled
    obtain ⟨ts₁, ts₂, rfl, hspelled₁, hspelled₂⟩ := hspelled
    obtain ⟨f', hderives₁, hsame₁⟩ := derives_function f hseparated.1 hspelled₁
    obtain ⟨more', hderives₂, hsame₂⟩ := ih hseparated.2 hspelled₂
    exact ⟨_, .consFunction hderives₁ hderives₂, by rw [Erase.items, Erase.items, hsame₁, hsame₂]⟩

end PuzzleLang
