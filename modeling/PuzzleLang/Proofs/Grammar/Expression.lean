import PuzzleLang.Proofs.Grammar.Completeness
import PuzzleLang.Proofs.Grammar.Printed

/-!
# Expressions

Where nothing follows that belongs to it, an expression of the grammar is read as exactly its tree.
In particular every tree without functions is read from its print, and no other way to write the
tree has fewer parentheses than the print.
-/

namespace PuzzleLang

open Parse

/-! ## Trees without functions -/

namespace FunctionFree

mutual

/-- An expression has no function literal in it. -/
def expr : Expr → Prop
  | .string _ _ | .number _ _ | .nil _ | .ident _ _ => True
  | .array _ items => exprs items
  | .map _ parts => entries parts
  | .negate _ operand => expr operand
  | .binary _ _ left right => expr left ∧ expr right
  | .subscript _ container index => expr container ∧ expr index
  | .assign _ _ _ value => expr value
  | .store _ _ container index value => expr container ∧ expr index ∧ expr value
  | .call _ callee args => expr callee ∧ exprs args
  | .function _ => False

/-- Some expressions have no function literal in them. -/
def exprs : List Expr → Prop
  | [] => True
  | item :: items => expr item ∧ exprs items

/-- The entries of a map have no function literal in them. -/
def entries : List (String × Expr) → Prop
  | [] => True
  | (_, value) :: more => expr value ∧ entries more

end

mutual

theorem separated_expr : ∀ e : Expr, expr e → Separated.expr e
  | .string _ _, _ | .number _ _, _ | .nil _, _ | .ident _ _, _ => trivial
  | .array _ items, hfree => separated_exprs items hfree
  | .map _ parts, hfree => separated_entries parts hfree
  | .negate _ operand, hfree => separated_expr operand hfree
  | .binary _ _ left right, hfree => ⟨separated_expr left hfree.1, separated_expr right hfree.2⟩
  | .subscript _ container index, hfree =>
    ⟨separated_expr container hfree.1, separated_expr index hfree.2⟩
  | .assign _ _ _ value, hfree => separated_expr value hfree
  | .store _ _ container index value, hfree =>
    ⟨separated_expr container hfree.1, separated_expr index hfree.2.1,
      separated_expr value hfree.2.2⟩
  | .call _ callee args, hfree => ⟨separated_expr callee hfree.1, separated_exprs args hfree.2⟩
  | .function _, hfree => hfree.elim

theorem separated_exprs : ∀ items : List Expr, exprs items → Separated.exprs items
  | [], _ => trivial
  | item :: items, hfree => ⟨separated_expr item hfree.1, separated_exprs items hfree.2⟩

theorem separated_entries : ∀ parts : List (String × Expr), entries parts → Separated.entries parts
  | [], _ => trivial
  | (_, value) :: more, hfree => ⟨separated_expr value hfree.1, separated_entries more hfree.2⟩

end

end FunctionFree

/-! ## Counting parentheses -/

/-- The number of opening parentheses. -/
def parens (printed : List Terminal) : Nat :=
  printed.countP fun t => t.kind == .leftParen

@[simp]
theorem parens_nil : parens [] = 0 :=
  rfl

@[simp]
theorem parens_append (printed printed' : List Terminal) :
    parens (printed ++ printed') = parens printed + parens printed' :=
  List.countP_append

theorem parens_cons (t : Terminal) (printed : List Terminal) :
    parens (t :: printed) = parens printed + if t.kind == .leftParen then 1 else 0 :=
  List.countP_cons

@[simp]
theorem parens_ofKind_cons (kind : TokenKind) (printed : List Terminal) :
    parens (.ofKind kind :: printed) = parens printed + if kind == .leftParen then 1 else 0 :=
  parens_cons _ _

@[simp]
theorem parens_terminal_cons (t : Token) (printed : List Terminal) :
    parens (t.terminal :: printed) = parens printed + if t.kind == .leftParen then 1 else 0 :=
  parens_cons _ _

@[simp]
theorem parens_name_cons (text : String) (printed : List Terminal) :
    parens (Print.name text :: printed) = parens printed :=
  parens_cons _ _

@[simp]
theorem parens_key_cons (text : String) (printed : List Terminal) :
    parens (Print.key text :: printed) = parens printed := by
  have hother : ((Print.key text).kind == .leftParen) = false := by
    unfold Print.key
    split <;> rfl
  simp [parens_cons, hother]

theorem parens_fit (tier : Nat) (e : Expr) (printed : List Terminal) :
    parens (Print.fit tier e printed) = parens printed + if e.tier < tier then 1 else 0 := by
  unfold Print.fit
  split
  · simp [Print.parenthesized, Terminal.ofKind, parens]
  · rfl

theorem parens_tail_le (last : Bool) (printed : List Terminal) :
    parens (if last then [] else .ofKind .comma :: printed) ≤ parens printed := by
  cases last with
  | true => exact Nat.zero_le _
  | false => exact Nat.le_refl _

theorem parens_own
    {tier bound : Nat} {e : Expr} (hown : e.tier = tier) (hle : parens (Print.expr e) ≤ bound) :
    parens (Phrase.expr tier e).print ≤ bound := by
  rwa [Phrase.print, Print.fit_of_le (Nat.le_of_eq hown.symm)]

/-- The phrases that are made of expressions without functions. -/
def Phrase.FunctionFree : Phrase → Prop
  | .expr _ e => PuzzleLang.FunctionFree.expr e
  | .exprs es => PuzzleLang.FunctionFree.exprs es
  | .entries es => PuzzleLang.FunctionFree.entries es
  | _ => False

/-- A print has as few parentheses as any tokens from which its tree is derived. -/
theorem Derives.parens_print_le
    {phrase : Phrase} {ts : List Token} (h : Derives phrase ts) (hfree : phrase.FunctionFree) :
    parens phrase.print ≤ parens (ts.map Token.terminal) := by
  induction h with
  | assign _ hsign _ _ hvalue =>
    have hvalue := hvalue hfree
    rw [Phrase.print, Print.fit_one] at hvalue ⊢
    simp only [Print.expr, List.map_append, List.map_cons, parens_append, parens_name_cons,
      parens_ofKind_cons, parens_terminal_cons, hsign]
    omega
  | store _ hsign _ htarget hvalue =>
    have htarget := htarget ⟨hfree.1, hfree.2.1⟩
    have hvalue := hvalue hfree.2.2
    rw [Phrase.print, Print.fit_of_le (Nat.le_refl 7)] at htarget
    rw [Phrase.print, Print.fit_one] at hvalue ⊢
    simp only [Print.expr, List.map_append, List.map_cons, parens_append, parens_ofKind_cons,
      parens_terminal_cons, hsign] at htarget ⊢
    omega
  | binary _ hsign _ hleft hright =>
    have hleft := hleft hfree.1
    have hright := hright hfree.2
    rw [Phrase.print] at hleft hright
    refine parens_own rfl ?_
    simp only [Print.expr, List.map_append, List.map_cons, parens_append, parens_ofKind_cons,
      parens_terminal_cons, hsign]
    omega
  | looser _ _ hinner =>
    have hinner := hinner hfree
    rw [Phrase.print, parens_fit] at hinner ⊢
    split at hinner <;> split <;> omega
  | negate hsign _ hoperand =>
    have hoperand := hoperand hfree
    rw [Phrase.print] at hoperand
    refine parens_own rfl ?_
    simp only [Print.expr, List.map_cons, parens_ofKind_cons, parens_terminal_cons, hsign]
    omega
  | call _ hopening _ hclosing hcallee hargs =>
    have hcallee := hcallee hfree.1
    have hargs : parens (Print.exprs _) ≤ _ := hargs hfree.2
    rw [Phrase.print] at hcallee
    refine parens_own rfl ?_
    simp only [Print.expr, List.map_append, List.map_cons, List.map_nil, parens_append, parens_nil,
      parens_ofKind_cons, parens_terminal_cons, hopening, hclosing]
    omega
  | subscript _ hopening _ hclosing hcontainer hindex =>
    have hcontainer := hcontainer hfree.1
    have hindex := hindex hfree.2
    rw [Phrase.print] at hcontainer
    rw [Phrase.print, Print.fit_one] at hindex
    refine parens_own rfl ?_
    simp only [Print.expr, List.map_append, List.map_cons, List.map_nil, parens_append, parens_nil,
      parens_ofKind_cons, parens_terminal_cons, hopening, hclosing]
    omega
  | array hopening _ hclosing hinner | map hopening _ hclosing hinner =>
    have hinner := hinner hfree
    rw [Phrase.print] at hinner
    refine parens_own rfl ?_
    simp only [Print.expr, List.map_append, List.map_cons, List.map_nil, parens_append, parens_nil,
      parens_ofKind_cons, parens_terminal_cons, hopening, hclosing]
    omega
  | parenthesized hopening _ _ hinner =>
    have hinner := hinner hfree
    rw [Phrase.print, Print.fit_one] at hinner
    rw [Phrase.print, parens_fit]
    simp only [List.map_append, List.map_cons, parens_append, parens_terminal_cons, hopening,
      beq_self_eq_true, if_true]
    split <;> omega
  | lastExpr _ hitem =>
    have hitem := hitem hfree.1
    rw [Phrase.print, Print.fit_one] at hitem
    rwa [Phrase.print, Print.exprs, List.isEmpty_nil, if_pos rfl, List.append_nil]
  | @consExpr _ items _ _ _ _ _ _ hitem hmore =>
    have hitem := hitem hfree.1
    have hmore := hmore hfree.2
    have htail := parens_tail_le items.isEmpty (Print.exprs items)
    rw [Phrase.print, Print.fit_one] at hitem
    rw [Phrase.print] at hmore
    simp only [Phrase.print, Print.exprs, List.map_append, List.map_cons, parens_append,
      parens_terminal_cons]
    omega
  | lastEntry _ hcolon _ hvalue =>
    have hvalue := hvalue hfree.1
    rw [Phrase.print, Print.fit_one] at hvalue
    simp only [Phrase.print, Print.entries, List.isEmpty_nil, if_true, List.append_nil,
      List.map_cons, parens_key_cons, parens_ofKind_cons, parens_terminal_cons, hcolon]
    omega
  | @consEntry _ parts _ _ _ _ _ _ hcolon _ _ _ hvalue hmore =>
    have hvalue := hvalue hfree.1
    have hmore := hmore hfree.2
    have htail := parens_tail_le parts.isEmpty (Print.entries parts)
    rw [Phrase.print, Print.fit_one] at hvalue
    rw [Phrase.print] at hmore
    simp only [Phrase.print, Print.entries, List.map_append, List.map_cons, parens_append,
      parens_key_cons, parens_ofKind_cons, parens_terminal_cons, hcolon]
    omega
  | string | number | nil | ident | noExprs | noEntries => exact Nat.zero_le _
  | _ => exact hfree.elim

/-! ## Reading expressions -/

theorem Parse.not_continues_one
    {kind : TokenKind}
    (hkind : kind ∉ [.assign, .both, .either, .equal, .notEqual, .less, .lessEqual, .greater,
      .greaterEqual, .plus, .minus, .star, .slash, .percent, .leftParen, .leftBracket]) :
    ¬kind.continues 1 := by
  cases kind <;> first | decide | exact absurd hkind (by decide)

theorem Parse.Gives.unique
    {α : Type} {ts rest rest' : List Token} {result : Except Fault (Parsed α ts)} {value value' : α}
    (h : Gives result value rest) (h' : Gives result value' rest') :
    value = value' := by
  obtain ⟨_, rfl⟩ := h
  obtain ⟨_, hequation⟩ := h'
  cases hequation
  rfl

/-- An expression before a token that is neither an operator nor an opening parenthesis or bracket
is read as its tree, and it has only one.  A tree without functions is read from its print, and
every other way to write it has at least as many parentheses. -/
theorem Parse.gives_expr
    {ending : Ending} {rest : List Token}
    (hvisible : Visible ending rest)
    (hrest : viewKind rest ∉ [.assign, .both, .either, .equal, .notEqual, .less, .lessEqual,
      .greater, .greaterEqual, .plus, .minus, .star, .slash, .percent, .leftParen, .leftBracket]) :
    (∀ {e : Expr} {ts : List Token}, Derives (.expr 1 e) ts →
      Gives (expr ending 1 (ts ++ rest)) e rest ∧
        ∀ {e' : Expr}, Derives (.expr 1 e') ts → e' = e) ∧
    ∀ {e : Expr}, FunctionFree.expr e →
      (∀ {ts : List Token}, ts.map Token.terminal = Print.expr e →
        ∃ e', Gives (expr ending 1 (ts ++ rest)) e' rest ∧ Erase.expr e' = Erase.expr e) ∧
      ∀ {ts : List Token}, Derives (.expr 1 e) ts →
        parens (Print.expr e) ≤ parens (ts.map Token.terminal) := by
  have hreads {e : Expr} {ts : List Token} (hderives : Derives (.expr 1 e) ts) :
      Gives (expr ending 1 (ts ++ rest)) e rest :=
    reads_of_derives hderives hvisible (not_continues_one hrest)
  constructor
  · intro e ts hderives
    exact ⟨hreads hderives, fun hother => (hreads hother).unique (hreads hderives)⟩
  · intro e hfree
    constructor
    · intro ts hspelled
      have hseparated := FunctionFree.separated_expr e hfree
      obtain ⟨e', hderives, hsame⟩ := (derives_expr e hseparated).expr hspelled
      exact ⟨e', hreads hderives, hsame⟩
    · intro ts hderives
      have hfewest := hderives.parens_print_le hfree
      rwa [Phrase.print, Print.fit_one] at hfewest

/-- Every tier but the last two, with the only parentheses that are needed. -/
theorem Parse.gives_expr_mixed :
    ∃ e', Gives (expr (.eof 40) 1
        ([⟨.identifier, "x", 0⟩, ⟨.assign, "=", 2⟩, ⟨.number, "1", 4⟩, ⟨.minus, "-", 6⟩,
          ⟨.leftParen, "(", 8⟩, ⟨.identifier, "y", 9⟩, ⟨.minus, "-", 11⟩, ⟨.number, "20", 13⟩,
          ⟨.rightParen, ")", 15⟩, ⟨.star, "*", 17⟩, ⟨.number, "3", 19⟩, ⟨.equal, "==", 21⟩,
          ⟨.number, "4", 24⟩, ⟨.either, "||", 26⟩, ⟨.minus, "-", 29⟩, ⟨.identifier, "z", 30⟩] ++
          [⟨.rightBrace, "\x7d", 32⟩])) e' [⟨.rightBrace, "\x7d", 32⟩] ∧
      Erase.expr e' = .assign 0 0 "x" (.binary 0 .either
        (.binary 0 .equal
          (.binary 0 .subtract (.number 0 1)
            (.binary 0 .multiply (.binary 0 .subtract (.ident 0 "y") (.number 0 20))
              (.number 0 3)))
          (.number 0 4))
        (.negate 0 (.ident 0 "z"))) := by
  have hfree : FunctionFree.expr (.assign 0 0 "x" (.binary 0 .either
      (.binary 0 .equal
        (.binary 0 .subtract (.number 0 1)
          (.binary 0 .multiply (.binary 0 .subtract (.ident 0 "y") (.number 0 20))
            (.number 0 3)))
        (.number 0 4))
      (.negate 0 (.ident 0 "z")))) := by
    simp [FunctionFree.expr]
  exact ((Parse.gives_expr (visible_cons ..) (by decide)).2 hfree).1 (by decide)

end PuzzleLang
