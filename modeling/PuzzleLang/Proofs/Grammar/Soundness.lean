import PuzzleLang.Proofs.Grammar.Shape
import PuzzleLang.Proofs.Token.Terminal

/-!
# Soundness of reading

Whatever a reader gives has a derivation from exactly the tokens that the reader has passed.  There
is one lemma for each reader, which assumes the statement for readings of fewer tokens; an induction
on the number of tokens ties them together.

Two of the readers go on after something that has been read already, and their lemmas carry a
derivation of it.  For `climb` this is a derivation at some tier above which no operator follows;
combining it with the next operator then gives a derivation at the tier of that operator.
-/

namespace PuzzleLang.Parse

/-- A phrase is derived from the tokens before `rest`. -/
def Passes (ending : Ending) (phrase : Phrase) (ts rest : List Token) : Prop :=
  ∃ front, ts = front ++ rest ∧ Derives phrase front ∧ Visible ending rest

/-- A phrase is derived from the tokens before a closing token, and `rest` follows. -/
def PassesClosed (ending : Ending) (phrase : Phrase) (closing : TokenKind) (ts rest : List Token) :
    Prop :=
  ∃ front last, ts = front ++ last :: rest ∧ last.kind = closing ∧ Derives phrase front ∧
    Visible ending rest

/-- An expression is derived from the tokens before `rest`, with which it does not go on. -/
def PassesExpr (ending : Ending) (least : Nat) (e : Expr) (ts rest : List Token) : Prop :=
  Passes ending (.expr least e) ts rest ∧ ¬(viewKind rest).continues least

/-- Every reading of fewer than `n` tokens has a derivation. -/
structure SoundBelow (ending : Ending) (n : Nat) : Prop where
  expr {least : Nat} {e : Expr} {ts rest : List Token} :
    ts.length < n → 1 ≤ least → least ≤ 6 → Gives (expr ending least ts) e rest →
      PassesExpr ending least e ts rest
  unary {e : Expr} {ts rest : List Token} :
    ts.length < n → Gives (unary ending ts) e rest →
      Passes ending (.expr 6 e) ts rest ∧ ¬(viewKind rest).continues 7
  exprs {closing : TokenKind} {es : List Expr} {ts rest : List Token} :
    ts.length < n → Gives (exprs ending closing ts) es rest →
      PassesClosed ending (.exprs es) closing ts rest
  entries {es : List (String × Expr)} {ts rest : List Token} :
    ts.length < n → Gives (entries ending ts) es rest →
      PassesClosed ending (.entries es) .rightBrace ts rest
  function {f : Function} {ts rest : List Token} :
    ts.length < n → Gives (function ending ts) f rest → Passes ending (.function f) ts rest
  block {b : Block} {ts rest : List Token} :
    ts.length < n → Gives (block ending ts) b rest → Passes ending (.block b) ts rest
  statements {ss : List Stmt} {ts rest : List Token} :
    ts.length < n → Gives (statements ending ts) ss rest →
      PassesClosed ending (.statements ss) .rightBrace ts rest
  conditional {c : Conditional} {ts rest : List Token} :
    ts.length < n → Gives (conditional ending ts) c rest → Passes ending (.conditional c) ts rest
  arms {as : List Arm} {ts rest : List Token} :
    ts.length < n → Gives (arms ending ts) as rest →
      PassesClosed ending (.arms as) .rightBrace ts rest

theorem params_derives
    {ending : Ending} {ts rest : List Token} {names : List String}
    (h : Gives (params ending ts) names rest) :
    PassesClosed ending (.params names) .rightParen ts rest := by
  rw [params] at h
  split at h
  · simp only [gives_bind_iff, gives_expect_iff, gives_pure_iff, List.mem_singleton] at h
    obtain ⟨closing, left, -, ⟨rfl, hkind, hvisible⟩, rfl, rfl⟩ := h
    exact ⟨[], closing, rfl, hkind, .noParams, hvisible⟩
  · simp only [gives_bind_iff, gives_expect_iff, List.mem_singleton] at h
    obtain ⟨param, left, hshorter, ⟨rfl, hname, -⟩, h⟩ := h
    split at h
    · simp only [gives_bind_iff, gives_expect_iff, gives_pure_iff, List.mem_singleton] at h
      obtain ⟨comma, left', -, ⟨rfl, hbetween, -⟩, more, left'', -, hgiven, rfl, rfl⟩ := h
      obtain ⟨front, closing, rfl, hkind, hderives, hvisible⟩ := params_derives hgiven
      exact ⟨param :: comma :: front, closing, rfl, hkind, .consParam hname hbetween hderives,
        hvisible⟩
    · simp only [gives_bind_iff, gives_expect_iff, gives_pure_iff, List.mem_singleton] at h
      obtain ⟨closing, left', -, ⟨rfl, hkind, hvisible⟩, rfl, rfl⟩ := h
      exact ⟨[param], closing, rfl, hkind, .lastParam hname, hvisible⟩
termination_by ts.length

theorem loopIndex_cases
    {ending : Ending} {ts rest : List Token} {index : Option String}
    (h : Gives (loopIndex ending ts) index rest) :
    (∃ within, ts = within :: rest ∧ within.kind = .inWord ∧ index = none) ∨
    ∃ comma name within, ts = comma :: name :: within :: rest ∧ comma.kind = .comma ∧
      name.kind = .identifier ∧ within.kind = .inWord ∧ index = some name.text := by
  rw [loopIndex] at h
  split at h
  · simp only [gives_bind_iff, gives_expect_iff, gives_pure_iff, List.mem_singleton] at h
    obtain ⟨comma, left, -, ⟨rfl, hcomma, -⟩, name, left₁, -, ⟨rfl, hname, -⟩, within, left₂, -,
      ⟨rfl, hwithin, -⟩, rfl, rfl⟩ := h
    exact .inr ⟨comma, name, within, rfl, hcomma, hname, hwithin, rfl⟩
  · simp only [gives_bind_iff, gives_expect_iff, gives_pure_iff, List.mem_singleton] at h
    obtain ⟨within, left, -, ⟨rfl, hwithin, -⟩, rfl, rfl⟩ := h
    exact .inl ⟨within, rfl, hwithin, rfl⟩

section

variable {ending : Ending} {n : Nat} (hbelow : SoundBelow ending n)

include hbelow

/-! ## Expressions -/

theorem extend_derives
    {ts before rest out : List Token} {head e : Expr} {start : Nat}
    {hshorter : rest.length < ts.length}
    (hlength_le : rest.length ≤ n) (hstarts : start = firstOffset before)
    (hderives : Derives (.expr 7 head) before) (hvisible : Visible ending rest)
    (h : Gives (extend ending start ts head rest hshorter) e out) :
    ∃ front, rest = front ++ out ∧ Derives (.expr 7 e) (before ++ front) ∧
      ¬(viewKind out).continues 7 ∧ Visible ending out := by
  cases rest with
  | nil =>
    rw [extend] at h
    obtain ⟨rfl, rfl⟩ := gives_pure_iff.mp h
    exact ⟨[], rfl, by simpa using hderives, by decide, hvisible⟩
  | cons t rest =>
    have hstarts' (more : List Token) : start = firstOffset (before ++ more) := by
      rw [hstarts, firstOffset_append hderives.expr_ne_nil]
    simp only [List.length_cons] at hlength_le
    rw [extend] at h
    split at h
    · rename_i hopening
      simp only [gives_bring_iff, gives_bind_iff] at h
      obtain ⟨-, args, left, hshorter', hgiven, h⟩ := h
      obtain ⟨front, closing, rfl, hkind, hderives', hvisible'⟩ := hbelow.exprs (by omega) hgiven
      have hwhole := Derives.call hderives hopening hderives' hkind
      rw [← hstarts, List.append_assoc] at hwhole
      obtain ⟨front', rfl, hderives'', hends, hvisible''⟩ :=
        extend_derives (by omega) (hstarts' _) hwhole hvisible' h
      exact ⟨t :: front ++ closing :: front', by simp, by simpa using hderives'', hends, hvisible''⟩
    · split at h
      · rename_i hopening
        simp only [gives_bring_iff, gives_bind_iff, gives_expect_iff, List.mem_singleton] at h
        obtain ⟨-, key, left, hshorter₁, hgiven, closing, left', hshorter₂, ⟨rfl, hkind, hvisible'⟩,
          h⟩ := h
        obtain ⟨⟨front, rfl, hderives', -⟩, -⟩ :=
          hbelow.expr (by omega) (Nat.le_refl 1) (by decide) hgiven
        have hwhole := Derives.subscript hderives hopening hderives' hkind
        rw [List.append_assoc] at hwhole
        obtain ⟨front', rfl, hderives'', hends, hvisible''⟩ :=
          extend_derives (by omega) (hstarts' _) hwhole hvisible' h
        exact ⟨t :: front ++ closing :: front', by simp, by simpa using hderives'', hends,
          hvisible''⟩
      · rename_i hnoParen hnoBracket
        obtain ⟨rfl, rfl⟩ := gives_pure_iff.mp h
        refine ⟨[], rfl, by simpa using hderives, ?_, hvisible⟩
        rw [TokenKind.continues_seven_iff]
        exact fun hopens => hopens.elim hnoParen hnoBracket
termination_by rest.length

theorem function_derives
    {ts rest : List Token} {f : Function}
    (hlength_le : ts.length ≤ n) (h : Gives (function ending ts) f rest) :
    Passes ending (.function f) ts rest := by
  rw [function] at h
  simp only [gives_bind_iff, gives_expect_iff, List.mem_singleton] at h
  obtain ⟨word, left, hshorter, ⟨rfl, hword, -⟩, h⟩ := h
  split at h
  · simp only [gives_bind_iff, gives_expect_iff, gives_pure_iff, List.mem_singleton] at h
    obtain ⟨name, left₁, hshorter₁, ⟨rfl, hname, -⟩, opening, left₂, hshorter₂, ⟨rfl, hopening, -⟩,
      names, left₃, hshorter₃, hgiven, body, left₄, -, hgiven', rfl, rfl⟩ := h
    obtain ⟨front, closing, rfl, hclosing, hderives, -⟩ := params_derives hgiven
    obtain ⟨front', rfl, hderives', hvisible⟩ := hbelow.block (by omega) hgiven'
    exact ⟨word :: name :: opening :: front ++ closing :: front', by simp,
      .named hword hname hopening hderives hclosing hderives', hvisible⟩
  · simp only [gives_bind_iff, gives_expect_iff, gives_pure_iff, List.mem_singleton] at h
    obtain ⟨opening, left₂, hshorter₂, ⟨rfl, hopening, -⟩, names, left₃, hshorter₃, hgiven, body,
      left₄, -, hgiven', rfl, rfl⟩ := h
    obtain ⟨front, closing, rfl, hclosing, hderives, -⟩ := params_derives hgiven
    obtain ⟨front', rfl, hderives', hvisible⟩ := hbelow.block (by omega) hgiven'
    exact ⟨word :: opening :: front ++ closing :: front', by simp,
      .unnamed hword hopening hderives hclosing hderives', hvisible⟩

theorem primary_derives
    {ts rest : List Token} {e : Expr}
    (hlength_le : ts.length ≤ n) (h : Gives (primary ending ts) e rest) :
    Passes ending (.expr 8 e) ts rest := by
  cases ts with
  | nil => exact (Nat.not_lt_zero _ h.shorter).elim
  | cons t ts =>
    have hsingle {found : Expr} (hderives : Derives (.expr 8 found) [t])
        (h : Visible ending ts ∧ found = e ∧ ts = rest) :
        Passes ending (.expr 8 e) (t :: ts) rest := by
      obtain ⟨hvisible, rfl, rfl⟩ := h
      exact ⟨[t], rfl, hderives, hvisible⟩
    rw [primary] at h
    split at h
    · rename_i hkind
      rw [gives_bring_iff, gives_pure_iff] at h
      exact hsingle (.string hkind) h
    · rename_i hkind
      rw [gives_bring_iff, gives_pure_iff, digitsValue_eq_placeValue] at h
      exact hsingle (.number hkind) h
    · rename_i hkind
      rw [gives_bring_iff, gives_pure_iff] at h
      exact hsingle (.nil hkind) h
    · rename_i hkind
      rw [gives_bring_iff, gives_pure_iff] at h
      exact hsingle (.ident hkind) h
    · rename_i hopening
      simp only [gives_bring_iff, gives_bind_iff, gives_pure_iff] at h
      obtain ⟨-, items, left, -, hgiven, rfl, rfl⟩ := h
      obtain ⟨front, closing, rfl, hkind, hderives, hvisible⟩ := hbelow.exprs hlength_le hgiven
      exact ⟨t :: front ++ [closing], by simp, .array hopening hderives hkind, hvisible⟩
    · rename_i hopening
      simp only [gives_bring_iff, gives_bind_iff, gives_pure_iff] at h
      obtain ⟨-, items, left, -, hgiven, rfl, rfl⟩ := h
      obtain ⟨front, closing, rfl, hkind, hderives, hvisible⟩ := hbelow.entries hlength_le hgiven
      exact ⟨t :: front ++ [closing], by simp, .map hopening hderives hkind, hvisible⟩
    · rename_i hopening
      simp only [gives_bring_iff, gives_bind_iff, gives_expect_iff, gives_pure_iff,
        List.mem_singleton] at h
      obtain ⟨-, inner, left, -, hgiven, closing, left', -, ⟨rfl, hkind, hvisible⟩, rfl, rfl⟩ := h
      obtain ⟨⟨front, rfl, hderives, -⟩, -⟩ :=
        hbelow.expr hlength_le (Nat.le_refl 1) (by decide) hgiven
      exact ⟨t :: front ++ [closing], by simp, .parenthesized hopening hderives hkind, hvisible⟩
    · simp only [gives_bind_iff, gives_pure_iff] at h
      obtain ⟨f, left, -, hgiven, rfl, rfl⟩ := h
      obtain ⟨front, hequation, hderives, hvisible⟩ := function_derives hbelow hlength_le hgiven
      exact ⟨front, hequation, .functionExpr hderives, hvisible⟩
    · exact (not_gives_failHere h).elim

theorem postfixed_derives
    {ts rest : List Token} {e : Expr}
    (hlength_le : ts.length ≤ n) (h : Gives (postfixed ending ts) e rest) :
    Passes ending (.expr 7 e) ts rest ∧ ¬(viewKind rest).continues 7 := by
  rw [postfixed] at h
  simp only [gives_bind_iff] at h
  obtain ⟨head, left, hshorter, hgiven, h⟩ := h
  obtain ⟨front, rfl, hderives, hvisible⟩ := primary_derives hbelow hlength_le hgiven
  obtain ⟨more, rfl, hderives', hstops, hvisible'⟩ :=
    extend_derives hbelow (by omega) (hderives.viewOffset_append ending left)
      (hderives.looser (by decide)) hvisible h
  exact ⟨⟨front ++ more, by simp, hderives', hvisible'⟩, hstops⟩

theorem unary_derives
    {ts rest : List Token} {e : Expr}
    (hlength_le : ts.length ≤ n) (h : Gives (unary ending ts) e rest) :
    Passes ending (.expr 6 e) ts rest ∧ ¬(viewKind rest).continues 7 := by
  cases ts with
  | nil => exact (Nat.not_lt_zero _ h.shorter).elim
  | cons t ts =>
    rw [unary] at h
    split at h
    · rename_i hsign
      simp only [gives_bring_iff, gives_bind_iff, gives_pure_iff] at h
      obtain ⟨-, operand, left, hshorter, hgiven, rfl, rfl⟩ := h
      obtain ⟨⟨front, rfl, hderives, hvisible⟩, hstops⟩ := hbelow.unary hlength_le hgiven
      exact ⟨⟨t :: front, rfl, .negate hsign hderives, hvisible⟩, hstops⟩
    · obtain ⟨⟨front, hequation, hderives, hvisible⟩, hstops⟩ :=
        postfixed_derives hbelow hlength_le h
      exact ⟨⟨front, hequation, hderives.looser (by decide), hvisible⟩, hstops⟩

theorem climb_derives
    {least tier : Nat} {ts before rest out : List Token} {left e : Expr}
    {hshorter : rest.length < ts.length}
    (hlength_le : rest.length ≤ n) (hpos : 1 ≤ least) (hle : least ≤ tier) (hle_six : tier ≤ 6)
    (hderives : Derives (.expr tier left) before) (hstops : ¬(viewKind rest).continues (tier + 1))
    (hvisible : Visible ending rest) (h : Gives (climb ending least ts left rest hshorter) e out) :
    ∃ front, rest = front ++ out ∧ Derives (.expr least e) (before ++ front) ∧
      ¬(viewKind out).continues least ∧ Visible ending out := by
  -- Where climbing ends, the operand itself is the result.
  have hfinish (h : left = e ∧ rest = out) (hends : ¬(viewKind rest).continues least) :
      ∃ front, rest = front ++ out ∧ Derives (.expr least e) (before ++ front) ∧
        ¬(viewKind out).continues least ∧ Visible ending out := by
    obtain ⟨rfl, rfl⟩ := h
    exact ⟨[], rfl, by simpa using hderives.loosen hpos hle, hends, hvisible⟩
  cases rest with
  | nil =>
    rw [climb] at h
    exact hfinish (gives_pure_iff.mp h) (by simp [viewKind, TokenKind.continues])
  | cons t rest =>
    simp only [List.length_cons] at hlength_le
    rw [climb] at h
    split at h
    · rename_i hsign
      rw [viewKind, hsign] at hfinish
      split at h
      · rename_i habove
        exact hfinish (gives_pure_iff.mp h) (by rw [TokenKind.continues_assign_iff]; omega)
      · rw [gives_bring_iff] at h
        obtain ⟨-, h⟩ := h
        split at h
        · exact (not_gives_error h).elim
        · rename_i target htarget
          simp only [gives_bind_iff] at h
          obtain ⟨value, rest', hshorter', hgiven, h⟩ := h
          obtain ⟨⟨front, rfl, hderives', hvisible'⟩, hstops'⟩ :=
            hbelow.expr (by omega) (Nat.le_refl 1) (by decide) hgiven
          have hwhole := Derives.assign_target
            (hderives.tighten (by omega) (Expr.le_tier_of_target? htarget)) htarget hsign hderives'
          have hstops'' : ¬(viewKind rest').continues 2 := fun hgoesOn =>
            hstops' (TokenKind.continues_of_le (by decide) hgoesOn)
          obtain ⟨front', rfl, hderives'', hends, hvisible''⟩ :=
            climb_derives (by omega) hpos (by omega) (by decide) hwhole hstops'' hvisible' h
          exact ⟨t :: front ++ front', by simp, by simpa using hderives'', hends, hvisible''⟩
    · split at h
      · rename_i hnoAssign _ hnoOperator
        refine hfinish (gives_pure_iff.mp h) fun hgoesOn => hstops ?_
        exact TokenKind.continues_of_no_operator hnoAssign hnoOperator hgoesOn
      · rename_i op hfound
        have hsign := Operator.kind_of_ofKind? hfound
        rw [viewKind, TokenKind.continues_operator_iff hfound] at hstops hfinish
        rw [op.strength_eq_tier] at h
        split at h
        · rename_i hweaker
          exact hfinish (gives_pure_iff.mp h) (by omega)
        · rw [gives_bring_iff] at h
          obtain ⟨-, h⟩ := h
          simp only [gives_bind_iff] at h
          obtain ⟨right, rest', hshorter', hgiven, h⟩ := h
          have htwo_le := op.two_le_tier
          have htier_le := op.tier_le
          obtain ⟨⟨front, rfl, hderives', hvisible'⟩, hstops'⟩ :=
            hbelow.expr (by omega) (by omega) (by omega) hgiven
          have hwhole := Derives.binary
            (hderives.loosen (by omega) (by omega)) hsign.symm hderives'
          obtain ⟨front', rfl, hderives'', hends, hvisible''⟩ :=
            climb_derives (by omega) hpos (by omega) (by omega) hwhole hstops' hvisible' h
          exact ⟨t :: front ++ front', by simp, by simpa using hderives'', hends, hvisible''⟩
termination_by rest.length

theorem expr_derives
    {least : Nat} {ts rest : List Token} {e : Expr}
    (hlength_le : ts.length ≤ n) (hpos : 1 ≤ least) (hle : least ≤ 6)
    (h : Gives (expr ending least ts) e rest) :
    PassesExpr ending least e ts rest := by
  rw [expr] at h
  simp only [gives_bind_iff] at h
  obtain ⟨left, mid, hshorter, hgiven, h⟩ := h
  obtain ⟨⟨front, rfl, hderives, hvisible⟩, hstops⟩ := unary_derives hbelow hlength_le hgiven
  obtain ⟨more, rfl, hderives', hstops', hvisible'⟩ :=
    climb_derives hbelow (by omega) hpos hle (Nat.le_refl 6) hderives hstops hvisible h
  exact ⟨⟨front ++ more, by simp, hderives', hvisible'⟩, hstops'⟩

theorem exprs_derives
    {closing : TokenKind} {ts rest : List Token} {es : List Expr}
    (hlength_le : ts.length ≤ n) (h : Gives (exprs ending closing ts) es rest) :
    PassesClosed ending (.exprs es) closing ts rest := by
  rw [exprs] at h
  split at h
  · simp only [gives_bind_iff, gives_expect_iff, gives_pure_iff, List.mem_singleton] at h
    obtain ⟨last, left, -, ⟨rfl, hkind, hvisible⟩, rfl, rfl⟩ := h
    exact ⟨[], last, rfl, hkind, .noExprs, hvisible⟩
  · simp only [gives_bind_iff] at h
    obtain ⟨item, left, hshorter, hgiven, h⟩ := h
    obtain ⟨⟨front, rfl, hderives, -⟩, -⟩ :=
      expr_derives hbelow hlength_le (Nat.le_refl 1) (by decide) hgiven
    split at h
    · simp only [gives_bind_iff, gives_expect_iff, gives_pure_iff, List.mem_singleton] at h
      obtain ⟨comma, left', hshorter', ⟨rfl, hbetween, -⟩, more, left'', -, hgiven', rfl, rfl⟩ := h
      obtain ⟨front', last, rfl, hkind, hderives', hvisible⟩ := hbelow.exprs (by omega) hgiven'
      exact ⟨front ++ comma :: front', last, by simp, hkind, .consExpr hderives hbetween hderives',
        hvisible⟩
    · simp only [gives_bind_iff, gives_expect_iff, gives_pure_iff, List.mem_singleton] at h
      obtain ⟨last, left', -, ⟨rfl, hkind, hvisible⟩, rfl, rfl⟩ := h
      exact ⟨front, last, rfl, hkind, .lastExpr hderives, hvisible⟩

theorem entries_derives
    {ts rest : List Token} {es : List (String × Expr)}
    (hlength_le : ts.length ≤ n) (h : Gives (entries ending ts) es rest) :
    PassesClosed ending (.entries es) .rightBrace ts rest := by
  rw [entries] at h
  split at h
  · simp only [gives_bind_iff, gives_expect_iff, gives_pure_iff, List.mem_singleton] at h
    obtain ⟨last, left, -, ⟨rfl, hkind, hvisible⟩, rfl, rfl⟩ := h
    exact ⟨[], last, rfl, hkind, .noEntries, hvisible⟩
  · simp only [gives_bind_iff, gives_expect_iff, List.mem_singleton] at h
    obtain ⟨key, left, hshorter, ⟨rfl, hkey, -⟩, colon, left', hshorter', ⟨rfl, hcolon, -⟩, value,
      left'', hshorter'', hgiven, h⟩ := h
    obtain ⟨⟨front, rfl, hderives, -⟩, -⟩ :=
      hbelow.expr (by omega) (Nat.le_refl 1) (by decide) hgiven
    split at h
    · simp only [gives_bind_iff, gives_expect_iff, gives_pure_iff, List.mem_singleton] at h
      obtain ⟨comma, left₃, hshorter₃, ⟨rfl, hbetween, -⟩, more, left₄, -, hgiven', rfl, rfl⟩ := h
      obtain ⟨front', last, rfl, hkind, hderives', hvisible⟩ := hbelow.entries (by omega) hgiven'
      exact ⟨key :: colon :: front ++ comma :: front', last, by simp, hkind,
        .consEntry hkey hcolon hderives hbetween hderives', hvisible⟩
    · simp only [gives_bind_iff, gives_expect_iff, gives_pure_iff, List.mem_singleton] at h
      obtain ⟨last, left', -, ⟨rfl, hkind, hvisible⟩, rfl, rfl⟩ := h
      exact ⟨key :: colon :: front, last, rfl, hkind, .lastEntry hkey hcolon hderives, hvisible⟩

/-! ## Statements -/

theorem block_derives
    {ts rest : List Token} {b : Block}
    (hlength_le : ts.length ≤ n) (h : Gives (block ending ts) b rest) :
    Passes ending (.block b) ts rest := by
  rw [block] at h
  simp only [gives_bind_iff, gives_expect_iff, gives_pure_iff, List.mem_singleton] at h
  obtain ⟨opening, left, hshorter, ⟨rfl, hopening, -⟩, ss, left', -, hgiven, rfl, rfl⟩ := h
  obtain ⟨front, closing, rfl, hclosing, hderives, hvisible⟩ := hbelow.statements hlength_le hgiven
  exact ⟨opening :: front ++ [closing], by simp, .block hopening hderives hclosing, hvisible⟩

theorem conditional_derives
    {ts rest : List Token} {c : Conditional}
    (hlength_le : ts.length ≤ n) (h : Gives (conditional ending ts) c rest) :
    Passes ending (.conditional c) ts rest := by
  rw [conditional] at h
  simp only [gives_bind_iff, gives_expect_iff, List.mem_singleton] at h
  obtain ⟨word, left, hshorter, ⟨rfl, hword, -⟩, condition, left₁, hshorter₁, hgiven₁, body, left₂,
    hshorter₂, hgiven₂, h⟩ := h
  obtain ⟨⟨front₁, rfl, hderives₁, -⟩, -⟩ :=
    hbelow.expr hlength_le (Nat.le_refl 1) (by decide) hgiven₁
  obtain ⟨front₂, rfl, hderives₂, hvisible⟩ := hbelow.block (by omega) hgiven₂
  split at h
  · simp only [gives_bind_iff, gives_expect_iff, List.mem_singleton] at h
    obtain ⟨between, left₃, hshorter₃, ⟨rfl, hbetween, -⟩, h⟩ := h
    split at h
    · simp only [gives_bind_iff, gives_pure_iff] at h
      obtain ⟨other, left₄, -, hgiven₄, rfl, rfl⟩ := h
      obtain ⟨front₄, rfl, hderives₄, hvisible⟩ := hbelow.conditional (by omega) hgiven₄
      exact ⟨word :: front₁ ++ front₂ ++ between :: front₄, by simp,
        .ifElseIf hword hderives₁ hderives₂ hbetween hderives₄, hvisible⟩
    · simp only [gives_bind_iff, gives_pure_iff] at h
      obtain ⟨other, left₄, -, hgiven₄, rfl, rfl⟩ := h
      obtain ⟨front₄, rfl, hderives₄, hvisible⟩ := hbelow.block (by omega) hgiven₄
      exact ⟨word :: front₁ ++ front₂ ++ between :: front₄, by simp,
        .ifElse hword hderives₁ hderives₂ hbetween hderives₄, hvisible⟩
  · obtain ⟨rfl, rfl⟩ := gives_pure_iff.mp h
    exact ⟨word :: front₁ ++ front₂, by simp, .onlyIf hword hderives₁ hderives₂, hvisible⟩

theorem arms_derives
    {ts rest : List Token} {as : List Arm}
    (hlength_le : ts.length ≤ n) (h : Gives (arms ending ts) as rest) :
    PassesClosed ending (.arms as) .rightBrace ts rest := by
  rw [arms] at h
  split at h
  · simp only [gives_bind_iff, gives_expect_iff, gives_pure_iff, List.mem_singleton] at h
    obtain ⟨last, left, -, ⟨rfl, hkind, hvisible⟩, rfl, rfl⟩ := h
    exact ⟨[], last, rfl, hkind, .noArms, hvisible⟩
  · simp only [gives_bind_iff, gives_expect_iff, gives_pure_iff, List.mem_singleton] at h
    obtain ⟨pattern, left, hshorter, hgiven, colon, left₁, hshorter₁, ⟨rfl, hcolon, -⟩, body, left₂,
      hshorter₂, hgiven₂, more, left₃, -, hgiven₃, rfl, rfl⟩ := h
    obtain ⟨⟨front, rfl, hderives, -⟩, -⟩ :=
      expr_derives hbelow hlength_le (Nat.le_refl 1) (by decide) hgiven
    obtain ⟨front₂, rfl, hderives₂, -⟩ := hbelow.block (by omega) hgiven₂
    obtain ⟨front₃, last, rfl, hkind, hderives₃, hvisible⟩ := hbelow.arms (by omega) hgiven₃
    exact ⟨front ++ colon :: front₂ ++ front₃, last, by simp, hkind,
      .consArm hderives hcolon hderives₂ hderives₃, hvisible⟩

theorem loop_derives
    {ts rest : List Token} {s : Stmt}
    (hlength_le : ts.length ≤ n) (hloop : viewKind ts = .forWord)
    (h : Gives (statement ending ts) s rest) :
    ∃ front, ts = front ++ rest ∧ Derives (.statement s) front ∧ s.isOpen = false := by
  rw [statement] at h
  simp only [hloop, gives_bind_iff, gives_expect_iff, List.mem_singleton] at h
  obtain ⟨word, left, hshorter, ⟨rfl, hword, -⟩, h⟩ := h
  split at h
  · simp only [gives_bind_iff, gives_pure_iff] at h
    obtain ⟨body, left₁, -, hgiven, rfl, rfl⟩ := h
    obtain ⟨front, rfl, hderives, -⟩ := hbelow.block hlength_le hgiven
    exact ⟨word :: front, rfl, .forever hword hderives, rfl⟩
  · simp only [gives_bind_iff, gives_expect_iff, gives_pure_iff, List.mem_singleton] at h
    obtain ⟨item, left₁, hshorter₁, ⟨rfl, hitem, -⟩, index, left₂, hshorter₂, hgiven₂, iterable,
      left₃, hshorter₃, hgiven₃, body, left₄, -, hgiven₄, rfl, rfl⟩ := h
    obtain ⟨⟨front₃, rfl, hderives₃, -⟩, -⟩ :=
      hbelow.expr (by omega) (Nat.le_refl 1) (by decide) hgiven₃
    obtain ⟨front₄, rfl, hderives₄, -⟩ := hbelow.block (by omega) hgiven₄
    rcases loopIndex_cases hgiven₂ with ⟨within, rfl, hwithin, rfl⟩ | ⟨comma, name, within, rfl,
      hcomma, hname, hwithin, rfl⟩
    · exact ⟨word :: item :: within :: front₃ ++ front₄, by simp,
        .forEach hword hitem hwithin hderives₃ hderives₄, rfl⟩
    · exact ⟨word :: item :: comma :: name :: within :: front₃ ++ front₄, by simp,
        .forEachIndexed hword hitem hcomma hname hwithin hderives₃ hderives₄, rfl⟩

theorem return_derives
    {ts rest : List Token} {s : Stmt}
    (hlength_le : ts.length ≤ n) (hreturn : viewKind ts = .returnWord)
    (h : Gives (statement ending ts) s rest) :
    (∃ front, ts = front ++ rest ∧ Derives (.statement s) front ∧
      (s.isOpen → ¬(viewKind rest).continues 1)) ∨
    ∃ word, ts = word :: rest ∧ word.kind = .returnWord ∧ s = .returns word.offset none ∧
      viewKind rest = .rightBrace := by
  rw [statement] at h
  simp only [hreturn, gives_bind_iff, gives_expect_iff, List.mem_singleton] at h
  obtain ⟨word, left, hshorter, ⟨rfl, hword, -⟩, h⟩ := h
  split at h
  · rename_i hlast
    obtain ⟨rfl, rfl⟩ := gives_pure_iff.mp h
    exact .inr ⟨word, rfl, hword, rfl, hlast⟩
  · simp only [gives_bind_iff, gives_pure_iff] at h
    obtain ⟨value, left₁, -, hgiven, rfl, rfl⟩ := h
    obtain ⟨⟨front, rfl, hderives, -⟩, hstops⟩ :=
      hbelow.expr hlength_le (Nat.le_refl 1) (by decide) hgiven
    exact .inl ⟨word :: front, rfl, .returns hword hderives, fun _ => hstops⟩

/-- A statement has a derivation, and one that ends in an expression is not followed by a token with
which the expression goes on; or it is a return without a value, before a closing brace. -/
theorem statement_derives
    {ts rest : List Token} {s : Stmt}
    (hlength_le : ts.length ≤ n) (h : Gives (statement ending ts) s rest) :
    (∃ front, ts = front ++ rest ∧ Derives (.statement s) front ∧
      (s.isOpen → ¬(viewKind rest).continues 1)) ∨
    ∃ word, ts = word :: rest ∧ word.kind = .returnWord ∧ s = .returns word.offset none ∧
      viewKind rest = .rightBrace := by
  by_cases hloop : viewKind ts = .forWord
  · obtain ⟨front, rfl, hderives, hclosed⟩ := loop_derives hbelow hlength_le hloop h
    exact .inl ⟨front, rfl, hderives, by simp [hclosed]⟩
  by_cases hreturn : viewKind ts = .returnWord
  · exact return_derives hbelow hlength_le hreturn h
  rw [statement] at h
  split at h
  · simp only [gives_bind_iff, gives_expect_iff, gives_pure_iff, List.mem_singleton] at h
    obtain ⟨word, left, hshorter, ⟨rfl, hword, -⟩, name, left₁, hshorter₁, ⟨rfl, hname, -⟩, sign,
      left₂, hshorter₂, ⟨rfl, hsign, -⟩, value, left₃, -, hgiven, rfl, rfl⟩ := h
    obtain ⟨⟨front, rfl, hderives, -⟩, hstops⟩ :=
      hbelow.expr (by omega) (Nat.le_refl 1) (by decide) hgiven
    exact .inl ⟨word :: name :: sign :: front, rfl, .declaration hword hname hsign hderives,
      fun _ => hstops⟩
  · exact (hloop ‹_›).elim
  · simp only [gives_bind_iff, gives_pure_iff] at h
    obtain ⟨c, left, -, hgiven, rfl, rfl⟩ := h
    obtain ⟨front, rfl, hderives, -⟩ := conditional_derives hbelow hlength_le hgiven
    exact .inl ⟨front, rfl, .conditionalStatement hderives, by simp [Stmt.isOpen]⟩
  · exact (hreturn ‹_›).elim
  · simp only [gives_bind_iff, gives_expect_iff, gives_pure_iff, List.mem_singleton] at h
    obtain ⟨word, left, -, ⟨rfl, hword, -⟩, rfl, rfl⟩ := h
    exact .inl ⟨[word], rfl, .continues hword, by simp [Stmt.isOpen]⟩
  · simp only [gives_bind_iff, gives_expect_iff, gives_pure_iff, List.mem_singleton] at h
    obtain ⟨word, left, -, ⟨rfl, hword, -⟩, rfl, rfl⟩ := h
    exact .inl ⟨[word], rfl, .breaks hword, by simp [Stmt.isOpen]⟩
  · simp only [gives_bind_iff, gives_expect_iff, gives_pure_iff, List.mem_singleton] at h
    obtain ⟨word, left, hshorter, ⟨rfl, hword, -⟩, subject, left₁, hshorter₁, hgiven₁, opening,
      left₂, hshorter₂, ⟨rfl, hopening, -⟩, as, left₃, -, hgiven₃, rfl, rfl⟩ := h
    obtain ⟨⟨front₁, rfl, hderives₁, -⟩, -⟩ :=
      hbelow.expr hlength_le (Nat.le_refl 1) (by decide) hgiven₁
    obtain ⟨front₃, closing, rfl, hclosing, hderives₃, -⟩ := hbelow.arms (by omega) hgiven₃
    exact .inl ⟨word :: front₁ ++ opening :: front₃ ++ [closing], by simp,
      .select hword hderives₁ hopening hderives₃ hclosing, by simp [Stmt.isOpen]⟩
  · simp only [gives_bind_iff, gives_pure_iff] at h
    obtain ⟨b, left, -, hgiven, rfl, rfl⟩ := h
    obtain ⟨front, rfl, hderives, -⟩ := block_derives hbelow hlength_le hgiven
    exact .inl ⟨front, rfl, .blockStatement hderives, by simp [Stmt.isOpen]⟩
  · rename_i hnoBrace
    simp only [gives_bind_iff, gives_pure_iff] at h
    obtain ⟨value, left, -, hgiven, rfl, rfl⟩ := h
    obtain ⟨⟨front, rfl, hderives, -⟩, hstops⟩ :=
      expr_derives hbelow hlength_le (Nat.le_refl 1) (by decide) hgiven
    rw [hderives.viewKind_append left] at hnoBrace
    refine .inl ⟨front, rfl, ?_, fun _ => hstops⟩
    rw [hderives.viewOffset_append]
    exact .exprStatement hderives hnoBrace

theorem statements_derives
    {ts rest : List Token} {ss : List Stmt}
    (hlength_le : ts.length ≤ n) (h : Gives (statements ending ts) ss rest) :
    PassesClosed ending (.statements ss) .rightBrace ts rest := by
  rw [statements] at h
  split at h
  · simp only [gives_bind_iff, gives_expect_iff, gives_pure_iff, List.mem_singleton] at h
    obtain ⟨closing, left, -, ⟨rfl, hkind, hvisible⟩, rfl, rfl⟩ := h
    exact ⟨[], closing, rfl, hkind, .noStatements, hvisible⟩
  · split at h
    · exact (not_gives_failHere h).elim
    · simp only [gives_bind_iff, gives_pure_iff] at h
      obtain ⟨first, left, hshorter, hgiven, more, left', -, hgiven', rfl, rfl⟩ := h
      rcases statement_derives hbelow hlength_le hgiven with ⟨front, rfl, hderives, hstops⟩ |
        ⟨word, rfl, hword, rfl, hlast⟩
      · obtain ⟨front', closing, rfl, hkind, hderives', hvisible⟩ :=
          hbelow.statements (by omega) hgiven'
        refine ⟨front ++ front', closing, by simp, hkind, .consStatement hderives hderives' ?_,
          hvisible⟩
        intro hopen hgoesOn
        refine hstops hopen ?_
        rwa [viewKind_append]
        intro hnone
        rw [hnone] at hgoesOn
        cases hgoesOn
      · -- The brace in view closes the block, so that nothing follows the return.
        rw [statements, if_pos hlast] at hgiven'
        simp only [gives_bind_iff, gives_expect_iff, gives_pure_iff, List.mem_singleton] at hgiven'
        obtain ⟨closing, left'', -, ⟨rfl, hkind, hvisible⟩, rfl, rfl⟩ := hgiven'
        exact ⟨[word], closing, rfl, hkind, .bareReturn hword, hvisible⟩

end

theorem soundBelow (ending : Ending) (n : Nat) : SoundBelow ending n := by
  induction n with
  | zero => constructor <;> intros <;> exact (Nat.not_lt_zero _ ‹_›).elim
  | succ n hbelow =>
    exact
      { expr := fun hlt => expr_derives hbelow (Nat.le_of_lt_succ hlt)
        unary := fun hlt => unary_derives hbelow (Nat.le_of_lt_succ hlt)
        exprs := fun hlt => exprs_derives hbelow (Nat.le_of_lt_succ hlt)
        entries := fun hlt => entries_derives hbelow (Nat.le_of_lt_succ hlt)
        function := fun hlt => function_derives hbelow (Nat.le_of_lt_succ hlt)
        block := fun hlt => block_derives hbelow (Nat.le_of_lt_succ hlt)
        statements := fun hlt => statements_derives hbelow (Nat.le_of_lt_succ hlt)
        conditional := fun hlt => conditional_derives hbelow (Nat.le_of_lt_succ hlt)
        arms := fun hlt => arms_derives hbelow (Nat.le_of_lt_succ hlt) }

/-! ## Scripts -/

theorem labelled_derives
    {ending : Ending} {ts rest : List Token} {part : Section}
    (h : Gives (labelled ending ts) part rest) :
    Passes ending (.labelled part) ts rest := by
  have hsound := soundBelow ending ts.length
  rw [labelled] at h
  simp only [gives_bind_iff, gives_expect_iff, List.mem_singleton] at h
  obtain ⟨label, left, hshorter, ⟨rfl, hlabel, -⟩, colon, left₁, hshorter₁, ⟨rfl, hcolon, -⟩, h⟩ :=
    h
  split at h
  · simp only [gives_bind_iff, gives_pure_iff] at h
    obtain ⟨body, left₂, -, hgiven, rfl, rfl⟩ := h
    obtain ⟨front, rfl, hderives, hvisible⟩ := hsound.block (by omega) hgiven
    exact ⟨label :: colon :: front, rfl, .blockSection hlabel hcolon hderives, hvisible⟩
  · rename_i hnoBrace
    simp only [gives_bind_iff, gives_pure_iff] at h
    obtain ⟨body, left₂, -, hgiven, rfl, rfl⟩ := h
    obtain ⟨⟨front, rfl, hderives, hvisible⟩, -⟩ :=
      hsound.expr (by omega) (Nat.le_refl 1) (by decide) hgiven
    rw [hderives.viewKind_append left₂] at hnoBrace
    exact ⟨label :: colon :: front, rfl, .exprSection hlabel hcolon hderives hnoBrace, hvisible⟩

theorem items_derives
    {ending : Ending} {ts : List Token} {parts : List Item}
    (hproper : ∀ t ∈ ts, t.kind ≠ .eof) (hvisible : Visible ending ts)
    (h : items ending ts = .ok parts) :
    Derives (.items parts) ts ∧ Visible ending [] := by
  rw [items] at h
  split at h
  · rename_i hends
    cases h
    cases ts with
    | nil => exact ⟨.noItems, hvisible⟩
    | cons t ts => exact (hproper t (by simp) hends).elim
  · simp only [bind_eq_ok_iff] at h
    obtain ⟨⟨part, rest, hshorter⟩, hgiven, more, hlater, hequation⟩ := h
    cases hequation
    obtain ⟨front, rfl, hderives, hvisible'⟩ := labelled_derives ⟨hshorter, hgiven⟩
    have hproper' : ∀ t ∈ rest, t.kind ≠ .eof := fun t hmember =>
      hproper t (List.mem_append_right front hmember)
    obtain ⟨hderives', hends⟩ := items_derives hproper' hvisible' hlater
    exact ⟨.consSection hderives hderives', hends⟩
  · simp only [bind_eq_ok_iff] at h
    obtain ⟨⟨f, rest, hshorter⟩, hgiven, more, hlater, hequation⟩ := h
    cases hequation
    obtain ⟨front, rfl, hderives, hvisible'⟩ :=
      (soundBelow ending (ts.length + 1)).function (Nat.lt_succ_self _) ⟨hshorter, hgiven⟩
    have hproper' : ∀ t ∈ rest, t.kind ≠ .eof := fun t hmember =>
      hproper t (List.mem_append_right front hmember)
    obtain ⟨hderives', hends⟩ := items_derives hproper' hvisible' hlater
    exact ⟨.consFunction hderives hderives', hends⟩
  · cases h
termination_by ts.length

end PuzzleLang.Parse

namespace PuzzleLang

open Parse

theorem kind_ne_eof_of_mem_tokens
    {source : List Char} {t : Token} (h : t ∈ (Lexed.ofSource source).tokens) :
    t.kind ≠ .eof := by
  intro hends
  have hvalid := isValid_of_mem_tokens _ t h
  simp [Token.terminal, Terminal.isValid, hends] at hvalid

theorem Program.exists_eof_of_parse
    {source : List Char} {program : Program} (h : Program.parse source = .ok program) :
    ∃ offset, Lexed.ofSource source = ⟨(Lexed.ofSource source).tokens, .eof offset⟩ ∧
      Derives (.items program.items) (Lexed.ofSource source).tokens := by
  simp only [Program.parse, Lexed.parse, bind_eq_ok_iff] at h
  obtain ⟨parts, ⟨_, hvisible, hgiven⟩, hequation⟩ := h
  cases hequation
  obtain ⟨hderives, hends⟩ := items_derives (fun _ => kind_ne_eof_of_mem_tokens) hvisible hgiven
  obtain ⟨offset, hending⟩ := exists_eof_of_visible_nil hends
  exact ⟨offset, by rw [← hending], hderives⟩

/-- The tokens of a script that can be read, up to the `eof` token, are a script of the grammar, and
the parts that were read are the tree of a derivation from them. -/
theorem Program.derives_of_parse
    {source : List Char} {program : Program} (h : Program.parse source = .ok program) :
    ∃ tokens offset, tokenize source = .ok (tokens ++ [⟨.eof, "", offset⟩]) ∧
      Derives (.items program.items) tokens := by
  obtain ⟨offset, hlexed, hderives⟩ := exists_eof_of_parse h
  refine ⟨(Lexed.ofSource source).tokens, offset, ?_, hderives⟩
  rw [tokenize, hlexed]

set_option maxRecDepth 10000 in
/-- Operators of every tier, an assignment inside an assignment, parentheses that are dropped and a
comma at the end of a list. -/
theorem Program.derives_of_parse_mixed :
    ∃ program tokens offset,
      Program.parse "part1: x = y[1] = -1 + 2 * 3 % 40 < 5 && z(6,) != (7 - 8) - 9".toList =
        .ok program ∧
      program.items = [.labelled ⟨0, "part1", .expr (.assign 9 7 "x"
        (.store 16 12 (.ident 11 "y") (.number 13 1) (.binary 38 .both
          (.binary 34 .less
            (.binary 21 .add (.negate 18 (.number 19 1))
              (.binary 29 .modulo
                (.binary 25 .multiply (.number 23 2) (.number 27 3)) (.number 31 40)))
            (.number 36 5))
          (.binary 47 .notEqual (.call 41 (.ident 41 "z") [.number 43 6])
            (.binary 58 .subtract
              (.binary 53 .subtract (.number 51 7) (.number 55 8)) (.number 60 9))))))⟩] ∧
      tokenize "part1: x = y[1] = -1 + 2 * 3 % 40 < 5 && z(6,) != (7 - 8) - 9".toList =
        .ok (tokens ++ [⟨.eof, "", offset⟩]) ∧
      Derives (.items program.items) tokens := by
  have hparsed : Program.parse
      "part1: x = y[1] = -1 + 2 * 3 % 40 < 5 && z(6,) != (7 - 8) - 9".toList =
      .ok ⟨[.labelled ⟨0, "part1", .expr (.assign 9 7 "x"
        (.store 16 12 (.ident 11 "y") (.number 13 1) (.binary 38 .both
          (.binary 34 .less
            (.binary 21 .add (.negate 18 (.number 19 1))
              (.binary 29 .modulo
                (.binary 25 .multiply (.number 23 2) (.number 27 3)) (.number 31 40)))
            (.number 36 5))
          (.binary 47 .notEqual (.call 41 (.ident 41 "z") [.number 43 6])
            (.binary 58 .subtract
              (.binary 53 .subtract (.number 51 7) (.number 55 8)) (.number 60 9))))))⟩],
        "part1: x = y[1] = -1 + 2 * 3 % 40 < 5 && z(6,) != (7 - 8) - 9".toList⟩ := by
    cbv
  obtain ⟨tokens, offset, htokens, hderives⟩ := Program.derives_of_parse hparsed
  exact ⟨_, tokens, offset, hparsed, rfl, htokens, hderives⟩

end PuzzleLang
