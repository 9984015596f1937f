import PuzzleLang.Proofs.Grammar.Shape

/-!
# Completeness of reading

Every derivation is found by the readers: on the tokens of a phrase, followed by tokens with which
the phrase does not go on, the reader of the phrase gives its tree and leaves over what follows.  So
the grammar is unambiguous.

Readers of operators and of calls go on in a loop after their first operand.  What is proved of an
operand in such a chain is therefore that the whole chain is read as if the loop had been entered
with the operand already in hand.
-/

namespace PuzzleLang.Parse

/-- Where climbing may go on from the expression `e`, reading does so once it has passed `ts`. -/
def Climbs (ending : Ending) (tier : Nat) (e : Expr) (ts : List Token) : Prop :=
  ∀ ⦃rest final : List Token⦄ ⦃least : Nat⦄ ⦃out : Expr⦄, least ≤ tier → Visible ending rest →
    ¬(viewKind rest).continues (tier + 1) →
    (∀ ts' h, Gives (climb ending least ts' e rest h) out final) →
    Gives (expr ending least (ts ++ rest)) out final

/-- The reader for expressions of a tier gives `e` from the tokens `ts`. -/
def ReadsExpr (ending : Ending) (tier : Nat) (e : Expr) (ts : List Token) : Prop :=
  match tier with
  | 0 => True
  | 1 => ∀ ⦃rest : List Token⦄, Visible ending rest → ¬(viewKind rest).continues 1 →
      Gives (expr ending 1 (ts ++ rest)) e rest
  | 6 => ∀ ⦃rest : List Token⦄, Visible ending rest → ¬(viewKind rest).continues 7 →
      Gives (unary ending (ts ++ rest)) e rest
  | 7 => ∀ ⦃rest final : List Token⦄ ⦃out : Expr⦄, Visible ending rest →
      (∀ ts' h, Gives (extend ending (firstOffset ts) ts' e rest h) out final) →
      Gives (postfixed ending (ts ++ rest)) out final
  | 8 => ∀ ⦃rest : List Token⦄, Visible ending rest → Gives (primary ending (ts ++ rest)) e rest
  | tier => tier ≤ 5 ∧ Climbs ending tier e ts

/-- The reader for a phrase gives its tree from the tokens `ts`, whatever follows that does not
belong to the phrase. -/
def Reads (ending : Ending) : Phrase → List Token → Prop
  | .expr tier e, ts => ReadsExpr ending tier e ts
  | .exprs es, ts => ∀ ⦃closing : TokenKind⦄ ⦃last : Token⦄ ⦃rest : List Token⦄,
      closing = .rightParen ∨ closing = .rightBracket → last.kind = closing → Visible ending rest →
      Gives (exprs ending closing (ts ++ last :: rest)) es rest
  | .entries es, ts => ∀ ⦃last : Token⦄ ⦃rest : List Token⦄,
      last.kind = .rightBrace → Visible ending rest →
      Gives (entries ending (ts ++ last :: rest)) es rest
  | .params names, ts => ∀ ⦃last : Token⦄ ⦃rest : List Token⦄,
      last.kind = .rightParen → Visible ending rest →
      Gives (params ending (ts ++ last :: rest)) names rest
  | .function f, ts => ∀ ⦃rest : List Token⦄, Visible ending rest →
      Gives (function ending (ts ++ rest)) f rest
  | .block b, ts => ∀ ⦃rest : List Token⦄, Visible ending rest →
      Gives (block ending (ts ++ rest)) b rest
  | .statements ss, ts => ∀ ⦃last : Token⦄ ⦃rest : List Token⦄,
      last.kind = .rightBrace → Visible ending rest →
      Gives (statements ending (ts ++ last :: rest)) ss rest
  | .statement s, ts => ∀ ⦃rest : List Token⦄, Visible ending rest → viewKind rest ≠ .elseWord →
      (s.isOpen → ¬(viewKind rest).continues 1) → Gives (statement ending (ts ++ rest)) s rest
  | .conditional c, ts => ∀ ⦃rest : List Token⦄, Visible ending rest →
      viewKind rest ≠ .elseWord → Gives (conditional ending (ts ++ rest)) c rest
  | .arms as, ts => ∀ ⦃last : Token⦄ ⦃rest : List Token⦄,
      last.kind = .rightBrace → Visible ending rest →
      Gives (arms ending (ts ++ last :: rest)) as rest
  | .labelled part, ts => ∀ ⦃rest : List Token⦄, Visible ending rest →
      ¬(viewKind rest).continues 1 → Gives (labelled ending (ts ++ rest)) part rest
  | .items parts, ts => Visible ending [] → items ending ts = .ok parts

theorem climb_stops
    {ending : Ending} {least : Nat} {ts rest : List Token} {e : Expr}
    {hshorter : rest.length < ts.length}
    (hstops : ¬(viewKind rest).continues least) :
    Gives (climb ending least ts e rest hshorter) e rest := by
  cases rest with
  | nil =>
    rw [climb]
    exact gives_pure
  | cons t rest =>
    rw [climb]
    by_cases hsign : t.kind = .assign
    · rw [viewKind, hsign, TokenKind.continues_assign_iff] at hstops
      rw [if_pos hsign, if_pos (by omega)]
      exact gives_pure
    · rw [if_neg hsign]
      split
      · exact gives_pure
      · rename_i op hfound
        rw [viewKind, TokenKind.continues_operator_iff hfound, ← op.strength_eq_tier] at hstops
        rw [if_pos (by omega)]
        exact gives_pure

theorem extend_stops
    {ending : Ending} {start : Nat} {ts rest : List Token} {e : Expr}
    {hshorter : rest.length < ts.length}
    (hstops : ¬(viewKind rest).continues 7) :
    Gives (extend ending start ts e rest hshorter) e rest := by
  cases rest with
  | nil =>
    rw [extend]
    exact gives_pure
  | cons t rest =>
    rw [viewKind, TokenKind.continues_seven_iff, not_or] at hstops
    rw [extend, if_neg hstops.1, if_neg hstops.2]
    exact gives_pure

theorem not_continues_of_le
    {kind : TokenKind} {least least' : Nat}
    (hstops : ¬kind.continues least) (hle : least ≤ least') :
    ¬kind.continues least' :=
  fun hgoesOn => hstops (TokenKind.continues_of_le hle hgoesOn)

theorem ReadsExpr.climbs
    {ending : Ending} {tier : Nat} {e : Expr} {ts : List Token}
    (hlower : 2 ≤ tier) (hupper : tier ≤ 5) (h : ReadsExpr ending tier e ts) :
    Climbs ending tier e ts := by
  match tier, hlower, hupper with
  | 2, _, _ | 3, _, _ | 4, _, _ | 5, _, _ => exact h.2

theorem Climbs.readsExpr
    {ending : Ending} {tier : Nat} {e : Expr} {ts : List Token}
    (hlower : 2 ≤ tier) (hupper : tier ≤ 5) (h : Climbs ending tier e ts) :
    ReadsExpr ending tier e ts := by
  match tier, hlower, hupper with
  | 2, _, _ | 3, _, _ | 4, _, _ | 5, _, _ => exact ⟨by decide, h⟩

theorem climbs_of_unary
    {ending : Ending} {e : Expr} {ts : List Token} (h : ReadsExpr ending 6 e ts) :
    Climbs ending 6 e ts := by
  intro rest final least out _ hvisible hstops hgoesOn
  rw [expr]
  exact (h hvisible hstops).bind (hgoesOn _)

/-- An operand is read by itself, where what follows does not belong to it. -/
theorem ReadsExpr.gives
    {ending : Ending} {tier : Nat} {e : Expr} {ts rest : List Token}
    (hlower : 1 ≤ tier) (hupper : tier ≤ 6) (h : ReadsExpr ending tier e ts)
    (hvisible : Visible ending rest) (hstops : ¬(viewKind rest).continues tier) :
    Gives (expr ending tier (ts ++ rest)) e rest := by
  have hfinish (hclimbs : Climbs ending tier e ts) : Gives (expr ending tier (ts ++ rest)) e rest :=
    hclimbs (Nat.le_refl tier) hvisible (not_continues_of_le hstops (Nat.le_succ tier))
      fun _ _ => climb_stops hstops
  rcases Nat.lt_or_ge tier 2 with hfirst | hsecond
  · obtain rfl : tier = 1 := by omega
    exact h hvisible hstops
  rcases Nat.lt_or_ge tier 6 with hbetween | hlast
  · exact hfinish (h.climbs hsecond (by omega))
  · obtain rfl : tier = 6 := by omega
    exact hfinish (climbs_of_unary h)

theorem Climbs.looser
    {ending : Ending} {tier : Nat} {e : Expr} {ts : List Token}
    (h : Climbs ending (tier + 1) e ts) :
    Climbs ending tier e ts := by
  intro rest final least out hle hvisible hstops hgoesOn
  exact h (by omega) hvisible (not_continues_of_le hstops (by omega)) hgoesOn

theorem readsExpr_of_climbs
    {ending : Ending} {e : Expr} {ts : List Token} (h : Climbs ending 2 e ts) :
    ReadsExpr ending 1 e ts := by
  intro rest hvisible hstops
  exact h (by decide) hvisible (not_continues_of_le hstops (by decide)) fun _ _ =>
    climb_stops hstops

theorem readsExpr_unary_of_postfixed
    {ending : Ending} {e : Expr} {ts : List Token}
    (hderives : Derives (.expr 7 e) ts) (h : ReadsExpr ending 7 e ts) :
    ReadsExpr ending 6 e ts := by
  intro rest hvisible hstops
  have hread := h hvisible fun _ _ => extend_stops hstops
  cases ts with
  | nil => exact (hderives.expr_ne_nil rfl).elim
  | cons t ts =>
    have hnoMinus : t.kind ≠ .minus := hderives.startsWith.2 (Nat.le_refl 7)
    rw [List.cons_append, unary, if_neg hnoMinus]
    exact hread

theorem readsExpr_postfixed_of_primary
    {ending : Ending} {e : Expr} {ts : List Token}
    (hderives : Derives (.expr 8 e) ts) (h : ReadsExpr ending 8 e ts) :
    ReadsExpr ending 7 e ts := by
  intro rest final out hvisible hgoesOn
  rw [postfixed]
  refine (h hvisible).bind fun hshorter => ?_
  rw [hderives.viewOffset_append]
  exact hgoesOn _ hshorter

theorem readsExpr_looser
    {ending : Ending} {tier : Nat} {e : Expr} {ts : List Token}
    (hpos : 1 ≤ tier) (hderives : Derives (.expr (tier + 1) e) ts)
    (h : ReadsExpr ending (tier + 1) e ts) :
    ReadsExpr ending tier e ts := by
  match tier with
  | 1 => exact readsExpr_of_climbs h.2
  | 2 | 3 | 4 => exact ⟨by decide, h.2.looser⟩
  | 5 => exact ⟨by decide, (climbs_of_unary h).looser⟩
  | 6 => exact readsExpr_unary_of_postfixed hderives h
  | 7 => exact readsExpr_postfixed_of_primary hderives h
  | tier + 8 =>
    have hbound : tier + 9 ≤ 5 := h.1
    omega

/-! ## Operations -/

theorem reads_assign
    {ending : Ending} {ts ts' : List Token} {left value : Expr} {target : Target} {sign : Token}
    (hleftDerives : Derives (.expr 7 left) ts) (htarget : left.target? = some target)
    (hsign : sign.kind = .assign) (hvalueDerives : Derives (.expr 1 value) ts')
    (hreadsLeft : ReadsExpr ending 7 left ts) (hreadsValue : ReadsExpr ending 1 value ts') :
    ReadsExpr ending 1 (target.assign sign.offset value) (ts ++ sign :: ts') := by
  intro rest hvisible hstops
  rw [List.append_assoc, List.cons_append]
  refine climbs_of_unary (readsExpr_unary_of_postfixed hleftDerives hreadsLeft) (by decide)
    (visible_cons ..) (by simp [viewKind, hsign, TokenKind.continues]) fun whole hshorter => ?_
  rw [climb, if_pos hsign, if_neg (by decide), gives_bring_iff]
  refine ⟨visible_of_ne_nil (by simp [hvalueDerives.expr_ne_nil]), ?_⟩
  rw [htarget]
  exact (hreadsValue hvisible hstops).bind fun _ => climb_stops hstops

theorem reads_binary
    {ending : Ending} {ts ts' : List Token} {op : Operator} {left right : Expr} {sign : Token}
    (hsign : sign.kind = op.kind) (hrightDerives : Derives (.expr (op.tier + 1) right) ts')
    (hreadsLeft : ReadsExpr ending op.tier left ts)
    (hreadsRight : ReadsExpr ending (op.tier + 1) right ts') :
    ReadsExpr ending op.tier (.binary sign.offset op left right) (ts ++ sign :: ts') := by
  have hlower := op.two_le_tier
  have hupper := op.tier_le
  have hfound : Operator.ofKind? sign.kind = some op := by rw [hsign, Operator.ofKind?_kind]
  refine Climbs.readsExpr hlower hupper ?_
  intro rest final least out hle hvisible hstops hgoesOn
  have hfollows : ¬sign.kind.continues (op.tier + 1) := by
    rw [TokenKind.continues_operator_iff hfound]
    omega
  rw [List.append_assoc, List.cons_append]
  refine hreadsLeft.climbs hlower hupper hle (visible_cons ..) hfollows fun whole hshorter => ?_
  have hnoAssign : sign.kind ≠ .assign := by
    rw [hsign]
    cases op <;> decide
  rw [climb, if_neg hnoAssign]
  simp only [hfound, op.strength_eq_tier]
  rw [if_neg (by omega), gives_bring_iff]
  refine ⟨visible_of_ne_nil (by simp [hrightDerives.expr_ne_nil]), ?_⟩
  exact (hreadsRight.gives (by omega) (by omega) hvisible hstops).bind fun _ => hgoesOn _ _

theorem reads_negate
    {ending : Ending} {operand : Expr} {sign : Token} {ts : List Token}
    (hsign : sign.kind = .minus) (hderives : Derives (.expr 6 operand) ts)
    (hreads : ReadsExpr ending 6 operand ts) :
    ReadsExpr ending 6 (.negate sign.offset operand) (sign :: ts) := by
  intro rest hvisible hstops
  rw [List.cons_append, unary, if_pos hsign, gives_bring_iff]
  refine ⟨visible_of_ne_nil (by simp [hderives.expr_ne_nil]), ?_⟩
  exact (hreads hvisible hstops).bind fun _ => gives_pure

theorem reads_call
    {ending : Ending} {ts ts' : List Token} {callee : Expr} {args : List Expr}
    {opening closing : Token}
    (hderives : Derives (.expr 7 callee) ts) (hopening : opening.kind = .leftParen)
    (hclosing : closing.kind = .rightParen) (hreadsCallee : ReadsExpr ending 7 callee ts)
    (hreadsArgs : Reads ending (.exprs args) ts') :
    ReadsExpr ending 7 (.call (firstOffset ts) callee args)
      (ts ++ opening :: ts' ++ [closing]) := by
  intro rest final out hvisible hgoesOn
  rw [List.append_assoc, firstOffset_append hderives.expr_ne_nil] at hgoesOn
  rw [List.append_assoc, List.append_assoc, List.cons_append]
  refine hreadsCallee (visible_cons ..) fun whole hshorter => ?_
  rw [extend, if_pos hopening, gives_bring_iff]
  refine ⟨visible_of_ne_nil (by simp), ?_⟩
  exact (hreadsArgs (.inl rfl) hclosing hvisible).bind fun _ => hgoesOn _ _

theorem reads_subscript
    {ending : Ending} {ts ts' : List Token} {container key : Expr} {opening closing : Token}
    (hderives : Derives (.expr 7 container) ts) (hopening : opening.kind = .leftBracket)
    (hclosing : closing.kind = .rightBracket) (hreadsContainer : ReadsExpr ending 7 container ts)
    (hreadsKey : ReadsExpr ending 1 key ts') :
    ReadsExpr ending 7 (.subscript opening.offset container key)
      (ts ++ opening :: ts' ++ [closing]) := by
  intro rest final out hvisible hgoesOn
  rw [List.append_assoc, firstOffset_append hderives.expr_ne_nil] at hgoesOn
  rw [List.append_assoc, List.append_assoc, List.cons_append]
  refine hreadsContainer (visible_cons ..) fun whole hshorter => ?_
  rw [extend, if_neg (by simp [hopening]), if_pos hopening, gives_bring_iff]
  refine ⟨visible_of_ne_nil (by simp), ?_⟩
  have hstops : ¬closing.kind.continues 1 := by
    rw [hclosing]
    decide
  refine (hreadsKey (visible_cons ..) hstops).bind fun _ => ?_
  exact (gives_expect hclosing hvisible).bind fun _ => hgoesOn _ _

/-! ## Literals and brackets -/

theorem reads_array
    {ending : Ending} {items : List Expr} {opening closing : Token} {ts : List Token}
    (hopening : opening.kind = .leftBracket) (hclosing : closing.kind = .rightBracket)
    (hreads : Reads ending (.exprs items) ts) :
    ReadsExpr ending 8 (.array opening.offset items) (opening :: ts ++ [closing]) := by
  intro rest hvisible
  rw [List.append_assoc, List.cons_append, primary]
  simp only [hopening, gives_bring_iff]
  refine ⟨visible_of_ne_nil (by simp), ?_⟩
  exact (hreads (.inr rfl) hclosing hvisible).bind fun _ => gives_pure

theorem reads_map
    {ending : Ending} {entries : List (String × Expr)} {opening closing : Token} {ts : List Token}
    (hopening : opening.kind = .leftBrace) (hclosing : closing.kind = .rightBrace)
    (hreads : Reads ending (.entries entries) ts) :
    ReadsExpr ending 8 (.map opening.offset entries) (opening :: ts ++ [closing]) := by
  intro rest hvisible
  rw [List.append_assoc, List.cons_append, primary]
  simp only [hopening, gives_bring_iff]
  refine ⟨visible_of_ne_nil (by simp), ?_⟩
  exact (hreads hclosing hvisible).bind fun _ => gives_pure

theorem reads_parenthesized
    {ending : Ending} {e : Expr} {opening closing : Token} {ts : List Token}
    (hopening : opening.kind = .leftParen) (hclosing : closing.kind = .rightParen)
    (hreads : ReadsExpr ending 1 e ts) :
    ReadsExpr ending 8 e (opening :: ts ++ [closing]) := by
  intro rest hvisible
  rw [List.append_assoc, List.cons_append, primary]
  simp only [hopening, gives_bring_iff]
  refine ⟨visible_of_ne_nil (by simp), ?_⟩
  have hstops : ¬closing.kind.continues 1 := by
    rw [hclosing]
    decide
  refine (hreads (visible_cons ..) hstops).bind fun _ => ?_
  exact (gives_expect hclosing hvisible).bind fun _ => gives_pure

theorem reads_functionExpr
    {ending : Ending} {f : Function} {ts : List Token}
    (hderives : Derives (.function f) ts) (hreads : Reads ending (.function f) ts) :
    ReadsExpr ending 8 (.function f) ts := by
  intro rest hvisible
  have hread := hreads hvisible
  cases ts with
  | nil => cases hderives.startsWith
  | cons word ts =>
    have hword : word.kind = .fnWord := hderives.startsWith
    rw [List.cons_append] at hread ⊢
    rw [primary]
    simp only [hword]
    exact hread.bind fun _ => gives_pure

/-! ## Lists -/

theorem viewKind_ne_of_startsExpr
    {tier : Nat} {e : Expr} {ts : List Token} {kind : TokenKind}
    (hderives : Derives (.expr tier e) ts) (hother : kind.startsExpr = false) (rest : List Token) :
    viewKind (ts ++ rest) ≠ kind := by
  rw [hderives.viewKind_append]
  rintro rfl
  rw [hderives.startsExpr] at hother
  cases hother

theorem reads_lastExpr
    {ending : Ending} {item : Expr} {ts : List Token}
    (hderives : Derives (.expr 1 item) ts) (hreads : ReadsExpr ending 1 item ts) :
    Reads ending (.exprs [item]) ts := by
  intro closing last rest hclosing hlast hvisible
  have hothers : closing.startsExpr = false ∧ ¬closing.continues 1 ∧ closing ≠ .comma := by
    rcases hclosing with rfl | rfl <;> decide
  have hstops : ¬last.kind.continues 1 := by
    rw [hlast]
    exact hothers.2.1
  have hnoComma : last.kind ≠ .comma := by
    rw [hlast]
    exact hothers.2.2
  rw [exprs, if_neg (viewKind_ne_of_startsExpr hderives hothers.1 _)]
  refine (hreads (visible_cons ..) hstops).bind fun _ => gives_ite_neg hnoComma ?_
  exact (gives_expect hlast hvisible).bind fun _ => gives_pure

theorem reads_consExpr
    {ending : Ending} {item : Expr} {items : List Expr} {comma : Token} {ts ts' : List Token}
    (hderives : Derives (.expr 1 item) ts) (hcomma : comma.kind = .comma)
    (hreads : ReadsExpr ending 1 item ts) (hreadsMore : Reads ending (.exprs items) ts') :
    Reads ending (.exprs (item :: items)) (ts ++ comma :: ts') := by
  intro closing last rest hclosing hlast hvisible
  have hother : closing.startsExpr = false := by
    rcases hclosing with rfl | rfl <;> decide
  have hstops : ¬comma.kind.continues 1 := by
    rw [hcomma]
    decide
  rw [List.append_assoc, List.cons_append, exprs,
    if_neg (viewKind_ne_of_startsExpr hderives hother _)]
  refine (hreads (visible_cons ..) hstops).bind fun _ => gives_ite_pos hcomma ?_
  refine (gives_expect hcomma (visible_of_ne_nil (by simp))).bind fun _ => ?_
  exact (hreadsMore hclosing hlast hvisible).bind fun _ => gives_pure

theorem ne_rightBrace_of_isKey {key : Token} (hkey : key.kind ∈ [.identifier, .number]) :
    key.kind ≠ .rightBrace := by
  intro hsame
  rw [hsame] at hkey
  revert hkey
  decide

theorem reads_lastEntry
    {ending : Ending} {value : Expr} {key colon : Token} {ts : List Token}
    (hkey : key.kind ∈ [.identifier, .number]) (hcolon : colon.kind = .colon)
    (hreads : ReadsExpr ending 1 value ts) :
    Reads ending (.entries [(key.text, value)]) (key :: colon :: ts) := by
  intro last rest hlast hvisible
  have hstops : ¬last.kind.continues 1 := by
    rw [hlast]
    decide
  have hnoComma : last.kind ≠ .comma := by
    rw [hlast]
    decide
  have hreadsKey : Gives
      (expect ending [.identifier, .number] (key :: colon :: (ts ++ last :: rest)))
      key (colon :: (ts ++ last :: rest)) :=
    gives_expect_iff.mpr ⟨rfl, hkey, visible_cons ..⟩
  rw [List.cons_append, List.cons_append, entries]
  refine gives_ite_neg (ne_rightBrace_of_isKey hkey) ?_
  refine hreadsKey.bind fun _ => ?_
  refine (gives_expect hcolon (visible_of_ne_nil (by simp))).bind fun _ => ?_
  refine (hreads (visible_cons ..) hstops).bind fun _ => gives_ite_neg hnoComma ?_
  exact (gives_expect hlast hvisible).bind fun _ => gives_pure

theorem reads_consEntry
    {ending : Ending} {value : Expr} {more : List (String × Expr)} {key colon comma : Token}
    {ts ts' : List Token}
    (hkey : key.kind ∈ [.identifier, .number]) (hcolon : colon.kind = .colon)
    (hcomma : comma.kind = .comma) (hreads : ReadsExpr ending 1 value ts)
    (hreadsMore : Reads ending (.entries more) ts') :
    Reads ending (.entries ((key.text, value) :: more)) (key :: colon :: ts ++ comma :: ts') := by
  intro last rest hlast hvisible
  have hstops : ¬comma.kind.continues 1 := by
    rw [hcomma]
    decide
  have hreadsKey : Gives
      (expect ending [.identifier, .number]
        (key :: colon :: (ts ++ comma :: (ts' ++ last :: rest))))
      key (colon :: (ts ++ comma :: (ts' ++ last :: rest))) :=
    gives_expect_iff.mpr ⟨rfl, hkey, visible_cons ..⟩
  rw [List.append_assoc, List.cons_append, List.cons_append, entries]
  refine gives_ite_neg (ne_rightBrace_of_isKey hkey) ?_
  refine hreadsKey.bind fun _ => ?_
  refine (gives_expect hcolon (visible_of_ne_nil (by simp))).bind fun _ => ?_
  refine (hreads (visible_cons ..) hstops).bind fun _ => gives_ite_pos hcomma ?_
  refine (gives_expect hcomma (visible_of_ne_nil (by simp))).bind fun _ => ?_
  exact (hreadsMore hlast hvisible).bind fun _ => gives_pure

theorem reads_lastParam {ending : Ending} {param : Token} (hparam : param.kind = .identifier) :
    Reads ending (.params [param.text]) [param] := by
  intro last rest hlast hvisible
  have hnoParen : param.kind ≠ .rightParen := by simp [hparam]
  have hnoComma : last.kind ≠ .comma := by simp [hlast]
  rw [List.cons_append, params]
  refine gives_ite_neg hnoParen ?_
  refine (gives_expect hparam (visible_cons ..)).bind fun _ => gives_ite_neg hnoComma ?_
  exact (gives_expect hlast hvisible).bind fun _ => gives_pure

theorem reads_consParam
    {ending : Ending} {names : List String} {param comma : Token} {ts : List Token}
    (hparam : param.kind = .identifier) (hcomma : comma.kind = .comma)
    (hreadsMore : Reads ending (.params names) ts) :
    Reads ending (.params (param.text :: names)) (param :: comma :: ts) := by
  intro last rest hlast hvisible
  have hnoParen : param.kind ≠ .rightParen := by simp [hparam]
  rw [List.cons_append, List.cons_append, params]
  refine gives_ite_neg hnoParen ?_
  refine (gives_expect hparam (visible_cons ..)).bind fun _ => gives_ite_pos hcomma ?_
  refine (gives_expect hcomma (visible_of_ne_nil (by simp))).bind fun _ => ?_
  exact (hreadsMore hlast hvisible).bind fun _ => gives_pure

/-! ## Functions and blocks -/

theorem reads_named
    {ending : Ending} {names : List String} {body : Block} {word name opening closing : Token}
    {ts ts' : List Token}
    (hword : word.kind = .fnWord) (hname : name.kind = .identifier)
    (hopening : opening.kind = .leftParen) (hclosing : closing.kind = .rightParen)
    (hderives : Derives (.block body) ts') (hreadsParams : Reads ending (.params names) ts)
    (hreadsBody : Reads ending (.block body) ts') :
    Reads ending (.function ⟨word.offset, some name.text, names, body⟩)
      (word :: name :: opening :: ts ++ closing :: ts') := by
  intro rest hvisible
  rw [List.append_assoc, List.cons_append, List.cons_append, List.cons_append, function]
  refine (gives_expect hword (visible_cons ..)).bind fun _ => gives_ite_pos hname ?_
  refine (gives_expect hname (visible_cons ..)).bind fun _ => ?_
  refine (gives_expect hopening (visible_of_ne_nil (by simp))).bind fun _ => ?_
  refine (hreadsParams hclosing (visible_of_ne_nil ?_)).bind fun _ => ?_
  · simp [hderives.block_ne_nil]
  exact (hreadsBody hvisible).bind fun _ => gives_pure

theorem reads_unnamed
    {ending : Ending} {names : List String} {body : Block} {word opening closing : Token}
    {ts ts' : List Token}
    (hword : word.kind = .fnWord) (hopening : opening.kind = .leftParen)
    (hclosing : closing.kind = .rightParen) (hderives : Derives (.block body) ts')
    (hreadsParams : Reads ending (.params names) ts) (hreadsBody : Reads ending (.block body) ts') :
    Reads ending (.function ⟨word.offset, none, names, body⟩)
      (word :: opening :: ts ++ closing :: ts') := by
  intro rest hvisible
  have hnoName : opening.kind ≠ .identifier := by simp [hopening]
  rw [List.append_assoc, List.cons_append, List.cons_append, function]
  refine (gives_expect hword (visible_cons ..)).bind fun _ => gives_ite_neg hnoName ?_
  refine (gives_expect hopening (visible_of_ne_nil (by simp))).bind fun _ => ?_
  refine (hreadsParams hclosing (visible_of_ne_nil ?_)).bind fun _ => ?_
  · simp [hderives.block_ne_nil]
  exact (hreadsBody hvisible).bind fun _ => gives_pure

theorem reads_block
    {ending : Ending} {ss : List Stmt} {opening closing : Token} {ts : List Token}
    (hopening : opening.kind = .leftBrace) (hclosing : closing.kind = .rightBrace)
    (hreads : Reads ending (.statements ss) ts) :
    Reads ending (.block ⟨opening.offset, ss⟩) (opening :: ts ++ [closing]) := by
  intro rest hvisible
  rw [List.append_assoc, List.cons_append, block]
  refine (gives_expect hopening (visible_of_ne_nil (by simp))).bind fun _ => ?_
  exact (hreads hclosing hvisible).bind fun _ => gives_pure

theorem reads_bareReturn {ending : Ending} {word : Token} (hword : word.kind = .returnWord) :
    Reads ending (.statements [.returns word.offset none]) [word] := by
  intro last rest hlast hvisible
  have hnoBrace : word.kind ≠ .rightBrace := by simp [hword]
  have hnoEnd : word.kind ≠ .eof := by simp [hword]
  have hread : Gives (statement ending (word :: last :: rest)) (.returns word.offset none)
      (last :: rest) := by
    rw [statement]
    simp only [viewKind, hword]
    exact (gives_expect hword (visible_cons ..)).bind fun _ => gives_ite_pos hlast gives_pure
  have hclose : Gives (statements ending (last :: rest)) [] rest := by
    rw [statements]
    exact gives_ite_pos hlast ((gives_expect hlast hvisible).bind fun _ => gives_pure)
  rw [List.cons_append, statements]
  refine gives_ite_neg hnoBrace (gives_ite_neg hnoEnd ?_)
  exact hread.bind fun _ => hclose.bind fun _ => gives_pure

theorem reads_consStatement
    {ending : Ending} {first : Stmt} {more : List Stmt} {ts ts' : List Token}
    (hderives : Derives (.statement first) ts) (hderivesMore : Derives (.statements more) ts')
    (hseparated : first.isOpen → ¬(viewKind ts').continues 1)
    (hreads : Reads ending (.statement first) ts)
    (hreadsMore : Reads ending (.statements more) ts') :
    Reads ending (.statements (first :: more)) (ts ++ ts') := by
  intro last rest hlast hvisible
  have hstart : (viewKind ts).startsStatement = true := hderives.startsWith
  have hstart' := hderivesMore.startsWith
  have hsame := viewKind_append (TokenKind.ne_eof_of_startsStatement hstart) (ts' ++ last :: rest)
  -- What follows the first statement is the start of the next one or the closing brace.
  have hfollows : viewKind (ts' ++ last :: rest) ≠ .elseWord ∧
      (first.isOpen → ¬(viewKind (ts' ++ last :: rest)).continues 1) := by
    cases ts' with
    | nil =>
      rw [List.nil_append, viewKind, hlast]
      exact ⟨by decide, fun _ => by decide⟩
    | cons t ts' =>
      refine ⟨?_, hseparated⟩
      rintro (helse : t.kind = .elseWord)
      rw [viewKind, helse] at hstart'
      rcases hstart' with himpossible | himpossible <;> cases himpossible
  have hnoBrace : viewKind (ts ++ (ts' ++ last :: rest)) ≠ .rightBrace := by
    intro hbrace
    rw [← hsame, hbrace] at hstart
    cases hstart
  have hnoEnd : viewKind (ts ++ (ts' ++ last :: rest)) ≠ .eof := by
    rw [hsame]
    exact TokenKind.ne_eof_of_startsStatement hstart
  rw [List.append_assoc, statements, if_neg hnoBrace, if_neg hnoEnd]
  refine (hreads (visible_of_ne_nil (by simp)) hfollows.1 hfollows.2).bind fun _ => ?_
  exact (hreadsMore hlast hvisible).bind fun _ => gives_pure

/-! ## Statements -/

theorem block_stops
    {body : Block} {ts rest : List Token} {least : Nat} (hderives : Derives (.block body) ts) :
    ¬(viewKind (ts ++ rest)).continues least := by
  rw [hderives.viewKind_block_append]
  simp [TokenKind.continues]

theorem reads_declaration
    {ending : Ending} {value : Expr} {word name sign : Token} {ts : List Token}
    (hword : word.kind = .varWord) (hname : name.kind = .identifier) (hsign : sign.kind = .assign)
    (hderives : Derives (.expr 1 value) ts) (hreads : ReadsExpr ending 1 value ts) :
    Reads ending (.statement (.var name.offset name.text value)) (word :: name :: sign :: ts) := by
  intro rest hvisible _ hstops
  rw [List.cons_append, List.cons_append, List.cons_append, statement]
  simp only [viewKind, hword]
  refine (gives_expect hword (visible_cons ..)).bind fun _ => ?_
  refine (gives_expect hname (visible_cons ..)).bind fun _ => ?_
  refine (gives_expect hsign (visible_of_ne_nil (by simp [hderives.expr_ne_nil]))).bind fun _ => ?_
  exact (hreads hvisible (hstops rfl)).bind fun _ => gives_pure

theorem reads_forever
    {ending : Ending} {body : Block} {word : Token} {ts : List Token}
    (hword : word.kind = .forWord) (hderives : Derives (.block body) ts)
    (hreads : Reads ending (.block body) ts) :
    Reads ending (.statement (.forever word.offset body)) (word :: ts) := by
  intro rest hvisible _ _
  rw [List.cons_append, statement]
  simp only [viewKind, hword]
  refine (gives_expect hword (visible_of_ne_nil (by simp [hderives.block_ne_nil]))).bind fun _ => ?_
  refine gives_ite_pos (hderives.viewKind_block_append rest) ?_
  exact (hreads hvisible).bind fun _ => gives_pure

/-- A loop over elements is read once the names before its elements have been. -/
theorem reads_loop
    {ending : Ending} {iterable : Expr} {body : Block} {index : Option String} {word item : Token}
    {names ts ts' : List Token}
    (hword : word.kind = .forWord) (hitem : item.kind = .identifier) (hnonempty : names ≠ [])
    (hreadsIndex : ∀ ⦃rest : List Token⦄, Visible ending rest →
      Gives (loopIndex ending (names ++ rest)) index rest)
    (hderives : Derives (.expr 1 iterable) ts) (hderives' : Derives (.block body) ts')
    (hreads : ReadsExpr ending 1 iterable ts) (hreads' : Reads ending (.block body) ts') :
    Reads ending (.statement (.forEach word.offset item.text index iterable body))
      (word :: item :: names ++ ts ++ ts') := by
  intro rest hvisible _ _
  have hnoBrace : item.kind ≠ .leftBrace := by simp [hitem]
  rw [List.append_assoc, List.append_assoc, List.cons_append, List.cons_append, statement]
  simp only [viewKind, hword]
  refine (gives_expect hword (visible_cons ..)).bind fun _ => gives_ite_neg hnoBrace ?_
  refine (gives_expect hitem (visible_of_ne_nil (by simp [hnonempty]))).bind fun _ => ?_
  refine (hreadsIndex (visible_of_ne_nil (by simp [hderives.expr_ne_nil]))).bind fun _ => ?_
  refine (hreads (visible_of_ne_nil (by simp [hderives'.block_ne_nil]))
    (block_stops hderives')).bind fun _ => ?_
  exact (hreads' hvisible).bind fun _ => gives_pure

theorem reads_loopIndex_none
    {ending : Ending} {within : Token}
    (hwithin : within.kind = .inWord)
    ⦃rest : List Token⦄
    (hvisible : Visible ending rest) :
    Gives (loopIndex ending ([within] ++ rest)) none rest := by
  have hnoComma : within.kind ≠ .comma := by simp [hwithin]
  rw [List.cons_append, List.nil_append, loopIndex]
  refine gives_ite_neg hnoComma ?_
  exact (gives_expect hwithin hvisible).bind fun _ => gives_pure

theorem reads_loopIndex_some
    {ending : Ending} {comma index within : Token}
    (hcomma : comma.kind = .comma) (hindex : index.kind = .identifier)
    (hwithin : within.kind = .inWord)
    ⦃rest : List Token⦄
    (hvisible : Visible ending rest) :
    Gives (loopIndex ending ([comma, index, within] ++ rest)) (some index.text) rest := by
  rw [List.cons_append, List.cons_append, List.cons_append, List.nil_append, loopIndex]
  refine gives_ite_pos hcomma ?_
  refine (gives_expect hcomma (visible_cons ..)).bind fun _ => ?_
  refine (gives_expect hindex (visible_cons ..)).bind fun _ => ?_
  exact (gives_expect hwithin hvisible).bind fun _ => gives_pure

theorem reads_conditionalStatement
    {ending : Ending} {c : Conditional} {ts : List Token}
    (hderives : Derives (.conditional c) ts) (hreads : Reads ending (.conditional c) ts) :
    Reads ending (.statement (.conditional c)) ts := by
  intro rest hvisible hnoElse _
  rw [statement]
  simp only [hderives.viewKind_conditional_append]
  exact (hreads hvisible hnoElse).bind fun _ => gives_pure

theorem reads_returns
    {ending : Ending} {value : Expr} {word : Token} {ts : List Token}
    (hword : word.kind = .returnWord) (hderives : Derives (.expr 1 value) ts)
    (hreads : ReadsExpr ending 1 value ts) :
    Reads ending (.statement (.returns word.offset (some value))) (word :: ts) := by
  intro rest hvisible _ hstops
  have hnoBrace : viewKind (ts ++ rest) ≠ .rightBrace :=
    viewKind_ne_of_startsExpr hderives (by decide) rest
  rw [List.cons_append, statement]
  simp only [viewKind, hword]
  refine (gives_expect hword (visible_of_ne_nil (by simp [hderives.expr_ne_nil]))).bind fun _ => ?_
  exact gives_ite_neg hnoBrace ((hreads hvisible (hstops rfl)).bind fun _ => gives_pure)

theorem reads_select
    {ending : Ending} {subject : Expr} {cases : List Arm} {word opening closing : Token}
    {ts ts' : List Token}
    (hword : word.kind = .matchWord) (hopening : opening.kind = .leftBrace)
    (hclosing : closing.kind = .rightBrace) (hderives : Derives (.expr 1 subject) ts)
    (hreads : ReadsExpr ending 1 subject ts) (hreadsArms : Reads ending (.arms cases) ts') :
    Reads ending (.statement (.select word.offset subject cases))
      (word :: ts ++ opening :: ts' ++ [closing]) := by
  intro rest hvisible _ _
  have hstops : ¬opening.kind.continues 1 := by
    rw [hopening]
    decide
  rw [List.append_assoc, List.append_assoc, List.cons_append, statement]
  simp only [viewKind, hword]
  refine (gives_expect hword (visible_of_ne_nil (by simp [hderives.expr_ne_nil]))).bind fun _ => ?_
  refine (hreads (visible_cons ..) hstops).bind fun _ => ?_
  refine (gives_expect hopening (visible_of_ne_nil (by simp))).bind fun _ => ?_
  exact (hreadsArms hclosing hvisible).bind fun _ => gives_pure

theorem reads_blockStatement
    {ending : Ending} {body : Block} {ts : List Token}
    (hderives : Derives (.block body) ts) (hreads : Reads ending (.block body) ts) :
    Reads ending (.statement (.block body)) ts := by
  intro rest hvisible _ _
  rw [statement]
  simp only [hderives.viewKind_block_append]
  exact (hreads hvisible).bind fun _ => gives_pure

theorem reads_exprStatement
    {ending : Ending} {e : Expr} {ts : List Token}
    (hderives : Derives (.expr 1 e) ts) (hnoBrace : viewKind ts ≠ .leftBrace)
    (hreads : ReadsExpr ending 1 e ts) :
    Reads ending (.statement (.expr (firstOffset ts) e)) ts := by
  intro rest hvisible _ hstops
  have hstart := hderives.startsExpr
  rw [← hderives.viewKind_append rest] at hstart hnoBrace
  rw [statement]
  split
  case h_9 =>
    rw [hderives.viewOffset_append]
    exact (hreads hvisible (hstops rfl)).bind fun _ => gives_pure
  case h_8 hbrace => exact (hnoBrace hbrace).elim
  all_goals
    rename_i hother
    rw [hother] at hstart
    cases hstart

/-! ## Conditions and selections -/

section

variable {ending : Ending} {condition : Expr} {body : Block} {word : Token} {ts ts' : List Token}
  (hword : word.kind = .ifWord)
  (hderives : Derives (.expr 1 condition) ts)
  (hderives' : Derives (.block body) ts')
  (hreads : ReadsExpr ending 1 condition ts)
  (hreads' : Reads ending (.block body) ts')

include hword hderives hderives' hreads hreads'

theorem reads_onlyIf :
    Reads ending (.conditional ⟨word.offset, condition, body, .nothing⟩) (word :: ts ++ ts') := by
  intro rest hvisible hnoElse
  rw [List.append_assoc, List.cons_append, conditional]
  refine (gives_expect hword (visible_of_ne_nil (by simp [hderives.expr_ne_nil]))).bind fun _ => ?_
  refine (hreads (visible_of_ne_nil (by simp [hderives'.block_ne_nil]))
    (block_stops hderives')).bind fun _ => ?_
  exact (hreads' hvisible).bind fun _ => gives_ite_neg hnoElse gives_pure

theorem reads_ifElse
    {other : Block} {between : Token} {ts'' : List Token}
    (hbetween : between.kind = .elseWord) (hderives'' : Derives (.block other) ts'')
    (hreads'' : Reads ending (.block other) ts'') :
    Reads ending (.conditional ⟨word.offset, condition, body, .block other⟩)
      (word :: ts ++ ts' ++ between :: ts'') := by
  intro rest hvisible _
  have hnoIf : viewKind (ts'' ++ rest) ≠ .ifWord := by
    rw [hderives''.viewKind_block_append]
    decide
  rw [List.append_assoc, List.append_assoc, List.cons_append, conditional]
  refine (gives_expect hword (visible_of_ne_nil (by simp [hderives.expr_ne_nil]))).bind fun _ => ?_
  refine (hreads (visible_of_ne_nil (by simp)) (block_stops hderives')).bind fun _ => ?_
  refine (hreads' (visible_cons ..)).bind fun _ => gives_ite_pos hbetween ?_
  refine (gives_expect hbetween (visible_of_ne_nil (by simp [hderives''.block_ne_nil]))).bind
    fun _ => gives_ite_neg hnoIf ?_
  exact (hreads'' hvisible).bind fun _ => gives_pure

theorem reads_ifElseIf
    {other : Conditional} {between : Token} {ts'' : List Token}
    (hbetween : between.kind = .elseWord) (hderives'' : Derives (.conditional other) ts'')
    (hreads'' : Reads ending (.conditional other) ts'') :
    Reads ending (.conditional ⟨word.offset, condition, body, .conditional other⟩)
      (word :: ts ++ ts' ++ between :: ts'') := by
  intro rest hvisible hnoElse
  have hif := hderives''.viewKind_conditional_append rest
  have hnonempty : ts'' ++ rest ≠ [] := by
    intro hempty
    rw [hempty] at hif
    cases hif
  rw [List.append_assoc, List.append_assoc, List.cons_append, conditional]
  refine (gives_expect hword (visible_of_ne_nil (by simp [hderives.expr_ne_nil]))).bind fun _ => ?_
  refine (hreads (visible_of_ne_nil (by simp)) (block_stops hderives')).bind fun _ => ?_
  refine (hreads' (visible_cons ..)).bind fun _ => gives_ite_pos hbetween ?_
  refine (gives_expect hbetween (visible_of_ne_nil hnonempty)).bind fun _ => gives_ite_pos hif ?_
  exact (hreads'' hvisible hnoElse).bind fun _ => gives_pure

end

theorem reads_consArm
    {ending : Ending} {pattern : Expr} {body : Block} {more : List Arm} {colon : Token}
    {ts ts' ts'' : List Token}
    (hcolon : colon.kind = .colon) (hderives : Derives (.expr 1 pattern) ts)
    (hreads : ReadsExpr ending 1 pattern ts) (hreads' : Reads ending (.block body) ts')
    (hreadsMore : Reads ending (.arms more) ts'') :
    Reads ending (.arms (⟨pattern, body⟩ :: more)) (ts ++ colon :: ts' ++ ts'') := by
  intro last rest hlast hvisible
  have hstops : ¬colon.kind.continues 1 := by
    rw [hcolon]
    decide
  rw [List.append_assoc, List.append_assoc, List.cons_append, arms,
    if_neg (viewKind_ne_of_startsExpr hderives (by decide) _)]
  refine (hreads (visible_cons ..) hstops).bind fun _ => ?_
  refine (gives_expect hcolon (visible_of_ne_nil (by simp))).bind fun _ => ?_
  refine (hreads' (visible_of_ne_nil (by simp))).bind fun _ => ?_
  exact (hreadsMore hlast hvisible).bind fun _ => gives_pure

/-! ## Scripts -/

theorem reads_blockSection
    {ending : Ending} {body : Block} {label colon : Token} {ts : List Token}
    (hlabel : label.kind = .identifier) (hcolon : colon.kind = .colon)
    (hderives : Derives (.block body) ts) (hreads : Reads ending (.block body) ts) :
    Reads ending (.labelled ⟨label.offset, label.text, .block body⟩) (label :: colon :: ts) := by
  intro rest hvisible _
  rw [List.cons_append, List.cons_append, labelled]
  refine (gives_expect hlabel (visible_cons ..)).bind fun _ => ?_
  refine (gives_expect hcolon (visible_of_ne_nil (by simp [hderives.block_ne_nil]))).bind
    fun _ => gives_ite_pos (hderives.viewKind_block_append rest) ?_
  exact (hreads hvisible).bind fun _ => gives_pure

theorem reads_exprSection
    {ending : Ending} {body : Expr} {label colon : Token} {ts : List Token}
    (hlabel : label.kind = .identifier) (hcolon : colon.kind = .colon)
    (hderives : Derives (.expr 1 body) ts) (hnoBrace : viewKind ts ≠ .leftBrace)
    (hreads : ReadsExpr ending 1 body ts) :
    Reads ending (.labelled ⟨label.offset, label.text, .expr body⟩) (label :: colon :: ts) := by
  intro rest hvisible hstops
  rw [← hderives.viewKind_append rest] at hnoBrace
  rw [List.cons_append, List.cons_append, labelled]
  refine (gives_expect hlabel (visible_cons ..)).bind fun _ => ?_
  refine (gives_expect hcolon (visible_of_ne_nil (by simp [hderives.expr_ne_nil]))).bind
    fun _ => gives_ite_neg hnoBrace ?_
  exact (hreads hvisible hstops).bind fun _ => gives_pure

theorem items_stop {parts : List Item} {ts : List Token} (hderives : Derives (.items parts) ts) :
    ¬(viewKind ts).continues 1 := by
  rcases hderives.startsWith with hkind | hkind | hkind <;> rw [hkind] <;> decide

theorem reads_consSection
    {ending : Ending} {part : Section} {parts : List Item} {ts ts' : List Token}
    (hderives : Derives (.labelled part) ts) (hderivesMore : Derives (.items parts) ts')
    (hreads : Reads ending (.labelled part) ts) (hreadsMore : Reads ending (.items parts) ts') :
    Reads ending (.items (.labelled part :: parts)) (ts ++ ts') := by
  intro hends
  have hstart : viewKind ts = .identifier := hderives.startsWith
  have hlabel : viewKind (ts ++ ts') = .identifier := by
    rw [viewKind_append (by simp [hstart]), hstart]
  obtain ⟨hshorter, hread⟩ := hreads (visible_of_ends hends ts') (items_stop hderivesMore)
  rw [items]
  simp only [hlabel, hread, bind_eq_ok_iff]
  exact ⟨_, rfl, parts, hreadsMore hends, rfl⟩

theorem reads_consFunction
    {ending : Ending} {f : Function} {parts : List Item} {ts ts' : List Token}
    (hderives : Derives (.function f) ts) (hreads : Reads ending (.function f) ts)
    (hreadsMore : Reads ending (.items parts) ts') :
    Reads ending (.items (.function f :: parts)) (ts ++ ts') := by
  intro hends
  have hstart : viewKind ts = .fnWord := hderives.startsWith
  have hword : viewKind (ts ++ ts') = .fnWord := by
    rw [viewKind_append (by simp [hstart]), hstart]
  obtain ⟨hshorter, hread⟩ := hreads (visible_of_ends hends ts')
  rw [items]
  simp only [hword, hread, bind_eq_ok_iff]
  exact ⟨_, rfl, parts, hreadsMore hends, rfl⟩

/-- Whatever the grammar derives, the readers read, with the same tree. -/
theorem reads_of_derives
    {ending : Ending} {phrase : Phrase} {ts : List Token} (h : Derives phrase ts) :
    Reads ending phrase ts := by
  induction h with
  | assign hderives hsign hderives' hreads hreads'
  | store hderives hsign hderives' hreads hreads' =>
    exact reads_assign hderives rfl hsign hderives' hreads hreads'
  | binary _ hsign hderives' hreads hreads' => exact reads_binary hsign hderives' hreads hreads'
  | looser hpos hderives hreads => exact readsExpr_looser hpos hderives hreads
  | negate hsign hderives hreads => exact reads_negate hsign hderives hreads
  | call hderives hopening _ hclosing hreads hreads' =>
    exact reads_call hderives hopening hclosing hreads hreads'
  | subscript hderives hopening _ hclosing hreads hreads' =>
    exact reads_subscript hderives hopening hclosing hreads hreads'
  | string hkind | number hkind | nil hkind | ident hkind =>
    intro rest hvisible
    rw [List.cons_append, List.nil_append, primary]
    simp only [hkind, gives_bring_iff, digitsValue_eq_placeValue]
    exact ⟨hvisible, gives_pure⟩
  | array hopening _ hclosing hreads => exact reads_array hopening hclosing hreads
  | map hopening _ hclosing hreads => exact reads_map hopening hclosing hreads
  | parenthesized hopening _ hclosing hreads => exact reads_parenthesized hopening hclosing hreads
  | functionExpr hderives hreads => exact reads_functionExpr hderives hreads
  | noExprs =>
    intro closing last rest _ hlast hvisible
    rw [List.nil_append, exprs]
    exact gives_ite_pos hlast ((gives_expect hlast hvisible).bind fun _ => gives_pure)
  | lastExpr hderives hreads => exact reads_lastExpr hderives hreads
  | consExpr hderives hcomma _ hreads hreads' => exact reads_consExpr hderives hcomma hreads hreads'
  | noEntries =>
    intro last rest hlast hvisible
    rw [List.nil_append, entries]
    exact gives_ite_pos hlast ((gives_expect hlast hvisible).bind fun _ => gives_pure)
  | lastEntry hkey hcolon _ hreads => exact reads_lastEntry hkey hcolon hreads
  | consEntry hkey hcolon _ hcomma _ hreads hreads' =>
    exact reads_consEntry hkey hcolon hcomma hreads hreads'
  | noParams =>
    intro last rest hlast hvisible
    rw [List.nil_append, params]
    exact gives_ite_pos hlast ((gives_expect hlast hvisible).bind fun _ => gives_pure)
  | lastParam hparam => exact reads_lastParam hparam
  | consParam hparam hcomma _ hreads => exact reads_consParam hparam hcomma hreads
  | named hword hname hopening _ hclosing hderives hreads hreads' =>
    exact reads_named hword hname hopening hclosing hderives hreads hreads'
  | unnamed hword hopening _ hclosing hderives hreads hreads' =>
    exact reads_unnamed hword hopening hclosing hderives hreads hreads'
  | block hopening _ hclosing hreads => exact reads_block hopening hclosing hreads
  | noStatements =>
    intro last rest hlast hvisible
    rw [List.nil_append, statements]
    exact gives_ite_pos hlast ((gives_expect hlast hvisible).bind fun _ => gives_pure)
  | bareReturn hword => exact reads_bareReturn hword
  | consStatement hderives hderives' hseparated hreads hreads' =>
    exact reads_consStatement hderives hderives' hseparated hreads hreads'
  | declaration hword hname hsign hderives hreads =>
    exact reads_declaration hword hname hsign hderives hreads
  | forever hword hderives hreads => exact reads_forever hword hderives hreads
  | forEach hword hitem hwithin hderives hderives' hreads hreads' =>
    exact reads_loop hword hitem (by simp) (reads_loopIndex_none hwithin) hderives hderives' hreads
      hreads'
  | forEachIndexed hword hitem hcomma hindex hwithin hderives hderives' hreads hreads' =>
    exact reads_loop hword hitem (by simp) (reads_loopIndex_some hcomma hindex hwithin) hderives
      hderives' hreads hreads'
  | conditionalStatement hderives hreads => exact reads_conditionalStatement hderives hreads
  | returns hword hderives hreads => exact reads_returns hword hderives hreads
  | continues hword | breaks hword =>
    intro rest hvisible _ _
    rw [List.cons_append, List.nil_append, statement]
    simp only [viewKind, hword]
    exact (gives_expect hword hvisible).bind fun _ => gives_pure
  | select hword hderives hopening _ hclosing hreads hreads' =>
    exact reads_select hword hopening hclosing hderives hreads hreads'
  | blockStatement hderives hreads => exact reads_blockStatement hderives hreads
  | exprStatement hderives hnoBrace hreads => exact reads_exprStatement hderives hnoBrace hreads
  | onlyIf hword hderives hderives' hreads hreads' =>
    exact reads_onlyIf hword hderives hderives' hreads hreads'
  | ifElse hword hderives hderives' hbetween hderives'' hreads hreads' hreads'' =>
    exact reads_ifElse hword hderives hderives' hreads hreads' hbetween hderives'' hreads''
  | ifElseIf hword hderives hderives' hbetween hderives'' hreads hreads' hreads'' =>
    exact reads_ifElseIf hword hderives hderives' hreads hreads' hbetween hderives'' hreads''
  | noArms =>
    intro last rest hlast hvisible
    rw [List.nil_append, arms]
    exact gives_ite_pos hlast ((gives_expect hlast hvisible).bind fun _ => gives_pure)
  | consArm hderives hcolon _ _ hreads hreads' hreads'' =>
    exact reads_consArm hcolon hderives hreads hreads' hreads''
  | blockSection hlabel hcolon hderives hreads =>
    exact reads_blockSection hlabel hcolon hderives hreads
  | exprSection hlabel hcolon hderives hnoBrace hreads =>
    exact reads_exprSection hlabel hcolon hderives hnoBrace hreads
  | noItems =>
    intro _
    rw [items]
    rfl
  | consSection hderives hderives' hreads hreads' =>
    exact reads_consSection hderives hderives' hreads hreads'
  | consFunction hderives _ hreads hreads' => exact reads_consFunction hderives hreads hreads'

end PuzzleLang.Parse
