import PuzzleLang.Proofs.Grammar.Soundness
import PuzzleLang.Proofs.Position
import PuzzleLang.Proofs.Token.Segmentation

/-!
# Reading with one token in view

A reader passes a token only together with bringing the next one into view.  So what is wrong with
the text right after the tokens is found before anything is made of what stands there, and every
other fault of a reader stands at a token that could be seen.  There is one lemma for each reader,
which assumes the statement for fewer tokens; an induction on the number of tokens ties them
together.
-/

namespace PuzzleLang

namespace Parse

variable {ending : Ending} {places : Nat → Prop}

/-- The first of some tokens can be seen, and all of them stand at known places. -/
structure InView (ending : Ending) (places : Nat → Prop) (ts : List Token) : Prop where
  visible : Visible ending ts
  known : ∀ t ∈ ts, places t.offset

/-- What a reading may fail for: the text is broken after the last token, or there is a cause of
its own at a known place. -/
inductive Blames (ending : Ending) (places : Nat → Prop) : Fault → Prop
  | broken {fault : Fault} : ending = .broken fault → Blames ending places fault
  | refused {cause : Cause} {offset : Nat} :
    cause.stage = .grammar → places offset → Blames ending places ⟨cause, some offset⟩

/-- A reading has left over tokens in view, or has failed as it may. -/
inductive Orderly (ending : Ending) (places : Nat → Prop) {α : Type} {ts : List Token} :
    Except Fault (Parsed α ts) → Prop
  | ok {value : α} {rest : List Token} {shorter : rest.length < ts.length} :
    InView ending places rest → Orderly ending places (.ok ⟨value, rest, shorter⟩)
  | error {fault : Fault} : Blames ending places fault → Orderly ending places (.error fault)

section

variable {α β : Type} {ts us rest : List Token}

theorem Orderly.bind
    {reading : Except Fault (Parsed α ts)} {next : Parsed α ts → Except Fault (Parsed β us)}
    (h : Orderly ending places reading)
    (h' : ∀ value rest (hshorter : rest.length < ts.length), InView ending places rest →
      Orderly ending places (next ⟨value, rest, hshorter⟩)) :
    Orderly ending places (reading >>= next) := by
  cases h with
  | ok hview => exact h' _ _ _ hview
  | error hblames => exact .error hblames

theorem orderly_pure
    {value : α} {hshorter : rest.length < ts.length} (hview : InView ending places rest) :
    Orderly ending places (pure ⟨value, rest, hshorter⟩ : Except Fault (Parsed α ts)) :=
  .ok hview

theorem InView.tail
    {t : Token} {next : Unit → Except Fault (Parsed α ts)}
    (hview : InView ending places (t :: rest))
    (h : InView ending places rest → Orderly ending places (next ())) :
    Orderly ending places (bring ending rest >>= next) := by
  have hknown : ∀ u ∈ rest, places u.offset := fun u hmem =>
    hview.known u (List.mem_cons_of_mem t hmem)
  cases rest with
  | cons u rest => exact h ⟨rfl, hknown⟩
  | nil =>
    cases ending with
    | eof last => exact h ⟨rfl, hknown⟩
    | broken fault => exact .error (.broken rfl)

variable (hfinal : ∀ last, ending = .eof last → places last)

include hfinal

theorem InView.place (hview : InView ending places ts) : places (viewOffset ending ts) := by
  cases ts with
  | cons t ts => exact hview.known t List.mem_cons_self
  | nil =>
    obtain ⟨last, rfl⟩ := exists_eof_of_visible_nil hview.visible
    exact hfinal last rfl

theorem orderly_failHere
    {cause : Cause} (hview : InView ending places us) (hgrammar : cause.stage = .grammar) :
    Orderly ending places (failHere ending cause us : Except Fault (Parsed α ts)) :=
  .error (.refused hgrammar (hview.place hfinal))

theorem orderly_expect (hview : InView ending places ts) (allowed : List TokenKind) :
    Orderly ending places (expect ending allowed ts) := by
  cases ts with
  | nil => exact orderly_failHere hfinal hview rfl
  | cons t rest =>
    rw [expect]
    split
    · exact hview.tail fun hleft => orderly_pure hleft
    · exact orderly_failHere hfinal hview rfl

theorem orderly_params {ts : List Token} (hview : InView ending places ts) :
    Orderly ending places (params ending ts) := by
  rw [params]
  split
  · refine (orderly_expect hfinal hview _).bind fun _ _ _ hleft => ?_
    exact orderly_pure hleft
  · refine (orderly_expect hfinal hview _).bind fun _ _ hshorter hleft => ?_
    dsimp only
    split
    · refine (orderly_expect hfinal hleft _).bind fun _ _ hshorter₁ hleft => ?_
      refine (orderly_params hleft).bind fun _ _ _ hleft => ?_
      exact orderly_pure hleft
    · refine (orderly_expect hfinal hleft _).bind fun _ _ _ hleft => ?_
      exact orderly_pure hleft
termination_by ts.length

theorem orderly_loopIndex (hview : InView ending places ts) :
    Orderly ending places (loopIndex ending ts) := by
  rw [loopIndex]
  split
  · refine (orderly_expect hfinal hview _).bind fun _ _ _ hleft => ?_
    refine (orderly_expect hfinal hleft _).bind fun _ _ _ hleft => ?_
    refine (orderly_expect hfinal hleft _).bind fun _ _ _ hleft => ?_
    exact orderly_pure hleft
  · refine (orderly_expect hfinal hview _).bind fun _ _ _ hleft => ?_
    exact orderly_pure hleft

end

/-- Readings of fewer than `n` tokens are orderly. -/
structure OrderlyBelow (ending : Ending) (places : Nat → Prop) (n : Nat) : Prop where
  expr {ts : List Token} (least : Nat) :
    ts.length < n → InView ending places ts → Orderly ending places (expr ending least ts)
  unary {ts : List Token} :
    ts.length < n → InView ending places ts → Orderly ending places (unary ending ts)
  exprs {ts : List Token} (closing : TokenKind) :
    ts.length < n → InView ending places ts → Orderly ending places (exprs ending closing ts)
  entries {ts : List Token} :
    ts.length < n → InView ending places ts → Orderly ending places (entries ending ts)
  block {ts : List Token} :
    ts.length < n → InView ending places ts → Orderly ending places (block ending ts)
  statements {ts : List Token} :
    ts.length < n → InView ending places ts → Orderly ending places (statements ending ts)
  conditional {ts : List Token} :
    ts.length < n → InView ending places ts → Orderly ending places (conditional ending ts)
  arms {ts : List Token} :
    ts.length < n → InView ending places ts → Orderly ending places (arms ending ts)

section

variable {n : Nat} {ts rest : List Token} (hfinal : ∀ last, ending = .eof last → places last)
  (hbelow : OrderlyBelow ending places n)

include hfinal hbelow

/-! ## Expressions -/

theorem orderly_extend
    {start : Nat} {head : Expr} {hshorter : rest.length < ts.length}
    (hlength_le : rest.length ≤ n) (hview : InView ending places rest) :
    Orderly ending places (extend ending start ts head rest hshorter) := by
  -- Every call or subscript takes at least one token.
  induction hsize : rest.length using Nat.strongRecOn generalizing rest head with
  | ind size ih =>
    subst hsize
    cases rest with
    | nil =>
      rw [extend]
      exact orderly_pure hview
    | cons t rest =>
      simp only [List.length_cons] at hlength_le ih
      rw [extend]
      split
      · refine hview.tail fun hleft => ?_
        refine (hbelow.exprs _ (by omega) hleft).bind fun _ _ hshorter₁ hleft => ?_
        exact ih _ (by omega) (by omega) hleft rfl
      · split
        · refine hview.tail fun hleft => ?_
          refine (hbelow.expr _ (by omega) hleft).bind fun _ _ hshorter₁ hleft => ?_
          refine (orderly_expect hfinal hleft _).bind fun _ _ hshorter₂ hleft => ?_
          exact ih _ (by omega) (by omega) hleft rfl
        · exact orderly_pure hview

theorem orderly_function (hlength_le : ts.length ≤ n) (hview : InView ending places ts) :
    Orderly ending places (function ending ts) := by
  rw [function]
  refine (orderly_expect hfinal hview _).bind fun _ _ hshorter hleft => ?_
  dsimp only
  split
  · refine (orderly_expect hfinal hleft _).bind fun _ _ hshorter₁ hleft => ?_
    refine (orderly_expect hfinal hleft _).bind fun _ _ hshorter₂ hleft => ?_
    refine (orderly_params hfinal hleft).bind fun _ _ hshorter₃ hleft => ?_
    refine (hbelow.block (by omega) hleft).bind fun _ _ _ hleft => ?_
    exact orderly_pure hleft
  · refine (orderly_expect hfinal hleft _).bind fun _ _ hshorter₂ hleft => ?_
    refine (orderly_params hfinal hleft).bind fun _ _ hshorter₃ hleft => ?_
    refine (hbelow.block (by omega) hleft).bind fun _ _ _ hleft => ?_
    exact orderly_pure hleft

theorem orderly_primary (hlength_le : ts.length ≤ n) (hview : InView ending places ts) :
    Orderly ending places (primary ending ts) := by
  cases ts with
  | nil =>
    rw [primary]
    exact orderly_failHere hfinal hview rfl
  | cons t rest =>
    rw [primary]
    split
    · exact hview.tail fun hleft => orderly_pure hleft
    · exact hview.tail fun hleft => orderly_pure hleft
    · exact hview.tail fun hleft => orderly_pure hleft
    · exact hview.tail fun hleft => orderly_pure hleft
    · refine hview.tail fun hleft => ?_
      refine (hbelow.exprs _ hlength_le hleft).bind fun _ _ _ hleft => ?_
      exact orderly_pure hleft
    · refine hview.tail fun hleft => ?_
      refine (hbelow.entries hlength_le hleft).bind fun _ _ _ hleft => ?_
      exact orderly_pure hleft
    · refine hview.tail fun hleft => ?_
      refine (hbelow.expr _ hlength_le hleft).bind fun _ _ _ hleft => ?_
      refine (orderly_expect hfinal hleft _).bind fun _ _ _ hleft => ?_
      exact orderly_pure hleft
    · refine (orderly_function hfinal hbelow hlength_le hview).bind fun _ _ _ hleft => ?_
      exact orderly_pure hleft
    · exact orderly_failHere hfinal hview rfl

theorem orderly_postfixed (hlength_le : ts.length ≤ n) (hview : InView ending places ts) :
    Orderly ending places (postfixed ending ts) := by
  rw [postfixed]
  refine (orderly_primary hfinal hbelow hlength_le hview).bind fun _ _ hshorter hleft => ?_
  exact orderly_extend hfinal hbelow (by omega) hleft

theorem orderly_unary (hlength_le : ts.length ≤ n) (hview : InView ending places ts) :
    Orderly ending places (unary ending ts) := by
  cases ts with
  | nil =>
    rw [unary]
    exact orderly_postfixed hfinal hbelow hlength_le hview
  | cons t rest =>
    rw [unary]
    split
    · refine hview.tail fun hleft => ?_
      refine (hbelow.unary hlength_le hleft).bind fun _ _ _ hleft => ?_
      exact orderly_pure hleft
    · exact orderly_postfixed hfinal hbelow hlength_le hview

omit hfinal in
theorem orderly_climb
    {least : Nat} {operand : Expr} {hshorter : rest.length < ts.length}
    (hlength_le : rest.length ≤ n) (hview : InView ending places rest) :
    Orderly ending places (climb ending least ts operand rest hshorter) := by
  induction hsize : rest.length using Nat.strongRecOn generalizing rest operand with
  | ind size ih =>
    subst hsize
    cases rest with
    | nil =>
      rw [climb]
      exact orderly_pure hview
    | cons t rest =>
      simp only [List.length_cons] at hlength_le ih
      rw [climb]
      split
      · split
        · exact orderly_pure hview
        · refine hview.tail fun hleft => ?_
          -- The operator is passed before the target is looked at, and blamed for it.
          cases operand.target? with
          | none => exact .error (.refused rfl (hview.known t List.mem_cons_self))
          | some target =>
            refine (hbelow.expr _ (by omega) hleft).bind fun _ _ hshorter₁ hleft => ?_
            exact ih _ (by omega) (by omega) hleft rfl
      · split
        · exact orderly_pure hview
        · split
          · exact orderly_pure hview
          · refine hview.tail fun hleft => ?_
            refine (hbelow.expr _ (by omega) hleft).bind fun _ _ hshorter₁ hleft => ?_
            exact ih _ (by omega) (by omega) hleft rfl

theorem orderly_expr (hlength_le : ts.length ≤ n) (hview : InView ending places ts) (least : Nat) :
    Orderly ending places (expr ending least ts) := by
  rw [expr]
  refine (orderly_unary hfinal hbelow hlength_le hview).bind fun _ _ hshorter hleft => ?_
  exact orderly_climb hbelow (by omega) hleft

theorem orderly_exprs
    (hlength_le : ts.length ≤ n) (hview : InView ending places ts) (closing : TokenKind) :
    Orderly ending places (exprs ending closing ts) := by
  rw [exprs]
  split
  · refine (orderly_expect hfinal hview _).bind fun _ _ _ hleft => ?_
    exact orderly_pure hleft
  · refine (orderly_expr hfinal hbelow hlength_le hview _).bind fun _ _ hshorter hleft => ?_
    dsimp only
    split
    · refine (orderly_expect hfinal hleft _).bind fun _ _ hshorter₁ hleft => ?_
      refine (hbelow.exprs _ (by omega) hleft).bind fun _ _ _ hleft => ?_
      exact orderly_pure hleft
    · refine (orderly_expect hfinal hleft _).bind fun _ _ _ hleft => ?_
      exact orderly_pure hleft

theorem orderly_entries (hlength_le : ts.length ≤ n) (hview : InView ending places ts) :
    Orderly ending places (entries ending ts) := by
  rw [entries]
  split
  · refine (orderly_expect hfinal hview _).bind fun _ _ _ hleft => ?_
    exact orderly_pure hleft
  · refine (orderly_expect hfinal hview _).bind fun _ _ hshorter hleft => ?_
    refine (orderly_expect hfinal hleft _).bind fun _ _ hshorter₁ hleft => ?_
    refine (hbelow.expr _ (by omega) hleft).bind fun _ _ hshorter₂ hleft => ?_
    dsimp only
    split
    · refine (orderly_expect hfinal hleft _).bind fun _ _ hshorter₃ hleft => ?_
      refine (hbelow.entries (by omega) hleft).bind fun _ _ _ hleft => ?_
      exact orderly_pure hleft
    · refine (orderly_expect hfinal hleft _).bind fun _ _ _ hleft => ?_
      exact orderly_pure hleft

/-! ## Statements -/

theorem orderly_block (hlength_le : ts.length ≤ n) (hview : InView ending places ts) :
    Orderly ending places (block ending ts) := by
  rw [block]
  refine (orderly_expect hfinal hview _).bind fun _ _ hshorter hleft => ?_
  refine (hbelow.statements (by omega) hleft).bind fun _ _ _ hleft => ?_
  exact orderly_pure hleft

theorem orderly_conditional (hlength_le : ts.length ≤ n) (hview : InView ending places ts) :
    Orderly ending places (conditional ending ts) := by
  rw [conditional]
  refine (orderly_expect hfinal hview _).bind fun _ _ hshorter hleft => ?_
  refine (hbelow.expr _ (by omega) hleft).bind fun _ _ hshorter₁ hleft => ?_
  refine (hbelow.block (by omega) hleft).bind fun _ _ hshorter₂ hleft => ?_
  dsimp only
  split
  · refine (orderly_expect hfinal hleft _).bind fun _ _ hshorter₃ hleft => ?_
    dsimp only
    split
    · refine (hbelow.conditional (by omega) hleft).bind fun _ _ _ hleft => ?_
      exact orderly_pure hleft
    · refine (hbelow.block (by omega) hleft).bind fun _ _ _ hleft => ?_
      exact orderly_pure hleft
  · exact orderly_pure hleft

theorem orderly_arms (hlength_le : ts.length ≤ n) (hview : InView ending places ts) :
    Orderly ending places (arms ending ts) := by
  rw [arms]
  split
  · refine (orderly_expect hfinal hview _).bind fun _ _ _ hleft => ?_
    exact orderly_pure hleft
  · refine (orderly_expr hfinal hbelow hlength_le hview _).bind fun _ _ hshorter hleft => ?_
    refine (orderly_expect hfinal hleft _).bind fun _ _ hshorter₁ hleft => ?_
    refine (hbelow.block (by omega) hleft).bind fun _ _ hshorter₂ hleft => ?_
    refine (hbelow.arms (by omega) hleft).bind fun _ _ _ hleft => ?_
    exact orderly_pure hleft

theorem orderly_statement (hlength_le : ts.length ≤ n) (hview : InView ending places ts) :
    Orderly ending places (statement ending ts) := by
  rw [statement]
  split
  · refine (orderly_expect hfinal hview _).bind fun _ _ hshorter hleft => ?_
    refine (orderly_expect hfinal hleft _).bind fun _ _ hshorter₁ hleft => ?_
    refine (orderly_expect hfinal hleft _).bind fun _ _ hshorter₂ hleft => ?_
    refine (hbelow.expr _ (by omega) hleft).bind fun _ _ _ hleft => ?_
    exact orderly_pure hleft
  · refine (orderly_expect hfinal hview _).bind fun _ _ hshorter hleft => ?_
    dsimp only
    split
    · refine (hbelow.block (by omega) hleft).bind fun _ _ _ hleft => ?_
      exact orderly_pure hleft
    · refine (orderly_expect hfinal hleft _).bind fun _ _ hshorter₁ hleft => ?_
      refine (orderly_loopIndex hfinal hleft).bind fun _ _ hshorter₂ hleft => ?_
      refine (hbelow.expr _ (by omega) hleft).bind fun _ _ hshorter₃ hleft => ?_
      refine (hbelow.block (by omega) hleft).bind fun _ _ _ hleft => ?_
      exact orderly_pure hleft
  · refine (orderly_conditional hfinal hbelow hlength_le hview).bind fun _ _ _ hleft => ?_
    exact orderly_pure hleft
  · refine (orderly_expect hfinal hview _).bind fun _ _ hshorter hleft => ?_
    dsimp only
    split
    · exact orderly_pure hleft
    · refine (hbelow.expr _ (by omega) hleft).bind fun _ _ _ hleft => ?_
      exact orderly_pure hleft
  · refine (orderly_expect hfinal hview _).bind fun _ _ _ hleft => ?_
    exact orderly_pure hleft
  · refine (orderly_expect hfinal hview _).bind fun _ _ _ hleft => ?_
    exact orderly_pure hleft
  · refine (orderly_expect hfinal hview _).bind fun _ _ hshorter hleft => ?_
    refine (hbelow.expr _ (by omega) hleft).bind fun _ _ hshorter₁ hleft => ?_
    refine (orderly_expect hfinal hleft _).bind fun _ _ hshorter₂ hleft => ?_
    refine (hbelow.arms (by omega) hleft).bind fun _ _ _ hleft => ?_
    exact orderly_pure hleft
  · refine (orderly_block hfinal hbelow hlength_le hview).bind fun _ _ _ hleft => ?_
    exact orderly_pure hleft
  · refine (orderly_expr hfinal hbelow hlength_le hview _).bind fun _ _ _ hleft => ?_
    exact orderly_pure hleft

theorem orderly_statements (hlength_le : ts.length ≤ n) (hview : InView ending places ts) :
    Orderly ending places (statements ending ts) := by
  rw [statements]
  split
  · refine (orderly_expect hfinal hview _).bind fun _ _ _ hleft => ?_
    exact orderly_pure hleft
  · split
    · exact orderly_failHere hfinal hview rfl
    · refine (orderly_statement hfinal hbelow hlength_le hview).bind fun _ _ hshorter hleft => ?_
      refine (hbelow.statements (by omega) hleft).bind fun _ _ _ hleft => ?_
      exact orderly_pure hleft

omit hbelow in
theorem OrderlyBelow.succ (hbelow : OrderlyBelow ending places n) :
    OrderlyBelow ending places (n + 1) where
  expr least hlt hview := orderly_expr hfinal hbelow (Nat.le_of_lt_succ hlt) hview least
  unary hlt hview := orderly_unary hfinal hbelow (Nat.le_of_lt_succ hlt) hview
  exprs closing hlt hview := orderly_exprs hfinal hbelow (Nat.le_of_lt_succ hlt) hview closing
  entries hlt hview := orderly_entries hfinal hbelow (Nat.le_of_lt_succ hlt) hview
  block hlt hview := orderly_block hfinal hbelow (Nat.le_of_lt_succ hlt) hview
  statements hlt hview := orderly_statements hfinal hbelow (Nat.le_of_lt_succ hlt) hview
  conditional hlt hview := orderly_conditional hfinal hbelow (Nat.le_of_lt_succ hlt) hview
  arms hlt hview := orderly_arms hfinal hbelow (Nat.le_of_lt_succ hlt) hview

omit hbelow in
theorem orderlyBelow (n : Nat) : OrderlyBelow ending places n := by
  induction n with
  | zero => constructor <;> intros <;> contradiction
  | succ n ih => exact ih.succ hfinal

omit hbelow in
theorem orderly_labelled (hview : InView ending places ts) :
    Orderly ending places (labelled ending ts) := by
  have hbelow : OrderlyBelow ending places ts.length := orderlyBelow hfinal _
  rw [labelled]
  refine (orderly_expect hfinal hview _).bind fun _ _ hshorter hleft => ?_
  refine (orderly_expect hfinal hleft _).bind fun _ _ hshorter₁ hleft => ?_
  dsimp only
  split
  · refine (hbelow.block (by omega) hleft).bind fun _ _ _ hleft => ?_
    exact orderly_pure hleft
  · refine (hbelow.expr _ (by omega) hleft).bind fun _ _ _ hleft => ?_
    exact orderly_pure hleft

/-! ## Scripts -/

omit hfinal hbelow in
theorem error_of_cons
    {item : Item} {reading : Except Fault (List Item)} {fault : Fault}
    (hfailed : (do return item :: (← reading)) = (.error fault : Except Fault (List Item))) :
    reading = .error fault := by
  cases reading with
  | ok items => cases hfailed
  | error found =>
    cases hfailed
    rfl

omit hbelow in
theorem blames_of_items
    {ts : List Token} {fault : Fault}
    (hview : InView ending places ts) (hfailed : items ending ts = .error fault) :
    Blames ending places fault := by
  rw [items] at hfailed
  split at hfailed
  · cases hfailed
  · have hpart := orderly_labelled hfinal hview
    generalize labelled ending ts = reading at hpart hfailed
    cases hpart with
    | error hblames =>
      cases hfailed
      exact hblames
    | @ok part rest hshorter hleft => exact blames_of_items hleft (error_of_cons hfailed)
  · have hf := orderly_function hfinal (orderlyBelow hfinal ts.length) (Nat.le_refl _) hview
    generalize function ending ts = reading at hf hfailed
    cases hf with
    | error hblames =>
      cases hfailed
      exact hblames
    | @ok f rest hshorter hleft => exact blames_of_items hleft (error_of_cons hfailed)
  · cases hfailed
    exact .refused rfl (hview.place hfinal)
termination_by ts.length

end

end Parse

/-! ## Where a text is broken -/

theorem lexeme_error
    {c : Char} {cs : List Char} {offset : Nat} {fault : Fault} {after : Cursor}
    (h : lexeme c cs offset = (.error fault, after)) :
    fault.cause.stage = .tokens ∧ fault.offset = some offset := by
  unfold lexeme at h
  split at h
  · cases h
  · split at h
    · cases h
    · split at h
      · split at h
        · cases h
          exact ⟨rfl, rfl⟩
        · cases h
      · split at h
        · cases h
        · cases h
          exact ⟨rfl, rfl⟩

/-- What breaks a text stands after all tokens. -/
theorem tokens_before_broken
    {place : Cursor} {fault : Fault} (h : (Lexed.ofCursor place).ending = .broken fault) :
    fault.cause.stage = .tokens ∧
      ∃ offset, fault.offset = some offset ∧ place.offset ≤ offset ∧
        ∀ t ∈ (Lexed.ofCursor place).tokens, t.offset ≤ offset := by
  fun_induction Lexed.ofCursor place with
  | case1 => cases h
  | case2 place c cs offset hskipped found after herror =>
    cases h
    obtain ⟨gap, -, hoffset, -⟩ := skipLayout_isGap hskipped
    obtain ⟨hstage, hfault⟩ := lexeme_error herror
    refine ⟨hstage, offset, hfault, ?_, ?_⟩
    · have hpassed : offset = place.offset + gap.length := hoffset
      omega
    · intro t hmem
      cases hmem
  | case3 place c cs offset hskipped t after hfound hshorter later ih =>
    obtain ⟨gap, -, hoffset, -⟩ := skipLayout_isGap hskipped
    have hpassed : offset = place.offset + gap.length := hoffset
    have hcut := cutsOff_of_lexeme hfound
    obtain ⟨hstage, last, hfault, hle, hbefore⟩ := ih h
    have hquotes := t.quotes_le
    have htextOffset := hcut.textOffset
    have hstop := hcut.stop
    refine ⟨hstage, last, hfault, by omega, ?_⟩
    intro u hmem
    rcases List.mem_cons.mp hmem with rfl | hlater
    · omega
    · exact hbefore u hlater

theorem tokenize_eq_error_iff {source : List Char} {fault : Fault} :
    tokenize source = .error fault ↔ (Lexed.ofSource source).ending = .broken fault := by
  simp only [tokenize]
  cases (Lexed.ofSource source).ending with
  | eof offset => simp
  | broken found => simp

/-! ## Main result -/

/-- The places at which a token of a text stands, or its end if it is in good order. -/
def Lexed.Places (lexed : Lexed) (offset : Nat) : Prop :=
  (∃ t ∈ lexed.tokens, t.offset = offset) ∨ lexed.ending = .eof offset

theorem Lexed.blames_of_parse
    {lexed : Lexed} {fault : Fault} (hfailed : lexed.parse = .error fault) :
    Parse.Blames lexed.ending lexed.Places fault := by
  unfold Lexed.parse at hfailed
  cases hbrought : Parse.bring lexed.ending lexed.tokens with
  | ok done =>
    rw [hbrought] at hfailed
    have hview : Parse.InView lexed.ending lexed.Places lexed.tokens :=
      ⟨hbrought, fun t hmem => .inl ⟨t, hmem, rfl⟩⟩
    exact Parse.blames_of_items (fun _ hlast => .inr hlast) hview hfailed
  | error found =>
    rw [hbrought] at hfailed
    cases hfailed
    unfold Parse.bring at hbrought
    split at hbrought
    · cases hbrought
      rename_i hbroken
      exact .broken hbroken
    · cases hbrought

theorem Program.lexed_error_of_parse
    {source : List Char} {fault : Fault} (hfailed : Program.parse source = .error fault) :
    (Lexed.ofSource source).parse = .error fault := by
  unfold Program.parse at hfailed
  cases hread : (Lexed.ofSource source).parse with
  | ok items =>
    rw [hread] at hfailed
    cases hfailed
  | error found =>
    rw [hread] at hfailed
    cases hfailed
    rfl

/-- Reading a script agrees with cutting its whole text into tokens.  If the script can be read, so
can all its tokens.  A fault in reading is never one of a run, and lies on a line of the text.  If
it is one of the tokens, cutting the text has that very fault; and if cutting the text has any
fault, that one does not lie on an earlier line. -/
theorem Program.parse_agrees_with_tokenize (source : List Char) :
    (∀ program, Program.parse source = .ok program → ∃ ts, tokenize source = .ok ts) ∧
      ∀ fault, Program.parse source = .error fault →
        fault.cause.stage ≠ .run ∧
        (fault.cause.stage = .tokens → tokenize source = .error fault) ∧
        ∃ offset, fault.offset = some offset ∧
          1 ≤ lineAt source offset ∧ lineAt source offset ≤ 1 + source.count '\n' ∧
          ∀ lexical, tokenize source = .error lexical →
            ∃ offset', lexical.offset = some offset' ∧
              lineAt source offset ≤ lineAt source offset' := by
  constructor
  · intro program hparsed
    obtain ⟨last, hlexed, -⟩ := Program.exists_eof_of_parse hparsed
    refine ⟨(Lexed.ofSource source).tokens ++ [⟨.eof, "", last⟩], ?_⟩
    simp only [tokenize]
    rw [hlexed]
  · intro fault hfailed
    have hblames := Lexed.blames_of_parse (Program.lexed_error_of_parse hfailed)
    cases hblames with
    | broken hbroken =>
      obtain ⟨hstage, offset, hoffset, -⟩ := tokens_before_broken hbroken
      have hcut : tokenize source = .error fault := tokenize_eq_error_iff.mpr hbroken
      refine ⟨?_, fun _ => hcut, offset, hoffset, lineAt_pos _ _, lineAt_le _ _, ?_⟩
      · rw [hstage]
        decide
      · intro lexical hlexical
        rw [hcut] at hlexical
        cases hlexical
        exact ⟨offset, hoffset, Nat.le_refl _⟩
    | @refused cause offset hstage hplace =>
      refine ⟨?_, fun htokens => ?_, offset, rfl, lineAt_pos _ _, lineAt_le _ _, ?_⟩
      · rw [hstage]
        decide
      · rw [hstage] at htokens
        cases htokens
      · intro lexical hlexical
        have hbroken := tokenize_eq_error_iff.mp hlexical
        obtain ⟨-, offset', hoffset, -, hbefore⟩ := tokens_before_broken hbroken
        refine ⟨offset', hoffset, lineAt_mono source ?_⟩
        rcases hplace with ⟨t, hmem, rfl⟩ | hlast
        · exact hbefore t hmem
        · rw [hbroken] at hlast
          cases hlast

set_option maxRecDepth 10000 in
/-- A token that does not fit wins over a broken text on the next line, while a text that is broken
right after an assignment sign wins over the missing target before it. -/
theorem Program.parse_agrees_with_tokenize_race :
    Program.parse "a: )\n@".toList = .error ⟨.expectedValue .rightParen, some 3⟩ ∧
      tokenize "a: )\n@".toList = .error ⟨.unexpectedCharacter '@', some 5⟩ ∧
      lineAt "a: )\n@".toList 3 ≤ lineAt "a: )\n@".toList 5 ∧
      Program.parse "a: 1 = @".toList = .error ⟨.unexpectedCharacter '@', some 7⟩ ∧
      tokenize "a: 1 = @".toList = .error ⟨.unexpectedCharacter '@', some 7⟩ := by
  have hrefused : Program.parse "a: )\n@".toList = .error ⟨.expectedValue .rightParen, some 3⟩ := by
    cbv
  have hbroken : tokenize "a: )\n@".toList = .error ⟨.unexpectedCharacter '@', some 5⟩ := by cbv
  have hovertaken : Program.parse "a: 1 = @".toList =
      .error ⟨.unexpectedCharacter '@', some 7⟩ := by
    cbv
  obtain ⟨-, -, offset, hoffset, -, -, hnotAfter⟩ :=
    (Program.parse_agrees_with_tokenize _).2 _ hrefused
  cases hoffset
  obtain ⟨offset', hoffset', hle⟩ := hnotAfter _ hbroken
  cases hoffset'
  exact ⟨hrefused, hbroken, hle, hovertaken,
    ((Program.parse_agrees_with_tokenize _).2 _ hovertaken).2.1 rfl⟩

end PuzzleLang
