import PuzzleLang.Proofs.Token.Terminal
import PuzzleLang.Proofs.Tree.Like
import PuzzleLang.Tree.Parse

/-!
# Reading tokens that are alike

A reader looks at the kinds and texts of tokens only; their offsets go into the tree and into
faults.  So from tokens of the same kinds and texts it makes trees that are alike, or fails for the
same cause.  There is one lemma for each reader, which assumes the statement for fewer tokens; an
induction on the number of tokens ties them together.
-/

namespace PuzzleLang

variable {offsets : Nat → Nat → Prop}

/-- Two tokens have the same kind and text, and offsets that correspond. -/
structure Token.Like (offsets : Nat → Nat → Prop) (t t' : Token) : Prop where
  kind : t'.kind = t.kind
  text : t'.text = t.text
  offset : offsets t.offset t'.offset

/-- Two faults have the same cause, and offsets that correspond. -/
structure Fault.Like (offsets : Nat → Nat → Prop) (fault fault' : Fault) : Prop where
  cause : fault'.cause = fault.cause
  offset : Option.Rel offsets fault.offset fault'.offset

namespace Parse

/-- Two lists of tokens are alike. -/
abbrev TokensLike (offsets : Nat → Nat → Prop) : List Token → List Token → Prop :=
  List.Forall₂ (Token.Like offsets)

/-- Two readings have given results that correspond and left over tokens that are alike, or have
failed alike. -/
inductive ReadAlike (offsets : Nat → Nat → Prop) {α α' : Type} (results : α → α' → Prop)
    {ts ts' : List Token} : Except Fault (Parsed α ts) → Except Fault (Parsed α' ts') → Prop
  | ok {value : α} {value' : α'} {rest rest' : List Token} {shorter : rest.length < ts.length}
      {shorter' : rest'.length < ts'.length} :
    results value value' → TokensLike offsets rest rest' →
      ReadAlike offsets results (.ok ⟨value, rest, shorter⟩) (.ok ⟨value', rest', shorter'⟩)
  | error {fault fault' : Fault} :
    Fault.Like offsets fault fault' → ReadAlike offsets results (.error fault) (.error fault')

section

variable {α α' β β' : Type} {results : α → α' → Prop} {results' : β → β' → Prop}
  {ts ts' us us' rest rest' : List Token} {last last' : Nat}

theorem viewKind_same (h : TokensLike offsets ts ts') : viewKind ts' = viewKind ts := by
  cases h with
  | nil => rfl
  | cons hfirst _ => exact hfirst.kind

theorem viewOffset_like (hfinal : offsets last last') (h : TokensLike offsets ts ts') :
    offsets (viewOffset (.eof last) ts) (viewOffset (.eof last') ts') := by
  cases h with
  | nil => exact hfinal
  | cons hfirst _ => exact hfirst.offset

theorem readAlike_failHere
    (hfinal : offsets last last') (h : TokensLike offsets us us') (cause : Cause) :
    ReadAlike offsets results (failHere (.eof last) cause us : Except Fault (Parsed α ts))
      (failHere (.eof last') cause us' : Except Fault (Parsed α' ts')) :=
  .error ⟨rfl, .some (viewOffset_like hfinal h)⟩

theorem readAlike_pure
    {value : α} {value' : α'} {hshorter : rest.length < ts.length}
    {hshorter' : rest'.length < ts'.length}
    (h : results value value') (hleft : TokensLike offsets rest rest') :
    ReadAlike offsets results (pure ⟨value, rest, hshorter⟩) (pure ⟨value', rest', hshorter'⟩) :=
  .ok h hleft

theorem ReadAlike.bind
    {reading : Except Fault (Parsed α ts)} {reading' : Except Fault (Parsed α' ts')}
    {next : Parsed α ts → Except Fault (Parsed β us)}
    {next' : Parsed α' ts' → Except Fault (Parsed β' us')}
    (h : ReadAlike offsets results reading reading')
    (h' : ∀ value value' rest rest' (hshorter : rest.length < ts.length)
      (hshorter' : rest'.length < ts'.length), results value value' →
      TokensLike offsets rest rest' →
      ReadAlike offsets results' (next ⟨value, rest, hshorter⟩)
        (next' ⟨value', rest', hshorter'⟩)) :
    ReadAlike offsets results' (reading >>= next) (reading' >>= next') := by
  cases h with
  | ok hvalues hleft => exact h' _ _ _ _ _ _ hvalues hleft
  | error hfaults => exact .error hfaults

theorem readAlike_bring
    {next : Unit → Except Fault (Parsed α ts)} {next' : Unit → Except Fault (Parsed α' ts')}
    (h : ReadAlike offsets results (next ()) (next' ())) :
    ReadAlike offsets results (bring (.eof last) rest >>= next)
      (bring (.eof last') rest' >>= next') := by
  cases rest <;> cases rest' <;> exact h

theorem readAlike_expect
    (hfinal : offsets last last') (h : TokensLike offsets ts ts') (allowed : List TokenKind) :
    ReadAlike offsets (Token.Like offsets) (expect (.eof last) allowed ts)
      (expect (.eof last') allowed ts') := by
  cases h with
  | nil => exact readAlike_failHere hfinal .nil _
  | cons hfirst hleft =>
    rw [expect, expect, hfirst.kind]
    split
    · exact readAlike_bring (readAlike_pure hfirst hleft)
    · exact readAlike_failHere hfinal (.cons hfirst hleft) _

end

theorem readAlike_params
    {ts ts' : List Token} {last last' : Nat}
    (hfinal : offsets last last') (h : TokensLike offsets ts ts') :
    ReadAlike offsets (fun names names' => names' = names) (params (.eof last) ts)
      (params (.eof last') ts') := by
  rw [params, params, viewKind_same h]
  split
  · refine (readAlike_expect hfinal h _).bind fun _ _ _ _ _ _ _ hleft => ?_
    exact readAlike_pure rfl hleft
  · refine (readAlike_expect hfinal h _).bind fun _ _ _ _ hshorter _ hfirst hleft => ?_
    dsimp only
    rw [viewKind_same hleft]
    split
    · refine (readAlike_expect hfinal hleft _).bind fun _ _ _ _ hshorter₁ _ _ hleft => ?_
      refine (readAlike_params hfinal hleft).bind fun _ _ _ _ _ _ hmore hleft => ?_
      exact readAlike_pure (by rw [hfirst.text, hmore]) hleft
    · refine (readAlike_expect hfinal hleft _).bind fun _ _ _ _ _ _ _ hleft => ?_
      exact readAlike_pure (by rw [hfirst.text]) hleft
termination_by ts.length

theorem readAlike_loopIndex
    {ts ts' : List Token} {last last' : Nat}
    (hfinal : offsets last last') (h : TokensLike offsets ts ts') :
    ReadAlike offsets (fun index index' => index' = index) (loopIndex (.eof last) ts)
      (loopIndex (.eof last') ts') := by
  rw [loopIndex, loopIndex, viewKind_same h]
  split
  · refine (readAlike_expect hfinal h _).bind fun _ _ _ _ _ _ _ hleft => ?_
    refine (readAlike_expect hfinal hleft _).bind fun _ _ _ _ _ _ hindex hleft => ?_
    refine (readAlike_expect hfinal hleft _).bind fun _ _ _ _ _ _ _ hleft => ?_
    exact readAlike_pure (by rw [hindex.text]) hleft
  · refine (readAlike_expect hfinal h _).bind fun _ _ _ _ _ _ _ hleft => ?_
    exact readAlike_pure rfl hleft

/-- Readings of fewer than `n` tokens are alike. -/
structure AlikeBelow (offsets : Nat → Nat → Prop) (last last' n : Nat) : Prop where
  expr {ts ts' : List Token} (least : Nat) :
    ts.length < n → TokensLike offsets ts ts' →
      ReadAlike offsets (Expr.Like offsets) (expr (.eof last) least ts)
        (expr (.eof last') least ts')
  unary {ts ts' : List Token} :
    ts.length < n → TokensLike offsets ts ts' →
      ReadAlike offsets (Expr.Like offsets) (unary (.eof last) ts) (unary (.eof last') ts')
  exprs {ts ts' : List Token} (closing : TokenKind) :
    ts.length < n → TokensLike offsets ts ts' →
      ReadAlike offsets (Expr.LikeAll offsets) (exprs (.eof last) closing ts)
        (exprs (.eof last') closing ts')
  entries {ts ts' : List Token} :
    ts.length < n → TokensLike offsets ts ts' →
      ReadAlike offsets (Expr.LikeEntries offsets) (entries (.eof last) ts)
        (entries (.eof last') ts')
  block {ts ts' : List Token} :
    ts.length < n → TokensLike offsets ts ts' →
      ReadAlike offsets (Block.Like offsets) (block (.eof last) ts) (block (.eof last') ts')
  statements {ts ts' : List Token} :
    ts.length < n → TokensLike offsets ts ts' →
      ReadAlike offsets (Stmt.LikeAll offsets) (statements (.eof last) ts)
        (statements (.eof last') ts')
  conditional {ts ts' : List Token} :
    ts.length < n → TokensLike offsets ts ts' →
      ReadAlike offsets (Conditional.Like offsets) (conditional (.eof last) ts)
        (conditional (.eof last') ts')
  arms {ts ts' : List Token} :
    ts.length < n → TokensLike offsets ts ts' →
      ReadAlike offsets (Arm.LikeAll offsets) (arms (.eof last) ts) (arms (.eof last') ts')

/-- Two targets of assignments are alike. -/
inductive TargetLike (offsets : Nat → Nat → Prop) : Target → Target → Prop
  | ident {o o' : Nat} {name : String} :
    offsets o o' → TargetLike offsets (.ident o name) (.ident o' name)
  | slot {o o' : Nat} {container container' key key' : Expr} :
    offsets o o' → Expr.Like offsets container container' → Expr.Like offsets key key' →
      TargetLike offsets (.slot o container key) (.slot o' container' key')

theorem rel_target? {e e' : Expr} (h : Expr.Like offsets e e') :
    Option.Rel (TargetLike offsets) e.target? e'.target? := by
  cases h with
  | ident ho => exact .some (.ident ho)
  | subscript ho hcontainer hkey => exact .some (.slot ho hcontainer hkey)
  | _ => exact .none

theorem TargetLike.assign
    {target target' : Target} {value value' : Expr} {o o' : Nat}
    (h : TargetLike offsets target target') (hoffset : offsets o o')
    (hvalues : Expr.Like offsets value value') :
    Expr.Like offsets (target.assign o value) (target'.assign o' value') := by
  cases h with
  | ident htargetOffset => exact .assign hoffset htargetOffset hvalues
  | slot htargetOffset hcontainer hkey => exact .store hoffset htargetOffset hcontainer hkey hvalues

section

variable {last last' n : Nat} (hfinal : offsets last last')
  (hbelow : AlikeBelow offsets last last' n)

include hfinal hbelow

/-! ## Expressions -/

theorem readAlike_extend
    {start start' : Nat} {ts ts' rest rest' : List Token} {head head' : Expr}
    {hshorter : rest.length < ts.length} {hshorter' : rest'.length < ts'.length}
    (hlength_le : rest.length ≤ n) (hstarts : offsets start start')
    (hheads : Expr.Like offsets head head') (h : TokensLike offsets rest rest') :
    ReadAlike offsets (Expr.Like offsets) (extend (.eof last) start ts head rest hshorter)
      (extend (.eof last') start' ts' head' rest' hshorter') := by
  -- Every call or subscript takes at least one token, and `start` stays the same.
  induction hsize : rest.length using Nat.strongRecOn generalizing rest rest' head head' with
  | ind size ih =>
    subst hsize
    cases h with
    | nil =>
      rw [extend, extend]
      exact readAlike_pure hheads .nil
    | @cons t t' rest rest' hfirst hleft =>
      simp only [List.length_cons] at hlength_le ih
      rw [extend, extend, hfirst.kind]
      split
      · refine readAlike_bring ?_
        refine (hbelow.exprs _ (by omega) hleft).bind fun _ _ _ _ hshorter₁ _ hargs hleft => ?_
        exact ih _ (by omega) (by omega) (.call hstarts hheads hargs) hleft rfl
      · split
        · refine readAlike_bring ?_
          refine (hbelow.expr _ (by omega) hleft).bind fun _ _ _ _ hshorter₁ _ hkey hleft => ?_
          refine (readAlike_expect hfinal hleft _).bind fun _ _ _ _ hshorter₂ _ _ hleft => ?_
          exact ih _ (by omega) (by omega) (.subscript hfirst.offset hheads hkey) hleft rfl
        · exact readAlike_pure hheads (.cons hfirst hleft)

theorem readAlike_function
    {ts ts' : List Token} (hlength_le : ts.length ≤ n) (h : TokensLike offsets ts ts') :
    ReadAlike offsets (Function.Like offsets) (function (.eof last) ts)
      (function (.eof last') ts') := by
  rw [function, function]
  refine (readAlike_expect hfinal h _).bind fun _ _ _ _ hshorter _ hopening hleft => ?_
  dsimp only
  rw [viewKind_same hleft]
  split
  · refine (readAlike_expect hfinal hleft _).bind fun _ _ _ _ hshorter₁ _ hname hleft => ?_
    refine (readAlike_expect hfinal hleft _).bind fun _ _ _ _ hshorter₂ _ _ hleft => ?_
    refine (readAlike_params hfinal hleft).bind fun _ _ _ _ hshorter₃ _ hnames hleft => ?_
    refine (hbelow.block (by omega) hleft).bind fun _ _ _ _ _ _ hbody hleft => ?_
    dsimp only
    rw [hname.text, hnames]
    exact readAlike_pure (.mk hopening.offset hbody) hleft
  · refine (readAlike_expect hfinal hleft _).bind fun _ _ _ _ hshorter₂ _ _ hleft => ?_
    refine (readAlike_params hfinal hleft).bind fun _ _ _ _ hshorter₃ _ hnames hleft => ?_
    refine (hbelow.block (by omega) hleft).bind fun _ _ _ _ _ _ hbody hleft => ?_
    dsimp only
    rw [hnames]
    exact readAlike_pure (.mk hopening.offset hbody) hleft

theorem readAlike_primary
    {ts ts' : List Token} (hlength_le : ts.length ≤ n) (h : TokensLike offsets ts ts') :
    ReadAlike offsets (Expr.Like offsets) (primary (.eof last) ts)
      (primary (.eof last') ts') := by
  cases h with
  | nil =>
    rw [primary, primary]
    exact readAlike_failHere hfinal .nil _
  | @cons t t' rest rest' hfirst hleft =>
    rw [primary, primary, hfirst.kind]
    split
    · rw [hfirst.text]
      exact readAlike_bring (readAlike_pure (.string hfirst.offset) hleft)
    · rw [hfirst.text]
      exact readAlike_bring (readAlike_pure (.number hfirst.offset) hleft)
    · exact readAlike_bring (readAlike_pure (.nil hfirst.offset) hleft)
    · rw [hfirst.text]
      exact readAlike_bring (readAlike_pure (.ident hfirst.offset) hleft)
    · refine readAlike_bring ?_
      refine (hbelow.exprs _ hlength_le hleft).bind fun _ _ _ _ _ _ hitems hleft => ?_
      exact readAlike_pure (.array hfirst.offset hitems) hleft
    · refine readAlike_bring ?_
      refine (hbelow.entries hlength_le hleft).bind fun _ _ _ _ _ _ hitems hleft => ?_
      exact readAlike_pure (.map hfirst.offset hitems) hleft
    · refine readAlike_bring ?_
      refine (hbelow.expr _ hlength_le hleft).bind fun _ _ _ _ _ _ hinner hleft => ?_
      refine (readAlike_expect hfinal hleft _).bind fun _ _ _ _ _ _ _ hleft => ?_
      exact readAlike_pure hinner hleft
    · refine (readAlike_function hfinal hbelow hlength_le (.cons hfirst hleft)).bind
        fun _ _ _ _ _ _ hf hleft => ?_
      exact readAlike_pure (.function hf) hleft
    · exact readAlike_failHere hfinal (.cons hfirst hleft) _

theorem readAlike_postfixed
    {ts ts' : List Token} (hlength_le : ts.length ≤ n) (h : TokensLike offsets ts ts') :
    ReadAlike offsets (Expr.Like offsets) (postfixed (.eof last) ts)
      (postfixed (.eof last') ts') := by
  rw [postfixed, postfixed]
  refine (readAlike_primary hfinal hbelow hlength_le h).bind
    fun _ _ _ _ hshorter _ hhead hleft => ?_
  exact readAlike_extend hfinal hbelow (by omega) (viewOffset_like hfinal h) hhead hleft

theorem readAlike_unary
    {ts ts' : List Token} (hlength_le : ts.length ≤ n) (h : TokensLike offsets ts ts') :
    ReadAlike offsets (Expr.Like offsets) (unary (.eof last) ts) (unary (.eof last') ts') := by
  cases h with
  | nil =>
    rw [unary, unary]
    exact readAlike_postfixed hfinal hbelow hlength_le .nil
  | @cons t t' rest rest' hfirst hleft =>
    rw [unary, unary, hfirst.kind]
    split
    · refine readAlike_bring ?_
      refine (hbelow.unary hlength_le hleft).bind fun _ _ _ _ _ _ hoperand hleft => ?_
      exact readAlike_pure (.negate hfirst.offset hoperand) hleft
    · exact readAlike_postfixed hfinal hbelow hlength_le (.cons hfirst hleft)

omit hfinal in
theorem readAlike_climb
    {least : Nat} {ts ts' rest rest' : List Token} {operand operand' : Expr}
    {hshorter : rest.length < ts.length} {hshorter' : rest'.length < ts'.length}
    (hlength_le : rest.length ≤ n) (hoperands : Expr.Like offsets operand operand')
    (h : TokensLike offsets rest rest') :
    ReadAlike offsets (Expr.Like offsets) (climb (.eof last) least ts operand rest hshorter)
      (climb (.eof last') least ts' operand' rest' hshorter') := by
  induction hsize : rest.length using Nat.strongRecOn
    generalizing rest rest' operand operand' with
  | ind size ih =>
    subst hsize
    cases h with
    | nil =>
      rw [climb, climb]
      exact readAlike_pure hoperands .nil
    | @cons t t' rest rest' hfirst hleft =>
      simp only [List.length_cons] at hlength_le ih
      rw [climb, climb, hfirst.kind]
      split
      · split
        · exact readAlike_pure hoperands (.cons hfirst hleft)
        · refine readAlike_bring ?_
          -- Whether the operand is a target does not depend on offsets.
          have htargets := rel_target? hoperands
          generalize operand.target? = target at htargets ⊢
          generalize operand'.target? = target' at htargets ⊢
          cases htargets with
          | none => exact .error ⟨rfl, .some hfirst.offset⟩
          | some htargets =>
            refine (hbelow.expr _ (by omega) hleft).bind fun _ _ _ _ hshorter₁ _ hvalue hleft => ?_
            exact ih _ (by omega) (by omega) (htargets.assign hfirst.offset hvalue) hleft rfl
      · split
        · exact readAlike_pure hoperands (.cons hfirst hleft)
        · split
          · exact readAlike_pure hoperands (.cons hfirst hleft)
          · refine readAlike_bring ?_
            refine (hbelow.expr _ (by omega) hleft).bind fun _ _ _ _ hshorter₁ _ hright hleft => ?_
            exact ih _ (by omega) (by omega) (.binary hfirst.offset hoperands hright) hleft rfl

theorem readAlike_expr
    {ts ts' : List Token}
    (hlength_le : ts.length ≤ n) (h : TokensLike offsets ts ts') (least : Nat) :
    ReadAlike offsets (Expr.Like offsets) (expr (.eof last) least ts)
      (expr (.eof last') least ts') := by
  rw [expr, expr]
  refine (readAlike_unary hfinal hbelow hlength_le h).bind
    fun _ _ _ _ hshorter _ hoperand hleft => ?_
  exact readAlike_climb hbelow (by omega) hoperand hleft

theorem readAlike_exprs
    {ts ts' : List Token}
    (hlength_le : ts.length ≤ n) (h : TokensLike offsets ts ts') (closing : TokenKind) :
    ReadAlike offsets (Expr.LikeAll offsets) (exprs (.eof last) closing ts)
      (exprs (.eof last') closing ts') := by
  rw [exprs, exprs, viewKind_same h]
  split
  · refine (readAlike_expect hfinal h _).bind fun _ _ _ _ _ _ _ hleft => ?_
    exact readAlike_pure .nil hleft
  · refine (readAlike_expr hfinal hbelow hlength_le h _).bind
      fun _ _ _ _ hshorter _ hitem hleft => ?_
    dsimp only
    rw [viewKind_same hleft]
    split
    · refine (readAlike_expect hfinal hleft _).bind fun _ _ _ _ hshorter₁ _ _ hleft => ?_
      refine (hbelow.exprs _ (by omega) hleft).bind fun _ _ _ _ _ _ hmore hleft => ?_
      exact readAlike_pure (.cons hitem hmore) hleft
    · refine (readAlike_expect hfinal hleft _).bind fun _ _ _ _ _ _ _ hleft => ?_
      exact readAlike_pure (.cons hitem .nil) hleft

theorem readAlike_entries
    {ts ts' : List Token} (hlength_le : ts.length ≤ n) (h : TokensLike offsets ts ts') :
    ReadAlike offsets (Expr.LikeEntries offsets) (entries (.eof last) ts)
      (entries (.eof last') ts') := by
  rw [entries, entries, viewKind_same h]
  split
  · refine (readAlike_expect hfinal h _).bind fun _ _ _ _ _ _ _ hleft => ?_
    exact readAlike_pure .nil hleft
  · refine (readAlike_expect hfinal h _).bind fun _ _ _ _ hshorter _ hkey hleft => ?_
    refine (readAlike_expect hfinal hleft _).bind fun _ _ _ _ hshorter₁ _ _ hleft => ?_
    refine (hbelow.expr _ (by omega) hleft).bind fun _ _ _ _ hshorter₂ _ hvalue hleft => ?_
    dsimp only
    rw [viewKind_same hleft]
    split
    · refine (readAlike_expect hfinal hleft _).bind fun _ _ _ _ hshorter₃ _ _ hleft => ?_
      refine (hbelow.entries (by omega) hleft).bind fun _ _ _ _ _ _ hmore hleft => ?_
      dsimp only
      rw [hkey.text]
      exact readAlike_pure (.cons hvalue hmore) hleft
    · refine (readAlike_expect hfinal hleft _).bind fun _ _ _ _ _ _ _ hleft => ?_
      dsimp only
      rw [hkey.text]
      exact readAlike_pure (.cons hvalue .nil) hleft

/-! ## Statements -/

theorem readAlike_block
    {ts ts' : List Token} (hlength_le : ts.length ≤ n) (h : TokensLike offsets ts ts') :
    ReadAlike offsets (Block.Like offsets) (block (.eof last) ts) (block (.eof last') ts') := by
  rw [block, block]
  refine (readAlike_expect hfinal h _).bind fun _ _ _ _ hshorter _ hopening hleft => ?_
  refine (hbelow.statements (by omega) hleft).bind fun _ _ _ _ _ _ hstatements hleft => ?_
  exact readAlike_pure (.mk hopening.offset hstatements) hleft

theorem readAlike_conditional
    {ts ts' : List Token} (hlength_le : ts.length ≤ n) (h : TokensLike offsets ts ts') :
    ReadAlike offsets (Conditional.Like offsets) (conditional (.eof last) ts)
      (conditional (.eof last') ts') := by
  rw [conditional, conditional]
  refine (readAlike_expect hfinal h _).bind fun _ _ _ _ hshorter _ hopening hleft => ?_
  refine (hbelow.expr _ (by omega) hleft).bind fun _ _ _ _ hshorter₁ _ hcondition hleft => ?_
  refine (hbelow.block (by omega) hleft).bind fun _ _ _ _ hshorter₂ _ hthenBlock hleft => ?_
  dsimp only
  rw [viewKind_same hleft]
  split
  · refine (readAlike_expect hfinal hleft _).bind fun _ _ _ _ hshorter₃ _ _ hleft => ?_
    dsimp only
    rw [viewKind_same hleft]
    split
    · refine (hbelow.conditional (by omega) hleft).bind fun _ _ _ _ _ _ hnext hleft => ?_
      exact readAlike_pure (.mk hopening.offset hcondition hthenBlock (.conditional hnext)) hleft
    · refine (hbelow.block (by omega) hleft).bind fun _ _ _ _ _ _ helseBlock hleft => ?_
      exact readAlike_pure (.mk hopening.offset hcondition hthenBlock (.block helseBlock)) hleft
  · exact readAlike_pure (.mk hopening.offset hcondition hthenBlock .nothing) hleft

theorem readAlike_arms
    {ts ts' : List Token} (hlength_le : ts.length ≤ n) (h : TokensLike offsets ts ts') :
    ReadAlike offsets (Arm.LikeAll offsets) (arms (.eof last) ts) (arms (.eof last') ts') := by
  rw [arms, arms, viewKind_same h]
  split
  · refine (readAlike_expect hfinal h _).bind fun _ _ _ _ _ _ _ hleft => ?_
    exact readAlike_pure .nil hleft
  · refine (readAlike_expr hfinal hbelow hlength_le h _).bind
      fun _ _ _ _ hshorter _ hpattern hleft => ?_
    refine (readAlike_expect hfinal hleft _).bind fun _ _ _ _ hshorter₁ _ _ hleft => ?_
    refine (hbelow.block (by omega) hleft).bind fun _ _ _ _ hshorter₂ _ hbody hleft => ?_
    refine (hbelow.arms (by omega) hleft).bind fun _ _ _ _ _ _ hmore hleft => ?_
    exact readAlike_pure (.cons hpattern hbody hmore) hleft

theorem readAlike_statement
    {ts ts' : List Token} (hlength_le : ts.length ≤ n) (h : TokensLike offsets ts ts') :
    ReadAlike offsets (Stmt.Like offsets) (statement (.eof last) ts)
      (statement (.eof last') ts') := by
  rw [statement, statement, viewKind_same h]
  split
  · refine (readAlike_expect hfinal h _).bind fun _ _ _ _ hshorter _ _ hleft => ?_
    refine (readAlike_expect hfinal hleft _).bind fun _ _ _ _ hshorter₁ _ hname hleft => ?_
    refine (readAlike_expect hfinal hleft _).bind fun _ _ _ _ hshorter₂ _ _ hleft => ?_
    refine (hbelow.expr _ (by omega) hleft).bind fun _ _ _ _ _ _ hvalue hleft => ?_
    dsimp only
    rw [hname.text]
    exact readAlike_pure (.var hname.offset hvalue) hleft
  · refine (readAlike_expect hfinal h _).bind fun _ _ _ _ hshorter _ hopening hleft => ?_
    dsimp only
    rw [viewKind_same hleft]
    split
    · refine (hbelow.block (by omega) hleft).bind fun _ _ _ _ _ _ hbody hleft => ?_
      exact readAlike_pure (.forever hopening.offset hbody) hleft
    · refine (readAlike_expect hfinal hleft _).bind fun _ _ _ _ hshorter₁ _ hitem hleft => ?_
      refine (readAlike_loopIndex hfinal hleft).bind fun _ _ _ _ hshorter₂ _ hindex hleft => ?_
      refine (hbelow.expr _ (by omega) hleft).bind fun _ _ _ _ hshorter₃ _ hiterable hleft => ?_
      refine (hbelow.block (by omega) hleft).bind fun _ _ _ _ _ _ hbody hleft => ?_
      dsimp only
      rw [hitem.text, hindex]
      exact readAlike_pure (.forEach hopening.offset hiterable hbody) hleft
  · refine (readAlike_conditional hfinal hbelow hlength_le h).bind
      fun _ _ _ _ _ _ hinner hleft => ?_
    exact readAlike_pure (.conditional hinner) hleft
  · refine (readAlike_expect hfinal h _).bind fun _ _ _ _ hshorter _ hopening hleft => ?_
    dsimp only
    rw [viewKind_same hleft]
    split
    · exact readAlike_pure (.returnsNil hopening.offset) hleft
    · refine (hbelow.expr _ (by omega) hleft).bind fun _ _ _ _ _ _ hvalue hleft => ?_
      exact readAlike_pure (.returns hopening.offset hvalue) hleft
  · refine (readAlike_expect hfinal h _).bind fun _ _ _ _ _ _ hopening hleft => ?_
    exact readAlike_pure (.continues hopening.offset) hleft
  · refine (readAlike_expect hfinal h _).bind fun _ _ _ _ _ _ hopening hleft => ?_
    exact readAlike_pure (.breaks hopening.offset) hleft
  · refine (readAlike_expect hfinal h _).bind fun _ _ _ _ hshorter _ hopening hleft => ?_
    refine (hbelow.expr _ (by omega) hleft).bind fun _ _ _ _ hshorter₁ _ hsubject hleft => ?_
    refine (readAlike_expect hfinal hleft _).bind fun _ _ _ _ hshorter₂ _ _ hleft => ?_
    refine (hbelow.arms (by omega) hleft).bind fun _ _ _ _ _ _ harms hleft => ?_
    exact readAlike_pure (.select hopening.offset hsubject harms) hleft
  · refine (readAlike_block hfinal hbelow hlength_le h).bind fun _ _ _ _ _ _ hinner hleft => ?_
    exact readAlike_pure (.block hinner) hleft
  · refine (readAlike_expr hfinal hbelow hlength_le h _).bind fun _ _ _ _ _ _ hvalue hleft => ?_
    exact readAlike_pure (.expr (viewOffset_like hfinal h) hvalue) hleft

theorem readAlike_statements
    {ts ts' : List Token} (hlength_le : ts.length ≤ n) (h : TokensLike offsets ts ts') :
    ReadAlike offsets (Stmt.LikeAll offsets) (statements (.eof last) ts)
      (statements (.eof last') ts') := by
  rw [statements, statements, viewKind_same h]
  split
  · refine (readAlike_expect hfinal h _).bind fun _ _ _ _ _ _ _ hleft => ?_
    exact readAlike_pure .nil hleft
  · split
    · exact readAlike_failHere hfinal h _
    · refine (readAlike_statement hfinal hbelow hlength_le h).bind
        fun _ _ _ _ hshorter _ hfirst hleft => ?_
      refine (hbelow.statements (by omega) hleft).bind fun _ _ _ _ _ _ hmore hleft => ?_
      exact readAlike_pure (.cons hfirst hmore) hleft

omit hbelow in
theorem AlikeBelow.succ (hbelow : AlikeBelow offsets last last' n) :
    AlikeBelow offsets last last' (n + 1) where
  expr least hlt h := readAlike_expr hfinal hbelow (Nat.le_of_lt_succ hlt) h least
  unary hlt h := readAlike_unary hfinal hbelow (Nat.le_of_lt_succ hlt) h
  exprs closing hlt h := readAlike_exprs hfinal hbelow (Nat.le_of_lt_succ hlt) h closing
  entries hlt h := readAlike_entries hfinal hbelow (Nat.le_of_lt_succ hlt) h
  block hlt h := readAlike_block hfinal hbelow (Nat.le_of_lt_succ hlt) h
  statements hlt h := readAlike_statements hfinal hbelow (Nat.le_of_lt_succ hlt) h
  conditional hlt h := readAlike_conditional hfinal hbelow (Nat.le_of_lt_succ hlt) h
  arms hlt h := readAlike_arms hfinal hbelow (Nat.le_of_lt_succ hlt) h

omit hbelow in
theorem alikeBelow (n : Nat) : AlikeBelow offsets last last' n := by
  induction n with
  | zero => constructor <;> intros <;> contradiction
  | succ n ih => exact ih.succ hfinal

end

/-! ## Scripts -/

section

variable {ts ts' : List Token} {last last' : Nat} (hfinal : offsets last last')

include hfinal

theorem readAlike_labelled (h : TokensLike offsets ts ts') :
    ReadAlike offsets (Section.Like offsets) (labelled (.eof last) ts)
      (labelled (.eof last') ts') := by
  have hbelow : AlikeBelow offsets last last' ts.length := alikeBelow hfinal _
  rw [labelled, labelled]
  refine (readAlike_expect hfinal h _).bind fun _ _ _ _ hshorter _ hlabel hleft => ?_
  refine (readAlike_expect hfinal hleft _).bind fun _ _ _ _ hshorter₁ _ _ hleft => ?_
  dsimp only
  rw [viewKind_same hleft]
  split
  · refine (hbelow.block (by omega) hleft).bind fun _ _ _ _ _ _ hbody hleft => ?_
    exact readAlike_pure ⟨hlabel.offset, hlabel.text.symm, .block hbody⟩ hleft
  · refine (hbelow.expr _ (by omega) hleft).bind fun _ _ _ _ _ _ hbody hleft => ?_
    exact readAlike_pure ⟨hlabel.offset, hlabel.text.symm, .expr hbody⟩ hleft

end

/-- Two readings of whole scripts have given parts that are alike, or have failed alike. -/
inductive ItemsAlike (offsets : Nat → Nat → Prop) :
    Except Fault (List Item) → Except Fault (List Item) → Prop
  | ok {items items' : List Item} :
    List.Forall₂ (Item.Like offsets) items items' → ItemsAlike offsets (.ok items) (.ok items')
  | error {fault fault' : Fault} :
    Fault.Like offsets fault fault' → ItemsAlike offsets (.error fault) (.error fault')

theorem ItemsAlike.cons
    {item item' : Item} {reading reading' : Except Fault (List Item)}
    (hlike : Item.Like offsets item item') (h : ItemsAlike offsets reading reading') :
    ItemsAlike offsets (do return item :: (← reading)) (do return item' :: (← reading')) := by
  cases h with
  | ok hmore => exact .ok (.cons hlike hmore)
  | error hfaults => exact .error hfaults

theorem itemsAlike
    {ts ts' : List Token} {last last' : Nat}
    (hfinal : offsets last last') (h : TokensLike offsets ts ts') :
    ItemsAlike offsets (items (.eof last) ts) (items (.eof last') ts') := by
  rw [items, items, viewKind_same h]
  split
  · exact .ok .nil
  · have hparts := readAlike_labelled hfinal h
    generalize labelled (.eof last) ts = reading at hparts ⊢
    generalize labelled (.eof last') ts' = reading' at hparts ⊢
    cases hparts with
    | @ok _ _ _ _ hshorter _ hpart hleft => exact (itemsAlike hfinal hleft).cons (.labelled hpart)
    | error hfaults => exact .error hfaults
  · have hfunctions := readAlike_function hfinal (alikeBelow hfinal ts.length) (Nat.le_refl _) h
    generalize function (.eof last) ts = reading at hfunctions ⊢
    generalize function (.eof last') ts' = reading' at hfunctions ⊢
    cases hfunctions with
    | @ok _ _ _ _ hshorter _ hf hleft => exact (itemsAlike hfinal hleft).cons (.function hf)
    | error hfaults => exact .error hfaults
  · exact .error ⟨rfl, .some (viewOffset_like hfinal h)⟩
termination_by ts.length

end Parse

/-! ## Texts -/

theorem exists_ofSource_of_tokenize
    {source : List Char} {ts : List Token} (h : tokenize source = .ok ts) :
    ∃ tokens last, Lexed.ofSource source = ⟨tokens, .eof last⟩ ∧
      ts = tokens ++ [⟨.eof, "", last⟩] := by
  simp only [tokenize] at h
  split at h
  · rename_i last hending
    cases h
    exact ⟨_, last, by rw [← hending], rfl⟩
  · cases h

theorem tokensLike_of_terminals
    {ts ts' : List Token} (hsame : ts'.map Token.terminal = ts.map Token.terminal) :
    Parse.TokensLike (fun _ _ => True) ts ts' := by
  have hterminals : List.Forall₂ Eq (ts.map Token.terminal) (ts'.map Token.terminal) := by
    rw [List.forall₂_eq_eq_eq, hsame]
  rw [List.forall₂_map_left_iff, List.forall₂_map_right_iff] at hterminals
  refine hterminals.imp fun t t' hequal => ⟨?_, ?_, trivial⟩
  · exact congrArg Terminal.kind hequal.symm
  · exact congrArg Terminal.text hequal.symm

/-- Texts with the same kinds and texts of tokens are read alike, whatever their offsets. -/
theorem itemsAlike_of_terminals
    {source source' : List Char} {ts ts' : List Token}
    (htokens : tokenize source = .ok ts) (htokens' : tokenize source' = .ok ts')
    (hsame : ts'.map Token.terminal = ts.map Token.terminal) :
    Parse.ItemsAlike (fun _ _ => True) (Lexed.ofSource source).parse
      (Lexed.ofSource source').parse := by
  obtain ⟨us, last, hlexed, rfl⟩ := exists_ofSource_of_tokenize htokens
  obtain ⟨us', last', hlexed', rfl⟩ := exists_ofSource_of_tokenize htokens'
  rw [List.map_append, List.map_append] at hsame
  have hterminals := (List.append_inj' hsame rfl).1
  have hunbroken (us : List Token) (last : Nat) :
      (Lexed.mk us (.eof last)).parse = Parse.items (.eof last) us := by
    cases us <;> rfl
  rw [hlexed, hlexed', hunbroken, hunbroken]
  exact Parse.itemsAlike trivial (tokensLike_of_terminals hterminals)

end PuzzleLang
