import PuzzleLang.Proofs.Grammar.Agreement

/-!
# Progress of reading

What a reader on demand does at a view of a script follows from the agreement: it ends, and when it
succeeds, it has passed at least one token.  The tokens passed are tokens of the script and not the
`eof` token, which would come up again and again.  So a round of a loop that goes on has passed a
token, too, although some rounds never ask whether the script is at its end.
-/

namespace PuzzleLang

variable {source : List Char} {n : Nat} {view view' : View}

/-! ## Later views -/

/-- The calls from `n` on and before `n'` give tokens of the script. -/
def TokensBetween (source : List Char) (n n' : Nat) : Prop :=
  ∀ m, n ≤ m → m < n' → ∃ t, callAfter source m = .ok t ∧ t.kind ≠ .eof

/-- The view lies at least one token after the call `n`, and all tokens on the way are tokens of the
script. -/
def View.Past (view : View) (source : List Char) (n : Nat) : Prop :=
  ∃ n', n < n' ∧ view.At source n' ∧ TokensBetween source n n'

theorem View.Past.of_later
    {n' : Nat} (hlt : n < n') (hbetween : TokensBetween source n n') (h : view.Past source n') :
    view.Past source n := by
  obtain ⟨last, hlt', hat, hbetween'⟩ := h
  refine ⟨last, Nat.lt_trans hlt hlt', hat, fun m hle hbefore => ?_⟩
  by_cases hearlier : m < n'
  · exact hbetween m hle hearlier
  · exact hbetween' m (Nat.le_of_not_lt hearlier) hbefore

/-- A later view shows a token that stands further on in the script. -/
theorem View.Past.offset_lt (hat : view.At source n) (h : view'.Past source n) :
    view.token.offset < view'.token.offset := by
  obtain ⟨n', hlt, hat', hbetween⟩ := h
  obtain ⟨t, hcalled, hnoEof⟩ := hbetween n (Nat.le_refl n) hlt
  cases hat.token.symm.trans hcalled
  calc view.token.offset
      < (placeAfter source (n + 1)).offset := (offset_passed hat.token hnoEof).2
    _ ≤ (placeAfter source n').offset := placeAfter_offset_le hlt
    _ ≤ view'.token.offset := (offset_between hat'.token).1

theorem tokensBetween_of_lexed
    {ts : List Token} {ending : Ending}
    (hlexed : Lexed.ofCursor (placeAfter source n) = ⟨ts, ending⟩) :
    TokensBetween source n (n + ts.length) := by
  induction ts generalizing n with
  | nil => exact fun m hle hbefore => absurd hbefore (Nat.not_lt.mpr hle)
  | cons t rest ih =>
    obtain ⟨after, hcalled, hnoEof, hlater⟩ := nextToken_of_ofCursor_cons hlexed
    have hafter : after = placeAfter source (n + 1) := (congrArg Prod.snd hcalled).symm
    rw [hafter] at hlater
    intro m hle hbefore
    rcases Nat.eq_or_lt_of_le hle with rfl | hlt
    · exact ⟨t, congrArg Prod.fst hcalled, hnoEof⟩
    · rw [List.length_cons] at hbefore
      exact ih hlater m hlt (by omega)

namespace Reader

variable {α β : Type} {reader : Nat → Reader α} {post : α → View → Prop}

/-- A reader fails, or it succeeds with a value and a view as they should be; in both cases it
ends. -/
def Ends (reader : Nat → Reader α) (view : View) (post : α → View → Prop) : Prop :=
  (∃ fault, Gives reader view (.error fault)) ∨
    ∃ value view', Gives reader view (.ok (value, view')) ∧ post value view'

theorem Ends.mono
    {post' : α → View → Prop}
    (h : Ends reader view post) (h' : ∀ value view', post value view' → post' value view') :
    Ends reader view post' := by
  rcases h with hfailed | ⟨value, view', hgives, hpost⟩
  · exact .inl hfailed
  · exact .inr ⟨value, view', hgives, h' value view' hpost⟩

theorem Ends.imp
    {reader' : Nat → Reader α}
    (h : Ends reader view post)
    (h' : ∀ result, Gives reader view result → Gives reader' view' result) :
    Ends reader' view' post := by
  rcases h with ⟨fault, hfailed⟩ | ⟨value, view', hgives, hpost⟩
  · exact .inl ⟨fault, h' _ hfailed⟩
  · exact .inr ⟨value, view', h' _ hgives, hpost⟩

theorem Ends.bind
    {more : Nat → α → Reader β} {post' : β → View → Prop}
    (h : Ends reader view post)
    (h' : ∀ value view', post value view' → Ends (fun depth => more depth value) view' post') :
    Ends (fun depth => reader depth >>= more depth) view post' := by
  rcases h with ⟨fault, hfailed⟩ | ⟨value, view', hgives, hpost⟩
  · exact .inl ⟨fault, hfailed.bind_of_error⟩
  · exact (h' value view' hpost).imp fun _ hgives' => hgives.bind hgives'

theorem ends_pure {value : α} (h : post value view) : Ends (fun _ => pure value) view post :=
  .inr ⟨value, view, gives_of_resultAt rfl, h⟩

theorem ends_failAt {cause : Cause} {token : Token} :
    Ends (fun _ => (OnDemand.failAt cause token : Reader α)) view post :=
  .inl ⟨_, gives_of_resultAt rfl⟩

theorem ends_inView
    {more : Nat → Token → Reader α} (h : Ends (fun depth => more depth view.token) view post) :
    Ends (fun depth => OnDemand.inView >>= more depth) view post :=
  h.imp fun _ hgives => OnDemand.gives_inView.bind hgives

theorem Ends.ite
    {c : Prop} [Decidable c] {yes no : Nat → Reader α}
    (h : c → Ends yes view post) (h' : ¬c → Ends no view post) :
    Ends (fun depth => if c then yes depth else no depth) view post := by
  by_cases hholds : c
  · simp only [if_pos hholds]
    exact h hholds
  · simp only [if_neg hholds]
    exact h' hholds

/-- Wherever the reader starts in a script, it fails or passes a token. -/
def Progresses (reader : Nat → Reader α) (source : List Char) : Prop :=
  ∀ n view, view.At source n → Ends reader view fun _ view' => view'.Past source n

/-- Wherever a round of a loop starts in a script, it fails, leaves the loop without passing
anything, or passes a token. -/
def RoundProgresses (round : Nat → Reader (Option α)) (source : List Char) : Prop :=
  ∀ n view, view.At source n → Ends round view fun value view' =>
    value = none ∧ view' = view ∨ value.isSome ∧ view'.Past source n

/-- Wherever the reader starts in a script, it agrees with a reading of the tokens from there on. -/
def Reads (reader : Nat → Reader α) (source : List Char)
    (reading : (ending : Ending) → (ts : List Token) → Except Fault (Parsed α ts)) : Prop :=
  ∀ ending last ts view, view.Shows source ending last ts →
    OnDemand.Agrees source ending last reader view (reading ending ts)

theorem Reads.progresses
    {reading : (ending : Ending) → (ts : List Token) → Except Fault (Parsed α ts)}
    (h : Reads reader source reading) :
    Progresses reader source := by
  intro n view hat
  have hshows := View.shows_of_at hat
  generalize hlexed : Lexed.ofCursor (placeAfter source n) = lexed at hshows
  have hagrees := h _ _ _ _ hshows
  generalize reading lexed.ending lexed.tokens = outcome at hagrees
  cases hagrees with
  | error hgives => exact .inl ⟨_, hgives⟩
  | @ok value rest hshorter view' hgives hleft =>
    obtain ⟨n', hlast, hat', -⟩ := hleft
    refine .inr ⟨value, view', hgives, n', by omega, hat', fun m hle hbefore => ?_⟩
    exact tokensBetween_of_lexed hlexed m hle (by omega)

theorem Progresses.ends_of_past (h : Progresses reader source) (hpast : view.Past source n) :
    Ends reader view fun _ view' => view'.Past source n := by
  obtain ⟨n', hlt, hat, hbetween⟩ := hpast
  exact (h n' view hat).mono fun _ _ hpast' => hpast'.of_later hlt hbetween

end Reader

namespace OnDemand

open Reader

/-! ## Readers -/

theorem reads_consume {allowed : List TokenKind} (hnoEof : .eof ∉ allowed) :
    Reads (fun _ => consume allowed) source fun ending => Parse.expect ending allowed :=
  fun _ _ _ _ hshows => agrees_consume hshows hnoEof

theorem reads_expr (least : Nat) :
    Reads (fun depth => expr depth least) source fun ending => Parse.expr ending least :=
  fun _ _ _ _ hshows => agrees_expr (agreesBelow _) (Nat.le_refl _) hshows least

theorem reads_exprs {closing : TokenKind} {hnoEof : closing ≠ .eof} :
    Reads (fun depth => list depth (.exprs closing hnoEof)) source fun ending =>
      Parse.exprs ending closing :=
  fun _ _ _ _ hshows => agrees_exprs (agreesBelow _) (Nat.le_refl _) hshows

theorem reads_block : Reads block source Parse.block :=
  fun _ _ _ _ hshows => agrees_block (agreesBelow _) (Nat.le_refl _) hshows

theorem reads_statement : Reads statement source Parse.statement :=
  fun _ _ _ _ hshows => agrees_statement (agreesBelow _) (Nat.le_refl _) hshows

theorem reads_function : Reads function source Parse.function :=
  fun _ _ _ _ hshows => agrees_function (agreesBelow _) (Nat.le_refl _) hshows

theorem reads_labelled : Reads labelled source Parse.labelled :=
  fun _ _ _ _ hshows => agrees_labelled hshows

theorem progresses_param : Progresses (fun _ => param) source := by
  intro n view hat
  refine ((reads_consume (by decide)).progresses n view hat).bind fun _ _ hpast => ?_
  exact ends_pure hpast

theorem progresses_entry : Progresses (fun depth => entry (expr depth)) source := by
  intro n view hat
  refine ((reads_consume (by decide)).progresses n view hat).bind fun _ _ hpast => ?_
  refine ((reads_consume (by decide)).progresses.ends_of_past hpast).bind fun _ _ hpast => ?_
  refine ((reads_expr 1).progresses.ends_of_past hpast).bind fun _ _ hpast => ?_
  exact ends_pure hpast

theorem progresses_listItem (listed : Listed) :
    Progresses (fun depth => listItem (expr depth) listed) source := by
  cases listed with
  | exprs closing hnoEof => exact (reads_expr 1).progresses
  | entries => exact progresses_entry
  | params => exact progresses_param

/-- A token of the script in view can be passed. -/
theorem ends_advance (hat : view.At source n) (hnoEof : view.token.kind ≠ .eof) :
    Ends (fun _ => advance) view fun _ view' => view'.Past source n := by
  rcases hcalled : nextToken view.after with ⟨result, after⟩
  cases result with
  | error fault => exact .inl ⟨fault, gives_of_resultAt (resultAt_advance_of_error hcalled)⟩
  | ok token =>
    have hpassed := resultAt_advance_of_ok hcalled
    rw [hat.after] at hcalled
    have hat' : View.At ⟨token, after⟩ source (n + 1) :=
      ⟨congrArg Prod.fst hcalled, (congrArg Prod.snd hcalled).symm⟩
    refine .inr ⟨(), _, gives_of_resultAt hpassed, n + 1, Nat.lt_succ_self n, hat', ?_⟩
    intro m hle hbefore
    obtain rfl : n = m := Nat.le_antisymm hle (Nat.le_of_lt_succ hbefore)
    exact ⟨view.token, hat.token, hnoEof⟩

/-! ## Rounds of loops -/

theorem roundProgresses_itemRound : RoundProgresses itemRound source := by
  intro n view hat
  refine ends_inView ?_
  cases view.token.kind with
  | eof => exact ends_pure (.inl ⟨rfl, rfl⟩)
  | identifier =>
    refine (reads_labelled.progresses n view hat).bind fun _ _ hpast => ?_
    exact ends_pure (.inr ⟨rfl, hpast⟩)
  | fnWord =>
    refine (reads_function.progresses n view hat).bind fun _ _ hpast => ?_
    exact ends_pure (.inr ⟨rfl, hpast⟩)
  | _ => exact ends_failAt

theorem roundProgresses_statementRound :
    RoundProgresses (fun depth => statementRound (statement depth)) source := by
  intro n view hat
  refine ends_inView (.ite (fun _ => ?_) fun _ => .ite (fun _ => ?_) fun _ => ?_)
  · exact ends_pure (.inl ⟨rfl, rfl⟩)
  · exact ends_failAt
  · refine (reads_statement.progresses n view hat).bind fun _ _ hpast => ?_
    exact ends_pure (.inr ⟨rfl, hpast⟩)

theorem roundProgresses_armRound :
    RoundProgresses (fun depth => armRound (expr depth) (block depth)) source := by
  intro n view hat
  refine ends_inView (.ite (fun _ => ?_) fun _ => ?_)
  · exact ends_pure (.inl ⟨rfl, rfl⟩)
  · refine ((reads_expr 1).progresses n view hat).bind fun _ _ hpast => ?_
    refine ((reads_consume (by decide)).progresses.ends_of_past hpast).bind fun _ _ hpast => ?_
    refine (reads_block.progresses.ends_of_past hpast).bind fun _ _ hpast => ?_
    exact ends_pure (.inr ⟨rfl, hpast⟩)

theorem roundProgresses_listRound (listed : Listed) :
    RoundProgresses (fun depth => listRound (expr depth) listed) source := by
  intro n view hat
  refine ends_inView (.ite (fun _ => ?_) fun _ => ?_)
  · exact ends_pure (.inl ⟨rfl, rfl⟩)
  · refine (progresses_listItem listed n view hat).bind fun _ _ hpast => ?_
    refine ends_inView (.ite (fun _ => ?_) fun _ => ?_)
    · refine ((reads_consume (by decide)).progresses.ends_of_past hpast).bind fun _ _ hpast => ?_
      exact ends_pure (.inr ⟨rfl, hpast⟩)
    · exact ends_pure (.inr ⟨rfl, hpast⟩)

theorem roundProgresses_chainRound (start : Nat) (head : Expr) :
    RoundProgresses (fun depth => chainRound (expr depth) (list depth) start head) source := by
  intro n view hat
  refine ends_inView (.ite (fun _ => ?_) fun _ => ends_inView (.ite (fun _ => ?_) fun _ => ?_))
  · refine ((reads_consume (by decide)).progresses n view hat).bind fun _ _ hpast => ?_
    refine (reads_exprs.progresses.ends_of_past hpast).bind fun _ _ hpast => ?_
    exact ends_pure (.inr ⟨rfl, hpast⟩)
  · refine ((reads_consume (by decide)).progresses n view hat).bind fun _ _ hpast => ?_
    refine ((reads_expr 1).progresses.ends_of_past hpast).bind fun _ _ hpast => ?_
    refine ((reads_consume (by decide)).progresses.ends_of_past hpast).bind fun _ _ hpast => ?_
    exact ends_pure (.inr ⟨rfl, hpast⟩)
  · exact ends_pure (.inl ⟨rfl, rfl⟩)

theorem roundProgresses_operatorRound (least : Nat) (left : Expr) :
    RoundProgresses (fun depth => operatorRound (expr depth) least left) source := by
  intro n view hat
  refine ends_inView (.ite (fun hassign => .ite (fun _ => ?_) fun _ => ?_) fun _ => ?_)
  · exact ends_pure (.inl ⟨rfl, rfl⟩)
  · refine (ends_advance hat (by simp [hassign])).bind fun _ _ hpast => ?_
    cases left.target? with
    | none => exact ends_failAt
    | some target =>
      refine ((reads_expr 1).progresses.ends_of_past hpast).bind fun _ _ hpast => ?_
      exact ends_pure (.inr ⟨rfl, hpast⟩)
  · cases hoperator : Operator.ofKind? view.token.kind with
    | none => exact ends_pure (.inl ⟨rfl, rfl⟩)
    | some op =>
      have hnoEof : view.token.kind ≠ .eof := by
        intro heof
        rw [heof] at hoperator
        cases hoperator
      refine .ite (fun _ => ends_pure (.inl ⟨rfl, rfl⟩)) fun _ => ?_
      refine (ends_advance hat hnoEof).bind fun _ _ hpast => ?_
      refine ((reads_expr _).progresses.ends_of_past hpast).bind fun _ _ hpast => ?_
      exact ends_pure (.inr ⟨rfl, hpast⟩)

/-! ## Main result -/

/-- Reading makes progress and ends.  Wherever a reader of a section, a statement, a block, an
expression, an entry, a parameter or a function starts in a script, it fails or passes at least one
token, and only tokens of the script, so that the token in view then stands further on.  A round of
a loop fails, leaves the loop or passes a token.  These readers do what the readers of all tokens
do, and reading a whole script ends with what the latter give. -/
theorem reading_progresses_and_ends (source : List Char) :
    (Progresses labelled source ∧ Progresses statement source ∧ Progresses block source ∧
      (∀ least, Progresses (fun depth => expr depth least) source) ∧
      Progresses (fun depth => entry (expr depth)) source ∧
      Progresses (fun _ => param) source ∧ Progresses function source) ∧
    (∀ n (view view' : View), view.At source n → view'.Past source n →
      view.token.offset < view'.token.offset) ∧
    (RoundProgresses itemRound source ∧
      RoundProgresses (fun depth => statementRound (statement depth)) source ∧
      RoundProgresses (fun depth => armRound (expr depth) (block depth)) source ∧
      (∀ listed, RoundProgresses (fun depth => listRound (expr depth) listed) source) ∧
      (∀ least left, RoundProgresses (fun depth => operatorRound (expr depth) least left) source) ∧
      ∀ start head,
        RoundProgresses (fun depth => chainRound (expr depth) (list depth) start head) source) ∧
    (Reads labelled source Parse.labelled ∧ Reads statement source Parse.statement ∧
      Reads block source Parse.block ∧
      (∀ least, Reads (fun depth => expr depth least) source fun ending =>
        Parse.expr ending least) ∧
      Reads function source Parse.function) ∧
    ∃ depth, ∀ deeper, depth ≤ deeper → program deeper source = some (Program.parse source) := by
  refine ⟨⟨reads_labelled.progresses, reads_statement.progresses, reads_block.progresses,
    fun least => (reads_expr least).progresses, progresses_entry, progresses_param,
    reads_function.progresses⟩, fun n view view' hat hpast => hpast.offset_lt hat, ?_, ?_, ?_⟩
  · exact ⟨roundProgresses_itemRound, roundProgresses_statementRound, roundProgresses_armRound,
      roundProgresses_listRound, roundProgresses_operatorRound, roundProgresses_chainRound⟩
  · exact ⟨reads_labelled, reads_statement, reads_block, reads_expr, reads_function⟩
  · exact program_eq source

set_option maxRecDepth 10000 in
/-- A script that ends within a list: at the end no item can be read, and so reading ends there. -/
theorem reading_progresses_and_ends_midway :
    (∃ depth, program depth "f: [1,".toList = some (.error ⟨.expectedValue .eof, some 6⟩)) ∧
      (∃ view view' : View, view.At "f: [1,".toList 0 ∧ view'.Past "f: [1,".toList 0 ∧
        view.token.offset < view'.token.offset) ∧
      ∀ view : View, view.At "f: [1,".toList 5 →
        ∃ fault, Gives (fun depth => expr depth 1) view (.error fault) := by
  obtain ⟨⟨-, -, -, hprogresses, -⟩, hfurther, -, -, depth, hends⟩ :=
    reading_progresses_and_ends "f: [1,".toList
  have hparsed : Program.parse "f: [1,".toList = .error ⟨.expectedValue .eof, some 6⟩ := by cbv
  have hname : callAfter "f: [1,".toList 0 = .ok ⟨.identifier, "f", 0⟩ := by rfl
  have hcolon : callAfter "f: [1,".toList 1 = .ok ⟨.colon, ":", 1⟩ := by rfl
  have hatEnd : callAfter "f: [1,".toList 5 = .ok ⟨.eof, "", 6⟩ := by rfl
  refine ⟨⟨depth, by rw [hends depth (Nat.le_refl depth), hparsed]⟩, ?_, ?_⟩
  · have hat : View.At ⟨⟨.identifier, "f", 0⟩, placeAfter "f: [1,".toList 1⟩ _ 0 := ⟨hname, rfl⟩
    have hat' : View.At ⟨⟨.colon, ":", 1⟩, placeAfter "f: [1,".toList 2⟩ _ 1 := ⟨hcolon, rfl⟩
    have hbetween : TokensBetween "f: [1,".toList 0 1 := by
      intro m _ hbefore
      rw [Nat.lt_one_iff.mp hbefore]
      exact ⟨_, hname, by decide⟩
    have hpast : View.Past _ "f: [1,".toList 0 := ⟨1, Nat.zero_lt_one, hat', hbetween⟩
    exact ⟨_, _, hat, hpast, hfurther 0 _ _ hat hpast⟩
  · intro view hat
    rcases hprogresses 1 5 view hat with hfailed | ⟨-, -, -, n', hlt, -, hbetween⟩
    · exact hfailed
    · obtain ⟨t, hcalled, hnoEof⟩ := hbetween 5 (Nat.le_refl 5) hlt
      cases hatEnd.symm.trans hcalled
      exact absurd rfl hnoEof

end OnDemand

end PuzzleLang
