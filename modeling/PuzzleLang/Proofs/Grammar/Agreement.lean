import PuzzleLang.Proofs.Grammar.OnDemand
import PuzzleLang.Proofs.Grammar.Reading
import PuzzleLang.Proofs.Token.Progress

/-!
# Reading on demand agrees with reading

A reader on demand sees the tokens of the script one after the other, and where the script ends or
is broken, it finds this out when it passes the last token.  So it does what the reader does that
has all tokens beforehand: it fails with the same fault, or it gives the same value and stops at the
same token.  In particular it ends, at every depth that is large enough.  There is one lemma for
each reader, which assumes the statement for fewer tokens; an induction on the number of tokens ties
them together.
-/

namespace PuzzleLang

variable {source : List Char} {ending : Ending} {last : Nat} {view : View}

/-! ## The tokens from a place on -/

section

variable {place after : Cursor} {t : Token}

theorem lexeme_kind_ne_eof
    {c : Char} {cs : List Char} {offset : Nat} (h : lexeme c cs offset = (.ok t, after)) :
    t.kind ≠ .eof :=
  (cutsOff_of_lexeme h).longest.kind_ne_eof

theorem ofCursor_of_fault {fault : Fault} (h : nextToken place = (.error fault, after)) :
    Lexed.ofCursor place = ⟨[], .broken fault⟩ := by
  rw [nextToken] at h
  rw [ofCursor_eq]
  generalize skipLayout false place.rest place.offset = skipped at h ⊢
  obtain ⟨rest, offset⟩ := skipped
  cases rest with
  | nil => cases h
  | cons c cs =>
    dsimp only at h
    simp only [h]

theorem ofCursor_of_eof (h : nextToken place = (.ok t, after)) (heof : t.kind = .eof) :
    Lexed.ofCursor place = ⟨[], .eof t.offset⟩ := by
  rw [nextToken] at h
  rw [ofCursor_eq]
  generalize skipLayout false place.rest place.offset = skipped at h ⊢
  obtain ⟨rest, offset⟩ := skipped
  cases rest with
  | nil =>
    cases h
    rfl
  | cons c cs => exact absurd heof (lexeme_kind_ne_eof h)

theorem ofCursor_of_token (h : nextToken place = (.ok t, after)) (hnoEof : t.kind ≠ .eof) :
    Lexed.ofCursor place =
      ⟨t :: (Lexed.ofCursor after).tokens, (Lexed.ofCursor after).ending⟩ := by
  rw [nextToken] at h
  rw [ofCursor_eq place]
  generalize skipLayout false place.rest place.offset = skipped at h ⊢
  obtain ⟨rest, offset⟩ := skipped
  cases rest with
  | nil =>
    cases h
    exact absurd rfl hnoEof
  | cons c cs =>
    dsimp only at h
    simp only [h]

theorem nextToken_of_ofCursor_cons
    {rest : List Token} (h : Lexed.ofCursor place = ⟨t :: rest, ending⟩) :
    ∃ after, nextToken place = (.ok t, after) ∧ t.kind ≠ .eof ∧
      Lexed.ofCursor after = ⟨rest, ending⟩ := by
  rcases hcalled : nextToken place with ⟨result, after⟩
  cases result with
  | error fault =>
    rw [ofCursor_of_fault hcalled] at h
    cases h
  | ok token =>
    by_cases heof : token.kind = .eof
    · rw [ofCursor_of_eof hcalled heof] at h
      cases h
    · rw [ofCursor_of_token hcalled heof] at h
      cases h
      exact ⟨after, rfl, heof, rfl⟩

end

/-! ## Views -/

/-- The token in view is what the call after `n` other calls gives. -/
structure View.At (view : View) (source : List Char) (n : Nat) : Prop where
  token : callAfter source n = .ok view.token
  after : view.after = placeAfter source (n + 1)

theorem View.At.nextToken_eq {n : Nat} (h : view.At source n) :
    nextToken (placeAfter source n) = (.ok view.token, view.after) :=
  Prod.ext h.token h.after.symm

/-- The tokens `ts` and then the ending are still to come from the view on, and the ending comes up
after `last` calls. -/
def View.Shows (source : List Char) (ending : Ending) (last : Nat) (ts : List Token) (view : View) :
    Prop :=
  ∃ n, n + ts.length = last ∧ view.At source n ∧
    Lexed.ofCursor (placeAfter source n) = ⟨ts, ending⟩

theorem View.shows_of_at {n : Nat} (h : view.At source n) :
    view.Shows source (Lexed.ofCursor (placeAfter source n)).ending
      (n + (Lexed.ofCursor (placeAfter source n)).tokens.length)
      (Lexed.ofCursor (placeAfter source n)).tokens :=
  ⟨n, rfl, h, rfl⟩

open Parse

section

variable {t : Token} {ts rest : List Token}

theorem View.Shows.nil_inv (h : view.Shows source ending last []) :
    view.token.kind = .eof ∧ ending = .eof view.token.offset := by
  obtain ⟨n, -, hat, hlexed⟩ := h
  by_cases heof : view.token.kind = .eof
  · rw [ofCursor_of_eof hat.nextToken_eq heof] at hlexed
    exact ⟨heof, (congrArg Lexed.ending hlexed).symm⟩
  · rw [ofCursor_of_token hat.nextToken_eq heof] at hlexed
    cases congrArg Lexed.tokens hlexed

theorem View.Shows.cons_inv (h : view.Shows source ending last (t :: rest)) :
    view.token = t ∧ ∃ n, n + rest.length = last ∧ view.after = placeAfter source n ∧
      Lexed.ofCursor (placeAfter source n) = ⟨rest, ending⟩ := by
  obtain ⟨n, hlast, hat, hlexed⟩ := h
  obtain ⟨after, hcalled, -, hlater⟩ := nextToken_of_ofCursor_cons hlexed
  cases hat.nextToken_eq.symm.trans hcalled
  rw [hat.after] at hlater
  rw [List.length_cons] at hlast
  exact ⟨rfl, n + 1, by omega, hat.after, hlater⟩

theorem View.Shows.kind_eq (h : view.Shows source ending last ts) :
    view.token.kind = viewKind ts := by
  cases ts with
  | nil => exact h.nil_inv.1
  | cons t rest => exact congrArg Token.kind h.cons_inv.1

theorem View.Shows.offset_eq (h : view.Shows source ending last ts) :
    view.token.offset = viewOffset ending ts := by
  cases ts with
  | nil => rw [h.nil_inv.2, viewOffset]
  | cons t rest => exact congrArg Token.offset h.cons_inv.1

end

/-! ## Readings -/

/-- At every depth that is large enough, this is what a reader gives. -/
def Reader.Gives {α : Type} (reader : Nat → Reader α) (view : View)
    (result : Except Fault (α × View)) : Prop :=
  ∃ depth, ∀ deeper, depth ≤ deeper → (reader deeper).resultAt view = some result

namespace Reader

section

variable {α β : Type} {value : α} {fault : Fault} {view' : View}

theorem resultAt_bind_of_ok
    {reader : Reader α}
    (h : reader.resultAt view = some (.ok (value, view'))) (more : α → Reader β) :
    (reader >>= more).resultAt view = (more value).resultAt view' := by
  rw [resultAt] at h ⊢
  rw [StateT.run_bind, ExceptT.run_bind, h]
  rfl

theorem resultAt_bind_of_error
    {reader : Reader α} (h : reader.resultAt view = some (.error fault)) (more : α → Reader β) :
    (reader >>= more).resultAt view = some (.error fault) := by
  rw [resultAt] at h ⊢
  rw [StateT.run_bind, ExceptT.run_bind, h]
  rfl

variable {reader : Nat → Reader α} {more : Nat → α → Reader β}

theorem Gives.bind
    {result : Except Fault (β × View)}
    (h : Gives reader view (.ok (value, view')))
    (h' : Gives (fun depth => more depth value) view' result) :
    Gives (fun depth => reader depth >>= more depth) view result := by
  obtain ⟨depth, hgives⟩ := h
  obtain ⟨depth', hgives'⟩ := h'
  refine ⟨max depth depth', fun deeper hle => ?_⟩
  rw [resultAt_bind_of_ok (hgives deeper (by omega))]
  exact hgives' deeper (by omega)

theorem Gives.bind_of_error (h : Gives reader view (.error fault)) :
    Gives (fun depth => reader depth >>= more depth) view (.error fault) := by
  obtain ⟨depth, hgives⟩ := h
  exact ⟨depth, fun deeper hle => resultAt_bind_of_error (hgives deeper hle) _⟩

/-- At depth zero a reader is unfinished, but this is not a large depth. -/
theorem Gives.of_succ
    {result : Except Fault (α × View)} (h : Gives (fun depth => reader (depth + 1)) view result) :
    Gives reader view result := by
  obtain ⟨depth, hgives⟩ := h
  refine ⟨depth + 1, fun deeper hle => ?_⟩
  obtain ⟨less, rfl⟩ : ∃ less, deeper = less + 1 := ⟨deeper - 1, by omega⟩
  exact hgives less (by omega)

theorem gives_of_resultAt
    {reader : Reader α} {result : Except Fault (α × View)}
    (h : reader.resultAt view = some result) :
    Gives (fun _ => reader) view result :=
  ⟨0, fun _ _ => h⟩

end

end Reader

namespace OnDemand

open Reader

section

variable {α β : Type} {ts us rest : List Token} {t : Token} {after : Cursor}

theorem resultAt_advance_of_ok (h : nextToken view.after = (.ok t, after)) :
    advance.resultAt view = some (.ok ((), ⟨t, after⟩)) := by
  have hgot : (get : Reader View).resultAt view = some (.ok (view, view)) := rfl
  rw [advance, resultAt_bind_of_ok hgot]
  simp only [h]
  rfl

theorem resultAt_advance_of_error
    {fault : Fault} (h : nextToken view.after = (.error fault, after)) :
    advance.resultAt view = some (.error fault) := by
  have hgot : (get : Reader View).resultAt view = some (.ok (view, view)) := rfl
  rw [advance, resultAt_bind_of_ok hgot]
  simp only [h]
  rfl

theorem gives_inView : Gives (fun _ => inView) view (.ok (view.token, view)) :=
  gives_of_resultAt rfl

/-- Reading on demand fails as the other reading does, or gives the same value and shows the tokens
left over. -/
inductive Agrees (source : List Char) (ending : Ending) (last : Nat) {α : Type}
    {ts : List Token} (reader : Nat → Reader α) (view : View) : Except Fault (Parsed α ts) → Prop
  | ok {value : α} {rest : List Token} {shorter : rest.length < ts.length} {view' : View} :
    Gives reader view (.ok (value, view')) → view'.Shows source ending last rest →
      Agrees source ending last reader view (.ok ⟨value, rest, shorter⟩)
  | error {fault : Fault} :
    Gives reader view (.error fault) → Agrees source ending last reader view (.error fault)

theorem Agrees.imp
    {reading : Except Fault (Parsed α ts)} {reader reader' : Nat → Reader α} {view' : View}
    (h : Agrees source ending last reader view reading)
    (h' : ∀ result, Gives reader view result → Gives reader' view' result) :
    Agrees source ending last reader' view' reading := by
  cases h with
  | ok hgives hshows => exact .ok (h' _ hgives) hshows
  | error hgives => exact .error (h' _ hgives)

theorem Agrees.of_succ
    {reading : Except Fault (Parsed α ts)} {reader : Nat → Reader α}
    (h : Agrees source ending last (fun depth => reader (depth + 1)) view reading) :
    Agrees source ending last reader view reading :=
  h.imp fun _ hgives => hgives.of_succ

theorem Agrees.bind
    {reading : Except Fault (Parsed α ts)} {next : Parsed α ts → Except Fault (Parsed β us)}
    {reader : Nat → Reader α} {more : Nat → α → Reader β}
    (h : Agrees source ending last reader view reading)
    (h' : ∀ value rest (hshorter : rest.length < ts.length) (view' : View),
      view'.Shows source ending last rest →
        Agrees source ending last (fun depth => more depth value) view'
          (next ⟨value, rest, hshorter⟩)) :
    Agrees source ending last (fun depth => reader depth >>= more depth) view
      (reading >>= next) := by
  cases h with
  | ok hgives hshows => exact (h' _ _ _ _ hshows).imp fun _ hgives' => hgives.bind hgives'
  | error hgives => exact .error hgives.bind_of_error

theorem agrees_pure
    {value : α} {hshorter : rest.length < ts.length} (hshows : view.Shows source ending last rest) :
    Agrees source ending last (fun _ => pure value) view
      (pure ⟨value, rest, hshorter⟩ : Except Fault (Parsed α ts)) :=
  .ok (gives_of_resultAt rfl) hshows

theorem agrees_failAt {cause : Cause} (hshows : view.Shows source ending last us) :
    Agrees source ending last (fun _ => failAt cause view.token) view
      (failHere ending cause us : Except Fault (Parsed α ts)) := by
  rw [failHere, ← hshows.offset_eq]
  exact .error (gives_of_resultAt rfl)

theorem agrees_inView
    {reading : Except Fault (Parsed α ts)} {more : Nat → Token → Reader α}
    (h : Agrees source ending last (fun depth => more depth view.token) view reading) :
    Agrees source ending last (fun depth => inView >>= more depth) view reading :=
  h.imp fun _ hgives => gives_inView.bind hgives

theorem Agrees.of_neg
    {c : Prop} [Decidable c] {reading : Except Fault (Parsed α ts)} {yes no : Nat → Reader α}
    (hfails : ¬c) (h : Agrees source ending last no view reading) :
    Agrees source ending last (fun depth => if c then yes depth else no depth) view reading := by
  simp only [if_neg hfails]
  exact h

theorem Agrees.ite
    {c : Prop} [Decidable c] {reading reading' : Except Fault (Parsed α ts)}
    {yes no : Nat → Reader α}
    (h : c → Agrees source ending last yes view reading)
    (h' : ¬c → Agrees source ending last no view reading') :
    Agrees source ending last (fun depth => if c then yes depth else no depth) view
      (if c then reading else reading') := by
  by_cases hholds : c
  · simp only [if_pos hholds]
    exact h hholds
  · rw [if_neg hholds]
    exact .of_neg hholds (h' hholds)

/-- The readings ask the same of the token in view. -/
theorem agrees_sees
    {kind : TokenKind} {yes no : Except Fault (Parsed α us)} {yes' no' : Nat → Token → Reader α}
    (hshows : view.Shows source ending last ts)
    (h : viewKind ts = kind →
      Agrees source ending last (fun depth => yes' depth view.token) view yes)
    (h' : viewKind ts ≠ kind →
      Agrees source ending last (fun depth => no' depth view.token) view no) :
    Agrees source ending last
      (fun depth => do
        let token ← inView
        if token.kind = kind then yes' depth token else no' depth token) view
      (if viewKind ts = kind then yes else no) := by
  refine agrees_inView ?_
  rw [hshows.kind_eq]
  exact .ite h h'

/-- Passing the token in view fails as bringing the next one into view does, or shows it. -/
theorem advance_cases
    {n : Nat}
    (hafter : view.after = placeAfter source n)
    (hlexed : Lexed.ofCursor (placeAfter source n) = ⟨rest, ending⟩) :
    (∃ fault, bring ending rest = .error fault ∧ advance.resultAt view = some (.error fault)) ∨
      ∃ view' : View, bring ending rest = .ok () ∧
        advance.resultAt view = some (.ok ((), view')) ∧
        view'.Shows source ending (n + rest.length) rest := by
  rcases hcalled : nextToken (placeAfter source n) with ⟨result, after⟩
  cases result with
  | error fault =>
    rw [ofCursor_of_fault hcalled] at hlexed
    cases hlexed
    rw [← hafter] at hcalled
    exact .inl ⟨fault, rfl, resultAt_advance_of_error hcalled⟩
  | ok token =>
    have hshows : View.Shows source ending (n + rest.length) rest ⟨token, after⟩ :=
      ⟨n, rfl, ⟨congrArg Prod.fst hcalled, (congrArg Prod.snd hcalled).symm⟩, hlexed⟩
    have hbrought : bring ending rest = .ok () := by
      by_cases heof : token.kind = .eof
      · rw [ofCursor_of_eof hcalled heof] at hlexed
        cases hlexed
        rfl
      · rw [ofCursor_of_token hcalled heof] at hlexed
        cases hlexed
        rfl
    rw [← hafter] at hcalled
    exact .inr ⟨_, hbrought, resultAt_advance_of_ok hcalled, hshows⟩

theorem agrees_pass
    {next : Unit → Except Fault (Parsed α us)} {more : Nat → Unit → Reader α}
    (hshows : view.Shows source ending last (t :: rest))
    (h : ∀ view' : View, view'.Shows source ending last rest →
      Agrees source ending last (fun depth => more depth ()) view' (next ())) :
    Agrees source ending last (fun depth => advance >>= more depth) view
      (bring ending rest >>= next) := by
  obtain ⟨-, n, rfl, hafter, hlexed⟩ := hshows.cons_inv
  rcases advance_cases hafter hlexed with
    ⟨fault, hbrought, hfailed⟩ | ⟨view', hbrought, hpassed, hleft⟩
  · rw [hbrought]
    exact .error (gives_of_resultAt hfailed).bind_of_error
  · rw [hbrought]
    exact (h view' hleft).imp fun _ hgives => (gives_of_resultAt hpassed).bind hgives

/-- A token of an allowed kind is passed with no more ado. -/
theorem agrees_take
    {allowed : List TokenKind} {next : Unit → Except Fault (Parsed α us)}
    {more : Nat → Token → Reader α}
    (hshows : view.Shows source ending last (t :: rest)) (hfits : t.kind ∈ allowed)
    (h : ∀ view' : View, view'.Shows source ending last rest →
      Agrees source ending last (fun depth => more depth t) view' (next ())) :
    Agrees source ending last (fun depth => consume allowed >>= more depth) view
      (bring ending rest >>= next) := by
  obtain rfl := hshows.cons_inv.1
  simp only [consume, bind_assoc]
  refine agrees_inView ?_
  simp only [if_pos hfits, bind_assoc, pure_bind]
  exact agrees_pass hshows h

theorem agrees_consume
    {allowed : List TokenKind}
    (hshows : view.Shows source ending last ts) (hnoEof : .eof ∉ allowed) :
    Agrees source ending last (fun _ => consume allowed) view (expect ending allowed ts) := by
  -- Only the reader on demand could pass the `eof` token, so it must not be allowed.
  unfold consume
  refine agrees_inView ?_
  cases ts with
  | nil =>
    have heof : view.token.kind = .eof := hshows.kind_eq
    rw [expect, heof]
    exact .of_neg hnoEof (agrees_failAt hshows)
  | cons t rest =>
    obtain rfl := hshows.cons_inv.1
    rw [expect]
    refine .ite (fun _ => ?_) fun _ => agrees_failAt hshows
    refine agrees_pass hshows fun _ hleft => ?_
    exact agrees_pure hleft

theorem agrees_loopIndex (hshows : view.Shows source ending last ts) :
    Agrees source ending last (fun _ => loopIndex) view (Parse.loopIndex ending ts) := by
  rw [Parse.loopIndex, loopIndex]
  refine agrees_sees hshows (fun _ => ?_) fun _ => ?_
  · refine (agrees_consume hshows (by decide)).bind fun _ _ _ _ hleft => ?_
    refine (agrees_consume hleft (by decide)).bind fun _ _ _ _ hleft => ?_
    refine (agrees_consume hleft (by decide)).bind fun _ _ _ _ hleft => ?_
    exact agrees_pure hleft
  · refine (agrees_consume hshows (by decide)).bind fun _ _ _ _ hleft => ?_
    exact agrees_pure hleft

theorem agrees_params {ts : List Token} {view : View} (hshows : view.Shows source ending last ts) :
    Agrees source ending last (fun depth => list depth .params) view (params ending ts) := by
  rw [params]
  refine .of_succ ?_
  simp only [list_eq]
  refine agrees_sees hshows (fun _ => ?_) fun _ => ?_
  · refine (agrees_consume hshows (by decide)).bind fun _ _ _ _ hleft => ?_
    exact agrees_pure hleft
  · simp only [listItem, param, bind_assoc, pure_bind]
    refine (agrees_consume hshows (by decide)).bind fun _ _ _ _ hleft => ?_
    refine agrees_sees hleft (fun _ => ?_) fun _ => ?_
    · refine (agrees_consume hleft (by decide)).bind fun _ _ _ _ hleft => ?_
      refine (agrees_params hleft).bind fun _ _ _ _ hleft => ?_
      exact agrees_pure hleft
    · refine (agrees_consume hleft (by decide)).bind fun _ _ _ _ hleft => ?_
      exact agrees_pure hleft
termination_by ts.length

end

/-- Readings of fewer than `n` tokens agree. -/
structure AgreesBelow (source : List Char) (ending : Ending) (last n : Nat) : Prop where
  expr {ts : List Token} {view : View} (least : Nat) :
    ts.length < n → view.Shows source ending last ts →
      Agrees source ending last (fun depth => expr depth least) view (Parse.expr ending least ts)
  unary {ts : List Token} {view : View} :
    ts.length < n → view.Shows source ending last ts →
      Agrees source ending last unary view (Parse.unary ending ts)
  exprs {ts : List Token} {view : View} (closing : TokenKind) (noEof : closing ≠ .eof) :
    ts.length < n → view.Shows source ending last ts →
      Agrees source ending last (fun depth => list depth (.exprs closing noEof)) view
        (Parse.exprs ending closing ts)
  entries {ts : List Token} {view : View} :
    ts.length < n → view.Shows source ending last ts →
      Agrees source ending last (fun depth => list depth .entries) view (Parse.entries ending ts)
  block {ts : List Token} {view : View} :
    ts.length < n → view.Shows source ending last ts →
      Agrees source ending last block view (Parse.block ending ts)
  statements {ts : List Token} {view : View} :
    ts.length < n → view.Shows source ending last ts →
      Agrees source ending last statements view (Parse.statements ending ts)
  conditional {ts : List Token} {view : View} :
    ts.length < n → view.Shows source ending last ts →
      Agrees source ending last conditional view (Parse.conditional ending ts)
  arms {ts : List Token} {view : View} :
    ts.length < n → view.Shows source ending last ts →
      Agrees source ending last arms view (Parse.arms ending ts)

section

variable {n : Nat} {ts rest : List Token} (hbelow : AgreesBelow source ending last n)

include hbelow

/-! ## Expressions -/

theorem agrees_extend
    {start : Nat} {head : Expr} {hshorter : rest.length < ts.length}
    (hlength_le : rest.length ≤ n) (hshows : view.Shows source ending last rest) :
    Agrees source ending last (fun depth => extend depth start head) view
      (Parse.extend ending start ts head rest hshorter) := by
  -- Every call or subscript takes at least one token.
  induction hsize : rest.length using Nat.strongRecOn generalizing rest head view with
  | ind size ih =>
    subst hsize
    refine .of_succ ?_
    simp only [extend_eq]
    refine agrees_inView ?_
    cases rest with
    | nil =>
      have heof : view.token.kind = .eof := hshows.kind_eq
      rw [Parse.extend, heof]
      refine .of_neg (by decide) (agrees_inView ?_)
      rw [heof]
      exact .of_neg (by decide) (agrees_pure hshows)
    | cons t rest =>
      obtain rfl := hshows.cons_inv.1
      simp only [List.length_cons] at hlength_le ih
      rw [Parse.extend]
      refine .ite (fun hcall => ?_) fun _ => agrees_inView ?_
      · refine agrees_take hshows (by simp [hcall]) fun _ hleft => ?_
        refine (hbelow.exprs _ _ (by omega) hleft).bind fun _ _ hshorter₁ _ hleft => ?_
        exact ih _ (by omega) (by omega) hleft rfl
      · refine .ite (fun hsubscript => ?_) fun _ => agrees_pure hshows
        refine agrees_take hshows (by simp [hsubscript]) fun _ hleft => ?_
        refine (hbelow.expr _ (by omega) hleft).bind fun _ _ hshorter₁ _ hleft => ?_
        refine (agrees_consume hleft (by decide)).bind fun _ _ hshorter₂ _ hleft => ?_
        exact ih _ (by omega) (by omega) hleft rfl

theorem agrees_function (hlength_le : ts.length ≤ n) (hshows : view.Shows source ending last ts) :
    Agrees source ending last function view (Parse.function ending ts) := by
  rw [Parse.function]
  refine .of_succ ?_
  simp only [function, name?_bind]
  refine (agrees_consume hshows (by decide)).bind fun _ _ hshorter _ hleft => ?_
  refine agrees_sees hleft (fun _ => ?_) fun _ => ?_
  · refine (agrees_consume hleft (by decide)).bind fun _ _ hshorter₁ _ hleft => ?_
    refine (agrees_consume hleft (by decide)).bind fun _ _ hshorter₂ _ hleft => ?_
    refine (agrees_params hleft).bind fun _ _ hshorter₃ _ hleft => ?_
    refine (hbelow.block (by omega) hleft).bind fun _ _ _ _ hleft => ?_
    exact agrees_pure hleft
  · refine (agrees_consume hleft (by decide)).bind fun _ _ hshorter₂ _ hleft => ?_
    refine (agrees_params hleft).bind fun _ _ hshorter₃ _ hleft => ?_
    refine (hbelow.block (by omega) hleft).bind fun _ _ _ _ hleft => ?_
    exact agrees_pure hleft

theorem agrees_primary (hlength_le : ts.length ≤ n) (hshows : view.Shows source ending last ts) :
    Agrees source ending last primary view (Parse.primary ending ts) := by
  refine .of_succ ?_
  simp only [primary]
  refine agrees_inView ?_
  cases ts with
  | nil =>
    rw [Parse.primary, hshows.kind_eq]
    exact agrees_failAt hshows
  | cons t rest =>
    obtain rfl := hshows.cons_inv.1
    rw [Parse.primary]
    cases hsees : view.token.kind with
    | string =>
      refine agrees_pass hshows fun _ hleft => ?_
      exact agrees_pure hleft
    | number =>
      refine agrees_pass hshows fun _ hleft => ?_
      exact agrees_pure hleft
    | nilWord =>
      refine agrees_pass hshows fun _ hleft => ?_
      exact agrees_pure hleft
    | identifier =>
      refine agrees_pass hshows fun _ hleft => ?_
      exact agrees_pure hleft
    | leftBracket =>
      refine agrees_pass hshows fun _ hleft => ?_
      refine (hbelow.exprs _ _ hlength_le hleft).bind fun _ _ _ _ hleft => ?_
      exact agrees_pure hleft
    | leftBrace =>
      refine agrees_pass hshows fun _ hleft => ?_
      refine (hbelow.entries hlength_le hleft).bind fun _ _ _ _ hleft => ?_
      exact agrees_pure hleft
    | leftParen =>
      refine agrees_pass hshows fun _ hleft => ?_
      refine (hbelow.expr _ hlength_le hleft).bind fun _ _ _ _ hleft => ?_
      refine (agrees_consume hleft (by decide)).bind fun _ _ _ _ hleft => ?_
      exact agrees_pure hleft
    | fnWord =>
      refine (agrees_function hbelow hlength_le hshows).bind fun _ _ _ _ hleft => ?_
      exact agrees_pure hleft
    | _ => exact agrees_failAt hshows

theorem agrees_postfixed (hlength_le : ts.length ≤ n) (hshows : view.Shows source ending last ts) :
    Agrees source ending last postfixed view (Parse.postfixed ending ts) := by
  rw [Parse.postfixed]
  refine .of_succ ?_
  simp only [postfixed]
  refine agrees_inView ?_
  rw [hshows.offset_eq]
  refine (agrees_primary hbelow hlength_le hshows).bind fun _ _ hshorter _ hleft => ?_
  dsimp only
  exact agrees_extend hbelow (by omega) hleft

theorem agrees_unary (hlength_le : ts.length ≤ n) (hshows : view.Shows source ending last ts) :
    Agrees source ending last unary view (Parse.unary ending ts) := by
  refine .of_succ ?_
  simp only [unary]
  refine agrees_inView ?_
  cases ts with
  | nil =>
    have heof : view.token.kind = .eof := hshows.kind_eq
    rw [Parse.unary, heof]
    exact .of_neg (by decide) (agrees_postfixed hbelow hlength_le hshows)
  | cons t rest =>
    obtain rfl := hshows.cons_inv.1
    rw [Parse.unary]
    refine .ite (fun hminus => ?_) fun _ => agrees_postfixed hbelow hlength_le hshows
    refine agrees_take hshows (by simp [hminus]) fun _ hleft => ?_
    refine (hbelow.unary hlength_le hleft).bind fun _ _ _ _ hleft => ?_
    exact agrees_pure hleft

theorem agrees_climb
    {least : Nat} {operand : Expr} {hshorter : rest.length < ts.length}
    (hlength_le : rest.length ≤ n) (hshows : view.Shows source ending last rest) :
    Agrees source ending last (fun depth => climb depth least operand) view
      (Parse.climb ending least ts operand rest hshorter) := by
  induction hsize : rest.length using Nat.strongRecOn generalizing rest operand view with
  | ind size ih =>
    subst hsize
    refine .of_succ ?_
    simp only [climb_eq]
    refine agrees_inView ?_
    cases rest with
    | nil =>
      have heof : view.token.kind = .eof := hshows.kind_eq
      rw [Parse.climb, heof]
      exact .of_neg (by decide) (agrees_pure hshows)
    | cons t rest =>
      obtain rfl := hshows.cons_inv.1
      simp only [List.length_cons] at hlength_le ih
      rw [Parse.climb]
      refine .ite (fun _ => .ite (fun _ => agrees_pure hshows) fun _ => ?_) fun _ => ?_
      · refine agrees_pass hshows fun _ hleft => ?_
        -- Both pass the operator before they look at the target.
        cases operand.target? with
        | none => exact .error (gives_of_resultAt rfl)
        | some target =>
          refine (hbelow.expr _ (by omega) hleft).bind fun _ _ hshorter₁ _ hleft => ?_
          exact ih _ (by omega) (by omega) hleft rfl
      · cases Operator.ofKind? view.token.kind with
        | none => exact agrees_pure hshows
        | some op =>
          refine .ite (fun _ => agrees_pure hshows) fun _ => ?_
          refine agrees_pass hshows fun _ hleft => ?_
          refine (hbelow.expr _ (by omega) hleft).bind fun _ _ hshorter₁ _ hleft => ?_
          exact ih _ (by omega) (by omega) hleft rfl

theorem agrees_expr
    (hlength_le : ts.length ≤ n) (hshows : view.Shows source ending last ts) (least : Nat) :
    Agrees source ending last (fun depth => expr depth least) view
      (Parse.expr ending least ts) := by
  rw [Parse.expr]
  refine .of_succ ?_
  simp only [expr]
  refine (agrees_unary hbelow hlength_le hshows).bind fun _ _ hshorter _ hleft => ?_
  dsimp only
  exact agrees_climb hbelow (by omega) hleft

theorem agrees_exprs
    {closing : TokenKind} {hnoEof : closing ≠ .eof}
    (hlength_le : ts.length ≤ n) (hshows : view.Shows source ending last ts) :
    Agrees source ending last (fun depth => list depth (.exprs closing hnoEof)) view
      (Parse.exprs ending closing ts) := by
  have hallowed := Listed.eof_notMem_closing (.exprs closing hnoEof)
  rw [Parse.exprs]
  refine .of_succ ?_
  simp only [list_eq, listItem]
  refine agrees_sees hshows (fun _ => ?_) fun _ => ?_
  · refine (agrees_consume hshows hallowed).bind fun _ _ _ _ hleft => ?_
    exact agrees_pure hleft
  · refine (agrees_expr hbelow hlength_le hshows _).bind fun _ _ hshorter _ hleft => ?_
    refine agrees_sees hleft (fun _ => ?_) fun _ => ?_
    · refine (agrees_consume hleft (by decide)).bind fun _ _ hshorter₁ _ hleft => ?_
      refine (hbelow.exprs _ _ (by omega) hleft).bind fun _ _ _ _ hleft => ?_
      exact agrees_pure hleft
    · refine (agrees_consume hleft hallowed).bind fun _ _ _ _ hleft => ?_
      exact agrees_pure hleft

theorem agrees_entries (hlength_le : ts.length ≤ n) (hshows : view.Shows source ending last ts) :
    Agrees source ending last (fun depth => list depth .entries) view
      (Parse.entries ending ts) := by
  rw [Parse.entries]
  refine .of_succ ?_
  simp only [list_eq, listItem, entry, bind_assoc, pure_bind]
  refine agrees_sees hshows (fun _ => ?_) fun _ => ?_
  · refine (agrees_consume hshows (by decide)).bind fun _ _ _ _ hleft => ?_
    exact agrees_pure hleft
  · refine (agrees_consume hshows (by decide)).bind fun _ _ hshorter _ hleft => ?_
    refine (agrees_consume hleft (by decide)).bind fun _ _ hshorter₁ _ hleft => ?_
    refine (hbelow.expr _ (by omega) hleft).bind fun _ _ hshorter₂ _ hleft => ?_
    refine agrees_sees hleft (fun _ => ?_) fun _ => ?_
    · refine (agrees_consume hleft (by decide)).bind fun _ _ hshorter₃ _ hleft => ?_
      refine (hbelow.entries (by omega) hleft).bind fun _ _ _ _ hleft => ?_
      exact agrees_pure hleft
    · refine (agrees_consume hleft (by decide)).bind fun _ _ _ _ hleft => ?_
      exact agrees_pure hleft

/-! ## Statements -/

theorem agrees_block (hlength_le : ts.length ≤ n) (hshows : view.Shows source ending last ts) :
    Agrees source ending last block view (Parse.block ending ts) := by
  rw [Parse.block]
  refine .of_succ ?_
  simp only [block]
  refine (agrees_consume hshows (by decide)).bind fun _ _ hshorter _ hleft => ?_
  refine (hbelow.statements (by omega) hleft).bind fun _ _ _ _ hleft => ?_
  exact agrees_pure hleft

theorem agrees_conditional
    (hlength_le : ts.length ≤ n) (hshows : view.Shows source ending last ts) :
    Agrees source ending last conditional view (Parse.conditional ending ts) := by
  rw [Parse.conditional]
  refine .of_succ ?_
  simp only [conditional]
  refine (agrees_consume hshows (by decide)).bind fun _ _ hshorter _ hleft => ?_
  refine (hbelow.expr _ (by omega) hleft).bind fun _ _ hshorter₁ _ hleft => ?_
  refine (hbelow.block (by omega) hleft).bind fun _ _ hshorter₂ _ hleft => ?_
  refine agrees_sees hleft (fun _ => ?_) fun _ => ?_
  · refine (agrees_consume hleft (by decide)).bind fun _ _ hshorter₃ _ hleft => ?_
    refine agrees_sees hleft (fun _ => ?_) fun _ => ?_
    · refine (hbelow.conditional (by omega) hleft).bind fun _ _ _ _ hleft => ?_
      exact agrees_pure hleft
    · refine (hbelow.block (by omega) hleft).bind fun _ _ _ _ hleft => ?_
      exact agrees_pure hleft
  · exact agrees_pure hleft

theorem agrees_arms (hlength_le : ts.length ≤ n) (hshows : view.Shows source ending last ts) :
    Agrees source ending last arms view (Parse.arms ending ts) := by
  rw [Parse.arms]
  refine .of_succ ?_
  simp only [arms_eq]
  refine agrees_sees hshows (fun _ => ?_) fun _ => ?_
  · refine (agrees_consume hshows (by decide)).bind fun _ _ _ _ hleft => ?_
    exact agrees_pure hleft
  · refine (agrees_expr hbelow hlength_le hshows _).bind fun _ _ hshorter _ hleft => ?_
    refine (agrees_consume hleft (by decide)).bind fun _ _ hshorter₁ _ hleft => ?_
    refine (hbelow.block (by omega) hleft).bind fun _ _ hshorter₂ _ hleft => ?_
    refine (hbelow.arms (by omega) hleft).bind fun _ _ _ _ hleft => ?_
    exact agrees_pure hleft

theorem agrees_statement (hlength_le : ts.length ≤ n) (hshows : view.Shows source ending last ts) :
    Agrees source ending last statement view (Parse.statement ending ts) := by
  rw [Parse.statement]
  refine .of_succ ?_
  simp only [statement]
  refine agrees_inView ?_
  rw [hshows.kind_eq, hshows.offset_eq]
  cases hsees : viewKind ts with
  | varWord =>
    refine (agrees_consume hshows (by decide)).bind fun _ _ hshorter _ hleft => ?_
    refine (agrees_consume hleft (by decide)).bind fun _ _ hshorter₁ _ hleft => ?_
    refine (agrees_consume hleft (by decide)).bind fun _ _ hshorter₂ _ hleft => ?_
    refine (hbelow.expr _ (by omega) hleft).bind fun _ _ _ _ hleft => ?_
    exact agrees_pure hleft
  | forWord =>
    refine (agrees_consume hshows (by decide)).bind fun _ _ hshorter _ hleft => ?_
    refine agrees_sees hleft (fun _ => ?_) fun _ => ?_
    · refine (hbelow.block (by omega) hleft).bind fun _ _ _ _ hleft => ?_
      exact agrees_pure hleft
    · refine (agrees_consume hleft (by decide)).bind fun _ _ hshorter₁ _ hleft => ?_
      refine (agrees_loopIndex hleft).bind fun _ _ hshorter₂ _ hleft => ?_
      refine (hbelow.expr _ (by omega) hleft).bind fun _ _ hshorter₃ _ hleft => ?_
      refine (hbelow.block (by omega) hleft).bind fun _ _ _ _ hleft => ?_
      exact agrees_pure hleft
  | ifWord =>
    refine (agrees_conditional hbelow hlength_le hshows).bind fun _ _ _ _ hleft => ?_
    exact agrees_pure hleft
  | returnWord =>
    refine (agrees_consume hshows (by decide)).bind fun _ _ hshorter _ hleft => ?_
    refine agrees_sees hleft (fun _ => ?_) fun _ => ?_
    · exact agrees_pure hleft
    · refine (hbelow.expr _ (by omega) hleft).bind fun _ _ _ _ hleft => ?_
      exact agrees_pure hleft
  | continueWord =>
    refine (agrees_consume hshows (by decide)).bind fun _ _ _ _ hleft => ?_
    exact agrees_pure hleft
  | breakWord =>
    refine (agrees_consume hshows (by decide)).bind fun _ _ _ _ hleft => ?_
    exact agrees_pure hleft
  | matchWord =>
    refine (agrees_consume hshows (by decide)).bind fun _ _ hshorter _ hleft => ?_
    refine (hbelow.expr _ (by omega) hleft).bind fun _ _ hshorter₁ _ hleft => ?_
    refine (agrees_consume hleft (by decide)).bind fun _ _ hshorter₂ _ hleft => ?_
    refine (hbelow.arms (by omega) hleft).bind fun _ _ _ _ hleft => ?_
    exact agrees_pure hleft
  | leftBrace =>
    refine (agrees_block hbelow hlength_le hshows).bind fun _ _ _ _ hleft => ?_
    exact agrees_pure hleft
  | _ =>
    refine (agrees_expr hbelow hlength_le hshows _).bind fun _ _ _ _ hleft => ?_
    exact agrees_pure hleft

theorem agrees_statements (hlength_le : ts.length ≤ n) (hshows : view.Shows source ending last ts) :
    Agrees source ending last statements view (Parse.statements ending ts) := by
  rw [Parse.statements]
  refine .of_succ ?_
  simp only [statements_eq]
  refine agrees_sees hshows (fun _ => ?_) fun _ => ?_
  · refine (agrees_consume hshows (by decide)).bind fun _ _ _ _ hleft => ?_
    exact agrees_pure hleft
  · rw [hshows.kind_eq]
    refine .ite (fun _ => agrees_failAt hshows) fun _ => ?_
    refine (agrees_statement hbelow hlength_le hshows).bind fun _ _ hshorter _ hleft => ?_
    refine (hbelow.statements (by omega) hleft).bind fun _ _ _ _ hleft => ?_
    exact agrees_pure hleft

omit hbelow in
theorem AgreesBelow.succ (hbelow : AgreesBelow source ending last n) :
    AgreesBelow source ending last (n + 1) where
  expr least hlt hshows := agrees_expr hbelow (Nat.le_of_lt_succ hlt) hshows least
  unary hlt hshows := agrees_unary hbelow (Nat.le_of_lt_succ hlt) hshows
  exprs _ _ hlt hshows := agrees_exprs hbelow (Nat.le_of_lt_succ hlt) hshows
  entries hlt hshows := agrees_entries hbelow (Nat.le_of_lt_succ hlt) hshows
  block hlt hshows := agrees_block hbelow (Nat.le_of_lt_succ hlt) hshows
  statements hlt hshows := agrees_statements hbelow (Nat.le_of_lt_succ hlt) hshows
  conditional hlt hshows := agrees_conditional hbelow (Nat.le_of_lt_succ hlt) hshows
  arms hlt hshows := agrees_arms hbelow (Nat.le_of_lt_succ hlt) hshows

omit hbelow in
theorem agreesBelow (n : Nat) : AgreesBelow source ending last n := by
  induction n with
  | zero => constructor <;> intros <;> contradiction
  | succ n ih => exact ih.succ

omit hbelow in
theorem agrees_labelled (hshows : view.Shows source ending last ts) :
    Agrees source ending last labelled view (Parse.labelled ending ts) := by
  have hbelow : AgreesBelow source ending last ts.length := agreesBelow _
  rw [Parse.labelled]
  unfold labelled
  refine (agrees_consume hshows (by decide)).bind fun _ _ hshorter _ hleft => ?_
  refine (agrees_consume hleft (by decide)).bind fun _ _ hshorter₁ _ hleft => ?_
  refine agrees_sees hleft (fun _ => ?_) fun _ => ?_
  · refine (hbelow.block (by omega) hleft).bind fun _ _ _ _ hleft => ?_
    exact agrees_pure hleft
  · refine (hbelow.expr _ (by omega) hleft).bind fun _ _ _ _ hleft => ?_
    exact agrees_pure hleft

end

/-! ## Scripts -/

section

variable {α β : Type} {ts : List Token} {reader : Nat → Reader α} {reading : Except Fault α}

/-- This is what a reader gives, if the view is left out of account. -/
def Delivers (reader : Nat → Reader α) (view : View) (reading : Except Fault α) : Prop :=
  ∃ result, Gives reader view result ∧ result.map Prod.fst = reading

theorem Delivers.imp
    {reader' : Nat → Reader α} {view' : View}
    (h : Delivers reader view reading)
    (h' : ∀ result, Gives reader view result → Gives reader' view' result) :
    Delivers reader' view' reading := by
  obtain ⟨result, hgives, hreading⟩ := h
  exact ⟨result, h' result hgives, hreading⟩

theorem delivers_failAt {cause : Cause} (hshows : view.Shows source ending last ts) :
    Delivers (fun _ => failAt cause view.token) view
      (failHere ending cause ts : Except Fault α) := by
  rw [failHere, ← hshows.offset_eq]
  exact ⟨.error _, gives_of_resultAt rfl, rfl⟩

theorem Delivers.map (h : Delivers reader view reading) (f : α → β) :
    Delivers (fun depth => do return f (← reader depth)) view (do return f (← reading)) := by
  obtain ⟨result, hgives, rfl⟩ := h
  cases result with
  | error fault => exact ⟨.error fault, hgives.bind_of_error, rfl⟩
  | ok pair => exact ⟨.ok (f pair.1, pair.2), hgives.bind (gives_of_resultAt rfl), rfl⟩

theorem Agrees.delivers
    {reading : Except Fault (Parsed α ts)} {next : Parsed α ts → Except Fault β}
    {more : Nat → α → Reader β}
    (h : Agrees source ending last reader view reading)
    (h' : ∀ value rest (hshorter : rest.length < ts.length) (view' : View),
      view'.Shows source ending last rest →
        Delivers (fun depth => more depth value) view' (next ⟨value, rest, hshorter⟩)) :
    Delivers (fun depth => reader depth >>= more depth) view (reading >>= next) := by
  cases h with
  | ok hgives hshows => exact (h' _ _ _ _ hshows).imp fun _ hgives' => hgives.bind hgives'
  | @error fault hgives => exact ⟨.error fault, hgives.bind_of_error, rfl⟩

theorem delivers_items {ts : List Token} {view : View} (hshows : view.Shows source ending last ts) :
    Delivers items view (Parse.items ending ts) := by
  rw [Parse.items]
  refine Delivers.imp ?_ fun _ hgives => Gives.of_succ hgives
  simp only [items_eq]
  refine Delivers.imp ?_ fun _ hgives => gives_inView.bind hgives
  rw [hshows.kind_eq]
  cases hsees : viewKind ts with
  | eof => exact ⟨.ok ([], view), gives_of_resultAt rfl, rfl⟩
  | identifier =>
    refine (agrees_labelled hshows).delivers fun _ _ hshorter _ hleft => ?_
    exact (delivers_items hleft).map _
  | fnWord =>
    refine (agrees_function (agreesBelow _) (Nat.le_refl _) hshows).delivers
      fun _ _ hshorter _ hleft => ?_
    exact (delivers_items hleft).map _
  | _ => exact delivers_failAt hshows
termination_by ts.length

/-- Reading a script on demand ends, and it gives what reading the tokens of the script gives. -/
theorem program_eq (source : List Char) :
    ∃ depth, ∀ deeper, depth ≤ deeper → program deeper source = some (Program.parse source) := by
  let start : View := ⟨⟨.eof, "", 0⟩, .start source⟩
  have hafter : start.after = placeAfter source 0 := rfl
  have hlexed : Lexed.ofCursor (placeAfter source 0) =
      ⟨(Lexed.ofSource source).tokens, (Lexed.ofSource source).ending⟩ := rfl
  have hdelivers : Delivers (fun depth => do advance; return Program.mk (← items depth) source)
      start (Program.parse source) := by
    rw [Program.parse, Lexed.parse]
    rcases advance_cases hafter hlexed with
      ⟨fault, hbrought, hfailed⟩ | ⟨view, hbrought, hpassed, hshows⟩
    · rw [hbrought]
      exact ⟨.error fault, (gives_of_resultAt hfailed).bind_of_error, rfl⟩
    · rw [hbrought]
      exact ((delivers_items hshows).map _).imp fun _ hgives =>
        (gives_of_resultAt hpassed).bind hgives
  obtain ⟨result, ⟨depth, hgives⟩, hresult⟩ := hdelivers
  refine ⟨depth, fun deeper hle => ?_⟩
  rw [← hresult]
  exact congrArg (Option.map (Except.map Prod.fst)) (hgives deeper hle)

end

end OnDemand

end PuzzleLang
