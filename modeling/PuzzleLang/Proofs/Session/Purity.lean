import PuzzleLang.Proofs.Run.Keeping
import PuzzleLang.Proofs.Run.Propagation
import PuzzleLang.Proofs.Session.Tracing
import PuzzleLang.Proofs.Store.Same

/-!
# Expressions without effects

An expression that neither assigns nor calls, and makes no function with a name, changes nothing
that is there before it is evaluated; all it may do is make new arrays and maps.  Evaluating it
twice gives two values of the same structure, or the same fault twice.

The second fact is shown for two evaluations that start in any two states that have grown out of one
store by new arrays and maps.  The values that they come by are of the same structure all along, so
whatever is asked about them has the same answer on both sides.
-/

namespace PuzzleLang

open Run

/-! ## Pure expressions -/

namespace Expr

/-- The operation of an expression, its operands aside, is neither an assignment nor a call nor the
definition of a function. -/
def isQuiet : Expr → Bool
  | assign _ _ _ _ | store _ _ _ _ _ | call _ _ _ => false
  | function f => f.name.isNone
  | string _ _ | number _ _ | nil _ | ident _ _ | array _ _ | map _ _ | negate _ _ | binary _ _ _ _
  | subscript _ _ _ => true

/-- Neither an expression nor any of its operands assigns, calls or defines a function. -/
inductive Pure : Expr → Prop
  | intro {e : Expr} : e.isQuiet = true → (∀ inner ∈ e.operands, Pure inner) → Pure e

theorem Pure.leaf {e : Expr} (hquiet : e.isQuiet = true) (hnoOperands : e.operands = []) : e.Pure :=
  .intro hquiet (by rw [hnoOperands]; exact List.forall_mem_nil _)

theorem Pure.pair
    {e first second : Expr}
    (hquiet : e.isQuiet = true) (hoperands : e.operands = [first, second]) (hfirst : first.Pure)
    (hsecond : second.Pure) :
    e.Pure := by
  refine .intro hquiet ?_
  rw [hoperands]
  exact List.forall_mem_cons.mpr ⟨hfirst, List.forall_mem_singleton.mpr hsecond⟩

end Expr

/-- Nothing has happened to a state but that arrays and maps have been made. -/
structure State.Extends (state after : State) : Prop where
  store : state.store.Extends after.store
  rest : after = { state with store := after.store }

theorem State.Extends.refl (state : State) : state.Extends state :=
  ⟨.refl _, rfl⟩

theorem State.Extends.trans
    {state state' state'' : State} (h : state.Extends state') (h' : state'.Extends state'') :
    state.Extends state'' :=
  ⟨h.store.trans h'.store, by rw [h'.rest, h.rest]⟩

theorem forall_mem_of_forall₂
    {α β : Type} {r : α → β → Prop} {p : α → Prop} {q : β → Prop} {xs : List α} {ys : List β}
    (h : List.Forall₂ r xs ys) (himp : ∀ x y, r x y → p x ∧ q y) :
    (∀ x ∈ xs, p x) ∧ ∀ y ∈ ys, q y := by
  induction h with
  | nil => exact ⟨List.forall_mem_nil p, List.forall_mem_nil q⟩
  | cons hfirst _ ih =>
    obtain ⟨hisFirst, hfirst'⟩ := himp _ _ hfirst
    exact ⟨List.forall_mem_cons.mpr ⟨hisFirst, ih.1⟩, List.forall_mem_cons.mpr ⟨hfirst', ih.2⟩⟩

namespace Store

variable {store store' : Store}

/-! ## Names -/

theorem Extends.lookup? (hgrown : store.Extends store') (id : ScopeId) (name : String) :
    store'.lookup? id name = store.lookup? id name := by
  have hsameScope (id : ScopeId) : store'.scope? id = store.scope? id := by
    rw [scope?, scope?, hgrown.scopes]
  have hsameHome : store'.home? name id = store.home? name id := by
    refine home?_of_sameNames (fun id => ?_) name id
    rw [hsameScope]
    cases store.scope? id with
    | none => exact .none
    | some scope => exact .some ⟨rfl, fun _ => rfl⟩
  unfold Store.lookup? Store.own
  rw [hsameHome]
  cases store.home? name id with
  | none => rfl
  | some home =>
    dsimp only
    rw [hsameScope]

theorem WellFormed.knows_of_lookup?
    {id : ScopeId} {name : String} {value : Value}
    (hwellFormed : store.WellFormed) (hfound : store.lookup? id name = some value) :
    store.Knows value := by
  unfold Store.lookup? Store.own at hfound
  cases hhome : store.home? name id with
  | none =>
    rw [hhome] at hfound
    cases hfound
  | some home =>
    rw [hhome] at hfound
    dsimp only at hfound
    cases hscope : store.scope? home with
    | none =>
      rw [hscope] at hfound
      cases hfound
    | some scope =>
      rw [hscope] at hfound
      exact fun place hnamed => hwellFormed.named (at?_scope hscope) (mem_of_get? hfound) hnamed

/-! ## New arrays and maps -/

theorem WellFormed.newArray
    {items : Array Value}
    (hwellFormed : store.WellFormed) (hknown : ∀ value ∈ items.toList, store.Knows value) :
    (store.newArray items).2.WellFormed := by
  have hkept : Region.whole.Kept { State.initial with store } := Region.kept_whole.mpr hwellFormed
  have hafter : Region.whole.Kept { State.initial with store := (store.newArray items).2 } :=
    ⟨Region.whole_laws.closed_newArray hkept.closed fun value hmem => ⟨trivial, hknown value hmem⟩,
      (Region.whole_laws.newArray hkept.intact).1⟩
  exact Region.kept_whole.mp hafter

theorem WellFormed.newMap
    {entries : Bindings Value}
    (hwellFormed : store.WellFormed) (hknown : ∀ entry ∈ entries, store.Knows entry.2) :
    (store.newMap entries).2.WellFormed := by
  have hkept : Region.whole.Kept { State.initial with store } := Region.kept_whole.mpr hwellFormed
  have hafter : Region.whole.Kept { State.initial with store := (store.newMap entries).2 } :=
    ⟨Region.whole_laws.closed_newMap hkept.closed fun entry hmem => ⟨trivial, hknown entry hmem⟩,
      (Region.whole_laws.newMap hkept.intact).1⟩
  exact Region.kept_whole.mp hafter

theorem same_newArray
    {items items' : Array Value}
    (hsame : List.Forall₂ (store.Same store') items.toList items'.toList) :
    (store.newArray items).2.Same (store'.newArray items').2 (store.newArray items).1
      (store'.newArray items').1 := by
  refine Level.same (.array Array.getElem?_push_size Array.getElem?_push_size (hsame.imp ?_))
  exact fun _ _ hsame => hsame.mono (store.extends_newArray items) (store'.extends_newArray items')

theorem same_newMap
    {entries entries' : Bindings Value}
    (hsame : Bindings.Like (store.Same store') entries entries') :
    (store.newMap entries).2.Same (store'.newMap entries').2 (store.newMap entries).1
      (store'.newMap entries').1 := by
  refine Level.same (.map Array.getElem?_push_size Array.getElem?_push_size (hsame.imp ?_))
  exact fun _ _ hsame =>
    ⟨hsame.1, hsame.2.mono (store.extends_newMap entries) (store'.extends_newMap entries')⟩

/-! ## Operations on values of the same structure -/

variable {a a' b b' : Value}

theorem Same.load (hsame : store.Same store' a a') (hkeys : store.Same store' b b') :
    ExceptLike (store.Same store') (store.load a b) (store'.load a' b') := by
  have hsameIndex (index : Int) (size : Nat) :
      ExceptLike (fun place place' => place' = place) (index? index size) (index? index size) :=
    .of_eq rfl fun _ _ => rfl
  cases hsame.level with
  | @array id id' items items' hfound hfound' hall =>
    cases hkeys.level with
    | array | map => exact .error _
    | leaf hnotArray hnotMap =>
      cases b with
      | number index =>
        have hsizes : items'.size = items.size := by simpa using hall.length_eq.symm
        rw [Store.load, Store.load, items_of_some hfound, items_of_some hfound', hsizes]
        refine (hsameIndex index items.size).bind fun place _ hsame => ?_
        have hheld := forall₂_getElem? hall place
        rw [Array.getElem?_toList, Array.getElem?_toList] at hheld
        rw [hsame, Array.getD_eq_getD_getElem?, Array.getD_eq_getD_getElem?]
        exact .ok (rel_getD hheld (same_of_place?_eq_none rfl))
      | nil | string | array | map | range | native | closure => exact .error _
  | @map id id' entries entries' hfound hfound' hall =>
    simp only [Store.load, hkeys.type, hkeys.mapKey?, entries_of_some hfound,
      entries_of_some hfound']
    cases b.mapKey? with
    | none => exact .error _
    | some name =>
      exact .ok (rel_getD (Bindings.Like.get? hall name) (same_of_place?_eq_none rfl))
  | leaf hnotArray hnotMap =>
    cases a with
    | array id => exact absurd rfl (hnotArray id)
    | map id => exact absurd rfl (hnotMap id)
    | string text =>
      cases hkeys.level with
      | array | map => exact .error _
      | leaf =>
        cases b with
        | number index =>
          refine (hsameIndex index text.length).bind fun place _ hsame => ?_
          rw [hsame]
          exact .ok (same_of_place?_eq_none rfl)
        | nil | string | array | map | range | native | closure => exact .error _
    | nil | number | range | native | closure =>
      simp only [Store.load, hkeys.type]
      exact .error _

theorem Same.apply
    (hleft : store.Same store' a a') (hright : store.Same store' b b')
    (hwellFormed : store.WellFormed) (hwellFormed' : store'.WellFormed) (op : Operator) :
    op.apply store' a' b' = op.apply store a b := by
  have htexts : Operator.concatenate store' a' b' = Operator.concatenate store a b := by
    simp only [Operator.concatenate, Store.text?, hleft.view? hwellFormed hwellFormed',
      hright.view? hwellFormed hwellFormed']
  have hnumbers : op.arithmetic a' b' = op.arithmetic a b := by
    simp only [Operator.arithmetic, hleft.operand?, hright.operand?, hleft.type, hright.type]
  cases op with
  | add => rw [Operator.apply_add, Operator.apply_add, hleft.type, hright.type, htexts, hnumbers]
  | equal => exact congrArg (Except.map _) (hleft.equals hright)
  | notEqual => exact congrArg (Except.map _) (hleft.equals hright)
  | subtract | multiply | divide | modulo | less | lessEqual | greater | greaterEqual | both
  | either => exact hnumbers

end Store

/-! ## Two evaluations side by side -/

/-- Two states have grown out of one store, each by arrays and maps of its own. -/
structure Twins (base : Store) (state state' : State) : Prop where
  left : base.Extends state.store
  right : base.Extends state'.store
  wellFormed : state.store.WellFormed
  wellFormed' : state'.store.WellFormed

/-- Two runs have changed nothing that was there.  They have results that correspond, or the same
fault. -/
inductive TwinEnds {α : Type} (base : Store) (results : Store → Store → α → α → Prop)
    (state state' : State) : EStateM.Result Halt State α → EStateM.Result Halt State α → Prop
  | ok {value value' : α} {after after' : State} :
    state.Extends after → state'.Extends after' → Twins base after after' →
      results after.store after'.store value value' →
      TwinEnds base results state state' (.ok value after) (.ok value' after')
  | error {after after' : State} (fault : Fault) :
    state.Extends after → state'.Extends after' → Twins base after after' →
      TwinEnds base results state state' (.error (.fault fault) after)
        (.error (.fault fault) after')

namespace TwinEnds

variable {α β : Type} {base : Store} {state state' : State}
  {results : Store → Store → α → α → Prop} {results' : Store → Store → β → β → Prop}

theorem bind
    {run run' : Run α} {next next' : α → Run β}
    (hfirst : TwinEnds base results state state' (run state) (run' state'))
    (hmore : ∀ {value value' after after'}, state.Extends after → state'.Extends after' →
      Twins base after after' → results after.store after'.store value value' →
      TwinEnds base results' after after' (next value after) (next' value' after')) :
    TwinEnds base results' state state' ((run >>= next) state) ((run' >>= next') state') := by
  generalize hran : run state = ended at hfirst
  generalize hran' : run' state' = ended' at hfirst
  cases hfirst with
  | error fault hgrown hgrown' htwins =>
    rw [bind_of_error hran, bind_of_error hran']
    exact .error fault hgrown hgrown' htwins
  | @ok value value' after after' hgrown hgrown' htwins hvalues =>
    rw [bind_of_ok hran, bind_of_ok hran']
    have hsecond := hmore hgrown hgrown' htwins hvalues
    generalize next value after = last at hsecond
    generalize next' value' after' = last' at hsecond
    cases hsecond with
    | error fault hgrownMore hgrownMore' htwins =>
      exact .error fault (hgrown.trans hgrownMore) (hgrown'.trans hgrownMore') htwins
    | ok hgrownMore hgrownMore' htwins hvalues =>
      exact .ok (hgrown.trans hgrownMore) (hgrown'.trans hgrownMore') htwins hvalues

theorem pure
    {value value' : α}
    (htwins : Twins base state state') (hvalues : results state.store state'.store value value') :
    TwinEnds base results state state' ((Pure.pure value : Run α) state)
      ((Pure.pure value' : Run α) state') :=
  .ok (.refl state) (.refl state') htwins hvalues

theorem liftAt
    {result result' : Except Cause α}
    (htwins : Twins base state state')
    (hlike : ExceptLike (results state.store state'.store) result result') (offset : Nat) :
    TwinEnds base results state state' (Run.liftAt offset result state)
      (Run.liftAt offset result' state') := by
  cases hlike with
  | ok hvalues => exact .pure htwins hvalues
  | error cause => exact .error _ (.refl state) (.refl state') htwins

end TwinEnds

section

variable {setting : Setting} {callees : Callees} {scope : ScopeId} {base : Store}
  {state state' : State}

theorem twinEnds_lookup
    (htwins : Twins base state state') (hwellFormed : base.WellFormed) (offset : Nat)
    (name : String) :
    TwinEnds base Store.Same state state' (lookup offset scope name state)
      (lookup offset scope name state') := by
  rw [lookup, bind_of_ok (get_of_state state), bind_of_ok (get_of_state state'),
    htwins.left.lookup?, htwins.right.lookup?]
  cases hfound : base.lookup? scope name with
  | none => exact .error _ (.refl state) (.refl state') htwins
  | some value =>
    have hknows := hwellFormed.knows_of_lookup? hfound
    exact .pure htwins (hwellFormed.same_self hknows htwins.left htwins.right)

theorem twinEnds_newArray
    {values values' : List Value}
    (htwins : Twins base state state')
    (hsame : List.Forall₂ (state.store.Same state'.store) values values') :
    TwinEnds base Store.Same state state' (newArray values state) (newArray values' state') := by
  obtain ⟨hknown, hknown'⟩ := forall_mem_of_forall₂ hsame fun _ _ hsame => hsame.knows
  have hgrown := state.store.extends_newArray values.toArray
  have hgrown' := state'.store.extends_newArray values'.toArray
  refine .ok ⟨hgrown, rfl⟩ ⟨hgrown', rfl⟩ ?_ (Store.same_newArray hsame)
  exact ⟨htwins.left.trans hgrown, htwins.right.trans hgrown', htwins.wellFormed.newArray hknown,
    htwins.wellFormed'.newArray hknown'⟩

theorem twinEnds_newMap
    {entries entries' : List (String × Value)}
    (htwins : Twins base state state')
    (hsame : Bindings.Like (state.store.Same state'.store) entries entries') :
    TwinEnds base Store.Same state state' (newMap entries state) (newMap entries' state') := by
  have hmade : Bindings.Like (state.store.Same state'.store) (Bindings.putAll [] entries)
      (Bindings.putAll [] entries') := .putAll .nil hsame
  obtain ⟨hknown, hknown'⟩ := forall_mem_of_forall₂ hmade fun _ _ hsame => hsame.2.knows
  have hgrown := state.store.extends_newMap (Bindings.putAll [] entries)
  have hgrown' := state'.store.extends_newMap (Bindings.putAll [] entries')
  refine .ok ⟨hgrown, rfl⟩ ⟨hgrown', rfl⟩ ?_ (Store.same_newMap hmade)
  exact ⟨htwins.left.trans hgrown, htwins.right.trans hgrown', htwins.wellFormed.newMap hknown,
    htwins.wellFormed'.newMap hknown'⟩

/-- A quiet expression comes to the same with operands of the same structure. -/
theorem twinEnds_finish
    {e : Expr} {values values' : List Value}
    (hwellFormed : base.WellFormed) (hhas : base.Has (.scope scope)) (hquiet : e.isQuiet = true)
    (htwins : Twins base state state')
    (hsame : List.Forall₂ (state.store.Same state'.store) values values') :
    TwinEnds base Store.Same state state' (e.finish setting callees scope values state)
      (e.finish setting callees scope values' state') := by
  have hplain {value : Value} (hnoPlace : value.place? = none) :
      TwinEnds base Store.Same state state' ((pure value : Run Value) state)
        ((pure value : Run Value) state') :=
    .pure htwins (Store.same_of_place?_eq_none hnoPlace)
  -- For a number of values that operands never come in, both sides give nil.
  cases e with
  | string | number | nil => exact hplain rfl
  | ident offset name => exact twinEnds_lookup htwins hwellFormed offset name
  | array offset items => exact twinEnds_newArray htwins hsame
  | map offset entries => exact twinEnds_newMap htwins (Bindings.like_zip hsame _)
  | negate offset operand =>
    rcases hsame with _ | ⟨hfirst, _ | _⟩
    case cons.nil =>
      refine .liftAt htwins (.of_eq hfirst.negate fun result hnegated => ?_) offset
      unfold Value.negate at hnegated
      split at hnegated <;> cases hnegated
      exact Store.same_of_place?_eq_none rfl
    all_goals exact hplain rfl
  | binary offset op left right =>
    rcases hsame with _ | ⟨hfirst, _ | ⟨hsecond, _ | _⟩⟩
    case cons.cons.nil =>
      rw [Expr.finish, Expr.finish, bind_of_ok (get_of_state state),
        bind_of_ok (get_of_state state')]
      have hsame := hfirst.apply hsecond htwins.wellFormed htwins.wellFormed' op
      exact .liftAt htwins (.of_eq hsame fun result happlied =>
        Store.same_of_place?_eq_none (Operator.isPlain_of_apply happlied).place?) offset
    all_goals exact hplain rfl
  | subscript offset container key =>
    rcases hsame with _ | ⟨hfirst, _ | ⟨hsecond, _ | _⟩⟩
    case cons.cons.nil =>
      rw [Expr.finish, Expr.finish, load, load, bind_of_ok (get_of_state state),
        bind_of_ok (get_of_state state')]
      exact .liftAt htwins (hfirst.load hsecond) offset
    all_goals exact hplain rfl
  | function f =>
    have hunnamed : f.name = none := Option.isNone_iff_eq_none.mp hquiet
    rw [Expr.finish, Expr.finish, makeFunction, hunnamed]
    refine .pure htwins (hwellFormed.same_self ?_ htwins.left htwins.right)
    rintro place ⟨⟩
    exact hhas
  | assign | store | call => cases hquiet

theorem twinEnds_evaluateAll
    {items : List Expr}
    (heach : ∀ item ∈ items, ∀ {state state' : State}, Twins base state state' →
      TwinEnds base Store.Same state state' (evaluate setting callees item scope state)
        (evaluate setting callees item scope state'))
    (htwins : Twins base state state') :
    TwinEnds base (fun store store' => List.Forall₂ (store.Same store')) state state'
      (evaluateAll setting callees items scope state)
      (evaluateAll setting callees items scope state') := by
  induction items generalizing state state' with
  | nil =>
    rw [evaluateAll]
    exact .pure htwins .nil
  | cons item items ih =>
    obtain ⟨hfirst, hothers⟩ := List.forall_mem_cons.mp heach
    rw [evaluateAll]
    refine (hfirst htwins).bind fun _ _ htwins hvalue => ?_
    refine (ih hothers htwins).bind fun hgrown hgrown' htwins hvalues => ?_
    exact .pure htwins (.cons (hvalue.mono hgrown.store hgrown'.store) hvalues)

theorem twinEnds_evaluate
    {e : Expr}
    (hpure : e.Pure) (hwellFormed : base.WellFormed) (hhas : base.Has (.scope scope))
    (htwins : Twins base state state') :
    TwinEnds base Store.Same state state' (evaluate setting callees e scope state)
      (evaluate setting callees e scope state') := by
  induction hpure generalizing state state' with
  | intro hquiet _ ih =>
    rw [evaluate_eq_finish]
    refine (twinEnds_evaluateAll ih htwins).bind fun _ _ htwins hvalues => ?_
    exact twinEnds_finish hwellFormed hhas hquiet htwins hvalues

end

/-! ## Evaluating an expression twice -/

/-- A run changes nothing that is there, and a second one right after it comes to the same: to a
value of the same structure, or to the same fault. -/
inductive Run.Repeats (run : Run Value) (state : State) : Prop
  | ok {value value' : Value} {after later : State} :
    run state = .ok value after → state.Extends after →
      run after = .ok value' later → after.Extends later →
      later.store.Same later.store value value' → Repeats run state
  | error {fault : Fault} {after later : State} :
    run state = .error (.fault fault) after → state.Extends after →
      run after = .error (.fault fault) later → after.Extends later → Repeats run state

theorem Run.repeats_of_twinEnds
    {run : Run Value} {state : State}
    (hwellFormed : state.store.WellFormed)
    (hboth : ∀ {left right : State}, Twins state.store left right →
      TwinEnds state.store Store.Same left right (run left) (run right)) :
    run.Repeats state := by
  have honce := hboth ⟨.refl _, .refl _, hwellFormed, hwellFormed⟩
  generalize hran : run state = ended at honce
  cases honce with
  | ok hgrown _ htwins _ =>
    have htwice := hboth ⟨.refl _, htwins.right, hwellFormed, htwins.wellFormed'⟩
    rw [hran] at htwice
    generalize hranAgain : run _ = endedAgain at htwice
    cases htwice with
    | ok _ hgrownAgain _ hsame =>
      exact .ok hran hgrown hranAgain hgrownAgain (hsame.mono hgrownAgain.store (.refl _))
  | error fault hgrown _ htwins =>
    have htwice := hboth ⟨.refl _, htwins.right, hwellFormed, htwins.wellFormed'⟩
    rw [hran] at htwice
    generalize hranAgain : run _ = endedAgain at htwice
    cases htwice with
    | error _ _ hgrownAgain _ => exact .error hran hgrown hranAgain hgrownAgain

/-- In every state that an evaluation in a session comes to, and in every scope of that state,
evaluating an expression without effects leaves all scopes, all arrays and maps that exist, and what
has been printed as they are, whether it succeeds or not; and it can be repeated. -/
theorem evaluate_pure_repeats
    {byHand : Value → Prop} {session : Session} {name : String} {activity : Activity}
    {scope : ScopeId} {e : Expr}
    (hreachable : Session.Reachable byHand session)
    (hchain : Relation.ReflTransGen (Activity.Performs session.setting)
      ⟨session.setting.limits.calls, .enter name, session.state⟩ activity)
    (hhas : activity.state.store.Has (.scope scope)) (hpure : e.Pure) (setting : Setting)
    (callees : Callees) :
    (evaluate setting callees e scope).Repeats activity.state := by
  have hcovered : Region.whole.Covers activity :=
    Activity.covers_of_reflTransGen (Region.whole_oversees _) hchain
      ⟨Region.kept_whole.mpr hreachable.wellFormed, trivial⟩
  have hwellFormed := Region.kept_whole.mp hcovered.kept
  exact repeats_of_twinEnds hwellFormed (twinEnds_evaluate hpure hwellFormed hhas)

/-- A function without a name that would assign one. -/
def Function.assigning : Function :=
  ⟨17, none, [], ⟨22, [.expr 24 (.assign 24 24 "lines" (.number 32 1))]⟩⟩

/-- An array of the first line, made longer, and of that function. -/
def Expr.pairing : Expr :=
  .array 0 [
    .binary 10 .add (.subscript 1 (.ident 1 "lines") (.number 7 0)) (.string 12 "!"),
    .function .assigning]

/-- A state in which that array has been made. -/
def State.paired (state : State) : State :=
  { state with
    store := (state.store.newArray #[.string "1!", .closure ⟨.assigning, rootScope⟩]).2 }

set_option maxRecDepth 10000 in
/-- Both evaluations make an array, but not the same one. -/
theorem evaluate_pure_repeats_pairing :
    Session.Reachable (fun _ => True) Session.reading ∧ Expr.pairing.Pure ∧
      (evaluate Session.reading.setting (.within Session.reading.setting 2499) .pairing
        rootScope).Repeats .reading ∧
      evaluate Session.reading.setting (.within Session.reading.setting 2499) .pairing rootScope
        .reading = .ok (.array ⟨1⟩) State.reading.paired ∧
      evaluate Session.reading.setting (.within Session.reading.setting 2499) .pairing rootScope
        State.reading.paired = .ok (.array ⟨2⟩) State.reading.paired.paired := by
  have hreachable : Session.Reachable (fun _ => True) Session.reading :=
    .readInput "1" (.load .reading 3 _ _ rfl)
  have henters : Activity.Enters Session.reading.setting "a" ⟨20, "a", .expr .reading⟩
      Session.reading.state (Session.reading.state.trace.push (.enter "a")) := ⟨rfl, rfl, rfl⟩
  have hpure : Expr.pairing.Pure := by
    have hline : (Expr.subscript 1 (.ident 1 "lines") (.number 7 0)).Pure :=
      .pair rfl rfl (.leaf rfl rfl) (.leaf rfl rfl)
    exact .pair rfl rfl (.pair rfl rfl hline (.leaf rfl rfl)) (.leaf rfl rfl)
  have hhas : State.reading.store.Has (.scope rootScope) := hreachable.wellFormed.root
  refine ⟨hreachable, hpure, ?_, ?_, ?_⟩
  · exact evaluate_pure_repeats hreachable (.single (.entered henters)) hhas hpure _ _
  · with_unfolding_all rfl
  · with_unfolding_all rfl

end PuzzleLang
