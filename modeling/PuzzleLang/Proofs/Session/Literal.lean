import PuzzleLang.Proofs.Bindings
import PuzzleLang.Proofs.Run.Halting
import PuzzleLang.Proofs.Store.Holds
import PuzzleLang.Proofs.Value.Literal

/-!
# Reading back the text of a value

The text of a value made of nil, numbers, strings, arrays and maps is an expression of the language.
A script with a section that returns that expression can be read and loaded, and its section gives a
value that holds the same datum.
-/

namespace PuzzleLang

theorem Store.HoldsEntries.map_fst {store : Store} :
    ∀ (entries : List (String × Datum)) {bindings : Bindings Value},
      HoldsEntries store bindings entries → bindings.map Prod.fst = entries.map Prod.fst
  | [], [], _ => rfl
  | (_, _) :: entries, (_, _) :: _, ⟨hsame, _, hmore⟩ => by
    rw [List.map_cons, List.map_cons, map_fst entries hmore, show _ = _ from hsame]

/-! ## Evaluating a literal -/

open Run Store

/-- A run gives a value that holds a datum, and changes nothing but the store, which may gain arrays
and maps. -/
def Run.Yields {α β : Type} (holds : Store → α → β → Prop) (run : Run α) (state : State)
    (datum : β) : Prop :=
  ∃ value store, run state = .ok value { state with store } ∧ Keeps state.store store ∧
    holds store value datum

namespace Run

section

variable {α α' β β' : Type} {holds : Store → α → β → Prop} {holds' : Store → α' → β' → Prop}
variable {state : State}

theorem yields_pure {value : α} {datum : β} (h : holds state.store value datum) :
    Yields holds (pure value) state datum :=
  ⟨value, state.store, rfl, .refl _, h⟩

theorem Yields.bind
    {run : Run α} {next : α → Run α'} {datum : β} {datum' : β'}
    (h : Yields holds run state datum)
    (h' : ∀ value store, Keeps state.store store → holds store value datum →
      Yields holds' (next value) { state with store } datum') :
    Yields holds' (run >>= next) state datum' := by
  obtain ⟨value, store, hgiven, hkeeps, hholdsDatum⟩ := h
  obtain ⟨value', store', hgiven', hkeeps', hholdsDatum'⟩ := h' value store hkeeps hholdsDatum
  exact ⟨value', store', (bind_of_ok hgiven).trans hgiven', hkeeps.trans hkeeps', hholdsDatum'⟩

end

theorem yields_newArray
    {state : State} {values : List Value} {items : List Datum}
    (h : HoldsAll state.store values items) :
    Yields Holds (newArray values) state (.array items) := by
  have hkeeps := keeps_newArray state.store values.toArray
  refine ⟨_, _, rfl, hkeeps, values.toArray, ?_, hkeeps.holdsAll items h⟩
  exact Array.getElem?_push_size

theorem yields_newMap
    {state : State} {bindings : Bindings Value} {entries : List (String × Datum)}
    (hnodup : (entries.map Prod.fst).Nodup) (h : HoldsEntries state.store bindings entries) :
    Yields Holds (newMap bindings) state (.map entries) := by
  have hwhole : Bindings.putAll [] bindings = bindings := by
    refine Bindings.putAll_of_nodup ?_
    rwa [List.nil_append, h.map_fst entries]
  have hkeeps := keeps_newMap state.store (Bindings.putAll [] bindings)
  refine ⟨_, _, rfl, hkeeps, bindings, ?_, hkeeps.holdsEntries entries h⟩
  rw [hwhole]
  exact Array.getElem?_push_size

end Run

section

variable (setting : Setting) (callees : Callees)

-- The expression comes from a script and has offsets of its own, so that only its erasure is known.
mutual

theorem yields_evaluate : ∀ (datum : Datum), datum.IsLiteral → ∀ {e : Expr},
    Erase.expr e = Erase.expr datum.expr → ∀ (scope : ScopeId) (state : State),
      Yields Holds (evaluate setting callees e scope) state datum
  | .nil, _, e, hsame, scope, state => by
    cases e with
    | nil offset => exact yields_pure trivial
    | _ => cases hsame
  | .string value, _, e, hsame, scope, state => by
    cases e with
    | string offset value' =>
      cases hsame
      exact yields_pure rfl
    | _ => cases hsame
  | .number (.ofNat n), _, e, hsame, scope, state => by
    cases e with
    | number offset n' =>
      cases hsame
      exact yields_pure rfl
    | _ => cases hsame
  | .number (.negSucc n), _, e, hsame, scope, state => by
    cases e with
    | negate offset operand =>
      cases operand with
      | number offset' n' =>
        cases hsame
        exact yields_pure rfl
      | _ => cases hsame
    | _ => cases hsame
  | .array items, hliteral, e, hsame, scope, state => by
    cases e with
    | array offset es =>
      refine (yields_evaluateAll items hliteral (Expr.array.inj hsame).2 scope state).bind ?_
      intro values store _ hholds
      exact yields_newArray hholds
    | _ => cases hsame
  | .map entries, hliteral, e, hsame, scope, state => by
    cases e with
    | map offset es =>
      refine (yields_evaluateEntries entries hliteral.2 (Expr.map.inj hsame).2 scope state).bind ?_
      intro bindings store _ hholds
      exact yields_newMap hliteral.1 hholds
    | _ => cases hsame

theorem yields_evaluateAll : ∀ (items : List Datum), Datum.AreLiterals items →
    ∀ {es : List Expr}, Erase.exprs es = Erase.exprs (Datum.exprs items) →
      ∀ (scope : ScopeId) (state : State),
        Yields HoldsAll (evaluateAll setting callees es scope) state items
  | [], _, es, hsame, scope, state => by
    cases es with
    | nil => exact yields_pure trivial
    | cons e es => cases hsame
  | item :: items, hliteral, es, hsame, scope, state => by
    cases es with
    | nil => cases hsame
    | cons e es =>
      obtain ⟨hsameItem, hsameItems⟩ := List.cons.inj hsame
      refine (yields_evaluate item hliteral.1 hsameItem scope state).bind ?_
      intro value store _ hholds
      refine (yields_evaluateAll items hliteral.2 hsameItems scope _).bind ?_
      intro values store' hkeeps hholdsAll
      exact yields_pure ⟨hkeeps.holds item hholds, hholdsAll⟩

theorem yields_evaluateEntries : ∀ (entries : List (String × Datum)),
    Datum.HasLiterals entries →
    ∀ {es : List (String × Expr)},
      Erase.entries es = Erase.entries (Datum.entryExprs entries) →
      ∀ (scope : ScopeId) (state : State),
        Yields HoldsEntries (evaluateEntries setting callees es scope) state entries
  | [], _, es, hsame, scope, state => by
    cases es with
    | nil => exact yields_pure trivial
    | cons e es => cases hsame
  | (key, item) :: entries, hliteral, es, hsame, scope, state => by
    cases es with
    | nil => cases hsame
    | cons e es =>
      obtain ⟨key', e⟩ := e
      obtain ⟨hsameEntry, hsameEntries⟩ := List.cons.inj hsame
      obtain ⟨hsameKey, hsameItem⟩ := Prod.mk.inj hsameEntry
      refine (yields_evaluate item hliteral.2.1 hsameItem scope state).bind ?_
      intro value store _ hholds
      refine (yields_evaluateEntries entries hliteral.2.2 hsameEntries scope _).bind ?_
      intro bindings store' hkeeps hholdsEntries
      exact yields_pure ⟨hsameKey, hkeeps.holds item hholds, hholdsEntries⟩

end

/-! ## Evaluating a section that returns a literal -/

/-- A block ends by returning a value that holds a datum. -/
def Returns (store : Store) (flow : Flow) (datum : Datum) : Prop :=
  ∃ value, flow = .returned value ∧ Holds store value datum

theorem yields_newScope (parent : ScopeId) (state : State) :
    Yields (fun _ _ _ => True) (newScope parent) state () :=
  ⟨_, _, rfl, ⟨id, id⟩, trivial⟩

theorem yields_executeBlock
    {datum : Datum} {e : Expr}
    (hliteral : datum.IsLiteral) (hsame : Erase.expr e = Erase.expr datum.expr)
    (offset offset' : Nat) (scope : ScopeId) (state : State) :
    Yields Returns (executeBlock setting callees ⟨offset, [.returns offset' (some e)]⟩ scope)
      state datum := by
  refine (yields_newScope scope state).bind fun inner store _ _ => ?_
  have hstatement : Yields Returns (execute setting callees (.returns offset' (some e)) inner)
      { state with store } datum := by
    refine (yields_evaluate setting callees datum hliteral hsame inner _).bind ?_
    intro value store' _ hholds
    exact yields_pure ⟨value, rfl, hholds⟩
  refine hstatement.bind ?_
  rintro _ store' _ ⟨value, rfl, hholds⟩
  exact yields_pure ⟨value, rfl, hholds⟩

theorem yields_evaluateBody
    {datum : Datum} {e : Expr}
    (hliteral : datum.IsLiteral) (hsame : Erase.expr e = Erase.expr datum.expr)
    (offset offset' offset'' : Nat) (name : String) (state : State) :
    Yields Holds (evaluateBody setting callees
      ⟨offset, name, .block ⟨offset', [.returns offset'' (some e)]⟩⟩) state datum := by
  refine (yields_executeBlock setting callees hliteral hsame offset' offset'' rootScope
    state).bind ?_
  rintro _ store _ ⟨value, rfl, hholds⟩
  exact yields_pure hholds

end

namespace Run

theorem render_of_holds
    {state : State} {value : Value} {datum : Datum} (h : Holds state.store value datum) :
    render value state = .ok datum.render state := by
  refine (bind_of_ok (get_of_state state)).trans ?_
  simp only [h.render?]
  rfl

theorem guardSection_of_holds
    {setting : Setting} {body : Section → Run Value} {part : Section} {state : State}
    {datum : Datum}
    (hfound : setting.sections.find? (·.name == part.name) = some part)
    (hidle : state.active = none) (h : ∀ state, Yields Holds (body part) state datum) :
    ∃ value state', guardSection setting body part.name state = .ok value state' ∧
      Holds state'.store value datum := by
  obtain ⟨trace, hentered⟩ : ∃ trace,
      record setting 1 part.offset (return .enter part.name)
          { state with active := some part.name } =
        .ok () { state with active := some part.name, trace } :=
    record_of_ok 1 part.offset rfl
  obtain ⟨value, store, hgiven, -, hholds⟩ :=
    h { state with active := some part.name, trace }
  have hidleAgain : thenIdle (body part) { state with active := some part.name, trace } =
      .ok value { state with store, trace, active := none } := by
    rw [thenIdle, hgiven]
  obtain ⟨trace', hleft⟩ : ∃ trace',
      record setting 1 part.offset (return .leave part.name (← render value))
          { state with store, trace, active := none } =
        .ok () { state with store, trace := trace', active := none } :=
    record_of_ok 1 part.offset (bind_of_ok (render_of_holds hholds))
  refine ⟨value, { state with store, trace := trace', active := none }, ?_, hholds⟩
  simp only [guardSection, hfound]
  refine (bind_of_ok (get_of_state state)).trans ?_
  simp only [hidle]
  refine (bind_of_ok rfl).trans ?_
  refine (bind_of_ok hentered).trans ?_
  refine (bind_of_ok hidleAgain).trans ?_
  exact bind_of_ok hleft

end Run

/-! ## The script of a literal -/

/-- The parts of a script with a section that returns the expression of a datum. -/
def Datum.script (datum : Datum) : List Item :=
  [.labelled ⟨0, "part1", .block ⟨0, [.returns 0 (some datum.expr)]⟩⟩]

theorem Datum.separated_script (datum : Datum) : Separated.items datum.script :=
  ⟨⟨datum.separated_expr, fun _ => rfl, fun _ => by decide, trivial⟩, trivial⟩

theorem Datum.cutsInto_script {datum : Datum} (hliteral : datum.IsLiteral) :
    CutsInto ("part1: \x7b return " ++ datum.render ++ " \x7d").toList
      (Print.items datum.script) := by
  have hclose : CutsInto (" \x7d".toList ++ []) [.ofKind .rightBrace] :=
    .layout (by decide) (.sign .rightBrace (by decide) cutsInto_nil)
  have hvalue := datum.cutsInto_render hliteral (delimited_append (by decide) []) hclose
  have hblank : CutsInto (" ".toList ++ _) _ := hvalue.layout (by decide)
  have hreturned := CutsInto.delimited (.ofKind .returnWord) (by decide)
    (delimited_append (by decide) _) hblank
  have hopened := CutsInto.sign .leftBrace (by decide) (hreturned.layout (by decide : isLayout ' '))
  have hlabelled := CutsInto.sign .colon (by decide) (hopened.layout (by decide : isLayout ' '))
  have hnamed := CutsInto.delimited (Print.name "part1") (by decide)
    (delimited_append (by decide) _) hlabelled
  have hopening : "part1: \x7b return ".toList =
      "part1".toList ++ (":".toList ++ ' ' :: ("\x7b".toList ++ ' ' ::
        ("return".toList ++ " ".toList))) := by decide
  rw [String.toList_append, String.toList_append, hopening]
  simp only [Datum.script, Print.items, Print.labelled, Print.block, Print.statements,
    Print.statement, List.append_nil, List.append_assoc, List.cons_append] at hnamed ⊢
  exact hnamed

theorem Datum.parse_script {datum : Datum} (hliteral : datum.IsLiteral) :
    ∃ offset offset' offset'' e,
      Program.parse ("part1: \x7b return " ++ datum.render ++ " \x7d").toList =
        .ok ⟨[.labelled ⟨offset, "part1", .block ⟨offset', [.returns offset'' (some e)]⟩⟩],
          ("part1: \x7b return " ++ datum.render ++ " \x7d").toList⟩ ∧
      Erase.expr e = Erase.expr datum.expr := by
  obtain ⟨parts, hparsed, hsame⟩ :=
    Program.parse_of_cutsInto datum.separated_script (cutsInto_script hliteral)
  obtain ⟨offset, offset', body, rfl, hsameBody⟩ := Erase.items_eq_singleton_block hsame
  obtain ⟨first, rfl, hsameFirst⟩ := Erase.statements_eq_singleton hsameBody
  obtain ⟨offset'', e, rfl, hsameExpr⟩ := Erase.statement_eq_returns hsameFirst
  exact ⟨offset, offset', offset'', e, hparsed, hsameExpr⟩

/-- The text of a value that holds data is a literal: a script that returns it can be read and
loaded, and its section gives a value that holds the same data. -/
theorem Session.evaluate_render
    {store : Store} {value : Value} {datum : Datum} {limits : Limits}
    (hholds : store.Holds value datum) (hliteral : datum.IsLiteral) (hcalls : 0 < limits.calls)
    (level : Int) (files : Files) :
    ∃ text program session result session',
      store.render? value = some text ∧
      Program.parse ("part1: \x7b return " ++ text ++ " \x7d").toList = .ok program ∧
      Session.load program level files limits = (.ok (), session) ∧
      session.evaluate "part1" = (.ok result, session') ∧
      session'.state.store.view? result = some datum := by
  obtain ⟨offset, offset', offset'', e, hparsed, hsame⟩ := Datum.parse_script hliteral
  let part : Section := ⟨offset, "part1", .block ⟨offset', [.returns offset'' (some e)]⟩⟩
  let program : Program :=
    ⟨[.labelled part], ("part1: \x7b return " ++ datum.render ++ " \x7d").toList⟩
  let setting := Setting.ofProgram program level files limits
  -- The section itself is the first of the calls that may be nested.
  obtain ⟨depth, hdepth⟩ : ∃ depth, limits.calls = depth + 1 := ⟨limits.calls - 1, by omega⟩
  let callees : Callees := ⟨callFunction setting depth, enterSection setting depth⟩
  have hfound : setting.sections.find? (·.name == part.name) = some part := rfl
  obtain ⟨result, state, hgiven, hresult⟩ := guardSection_of_holds hfound
    (show State.initial.active = none from rfl)
    (yields_evaluateBody setting callees hliteral hsame offset offset' offset'' "part1")
  have hentered : enterSection setting limits.calls "part1" State.initial = .ok result state := by
    rw [hdepth]
    exact hgiven
  refine ⟨datum.render, program, ⟨setting, .initial⟩, result, ⟨setting, state⟩, hholds.render?,
    hparsed, rfl, ?_, hresult.view?⟩
  rw [Session.evaluate, Session.perform]
  simp only [show setting.limits.calls = limits.calls from rfl, hentered]

theorem Session.evaluate_render_map :
    ∃ program session result session',
      Program.parse "part1: \x7b return \x7b7: [-3, 'a b'], key: nil\x7d \x7d".toList =
        .ok program ∧
      Session.load program 1 ⟨fun _ _ _ => .missing⟩ .standard = (.ok (), session) ∧
      session.evaluate "part1" = (.ok result, session') ∧
      session'.state.store.view? result =
        some (.map [("7", .array [.number (-3), .string "a b"]), ("key", .nil)]) := by
  let store : Store :=
    ⟨#[], #[#[.number (-3), .string "a b"]], #[[("7", .array ⟨0⟩), ("key", .nil)]]⟩
  let datum : Datum := .map [("7", .array [.number (-3), .string "a b"]), ("key", .nil)]
  have hholds : store.Holds (.map ⟨0⟩) datum :=
    ⟨_, rfl, rfl, ⟨_, rfl, rfl, rfl, trivial⟩, rfl, trivial, trivial⟩
  have hnoQuote : '\'' ∉ "a b".toList := by decide
  have hliteral : datum.IsLiteral :=
    ⟨by decide, .inl (by decide), ⟨trivial, hnoQuote, trivial⟩, .inr (by decide), trivial, trivial⟩
  obtain ⟨text, program, session, result, session', hrendered, hparsed, hloaded, hevaluated,
      hview⟩ :=
    Session.evaluate_render hholds hliteral (show 0 < Limits.standard.calls by decide) 1
      ⟨fun _ _ _ => .missing⟩
  have htext : store.render? (.map ⟨0⟩) = some "\x7b7: [-3, 'a b'], key: nil\x7d" := by
    decide +kernel
  rw [htext] at hrendered
  cases hrendered
  exact ⟨program, session, result, session', hparsed, hloaded, hevaluated, hview⟩

end PuzzleLang
