import PuzzleLang.Proofs.Run.Sequence
import PuzzleLang.Proofs.Session.Containers
import PuzzleLang.Proofs.Store.Shadowing
import PuzzleLang.Proofs.Value.Counting

/-!
# Loops over ranges

A loop over a range has a scope of its own, and a round for each number of the range.  A round binds
the names of the loop to its number in that scope and then runs the body, which may leave the loop
or halt.  Nothing that the body does can take the scope away or change which numbers are still to
come, since they are those of the range, and a range is a value.
-/

namespace PuzzleLang

open Run

/-- A round starts: the names of the loop are bound to a number in its scope, and all else is as it
was given. -/
structure RoundStart (inner : ScopeId) (item : String) (index : Option String) (n : Int)
    (given ready : State) : Prop where
  itemValue : (ready.store.own inner).get? item = some (.number n)
  indexValue : ∀ name ∈ index, (ready.store.own inner).get? name = some (.number n)
  names : ∀ name, name ≠ item → name ∉ index →
    (ready.store.own inner).get? name = (given.store.own inner).get? name
  parents : ∀ id, ready.store.parent? id = given.store.parent? id
  scopes : ∀ id, id ≠ inner → ready.store.scope? id = given.store.scope? id
  arrays : ready.store.arrays = given.store.arrays
  maps : ready.store.maps = given.store.maps
  others : ready = { given with store := ready.store }

/-- The rounds of a loop over numbers: each number has its round, in this order, until the body
leaves the loop or halts. -/
inductive RangeRounds (inner : ScopeId) (item : String) (index : Option String) (body : Run Flow) :
    List Int → State → EStateM.Result Halt State Flow → Prop
  | done (state : State) : RangeRounds inner item index body [] state (.ok .next state)
  | goesOn {n : Int} {numbers : List Int} {flow : Flow} {given ready state : State}
      {result : EStateM.Result Halt State Flow} :
    RoundStart inner item index n given ready → body ready = .ok flow state →
      flow.goesOn = true → RangeRounds inner item index body numbers state result →
      RangeRounds inner item index body (n :: numbers) given result
  | broke {n : Int} {offset : Nat} {given ready state : State} (numbers : List Int) :
    RoundStart inner item index n given ready → body ready = .ok (.broke offset) state →
      RangeRounds inner item index body (n :: numbers) given (.ok .next state)
  | returned {n : Int} {value : Value} {given ready state : State} (numbers : List Int) :
    RoundStart inner item index n given ready → body ready = .ok (.returned value) state →
      RangeRounds inner item index body (n :: numbers) given (.ok (.returned value) state)
  | halted {n : Int} {halt : Halt} {given ready state : State} (numbers : List Int) :
    RoundStart inner item index n given ready → body ready = .error halt state →
      RangeRounds inner item index body (n :: numbers) given (.error halt state)

/-- Every loop over the range runs these rounds, in a new scope inside that of the loop. -/
def Range.Loops (range : Range) (numbers : List Int) : Prop :=
  ∀ (setting : Setting) (depth offset : Nat) (item : String) (index : Option String)
    (iterable : Expr) (body : Block) (scope inner : ScopeId) (state given : State) (store : Store),
    evaluate setting (.within setting depth) iterable scope state = .ok (.range range) given →
    given.store.newScope (some scope) = (inner, store) →
      RangeRounds inner item index (executeBlock setting (.within setting depth) body inner) numbers
        { given with store }
        (execute setting (.within setting depth) (.forEach offset item index iterable body) scope
          state)

/-! ## One round -/

/-- One round of a loop over numbers. -/
def numberRound (inner : ScopeId) (item : String) (index : Option String) (body : Run Flow)
    (n : Int) : Run Flow := do
  bindLoop inner item index (.number n) (.number n)
  body

section

variable {inner : ScopeId} {state : State}

/-- The names of a loop are bound in its scope; an index of the same name is bound to the same
number. -/
theorem exists_roundStart
    (hhas : state.store.Has (.scope inner)) (item : String) (index : Option String) (n : Int) :
    ∃ ready, RoundStart inner item index n state ready ∧ ready.store.Has (.scope inner) ∧
      ∀ body, numberRound inner item index body n state = body ready := by
  have hfirst := Store.rebinds_define hhas item (.number n)
  have hhasFirst := (state.store.grows_define inner item (.number n)).has hhas
  cases index with
  | none =>
    refine ⟨{ state with store := state.store.define inner item (.number n) }, ?_, hhasFirst,
      fun _ => rfl⟩
    exact {
      itemValue := hfirst.value
      indexValue := fun _ hindex => by cases hindex
      names := fun _ hne _ => hfirst.values hne
      parents := hfirst.parents
      scopes := fun _ => hfirst.scopes
      arrays := hfirst.arrays
      maps := hfirst.maps
      others := rfl }
  | some name =>
    have hsecond := Store.rebinds_define hhasFirst name (.number n)
    have hhasSecond := (Store.grows_define _ inner name (.number n)).has hhasFirst
    refine ⟨{ state with
      store := (state.store.define inner item (.number n)).define inner name (.number n) },
      ?_, hhasSecond, fun _ => rfl⟩
    exact {
      itemValue := by
        by_cases hsame : item = name
        · subst hsame
          exact hsecond.value
        · exact (hsecond.values hsame).trans hfirst.value
      indexValue := by
        rintro _ ⟨⟩
        exact hsecond.value
      names := fun other hne hnotIndex =>
        (hsecond.values fun hsame => hnotIndex (congrArg some hsame.symm)).trans (hfirst.values hne)
      parents := fun id => (hsecond.parents id).trans (hfirst.parents id)
      scopes := fun _ hne => (hsecond.scopes hne).trans (hfirst.scopes hne)
      arrays := rfl
      maps := rfl
      others := rfl }

/-! ## All rounds -/

/-- The scope of the loop is there in each round, if the body takes no scope away. -/
theorem rangeRounds_rounds
    {body : Run Flow}
    (hgrows : ∀ ready : State, ready.store.Grows (body.final ready).store)
    (hhas : state.store.Has (.scope inner)) (item : String) (index : Option String)
    (numbers : List Int) :
    RangeRounds inner item index body numbers state
      (rounds (numberRound inner item index body) (return .next) numbers state) := by
  -- what each round hands on is that the scope is there, so that the next one can bind its names
  induction numbers generalizing state with
  | nil => exact .done state
  | cons n numbers ih =>
    obtain ⟨ready, hstarts, hhasReady, hruns⟩ := exists_roundStart hhas item index n
    cases hran : body ready with
    | error halt state' =>
      rw [rounds, bind_of_error ((hruns body).trans hran)]
      exact .halted numbers hstarts hran
    | ok flow state' =>
      cases hgoesOn : flow.goesOn with
      | true =>
        have hhasAfter : state'.store.Has (.scope inner) := by
          have hkept := (hgrows ready).has hhasReady
          rwa [final, hran] at hkept
        rw [rounds_cons_of_goesOn ((hruns body).trans hran) hgoesOn]
        exact .goesOn hstarts hran hgoesOn (ih hhasAfter)
      | false =>
        rw [rounds, bind_of_ok ((hruns body).trans hran)]
        cases flow with
        | broke offset => exact .broke numbers hstarts hran
        | returned value => exact .returned numbers hstarts hran
        | next | continued => cases hgoesOn

end

theorem grows_executeBlock
    (setting : Setting) (depth : Nat) (body : Block) (scope : ScopeId) (state : State) :
    state.store.Grows
      ((executeBlock setting (.within setting depth) body scope).final state).store :=
  (Region.kept_of_ends (Accord.alike_execute (Region.evolution_laws.accord setting)
    (evolution_callees setting depth state) (Stmt.like_self (fun _ => rfl) (.block body))
    ⟨trivial, trivial, trivial⟩) (Region.kept_evolution .refl)).1

namespace Range

/-- A loop has a round for each number that its range has. -/
theorem Lists.loops {range : Range} {numbers : List Int} (hlists : range.Lists numbers) :
    range.Loops numbers := by
  intro setting depth offset item index iterable body scope inner state given store hevaluated
    hopened
  cases hopened
  have hlimit := setting.limits.distance_le_over range
  have hruns : execute setting (.within setting depth) (.forEach offset item index iterable body)
      scope state =
      forRange (numberRound ⟨given.store.scopes.size⟩ item index
        (executeBlock setting (.within setting depth) body ⟨given.store.scopes.size⟩))
        (setting.limits.over range) range
        { given with store := (given.store.newScope (some scope)).2 } := by
    rw [execute, bind_of_ok hevaluated]
    rfl
  have hafter : range.after (setting.limits.over range) = return .next := by
    obtain ⟨hend, -⟩ := lists_iff.mp hlists
    rw [after, if_pos (hend.reaches.endsWithin hlimit)]
  rw [hruns, forRange_eq_rounds, hafter, hlists.take_eq hlimit]
  apply rangeRounds_rounds
  · exact grows_executeBlock setting depth body _
  · rw [Store.has_scope]
    simp

/-- From one number to another, upwards or downwards, a range has as many numbers as their distance,
and with its end one more; loops over it have a round for each of them. -/
theorem enumerates_interval (a b : Int) :
    ∃ values : List Int,
      (∀ numbers, (upTo a b).Lists numbers ↔ numbers = values) ∧
      values.length = (b - a).natAbs ∧
      (∀ k : Nat, k < (b - a).natAbs → values[k]? = some (if a ≤ b then a + k else a - k)) ∧
      b ∉ values ∧
      (∀ numbers, (through a b).Lists numbers ↔ numbers = values ++ [b]) ∧
      (∀ numbers, (through b a).Lists numbers ↔ numbers = (values ++ [b]).reverse) ∧
      (∀ setting enter state,
        Native.range.call setting enter [.number a, .number b] state =
          .ok (.range (.upTo a b)) state ∧
        Native.rangei.call setting enter [.number a, .number b] state =
          .ok (.range (.through a b)) state) ∧
      (upTo a b).Loops values ∧ (through a b).Loops (values ++ [b]) := by
  refine ⟨between a b, fun _ => lists_upTo_iff, length_between a b, fun _ => getElem?_between,
    notMem_between a b, fun _ => lists_through_iff, fun _ => ?_, fun _ _ _ => ⟨rfl, rfl⟩,
    (lists_upTo_iff.mpr rfl).loops, (lists_through_iff.mpr rfl).loops⟩
  rw [reverse_between_concat]
  exact lists_through_iff

end Range

/-- The statement that prints both names in a loop from three down to one. -/
def Stmt.countdown : Stmt :=
  .forEach 0 "i" (some "k") (.call 0 (.ident 0 "rangei") [.number 0 3, .number 0 1])
    ⟨0, [.expr 0 (.call 0 (.ident 0 "println") [.ident 0 "i", .ident 0 "k"])]⟩

/-- The loop has a round for each of three numbers, and its body prints each of them twice. -/
theorem Range.enumerates_interval_countdown :
    let setting := Setting.ofProgram ⟨[], []⟩ 0 ⟨fun _ _ _ => .missing⟩ .standard
    let callees := Callees.within setting 5
    (upTo 3 1).Lists [3, 2] ∧ (through 3 1).Lists [3, 2, 1] ∧ (through 1 3).Lists [1, 2, 3] ∧
      RangeRounds ⟨1⟩ "i" (some "k")
        (executeBlock setting callees
          ⟨0, [.expr 0 (.call 0 (.ident 0 "println") [.ident 0 "i", .ident 0 "k"])]⟩ ⟨1⟩)
        [3, 2, 1] { State.initial with store := (Store.initial.newScope (some rootScope)).2 }
        (execute setting callees .countdown rootScope .initial) ∧
      ((execute setting callees .countdown rootScope).final .initial).output =
        "3 3\n2 2\n1 1\n" := by
  intro setting callees
  obtain ⟨values, hlist, -, -, -, hthrough, hback, -, -, hloops⟩ :=
    Range.enumerates_interval 3 1
  obtain rfl : [3, 2] = values := (hlist [3, 2]).mp (lists_upTo_iff.mpr rfl)
  refine ⟨(hlist _).mpr rfl, (hthrough _).mpr rfl, (hback _).mpr rfl, ?_, ?_⟩
  · exact hloops setting 5 0 "i" (some "k") _ _ rootScope ⟨1⟩ .initial .initial _
      (by with_unfolding_all rfl) rfl
  · decide +kernel

end PuzzleLang
