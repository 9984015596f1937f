import PuzzleLang.Proofs.Policy.Step
import PuzzleLang.Proofs.Run.Jump

/-!
# Evaluation under a policy

A tree that a policy admits is evaluated as the policy wants it, if the functions that it calls are.
What leaves the tree is known by its policy only: a function of the script is called with values
that the script may make, and a section is never entered.
-/

namespace PuzzleLang

namespace Policy

/-- A statement returns nothing but values that the script may make. -/
def FlowFits (P : Policy) (flow : Flow) : Prop :=
  ∀ value, flow = .returned value → P.Fits value

/-- The calls that are handed in to an evaluation meet a policy. -/
def Welcomes (P : Policy) (callees : Callees) : Prop :=
  ∀ {offset : Nat} {closure : Closure} {args : List Value},
    P.Blames offset → P.Fits (.closure closure) → (∀ arg ∈ args, P.Fits arg) →
      P.Meets P.halts P.Fits (callees.call offset closure args)

variable {P : Policy} {setting : Setting} {callees : Callees}

/-! ## Calls and functions -/

theorem meets_callValue
    {offset : Nat} {callee : Value} {args : List Value}
    (hlaws : P.Laws setting) (hwelcomes : P.Welcomes callees) (hblames : P.Blames offset)
    (hfits : P.Fits callee) (hfitsAll : ∀ arg ∈ args, P.Fits arg) :
    P.Meets P.halts P.Fits (Run.callValue setting callees offset callee args) := by
  apply (meets_record hblames 3 (.call callee args)).bind
  intro _ _
  cases hfits with
  | native hstandard => exact (meets_call hlaws hblames hstandard hfitsAll callees.enter).relocate
  | closure hadmits => exact hwelcomes hblames (.closure hadmits) hfitsAll
  | nil | number | string | array | map | range =>
    exact meets_failAt hblames ⟨rfl, nofun, nofun⟩

theorem meets_makeFunction
    {f : Function}
    (hlaws : P.Laws setting) (hadmits : P.Admits (.expr (.function f))) (scope : ScopeId) :
    P.Meets P.halts P.Fits (Run.makeFunction setting f scope) := by
  unfold Run.makeFunction
  cases f.name with
  | none => exact meets_pure (.closure hadmits)
  | some name =>
    apply (meets_define (.closure hadmits) scope name).bind
    intro _ _
    apply (meets_record (hlaws.blames hadmits.self) 2 (.defineFunction name f.params)).bind
    intro _ _
    exact meets_pure (.closure hadmits)

/-! ## Expressions -/

mutual

theorem meets_evaluate (hlaws : P.Laws setting) (hwelcomes : P.Welcomes callees) :
    ∀ (e : Expr) (scope : ScopeId), P.Admits (.expr e) →
      P.Meets P.halts P.Fits (evaluate setting callees e scope)
  | .string _ value, _, _ => meets_pure (.string value)
  | .number _ value, _, _ => meets_pure (.number value)
  | .nil _, _, _ => meets_pure .nil
  | .ident _ name, scope, hadmits => meets_lookup (hlaws.blames hadmits.self) scope name
  | .array _ items, scope, hadmits => by
    rw [evaluate]
    apply (meets_evaluateAll hlaws hwelcomes items scope fun item hitem =>
      hadmits.child (List.mem_map_of_mem hitem)).bind
    intro values hfits
    exact meets_newArray hfits
  | .map _ entries, scope, hadmits => by
    rw [evaluate]
    apply (meets_evaluateEntries hlaws hwelcomes entries scope fun entry hentry =>
      hadmits.child (List.mem_map_of_mem hentry)).bind
    intro values hfits
    exact meets_newMap hfits
  | .negate _ operand, scope, hadmits => by
    rw [evaluate]
    apply (meets_evaluate hlaws hwelcomes operand scope (hadmits.child List.mem_cons_self)).bind
    intro value _
    exact meets_scalar (hlaws.blames hadmits.self) value.givesScalar_negate
  | .binary _ op left right, scope, hadmits => by
    rw [evaluate]
    apply (meets_evaluate hlaws hwelcomes left scope (hadmits.child List.mem_cons_self)).bind
    intro a _
    apply (meets_evaluate hlaws hwelcomes right scope
      (hadmits.child (List.mem_cons_of_mem _ List.mem_cons_self))).bind
    intro b _
    apply meets_get_bind
    intro state _
    exact meets_scalar (hlaws.blames hadmits.self) (op.givesScalar_apply state.store a b)
  | .subscript _ container key, scope, hadmits => by
    rw [evaluate]
    apply (meets_evaluate hlaws hwelcomes container scope (hadmits.child List.mem_cons_self)).bind
    intro container _
    apply (meets_evaluate hlaws hwelcomes key scope
      (hadmits.child (List.mem_cons_of_mem _ List.mem_cons_self))).bind
    intro key _
    exact meets_load (hlaws.blames hadmits.self) container key
  | .assign _ _ name value, scope, hadmits => by
    rw [evaluate]
    apply (meets_evaluate hlaws hwelcomes value scope
      (hadmits.child (List.mem_cons_of_mem _ List.mem_cons_self))).bind
    intro value hfits
    apply (meets_assign hfits scope name).bind
    intro _ _
    exact meets_pure hfits
  | .store _ _ container key value, scope, hadmits => by
    have htarget := hadmits.child List.mem_cons_self
    rw [evaluate]
    apply (meets_evaluate hlaws hwelcomes value scope
      (hadmits.child (List.mem_cons_of_mem _ List.mem_cons_self))).bind
    intro value hfits
    apply (meets_evaluate hlaws hwelcomes container scope (htarget.child List.mem_cons_self)).bind
    intro container _
    apply (meets_evaluate hlaws hwelcomes key scope
      (htarget.child (List.mem_cons_of_mem _ List.mem_cons_self))).bind
    intro key _
    apply (meets_save (hlaws.blames hadmits.self) hfits container key).bind
    intro _ _
    exact meets_pure hfits
  | .call _ callee args, scope, hadmits => by
    rw [evaluate]
    apply (meets_evaluate hlaws hwelcomes callee scope (hadmits.child List.mem_cons_self)).bind
    intro callee hfits
    apply (meets_evaluateAll hlaws hwelcomes args scope fun arg harg =>
      hadmits.child (List.mem_cons_of_mem _ (List.mem_map_of_mem harg))).bind
    intro args hfitsAll
    exact meets_callValue hlaws hwelcomes (hlaws.blames hadmits.self) hfits hfitsAll
  | .function _, scope, hadmits => meets_makeFunction hlaws hadmits scope

theorem meets_evaluateAll (hlaws : P.Laws setting) (hwelcomes : P.Welcomes callees) :
    ∀ (items : List Expr) (scope : ScopeId), (∀ item ∈ items, P.Admits (.expr item)) →
      P.Meets P.halts (fun values => ∀ value ∈ values, P.Fits value)
        (evaluateAll setting callees items scope)
  | [], _, _ => meets_pure (List.forall_mem_nil _)
  | item :: items, scope, hadmits => by
    obtain ⟨hfirst, hmore⟩ := List.forall_mem_cons.mp hadmits
    rw [evaluateAll]
    apply (meets_evaluate hlaws hwelcomes item scope hfirst).bind
    intro value hfits
    apply (meets_evaluateAll hlaws hwelcomes items scope hmore).bind
    intro values hfitsAll
    exact meets_pure (List.forall_mem_cons.mpr ⟨hfits, hfitsAll⟩)

theorem meets_evaluateEntries (hlaws : P.Laws setting) (hwelcomes : P.Welcomes callees) :
    ∀ (entries : List (String × Expr)) (scope : ScopeId),
      (∀ entry ∈ entries, P.Admits (.expr entry.2)) →
      P.Meets P.halts (fun pairs => ∀ pair ∈ pairs, P.Fits pair.2)
        (evaluateEntries setting callees entries scope)
  | [], _, _ => meets_pure (List.forall_mem_nil _)
  | (key, item) :: entries, scope, hadmits => by
    obtain ⟨hfirst, hmore⟩ := List.forall_mem_cons.mp hadmits
    rw [evaluateEntries]
    apply (meets_evaluate hlaws hwelcomes item scope hfirst).bind
    intro value hfits
    apply (meets_evaluateEntries hlaws hwelcomes entries scope hmore).bind
    intro pairs hfitsAll
    exact meets_pure (List.forall_mem_cons.mpr ⟨hfits, hfitsAll⟩)

end

/-! ## Patterns -/

theorem meets_itemAt (id : ArrayId) (index : Nat) :
    P.Meets P.halts P.Fits (Run.itemAt id index) := by
  apply meets_get_bind
  intro state hholds
  exact meets_pure (hholds.getD_items .nil id index)

theorem fits_put
    {made : Bindings Value} {value : Value}
    (hfitsAll : ∀ pair ∈ made, P.Fits pair.2) (hfits : P.Fits value) (name : String) :
    ∀ pair ∈ made.put name value, P.Fits pair.2 := by
  intro pair hmem
  rcases Region.mem_values_put (List.mem_map_of_mem hmem) with hold | hsame
  · obtain ⟨before, hbefore, hsame⟩ := List.mem_map.mp hold
    rw [← hsame]
    exact hfitsAll before hbefore
  · rw [hsame]
    exact hfits

/-- What a pattern binds, if it matches. -/
def MatchFits (P : Policy) (found : Option (Bindings Value)) : Prop :=
  ∀ made, found = some made → ∀ pair ∈ made, P.Fits pair.2

theorem matchFits_none : P.MatchFits none := by
  intro made hsome
  cases hsome

theorem meets_matchItems
    {items : List Expr} {made : Bindings Value}
    (hlaws : P.Laws setting) (hwelcomes : P.Welcomes callees)
    (hadmits : ∀ item ∈ items, P.Admits (.expr item)) (hfits : ∀ pair ∈ made, P.Fits pair.2)
    (scope : ScopeId) (id : ArrayId) (index : Nat) :
    P.Meets P.halts P.MatchFits (matchItems setting callees scope id items index made) := by
  induction items generalizing index made with
  | nil =>
    apply meets_pure
    rintro given ⟨⟩
    exact hfits
  | cons item items ih =>
    obtain ⟨hfirst, hmore⟩ := List.forall_mem_cons.mp hadmits
    by_cases hname : ∃ offset name, item = .ident offset name
    · obtain ⟨offset, name, rfl⟩ := hname
      rw [matchItems]
      apply (meets_itemAt id index).bind
      intro value hfitsValue
      exact ih hmore (fits_put hfits hfitsValue name) (index + 1)
    · have hnotName : ∀ offset name, item ≠ .ident offset name := by
        intro offset name hsame
        exact hname ⟨offset, name, hsame⟩
      rw [Accord.matchItems_cons hnotName]
      apply (meets_itemAt id index).bind
      intro value _
      apply (meets_evaluate hlaws hwelcomes item scope hfirst).bind
      intro expected _
      split
      · exact ih hmore hfits (index + 1)
      · exact meets_pure matchFits_none

theorem meets_arrayOfSize (size : Nat) (subject : Value) :
    P.Meets P.halts (fun _ => True) (Run.arrayOfSize size subject) := by
  unfold Run.arrayOfSize
  split
  · exact meets_get_bind fun _ _ => meets_pure trivial
  · exact meets_pure trivial

theorem matchFits_of_nil
    {found : Option (Bindings Value)} (h : ∀ made, found = some made → made = []) :
    P.MatchFits found := by
  intro made hfound
  rw [h made hfound]
  exact List.forall_mem_nil _

theorem matchFits_matchText (text : String) (subject : Value) :
    P.MatchFits (Run.matchText text subject) := by
  apply matchFits_of_nil
  intro made hfound
  unfold Run.matchText at hfound
  split at hfound
  · split at hfound
    · cases hfound
      rfl
    · cases hfound
  · cases hfound

theorem matchFits_matchValue (subject expected : Value) :
    P.MatchFits (Run.matchValue subject expected) := by
  apply matchFits_of_nil
  intro made hfound
  unfold Run.matchValue at hfound
  split at hfound
  · cases hfound
    rfl
  · cases hfound

theorem meets_matchPattern
    {pattern : Expr}
    (hlaws : P.Laws setting) (hwelcomes : P.Welcomes callees) (hadmits : P.Admits (.expr pattern))
    (subject : Value) (scope : ScopeId) :
    P.Meets P.halts P.MatchFits (matchPattern setting callees pattern subject scope) := by
  unfold matchPattern
  split
  case h_1 offset text => exact meets_pure (matchFits_matchText text subject)
  case h_2 offset items =>
    apply (meets_arrayOfSize items.length subject).bind
    intro found _
    cases found with
    | none => exact meets_pure nofun
    | some id =>
      have hadmitsAll : ∀ item ∈ items, P.Admits (.expr item) := by
        intro item hitem
        exact hadmits.child (List.mem_map_of_mem hitem)
      exact meets_matchItems hlaws hwelcomes hadmitsAll (List.forall_mem_nil _) scope id 0
  case h_3 =>
    apply (meets_evaluate hlaws hwelcomes pattern scope hadmits).bind
    intro expected _
    exact meets_pure (matchFits_matchValue subject expected)

/-! ## Loops -/

theorem flowFits_next : P.FlowFits .next :=
  nofun

/-- A round of a loop leaves the loop or goes on to the next one. -/
theorem meets_round
    {round rest : Run Flow}
    (h : P.Meets P.halts P.FlowFits round) (h' : P.Meets P.halts P.FlowFits rest) :
    P.Meets P.halts P.FlowFits (do
      match ← round with
      | .broke _ => return .next
      | .returned value => return .returned value
      | _ => rest) := by
  apply h.bind
  intro flow hfits
  cases flow with
  | next | continued => exact h'
  | broke => exact meets_pure flowFits_next
  | returned value => exact meets_pure hfits

theorem meets_rounds
    {α : Type} {body : α → Run Flow} {after : Run Flow} {items : List α}
    (hbody : ∀ item ∈ items, P.Meets P.halts P.FlowFits (body item))
    (hafter : P.Meets P.halts P.FlowFits after) :
    P.Meets P.halts P.FlowFits (Run.rounds body after items) := by
  induction items with
  | nil => exact hafter
  | cons item items ih =>
    obtain ⟨hitem, hitems⟩ := List.forall_mem_cons.mp hbody
    rw [Run.rounds]
    exact meets_round hitem (ih hitems)

/-- What a loop can run over: values that the script may make, and numbers up to an end. -/
inductive IterationFits (P : Policy) : Iteration → Prop
  | elements {pairs : List (Value × Value)} :
    (∀ pair ∈ pairs, P.Fits pair.1 ∧ P.Fits pair.2) → IterationFits P (.elements pairs)
  | numbers {range : Range} : range.Reaches → IterationFits P (.numbers range)

namespace IterationFits

variable {iteration : Iteration}

theorem pairs (h : P.IterationFits iteration) (limits : Limits) :
    ∀ pair ∈ iteration.pairs limits, P.Fits pair.1 ∧ P.Fits pair.2 := by
  intro pair hpair
  cases h with
  | elements hpairs => exact hpairs pair hpair
  | numbers =>
    obtain ⟨n, -, rfl⟩ := List.mem_map.mp hpair
    exact ⟨.number n, .number n⟩

theorem after_eq (h : P.IterationFits iteration) (limits : Limits) :
    iteration.after limits = return .next := by
  cases h with
  | elements => rfl
  | numbers hreaches =>
    rw [Iteration.after, Range.after, if_pos (hreaches.endsWithin (limits.distance_le_over _))]

end IterationFits

theorem iterationFits_of_iteration
    {store : Store} {value : Value} {iteration : Iteration}
    (hholds : store.Every P.Fits) (hfits : P.Fits value)
    (h : store.iteration value = .ok iteration) :
    P.IterationFits iteration := by
  cases hfits with
  | array id =>
    cases h
    apply IterationFits.elements
    intro pair hmem
    obtain ⟨⟨item, index⟩, hitem, rfl⟩ := List.mem_map.mp hmem
    exact ⟨hholds.items (List.fst_mem_of_mem_zipIdx hitem), .number _⟩
  | map id =>
    cases h
    apply IterationFits.elements
    intro pair hmem
    obtain ⟨entry, hentry, rfl⟩ := List.mem_map.mp hmem
    exact ⟨hholds.entries hentry, .string _⟩
  | range hreaches =>
    cases h
    exact .numbers hreaches
  | nil | number | string | native | closure => cases h

theorem meets_forEach
    {body : Value → Value → Run Flow} {iteration : Iteration}
    (hfits : P.IterationFits iteration)
    (hbody : ∀ item index, P.Fits item → P.Fits index →
      P.Meets P.halts P.FlowFits (body item index))
    (limits : Limits) :
    P.Meets P.halts P.FlowFits (Run.forEach limits body iteration) := by
  rw [Run.forEach_eq_rounds, hfits.after_eq]
  apply meets_rounds
  · intro pair hpair
    obtain ⟨hitem, hindex⟩ := hfits.pairs limits pair hpair
    exact hbody pair.1 pair.2 hitem hindex
  · exact meets_pure flowFits_next

theorem meets_bindLoop
    {value key : Value}
    (hfits : P.Fits value) (hfitsKey : P.Fits key) (scope : ScopeId) (item : String)
    (index : Option String) :
    P.Meets P.halts (fun _ => True) (Run.bindLoop scope item index value key) := by
  apply (meets_define hfits scope item).bind
  intro _ _
  cases index with
  | some index => exact meets_define hfitsKey scope index
  | none => exact meets_pure trivial

/-! ## Statements -/

mutual

theorem meets_execute (hlaws : P.Laws setting) (hwelcomes : P.Welcomes callees) :
    ∀ (statement : Stmt) (scope : ScopeId), P.Admits (.statement statement) →
      P.Meets P.halts P.FlowFits (execute setting callees statement scope)
  | .expr _ value, scope, hadmits => by
    rw [execute]
    apply (meets_evaluate hlaws hwelcomes value scope (hadmits.child List.mem_cons_self)).bind
    intro _ _
    exact meets_pure flowFits_next
  | .var _ name value, scope, hadmits => by
    rw [execute]
    apply (meets_evaluate hlaws hwelcomes value scope (hadmits.child List.mem_cons_self)).bind
    intro value hfits
    apply (meets_define hfits scope name).bind
    intro _ _
    apply (meets_record (hlaws.blames hadmits.self) 2 (.define name value)).bind
    intro _ _
    exact meets_pure flowFits_next
  | .block block, scope, hadmits => meets_executeBlock hlaws hwelcomes block scope hadmits
  | .forever _ body, scope, hadmits => by
    rw [execute]
    apply (meets_newScope scope).bind
    intro inner _
    rw [Run.forever_eq_rounds]
    apply meets_rounds
    · intro _ _
      exact meets_executeBlock hlaws hwelcomes body inner (hadmits.child List.mem_cons_self)
    · exact meets_throw (hlaws.exhausted hadmits.self)
  | .forEach _ item index iterable body, scope, hadmits => by
    have hadmitsIterable := hadmits.child List.mem_cons_self
    have hadmitsBody := hadmits.child (List.mem_cons_of_mem _ List.mem_cons_self)
    rw [execute]
    apply (meets_evaluate hlaws hwelcomes iterable scope hadmitsIterable).bind
    intro value hfits
    apply meets_get_bind
    intro state hholds
    have hiterates : P.Meets P.halts P.IterationFits
        (Run.liftAt iterable.offset (state.store.iteration value)) :=
      meets_liftAt (hlaws.blames hadmitsIterable.self)
        (fun _ => iterationFits_of_iteration hholds hfits) fun _ => Store.ordinary_of_iteration
    apply hiterates.bind
    intro iteration hfitsAll
    apply (meets_newScope scope).bind
    intro inner _
    apply meets_forEach hfitsAll
    intro value key hfits hfitsKey
    apply (meets_bindLoop hfits hfitsKey inner item index).bind
    intro _ _
    exact meets_executeBlock hlaws hwelcomes body inner hadmitsBody
  | .conditional inner, scope, hadmits =>
    meets_executeConditional hlaws hwelcomes inner scope hadmits
  | .select offset subject arms, scope, hadmits => by
    rw [execute]
    apply (meets_evaluate hlaws hwelcomes subject scope (hadmits.child List.mem_cons_self)).bind
    intro subject hfits
    apply meets_executeArms hlaws hwelcomes arms subject scope
    intro arm harm
    constructor
    · apply hadmits.child
      exact List.mem_cons_of_mem _ (List.mem_flatMap.mpr ⟨arm, harm, List.mem_cons_self⟩)
    · exact hadmits.child (mem_children_of_arm harm offset _)
  | .returns _ none, _, _ => by
    apply meets_pure
    rintro value ⟨⟩
    exact .nil
  | .returns _ (some value), scope, hadmits => by
    rw [execute]
    apply (meets_evaluate hlaws hwelcomes value scope (hadmits.child List.mem_cons_self)).bind
    intro value hfits
    apply meets_pure
    rintro given ⟨⟩
    exact hfits
  | .breaks _, _, _ => meets_pure nofun
  | .continues _, _, _ => meets_pure nofun

theorem meets_executeAll (hlaws : P.Laws setting) (hwelcomes : P.Welcomes callees) :
    ∀ (statements : List Stmt) (scope : ScopeId),
      (∀ statement ∈ statements, P.Admits (.statement statement)) →
      P.Meets P.halts P.FlowFits (executeAll setting callees statements scope)
  | [], _, _ => meets_pure flowFits_next
  | first :: more, scope, hadmits => by
    obtain ⟨hadmitsFirst, hadmitsMore⟩ := List.forall_mem_cons.mp hadmits
    rw [executeAll]
    apply (meets_execute hlaws hwelcomes first scope hadmitsFirst).bind
    intro flow hfits
    cases flow with
    | next => exact meets_executeAll hlaws hwelcomes more scope hadmitsMore
    | returned | broke | continued => exact meets_pure hfits

theorem meets_executeBody (hlaws : P.Laws setting) (hwelcomes : P.Welcomes callees) :
    ∀ (block : Block) (scope : ScopeId), P.Admits (.statement (.block block)) →
      P.Meets P.halts P.FlowFits (executeBody setting callees block scope)
  | ⟨_, statements⟩, scope, hadmits => by
    apply meets_executeAll hlaws hwelcomes statements scope
    intro statement hstatement
    exact hadmits.child (List.mem_map_of_mem hstatement)

theorem meets_executeBlock (hlaws : P.Laws setting) (hwelcomes : P.Welcomes callees) :
    ∀ (block : Block) (scope : ScopeId), P.Admits (.statement (.block block)) →
      P.Meets P.halts P.FlowFits (executeBlock setting callees block scope)
  | ⟨_, statements⟩, scope, hadmits => by
    rw [executeBlock]
    apply (meets_newScope scope).bind
    intro inner _
    apply meets_executeAll hlaws hwelcomes statements inner
    intro statement hstatement
    exact hadmits.child (List.mem_map_of_mem hstatement)

theorem meets_executeConditional (hlaws : P.Laws setting) (hwelcomes : P.Welcomes callees) :
    ∀ (inner : Conditional) (scope : ScopeId), P.Admits (.statement (.conditional inner)) →
      P.Meets P.halts P.FlowFits (executeConditional setting callees inner scope)
  | ⟨offset, condition, thenBlock, otherwise⟩, scope, hadmits => by
    rw [executeConditional]
    apply (meets_evaluate hlaws hwelcomes condition scope (hadmits.child List.mem_cons_self)).bind
    intro value _
    apply (meets_record (hlaws.blames hadmits.self) 3 (.condition value)).bind
    intro _ _
    split
    · apply meets_executeBlock hlaws hwelcomes thenBlock scope
      exact hadmits.child (List.mem_cons_of_mem _ List.mem_cons_self)
    · apply meets_executeAlternative hlaws hwelcomes otherwise scope
      intro child hchild
      exact hadmits.child (List.mem_cons_of_mem _ (List.mem_cons_of_mem _ hchild))

theorem meets_executeAlternative (hlaws : P.Laws setting) (hwelcomes : P.Welcomes callees) :
    ∀ (otherwise : Alternative) (scope : ScopeId),
      (∀ child ∈ otherwise.children, P.Admits child) →
      P.Meets P.halts P.FlowFits (executeAlternative setting callees otherwise scope)
  | .nothing, _, _ => meets_pure flowFits_next
  | .block block, scope, hadmits =>
    meets_executeBlock hlaws hwelcomes block scope (hadmits _ List.mem_cons_self)
  | .conditional inner, scope, hadmits =>
    meets_executeConditional hlaws hwelcomes inner scope (hadmits _ List.mem_cons_self)

theorem meets_executeArms (hlaws : P.Laws setting) (hwelcomes : P.Welcomes callees) :
    ∀ (arms : List Arm) (subject : Value) (scope : ScopeId),
      (∀ arm ∈ arms, P.Admits (.expr arm.pattern) ∧ P.Admits (.statement (.block arm.body))) →
      P.Meets P.halts P.FlowFits (executeArms setting callees arms subject scope)
  | [], _, _, _ => meets_pure flowFits_next
  | ⟨pattern, body⟩ :: arms, subject, scope, hadmits => by
    obtain ⟨⟨hadmitsPattern, hadmitsBody⟩, hadmitsMore⟩ := List.forall_mem_cons.mp hadmits
    rw [executeArms]
    apply (meets_matchPattern hlaws hwelcomes hadmitsPattern subject scope).bind
    intro found hfits
    cases found with
    | none => exact meets_executeArms hlaws hwelcomes arms subject scope hadmitsMore
    | some bindings =>
      apply (meets_record (hlaws.blames hadmitsPattern.self) 3
        (.select subject pattern.offset)).bind
      intro _ _
      apply (meets_newScope scope).bind
      intro inner _
      apply (meets_defineAll (hfits bindings rfl) inner).bind
      intro _ _
      exact meets_executeBody hlaws hwelcomes body inner hadmitsBody

end

end Policy

end PuzzleLang
