import PuzzleLang.Proofs.Run.Rounds
import PuzzleLang.Proofs.Tree.Node
import PuzzleLang.Session

/-!
# Where jumps come from

A statement that ends by a jump has that jump inside it, with no loop and no function around it
there.  This holds whatever is called on the way: a call gives a value or halts, so that a jump in
the body of a function never gets to a loop of its caller.  A loop itself never ends by a jump.
-/

namespace PuzzleLang

/-- The jump by which a statement has ended. -/
def Flow.jump? : Flow → Option Stmt
  | .broke offset => some (.breaks offset)
  | .continued offset => some (.continues offset)
  | .next | .returned _ => none

/-- A statement that ends in this way by a jump can be the node or stand inside it. -/
def Flow.ComesFrom (flow : Flow) (node : Node) : Prop :=
  ∀ jump, flow.jump? = some jump → node.Exposes (.statement jump)

theorem Flow.comesFrom_of_none {flow : Flow} (hnone : flow.jump? = none) (node : Node) :
    flow.ComesFrom node := by
  intro jump hjump
  rw [hnone] at hjump
  cases hjump

theorem Flow.ComesFrom.of_child
    {flow : Flow} {child : Node} {outer : Stmt}
    (h : flow.ComesFrom child) (hnoLoop : outer.isLoop = false) (hchild : child ∈ outer.children) :
    flow.ComesFrom (.statement outer) := by
  intro jump hjump
  have hexposes : child.Exposes (.statement jump) := h jump hjump
  exact hexposes.of_child hnoLoop hchild

/-! ## The results of a run -/

namespace Run

variable {α β : Type}

/-- A run that gives a value gives one of these. -/
def GivesOnly (results : α → Prop) (run : Run α) : Prop :=
  ∀ state value state', run state = .ok value state' → results value

theorem givesOnly_pure {results : α → Prop} {value : α} (h : results value) :
    GivesOnly results (pure value) := by
  intro state given state' hran
  cases hran
  exact h

theorem givesOnly_throw (results : α → Prop) (halt : Halt) : GivesOnly results (throw halt) := by
  intro state given state' hran
  cases hran

theorem GivesOnly.bind
    {results : α → Prop} {results' : β → Prop} {run : Run α} {next : α → Run β}
    (h : GivesOnly results run) (h' : ∀ value, results value → GivesOnly results' (next value)) :
    GivesOnly results' (run >>= next) := by
  intro state given state' hran
  change EStateM.bind run next state = .ok given state' at hran
  unfold EStateM.bind at hran
  cases hfirst : run state with
  | error halt middle =>
    rw [hfirst] at hran
    cases hran
  | ok value middle =>
    rw [hfirst] at hran
    exact h' value (h state value middle hfirst) middle given state' hran

theorem givesOnly_bind
    {results : β → Prop} {run : Run α} {next : α → Run β}
    (h : ∀ value, GivesOnly results (next value)) :
    GivesOnly results (run >>= next) := by
  have hanything : GivesOnly (fun _ => True) run := fun _ _ _ _ => trivial
  exact hanything.bind fun value _ => h value

/-! ## Loops -/

theorem jump?_rounds
    {after : Run Flow} {α : Type}
    (body : α → Run Flow) (hafter : GivesOnly (fun flow => flow.jump? = none) after)
    (items : List α) :
    GivesOnly (fun flow => flow.jump? = none) (rounds body after items) := by
  induction items with
  | nil => exact hafter
  | cons item items ih =>
    rw [rounds]
    apply givesOnly_bind
    intro flow
    cases flow with
    | next | continued => exact ih
    | broke | returned => exact givesOnly_pure rfl

theorem jump?_forever (body : Run Flow) (limit : Nat) :
    GivesOnly (fun flow => flow.jump? = none) (forever body limit) := by
  rw [forever_eq_rounds]
  exact jump?_rounds _ (givesOnly_throw _ _) _

theorem jump?_forEach (limits : Limits) (body : Value → Value → Run Flow) (iteration : Iteration) :
    GivesOnly (fun flow => flow.jump? = none) (forEach limits body iteration) := by
  rw [forEach_eq_rounds]
  obtain hafter | hafter := iteration.after_eq_or limits
  · exact jump?_rounds _ (hafter ▸ givesOnly_pure rfl) _
  · exact jump?_rounds _ (hafter ▸ givesOnly_throw _ _) _

end Run

/-! ## Statements -/

section

open Run

variable (setting : Setting) (callees : Callees)

theorem comesFrom_of_loop
    {run : Run Flow} (h : GivesOnly (fun flow => flow.jump? = none) run) (node : Node) :
    GivesOnly (·.ComesFrom node) run := by
  intro state flow state' hran
  exact Flow.comesFrom_of_none (h state flow state' hran) node

theorem mem_children_of_arm
    {arms : List Arm} {arm : Arm} (harm : arm ∈ arms) (offset : Nat) (subject : Expr) :
    Node.statement (.block arm.body) ∈ (Stmt.select offset subject arms).children := by
  refine List.mem_cons_of_mem _ (List.mem_flatMap.mpr ⟨arm, harm, ?_⟩)
  exact List.mem_cons_of_mem _ (List.mem_singleton_self _)

mutual

theorem comesFrom_execute :
    ∀ (statement : Stmt) (scope : ScopeId),
      GivesOnly (·.ComesFrom (.statement statement)) (execute setting callees statement scope)
  | .expr _ _, _ => givesOnly_bind fun _ => givesOnly_pure (Flow.comesFrom_of_none rfl _)
  | .var _ _ _, _ => by
    rw [execute]
    refine givesOnly_bind fun _ => givesOnly_bind fun _ => givesOnly_bind fun _ => ?_
    exact givesOnly_pure (Flow.comesFrom_of_none rfl _)
  | .block block, scope => comesFrom_executeBlock block scope
  | .forever _ _, _ => by
    rw [execute]
    exact givesOnly_bind fun _ => comesFrom_of_loop (jump?_forever _ _) _
  | .forEach _ _ _ _ _, _ => by
    rw [execute]
    refine givesOnly_bind fun _ => givesOnly_bind fun _ => givesOnly_bind fun _ => ?_
    exact givesOnly_bind fun _ => comesFrom_of_loop (jump?_forEach _ _ _) _
  | .conditional inner, scope => comesFrom_executeConditional inner scope
  | .select offset subject arms, scope => by
    rw [execute]
    refine givesOnly_bind fun value => ?_
    intro state flow state' hran jump hjump
    obtain ⟨arm, harm, hexposes⟩ :=
      comesFrom_executeArms arms value scope state flow state' hran jump hjump
    exact hexposes.of_child rfl (mem_children_of_arm harm offset subject)
  | .returns _ none, _ => givesOnly_pure (Flow.comesFrom_of_none rfl _)
  | .returns _ (some _), _ => by
    rw [execute]
    exact givesOnly_bind fun _ => givesOnly_pure (Flow.comesFrom_of_none rfl _)
  | .breaks offset, _ => by
    refine givesOnly_pure ?_
    rintro jump ⟨⟩
    exact Node.Exposes.refl _
  | .continues offset, _ => by
    refine givesOnly_pure ?_
    rintro jump ⟨⟩
    exact Node.Exposes.refl _

theorem comesFrom_executeAll :
    ∀ (statements : List Stmt) (scope : ScopeId),
      GivesOnly (fun flow => ∀ jump, flow.jump? = some jump →
          ∃ statement ∈ statements, (Node.statement statement).Exposes (.statement jump))
        (executeAll setting callees statements scope)
  | [], _ => by
    refine givesOnly_pure ?_
    rintro jump ⟨⟩
  | first :: more, scope => by
    rw [executeAll]
    refine (comesFrom_execute first scope).bind fun flow hcomes => ?_
    have hofFirst : GivesOnly (fun flow => ∀ jump, flow.jump? = some jump →
        ∃ statement ∈ first :: more, (Node.statement statement).Exposes (.statement jump))
        (pure flow) :=
      givesOnly_pure fun jump hjump => ⟨first, List.mem_cons_self, hcomes jump hjump⟩
    cases flow with
    | returned | broke | continued => exact hofFirst
    | next =>
      intro state flow state' hran jump hjump
      obtain ⟨statement, hstatement, hexposes⟩ :=
        comesFrom_executeAll more scope state flow state' hran jump hjump
      exact ⟨statement, List.mem_cons_of_mem first hstatement, hexposes⟩

theorem comesFrom_executeBody :
    ∀ (block : Block) (scope : ScopeId),
      GivesOnly (·.ComesFrom (.statement (.block block))) (executeBody setting callees block scope)
  | ⟨offset, statements⟩, scope => by
    intro state flow state' hran jump hjump
    obtain ⟨statement, hstatement, hexposes⟩ :=
      comesFrom_executeAll statements scope state flow state' hran jump hjump
    exact hexposes.of_child rfl (List.mem_map_of_mem hstatement)

theorem comesFrom_executeBlock :
    ∀ (block : Block) (scope : ScopeId),
      GivesOnly (·.ComesFrom (.statement (.block block))) (executeBlock setting callees block scope)
  | ⟨offset, statements⟩, scope => by
    rw [executeBlock]
    refine givesOnly_bind fun inner => ?_
    intro state flow state' hran jump hjump
    obtain ⟨statement, hstatement, hexposes⟩ :=
      comesFrom_executeAll statements inner state flow state' hran jump hjump
    exact hexposes.of_child rfl (List.mem_map_of_mem hstatement)

theorem comesFrom_executeConditional :
    ∀ (inner : Conditional) (scope : ScopeId),
      GivesOnly (·.ComesFrom (.statement (.conditional inner)))
        (executeConditional setting callees inner scope)
  | ⟨offset, condition, thenBlock, otherwise⟩, scope => by
    rw [executeConditional]
    refine givesOnly_bind fun value => givesOnly_bind fun _ => ?_
    split
    · intro state flow state' hran
      have hcomes := comesFrom_executeBlock thenBlock scope state flow state' hran
      exact hcomes.of_child rfl (List.mem_cons_of_mem _ List.mem_cons_self)
    · intro state flow state' hran jump hjump
      obtain ⟨child, hchild, hexposes⟩ :=
        comesFrom_executeAlternative otherwise scope state flow state' hran jump hjump
      exact hexposes.of_child rfl (List.mem_cons_of_mem _ (List.mem_cons_of_mem _ hchild))

theorem comesFrom_executeAlternative :
    ∀ (otherwise : Alternative) (scope : ScopeId),
      GivesOnly (fun flow => ∀ jump, flow.jump? = some jump →
          ∃ child ∈ otherwise.children, child.Exposes (.statement jump))
        (executeAlternative setting callees otherwise scope)
  | .nothing, _ => by
    refine givesOnly_pure ?_
    rintro jump ⟨⟩
  | .block block, scope => by
    intro state flow state' hran jump hjump
    have hexposes := comesFrom_executeBlock block scope state flow state' hran jump hjump
    exact ⟨_, List.mem_singleton_self _, hexposes⟩
  | .conditional inner, scope => by
    intro state flow state' hran jump hjump
    have hexposes := comesFrom_executeConditional inner scope state flow state' hran jump hjump
    exact ⟨_, List.mem_singleton_self _, hexposes⟩

theorem comesFrom_executeArms :
    ∀ (arms : List Arm) (subject : Value) (scope : ScopeId),
      GivesOnly (fun flow => ∀ jump, flow.jump? = some jump →
          ∃ arm ∈ arms, (Node.statement (.block arm.body)).Exposes (.statement jump))
        (executeArms setting callees arms subject scope)
  | [], _, _ => by
    refine givesOnly_pure ?_
    rintro jump ⟨⟩
  | ⟨pattern, body⟩ :: arms, subject, scope => by
    rw [executeArms]
    refine givesOnly_bind fun found => ?_
    cases found with
    | none =>
      intro state flow state' hran jump hjump
      obtain ⟨arm, harm, hexposes⟩ :=
        comesFrom_executeArms arms subject scope state flow state' hran jump hjump
      exact ⟨arm, List.mem_cons_of_mem _ harm, hexposes⟩
    | some bindings =>
      refine givesOnly_bind fun _ => givesOnly_bind fun inner => givesOnly_bind fun _ => ?_
      intro state flow state' hran jump hjump
      have hexposes := comesFrom_executeBody body inner state flow state' hran jump hjump
      exact ⟨_, List.mem_cons_self, hexposes⟩

end

end

/-! ## Bodies of functions -/

/-- A body that ends by a jump has no value: the jump is at fault. -/
theorem Run.resultOf_jump
    {flow : Flow} {jump : Stmt} (hjump : flow.jump? = some jump) (state : State) :
    ∃ fault, jump.strayFault? = some fault ∧
      Run.resultOf flow state = .error (.fault fault) state := by
  cases flow with
  | next | returned => cases hjump
  | broke offset =>
    cases hjump
    exact ⟨_, rfl, rfl⟩
  | continued offset =>
    cases hjump
    exact ⟨_, rfl, rfl⟩

/-- Runs the body of a function, up to how it ends. -/
def Run.bodyFlow (setting : Setting) (callees : Callees) (closure : Closure) (args : List Value) :
    Run Flow := do
  let scope ← newScope closure.scope
  defineAll scope (closure.function.params.zip args)
  executeBody setting callees closure.function.body scope

theorem comesFrom_bodyFlow
    (setting : Setting) (callees : Callees) (closure : Closure) (args : List Value) :
    Run.GivesOnly (·.ComesFrom (.statement (.block closure.function.body)))
      (Run.bodyFlow setting callees closure args) := by
  refine Run.givesOnly_bind fun inner => Run.givesOnly_bind fun _ => ?_
  exact comesFrom_executeBody setting callees closure.function.body inner

theorem Run.callBody_eq
    {closure : Closure} {args : List Value}
    (hfits : args.length = closure.function.params.length) (setting : Setting) (callees : Callees)
    (offset : Nat) :
    callBody setting callees offset closure args =
      bodyFlow setting callees closure args >>= resultOf := by
  unfold callBody bodyFlow
  simp only [hfits, if_true, bind_assoc]

theorem Run.callBody_of_misfit
    {closure : Closure} {args : List Value}
    (hmisfit : args.length ≠ closure.function.params.length) (setting : Setting) (callees : Callees)
    (offset : Nat) :
    callBody setting callees offset closure args =
      failAt offset (.functionArity closure.function.displayName closure.function.params.length
        args.length) :=
  if_neg hmisfit

end PuzzleLang
