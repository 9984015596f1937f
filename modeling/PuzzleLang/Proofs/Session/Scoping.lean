import PuzzleLang.Proofs.Bindings
import PuzzleLang.Proofs.Session.WellFormed
import PuzzleLang.Proofs.Store.Holds

/-!
# Scoping

No binding leaks out of its block.  A run in a scope keeps the parents of all scopes, takes no name
away, and adds names to that scope only, and to new ones; a block adds none even there.  The one way
into another scope is a section that a function of the host evaluates in the root scope.  This way
is barred while a section is being evaluated, and in a session without such functions.
-/

namespace PuzzleLang

/-! ## Names -/

/-- A scope has kept its parent and its names, and has gained names only if it may. -/
structure Scope.Keeps (mayGain : Prop) (scope scope' : Scope) : Prop where
  parent : scope'.parent = scope.parent
  names : scope.bindings.names <+: scope'.bindings.names
  same : ¬ mayGain → scope'.bindings.names = scope.bindings.names

/-- All scopes of a store are kept in another one, where some may have gained names. -/
def Store.KeepsScopes (store store' : Store) (mayGain : ScopeId → Prop) : Prop :=
  ∀ id scope, store.scope? id = some scope →
    ∃ scope', store'.scope? id = some scope' ∧ scope.Keeps (mayGain id) scope'

theorem Scope.Keeps.refl (mayGain : Prop) (scope : Scope) : scope.Keeps mayGain scope :=
  ⟨rfl, List.prefix_rfl, fun _ => rfl⟩

theorem Scope.Keeps.put
    {mayGain : Prop} {scope scope' : Scope} {name : String}
    (h : scope.Keeps mayGain scope') (hmay : mayGain ∨ scope'.bindings.binds name = true)
    (value : Value) :
    scope.Keeps mayGain { scope' with bindings := scope'.bindings.put name value } := by
  refine ⟨h.parent, h.names.trans (Bindings.names_prefix_put _ _ _), fun hmayNot => ?_⟩
  have hbound := hmay.resolve_left hmayNot
  exact (Bindings.names_put_of_binds hbound).trans (h.same hmayNot)

namespace Store

variable {before store store' : Store} {mayGain : ScopeId → Prop}

theorem KeepsScopes.refl (store : Store) (mayGain : ScopeId → Prop) :
    store.KeepsScopes store mayGain :=
  fun _ scope hfound => ⟨scope, hfound, .refl _ scope⟩

theorem KeepsScopes.define
    {id : ScopeId} {name : String}
    (h : before.KeepsScopes store mayGain)
    (hmay : before.Has (.scope id) → mayGain id ∨ (store.own id).binds name = true)
    (value : Value) :
    before.KeepsScopes (store.define id name value) mayGain := by
  intro id' scope hfound
  obtain ⟨scope', hfound', hkeeps⟩ := h id' scope hfound
  rw [scope?_define]
  by_cases hsame : id' = id
  · subst hsame
    have hown : store.own id' = scope'.bindings := by rw [Store.own, hfound']
    have hmay := hmay (has_of_at? (at?_scope hfound))
    rw [hown] at hmay
    rw [if_pos rfl, hfound']
    exact ⟨_, rfl, hkeeps.put hmay value⟩
  · rw [if_neg hsame]
    exact ⟨scope', hfound', hkeeps⟩

theorem KeepsScopes.newScope (h : before.KeepsScopes store mayGain) (parent : Option ScopeId) :
    before.KeepsScopes (store.newScope parent).2 mayGain := by
  intro id scope hfound
  obtain ⟨scope', hfound', hkeeps⟩ := h id scope hfound
  exact ⟨scope', getElem?_push_of_some hfound', hkeeps⟩

end Store

/-! ## Functions of the host -/

/-- A function of the host that evaluates a section. -/
def Value.IsHost (value : Value) : Prop :=
  ∃ name target, value = .native (.evaluate name target)

/-- No function of the host is held anywhere. -/
def Store.HostFree (store : Store) : Prop :=
  ∀ place cell value, store.at? place = some cell → value ∈ cell.values → ¬ value.IsHost

/-- No section can be entered: one is being evaluated, or no function of the host is held. -/
def State.Guarded (state : State) : Prop :=
  state.active.isSome ∨ state.store.HostFree

namespace Region

/-- The region of all places, without functions of the host. -/
def hostFree : Region where
  inside _ _ := True
  fits value := ¬ value.IsHost
  binds _ := True
  intact _ _ := True

theorem hostFree_laws : hostFree.Laws where
  inside_mono _ _ := trivial
  inside_old _ _ _ := trivial
  fits hnotHost := by
    rintro ⟨name, target, rfl⟩
    exact hnotHost name target rfl
  newScope _ _ := ⟨trivial, trivial, trivial⟩
  newArray _ := ⟨trivial, trivial⟩
  newMap _ := ⟨trivial, trivial⟩
  define _ _ _ := trivial
  setItem _ _ := trivial
  setEntry _ _ := trivial

theorem kept_hostFree {state : State} : hostFree.Kept state ↔ state.store.HostFree := by
  constructor
  · rintro ⟨hclosed, -⟩ place cell value hfound hheld
    exact (hclosed.value trivial hfound hheld).1
  · intro hfree
    exact ⟨⟨fun _ _ _ => trivial, fun {place cell value} _ hfound hheld =>
      ⟨hfree place cell value hfound hheld, fun _ _ => trivial⟩⟩, trivial⟩

end Region

theorem Store.hostFree_initial : Store.initial.HostFree := by
  rintro place cell value hfound hheld ⟨name, target, hhost⟩
  obtain ⟨native, hstandard, rfl⟩ := (Store.at?_initial hfound).2.2 value hheld
  cases hhost
  simp [Native.standard] at hstandard

theorem Session.Reachable.hostFree
    {session : Session} (h : Session.Reachable (fun value => ¬ value.IsHost) session) :
    session.state.store.HostFree :=
  Region.kept_hostFree.mp (h.kept Region.hostFree_laws
    (fun _ => Region.opens (fun _ => trivial) fun _ => ⟨trivial, trivial⟩)
    (Region.kept_hostFree.mpr Store.hostFree_initial)
    fun _ hnotHost _ => ⟨hnotHost, fun _ _ => trivial⟩)

/-! ## The region of a run that keeps to its scope -/

namespace Region

variable {before : State} {mayGain : ScopeId → Prop}

/-- The region of a run from a state that adds names to some scopes only.  A function of the host is
held only if a section is being evaluated, or if the root scope is one of them. -/
def lexical (before : State) (mayGain : ScopeId → Prop) : Region where
  inside _ _ := True
  fits value := value.IsHost → before.active.isSome ∨ mayGain rootScope
  binds id := before.store.Has (.scope id) → mayGain id
  intact store active := before.store.Grows store ∧ (before.active.isSome → active.isSome) ∧
    before.store.KeepsScopes store mayGain

theorem lexical_laws : (lexical before mayGain).Laws where
  inside_mono _ _ := trivial
  inside_old _ _ _ := trivial
  fits hnotHost := by
    rintro ⟨name, target, rfl⟩
    exact absurd rfl (hnotHost name target)
  newScope {store active parent} hintact _ := by
    obtain ⟨hgrows, hrunning, hkeeps⟩ := hintact
    refine ⟨⟨hgrows.trans (store.grows_newScope _), hrunning, hkeeps.newScope _⟩, trivial,
      fun hhas => ?_⟩
    exact absurd (Nat.lt_of_lt_of_le (Store.has_scope.mp hhas) hgrows.scopes) (Nat.lt_irrefl _)
  newArray {store _ _} hintact :=
    ⟨⟨hintact.1.trans (store.grows_newArray _), hintact.2⟩, trivial⟩
  newMap {store _ _} hintact := ⟨⟨hintact.1.trans (store.grows_newMap _), hintact.2⟩, trivial⟩
  define {store _ id name value} hintact _ hmay := by
    obtain ⟨hgrows, hrunning, hkeeps⟩ := hintact
    refine ⟨hgrows.trans (store.grows_define _ _ _), hrunning, hkeeps.define (fun hhas => ?_) value⟩
    exact hmay.imp_left fun hbinds => hbinds hhas
  setItem {store _ id index value} hintact _ :=
    ⟨hintact.1.trans (store.grows_write (.item id index) value), hintact.2⟩
  setEntry {store _ id key value} hintact _ :=
    ⟨hintact.1.trans (store.grows_write (.entry id key) value), hintact.2⟩

theorem kept_lexical (hmay : before.Guarded ∨ mayGain rootScope) :
    (lexical before mayGain).Kept before := by
  refine ⟨⟨fun _ _ _ => trivial, fun {place cell value} _ hfound hheld => ?_⟩, .refl _, id,
    .refl _ _⟩
  refine ⟨fun hhost => ?_, fun _ _ => trivial⟩
  refine hmay.imp_left fun hguarded => ?_
  exact hguarded.resolve_right fun hfree => hfree place cell value hfound hheld hhost

/-- A function of the host finds a section that is being evaluated and fails, or evaluates one in a
root scope that may gain names. -/
theorem lexical_enters (setting : Setting) :
    (lexical before mayGain).accord.Enters setting setting := by
  intro store name target body body' hbodies hallowed
  by_cases hrunning' : before.active.isSome
  · have hbusy {store : Store} {active : Option String}
        (hintact : (lexical before mayGain).intact store active) : active.isSome :=
      hintact.2.1 hrunning'
    exact enters_of_busy hbusy setting hbodies hallowed
  · have hmayRoot := (hallowed.1 ⟨name, target, rfl⟩).resolve_left hrunning'
    have hrootOpens : (lexical before mayGain).accord.Opens setting setting :=
      opens (fun hintact => ⟨hintact.1, fun hrunning => absurd hrunning hrunning', hintact.2.2⟩)
        fun _ => ⟨trivial, fun _ => hmayRoot⟩
    exact (lexical_laws.accord setting).enters_of_opens hrootOpens hbodies hallowed

end Region

/-! ## The evaluation of a section -/

namespace Run

variable {α β : Type}

theorem final_get_bind (next : State → Run α) (state : State) :
    (get >>= next).final state = (next state).final state :=
  rfl

theorem final_modify_bind (change : State → State) (next : Unit → Run α) (state : State) :
    (modify change >>= next).final state = (next ()).final (change state) :=
  rfl

theorem store_final_bind_of_quiet
    {results : β → Prop} {next : α → Run β}
    (run : Run α) (hquiet : ∀ value, Quiet results (next value)) (state : State) :
    ((run >>= next).final state).store = (run.final state).store := by
  change (final (EStateM.bind run next) state).store = _
  unfold final EStateM.bind
  cases run state with
  | error halt state' => rfl
  | ok value state' =>
    have hafter := hquiet value state'
    dsimp only
    generalize next value state' = result at hafter ⊢
    cases hafter with
    | ok hsameStore _ _ => exact hsameStore
    | error hsameStore _ => exact hsameStore

theorem Quiet.store_final_bind
    {results : α → Prop} {run : Run α}
    (hquiet : Quiet results run) (next : α → Run β) (state : State) :
    ((run >>= next).final state).store = state.store ∨
      ∃ value state', state'.store = state.store ∧ state'.active = state.active ∧
        (run >>= next).final state = (next value).final state' := by
  have hfirst := hquiet state
  change (final (EStateM.bind run next) state).store = _ ∨
    ∃ value state', _ ∧ _ ∧ final (EStateM.bind run next) state = _
  unfold final EStateM.bind
  generalize run state = result at hfirst ⊢
  cases hfirst with
  | error hsameStore _ => exact .inl hsameStore
  | @ok value state' hsameStore hsameActive _ =>
    exact .inr ⟨value, state', hsameStore, hsameActive, rfl⟩

theorem store_final_thenIdle (run : Run α) (state : State) :
    ((thenIdle run).final state).store = (run.final state).store := by
  unfold final thenIdle
  cases run state <;> rfl

theorem store_final_guardSection
    {setting : Setting} {name : String} {part : Section}
    (hfound : setting.sections.find? (·.name == name) = some part) (body : Section → Run Value)
    (state : State) :
    ((guardSection setting body name).final state).store = state.store ∨
      ∃ inner : State, inner.store = state.store ∧ inner.active.isSome ∧
        ((guardSection setting body name).final state).store =
          ((body part).final inner).store := by
  unfold guardSection
  simp only [hfound, final_get_bind]
  cases hactive : state.active with
  | some running => exact .inl rfl
  | none =>
    simp only [final_modify_bind]
    have henter : Quiet (fun _ => True) (record setting 1 part.offset (return .enter name)) :=
      quiet_record setting 1 part.offset (.enter name)
    have hleave (value : Value) : Quiet (fun _ => True) (do
        record setting 1 part.offset (return .leave name (← render value))
        return value) :=
      (quiet_record setting 1 part.offset (.leave name value)).bind fun _ _ => quiet_pure trivial
    rcases henter.store_final_bind _ { state with active := some name } with
      hunchanged | ⟨_, inner, hsameStore, hsameActive, hsame⟩
    · exact .inl hunchanged
    · refine .inr ⟨inner, hsameStore, ?_, ?_⟩
      · rw [hsameActive]
        rfl
      · rw [hsame, store_final_bind_of_quiet _ hleave, store_final_thenIdle]

end Run

/-! ## Names stay in their scopes -/

section

variable {state : State} {mayGain : ScopeId → Prop}

theorem keepsScopes_of_alike
    {α : Type} {results : Store → α → α → Prop} {run : Run α}
    (hmay : state.Guarded ∨ mayGain rootScope)
    (halike : (Region.lexical state mayGain).accord.Alike results state.store run run) :
    state.store.KeepsScopes (run.final state).store mayGain :=
  (Region.kept_of_ends halike (Region.kept_lexical hmay)).2.intact.2.2

theorem lexical_callees (setting : Setting) (depth : Nat) :
    Callees.Alike (Region.lexical state mayGain).accord (.within setting depth)
      (.within setting depth) :=
  (Region.lexical_laws.accord setting).alike_callees (Region.lexical_enters setting) depth

theorem keepsScopes_evaluate
    {scope : ScopeId}
    (hmay : state.Guarded ∨ mayGain rootScope) (hmayScope : mayGain scope) (setting : Setting)
    (depth : Nat) (e : Expr) :
    state.store.KeepsScopes ((evaluate setting (.within setting depth) e scope).final state).store
      mayGain :=
  keepsScopes_of_alike hmay (Accord.alike_evaluate (Region.lexical_laws.accord setting)
    (lexical_callees setting depth) (Expr.like_self (fun _ => rfl) e)
    ⟨trivial, trivial, fun _ => hmayScope⟩)

theorem keepsScopes_execute
    {scope : ScopeId}
    (hmay : state.Guarded ∨ mayGain rootScope) (hmayScope : mayGain scope) (setting : Setting)
    (depth : Nat) (statement : Stmt) :
    state.store.KeepsScopes
      ((execute setting (.within setting depth) statement scope).final state).store mayGain :=
  keepsScopes_of_alike hmay (Accord.alike_execute (Region.lexical_laws.accord setting)
    (lexical_callees setting depth) (Stmt.like_self (fun _ => rfl) statement)
    ⟨trivial, trivial, fun _ => hmayScope⟩)

theorem lexical_executeBlock (setting : Setting) (depth : Nat) (block : Block) (scope : ScopeId) :
    (Region.lexical state mayGain).accord.Alike (Region.lexical state mayGain).accord.flows
      state.store (executeBlock setting (.within setting depth) block scope)
      (executeBlock setting (.within setting depth) block scope) :=
  Accord.alike_executeBlock (Region.lexical_laws.accord setting) (lexical_callees setting depth)
    (Block.like_self (fun _ => rfl) block) trivial

theorem keepsScopes_evaluateBody
    {part : Section} {block : Block}
    (hguarded : state.Guarded) (hblock : part.body = .block block) (setting : Setting)
    (depth : Nat) :
    state.store.KeepsScopes
      ((Run.evaluateBody setting (.within setting depth) part).final state).store
      (fun _ => False) := by
  unfold Run.evaluateBody
  rw [hblock]
  have hlaws := (Region.lexical_laws : (Region.lexical state fun _ => False).Laws).accord setting
  exact keepsScopes_of_alike (.inl hguarded)
    ((lexical_executeBlock setting depth block rootScope).bind fun _ _ _ _ hflows =>
      hlaws.alike_resultOf hflows)

theorem keepsScopes_enterSection
    {setting : Setting} {name : String} {part : Section} {block : Block}
    (hfound : setting.sections.find? (·.name == name) = some part)
    (hblock : part.body = .block block) (depth : Nat) (state : State) :
    state.store.KeepsScopes ((Run.enterSection setting depth name).final state).store
      (fun _ => False) := by
  have hguardKeeps (body : Section → Run Value)
      (hkeeps : ∀ inner : State, inner.Guarded →
        inner.store.KeepsScopes ((body part).final inner).store fun _ => False) :
      state.store.KeepsScopes ((Run.guardSection setting body name).final state).store
        (fun _ => False) := by
    rcases Run.store_final_guardSection hfound body state with
      hunchanged | ⟨inner, hsameStore, hrunning, hafter⟩
    · rw [hunchanged]
      exact .refl _ _
    · rw [hafter, ← hsameStore]
      exact hkeeps inner (.inl hrunning)
  cases depth with
  | zero => exact hguardKeeps _ fun inner _ => .refl _ _
  | succ depth =>
    exact hguardKeeps _ fun inner hguarded => keepsScopes_evaluateBody hguarded hblock setting depth

/-- A run keeps all scopes and adds names to its own scope only; a block, and a section whose body
is one, add none to any scope that exists.  This needs a state in which no section can be entered,
as is the case while one is being evaluated; in any other state the root scope may gain names
too. -/
theorem names_keep_to_scope :
    (∀ session, Session.Reachable (fun value => ¬ value.IsHost) session →
      session.state.Guarded) ∧
    (∀ (setting : Setting) (depth : Nat) (state : State) (scope : ScopeId), state.Guarded →
      (∀ e, state.store.KeepsScopes
        ((evaluate setting (.within setting depth) e scope).final state).store (· = scope)) ∧
      (∀ statement, state.store.KeepsScopes
        ((execute setting (.within setting depth) statement scope).final state).store
        (· = scope)) ∧
      ∀ block, state.store.KeepsScopes
        ((execute setting (.within setting depth) (.block block) scope).final state).store
        (fun _ => False)) ∧
    (∀ (setting : Setting) (depth : Nat) (state : State) (scope : ScopeId),
      (∀ e, state.store.KeepsScopes
        ((evaluate setting (.within setting depth) e scope).final state).store
        (fun id => id = scope ∨ id = rootScope)) ∧
      ∀ statement, state.store.KeepsScopes
        ((execute setting (.within setting depth) statement scope).final state).store
        (fun id => id = scope ∨ id = rootScope)) ∧
    ∀ (session : Session) (name : String) (part : Section) (block : Block),
      session.setting.sections.find? (·.name == name) = some part → part.body = .block block →
        session.state.store.KeepsScopes (session.evaluate name).2.state.store
          (fun _ => False) := by
  refine ⟨fun session hreachable => .inr hreachable.hostFree,
    fun setting depth state scope hguarded => ⟨fun e => ?_, fun statement => ?_, fun block => ?_⟩,
    fun setting depth state scope => ⟨fun e => ?_, fun statement => ?_⟩,
    fun session name part block hfound hblock => ?_⟩
  · exact keepsScopes_evaluate (.inl hguarded) (by rfl) setting depth e
  · exact keepsScopes_execute (.inl hguarded) (by rfl) setting depth statement
  · exact keepsScopes_of_alike (.inl hguarded) (lexical_executeBlock setting depth block scope)
  · exact keepsScopes_evaluate (.inr (.inr rfl)) (.inl rfl) setting depth e
  · exact keepsScopes_execute (.inr (.inr rfl)) (.inl rfl) setting depth statement
  · rw [Session.evaluate, Session.state_perform]
    exact keepsScopes_enterSection hfound hblock _ _

/-- A section that declares a variable in a block leaves the root scope without it; a function with
a name, evaluated in the root scope, may add to that scope only. -/
theorem names_keep_to_scope_block :
    let block : Block := ⟨0, [.var 0 "x" (.number 0 1)]⟩
    let setting := Setting.ofProgram ⟨[.labelled ⟨0, "part", .block block⟩], []⟩ 0
      ⟨fun _ _ _ => .missing⟩ .standard
    let session : Session := ⟨setting, .initial⟩
    session.state.Guarded ∧
      session.state.store.KeepsScopes (session.evaluate "part").2.state.store (fun _ => False) ∧
      session.state.store.KeepsScopes ((evaluate setting (.within setting 1)
        (.function ⟨0, some "f", [], block⟩) rootScope).final session.state).store
        (· = rootScope) := by
  intro block setting session
  have hguarded : session.state.Guarded := .inr Store.hostFree_initial
  exact ⟨hguarded, names_keep_to_scope.2.2.2 session "part" _ block rfl rfl,
    (names_keep_to_scope.2.1 setting 1 session.state rootScope hguarded).1 _⟩

end

end PuzzleLang
