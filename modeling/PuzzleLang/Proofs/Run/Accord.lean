import PuzzleLang.Proofs.Store.Like
import PuzzleLang.Session

/-!
# Runs in accord

Two runs are in accord if they go side by side: from states that correspond, both end in the same
way, with results and states that correspond again.  What corresponds is left open.  The laws of an
accord say that the single steps of a run respect it, and that is all that evaluation needs.

An accord also says which scopes a run may use and which values it may hold.  This depends on the
store, in which more of them become known as a run goes on.  The two runs may be one and the same,
so that an invariant of runs is an accord as well.
-/

namespace PuzzleLang

/-! ## Stores that grow -/

/-- A store has at least the scopes, arrays and maps of another one. -/
structure Store.Grows (store store' : Store) : Prop where
  scopes : store.scopes.size ≤ store'.scopes.size
  arrays : store.arrays.size ≤ store'.arrays.size
  maps : store.maps.size ≤ store'.maps.size

theorem Store.Grows.refl (store : Store) : store.Grows store :=
  ⟨Nat.le_refl _, Nat.le_refl _, Nat.le_refl _⟩

theorem Store.Grows.trans
    {store store' store'' : Store} (h : store.Grows store') (h' : store'.Grows store'') :
    store.Grows store'' :=
  ⟨Nat.le_trans h.scopes h'.scopes, Nat.le_trans h.arrays h'.arrays, Nat.le_trans h.maps h'.maps⟩

/-- Two stores have as many scopes, arrays and maps. -/
structure Store.SameSize (store store' : Store) : Prop where
  scopes : store'.scopes.size = store.scopes.size
  arrays : store'.arrays.size = store.arrays.size
  maps : store'.maps.size = store.maps.size

theorem Store.grows_newScope (store : Store) (parent : Option ScopeId) :
    store.Grows (store.newScope parent).2 :=
  ⟨by simp [newScope], Nat.le_refl _, Nat.le_refl _⟩

theorem Store.grows_define (store : Store) (id : ScopeId) (name : String) (value : Value) :
    store.Grows (store.define id name value) :=
  ⟨by simp [define], Nat.le_refl _, Nat.le_refl _⟩

theorem Store.grows_assign (store : Store) (id : ScopeId) (name : String) (value : Value) :
    store.Grows (store.assign id name value).2 := by
  unfold assign
  split
  · exact grows_define _ _ _ _
  · exact .refl _

theorem Store.grows_newArray (store : Store) (items : Array Value) :
    store.Grows (store.newArray items).2 :=
  ⟨Nat.le_refl _, by simp [newArray], Nat.le_refl _⟩

theorem Store.grows_newMap (store : Store) (entries : Bindings Value) :
    store.Grows (store.newMap entries).2 :=
  ⟨Nat.le_refl _, Nat.le_refl _, by simp [newMap]⟩

theorem Store.grows_write (store : Store) (slot : Slot) (value : Value) :
    store.Grows (store.write slot value) := by
  cases slot with
  | item id index => exact ⟨Nat.le_refl _, by simp [write, setItem], Nat.le_refl _⟩
  | entry id key => exact ⟨Nat.le_refl _, Nat.le_refl _, by simp [write, setEntry]⟩

/-! ## Halts that are alike -/

/-- Two halts are alike: faults of the same cause at offsets that correspond, or the same. -/
inductive Halt.Like (offsets : Nat → Nat → Prop) : Halt → Halt → Prop
  | fault {cause : Cause} {offset offset' : Option Nat} :
    Option.Rel offsets offset offset' →
      Halt.Like offsets (.fault ⟨cause, offset⟩) (.fault ⟨cause, offset'⟩)
  | exhausted : Halt.Like offsets .exhausted .exhausted
  | waiting {path : String} : Halt.Like offsets (.waiting path) (.waiting path)

/-! ## Accords -/

/-- What corresponds in two runs, and which scopes and values a run may use.  The stores are those
of the first run. -/
structure Accord where
  offsets : Nat → Nat → Prop
  states : State → State → Prop
  /-- The values that a run may hold. -/
  allowed : Store → Value → Prop
  /-- The scopes in which a run may look up names. -/
  reads : Store → ScopeId → Prop
  /-- The scopes in which a run may bind names. -/
  defines : Store → ScopeId → Prop

namespace Accord

variable (A : Accord)

/-- Values that correspond. -/
def values (store : Store) (value value' : Value) : Prop :=
  Value.Like A.offsets value value' ∧ A.allowed store value

/-- Named values that correspond. -/
def bindings (store : Store) : String × Value → String × Value → Prop :=
  Bindings.LikeEntry (A.values store)

/-- A scope in which runs may take place. -/
def hosts (store : Store) (id : ScopeId) : Prop :=
  A.reads store id ∧ A.defines store id

/-- Ways to end a statement that correspond. -/
inductive flows (store : Store) : Flow → Flow → Prop
  | next : flows store .next .next
  | returned {value value' : Value} :
    A.values store value value' → flows store (.returned value) (.returned value')
  | broke {offset offset' : Nat} :
    A.offsets offset offset' → flows store (.broke offset) (.broke offset')
  | continued {offset offset' : Nat} :
    A.offsets offset offset' → flows store (.continued offset) (.continued offset')

/-- No result to speak of. -/
def done (_ : Store) (_ _ : Unit) : Prop :=
  True

/-- Two runs from a store have ended in the same way. -/
inductive Ends {α α' : Type} (results : Store → α → α' → Prop) (start : Store) :
    EStateM.Result Halt State α → EStateM.Result Halt State α' → Prop
  | ok {value : α} {value' : α'} {state state' : State} :
    start.Grows state.store → A.states state state' → results state.store value value' →
      Ends results start (.ok value state) (.ok value' state')
  | error {halt halt' : Halt} {state state' : State} :
    start.Grows state.store → A.states state state' → Halt.Like A.offsets halt halt' →
      Ends results start (.error halt state) (.error halt' state')

/-- Two runs are in accord from a store on. -/
def Alike {α α' : Type} (results : Store → α → α' → Prop) (start : Store) (run : Run α)
    (run' : Run α') : Prop :=
  ∀ state state', start.Grows state.store → A.states state state' →
    A.Ends results state.store (run state) (run' state')

end Accord

/-! ## What is traced -/

/-- What is traced, with the values that the entry shows as texts. -/
inductive Event
  | enter (name : String)
  | leave (name : String) (value : Value)
  | define (name : String) (value : Value)
  | defineFunction (name : String) (params : List String)
  | condition (value : Value)
  | select (subject : Value) (offset : Nat)
  | call (callee : Value) (args : List Value)

namespace Event

/-- The level of an event. -/
def level : Event → Int
  | enter _ | leave _ _ => 1
  | define _ _ | defineFunction _ _ => 2
  | condition _ | select _ _ | call _ _ => 3

/-- Writes an event as an entry. -/
def entry (setting : Setting) : Event → Run Entry
  | enter name => return .enter name
  | leave name value => return .leave name (← Run.render value)
  | define name value => return .define name (← Run.render value)
  | defineFunction name params => return .defineFunction name params
  | condition value => return .condition (← Run.render value) value.isTruthy
  | select subject offset => return .select (← Run.render subject) (setting.lineOf offset)
  | call callee args => return .call (Run.calleeName callee) (← args.mapM Run.render)

end Event

/-- Events that correspond. -/
inductive Accord.events (A : Accord) (store : Store) : Event → Event → Prop
  | enter (name : String) : events A store (.enter name) (.enter name)
  | leave (name : String) {value value' : Value} :
    A.values store value value' → events A store (.leave name value) (.leave name value')
  | define (name : String) {value value' : Value} :
    A.values store value value' → events A store (.define name value) (.define name value')
  | defineFunction (name : String) (params : List String) :
    events A store (.defineFunction name params) (.defineFunction name params)
  | condition {value value' : Value} :
    A.values store value value' → events A store (.condition value) (.condition value')
  | select {subject subject' : Value} {offset offset' : Nat} :
    A.values store subject subject' → A.offsets offset offset' →
      events A store (.select subject offset) (.select subject' offset')
  | call {callee callee' : Value} {args args' : List Value} :
    A.values store callee callee' → List.Forall₂ (A.values store) args args' →
      events A store (.call callee args) (.call callee' args')

/-! ## Laws -/

/-- The single steps of a run respect an accord. -/
structure Accord.Laws (A : Accord) (setting setting' : Setting) : Prop where
  limits : setting'.limits = setting.limits
  allowed_mono {store store' : Store} {value : Value} :
    store.Grows store' → A.allowed store value → A.allowed store' value
  reads_mono {store store' : Store} {id : ScopeId} :
    store.Grows store' → A.reads store id → A.reads store' id
  defines_mono {store store' : Store} {id : ScopeId} :
    store.Grows store' → A.defines store id → A.defines store' id
  plain {store : Store} {value : Value} : value.IsPlain → A.allowed store value
  closure {store : Store} {f : Function} {id : ScopeId} :
    A.reads store id → A.allowed store (.closure ⟨f, id⟩)
  scope_of_closure {store : Store} {closure : Closure} :
    A.allowed store (.closure closure) → A.reads store closure.scope
  sizes {s s' : State} : A.states s s' → s.store.SameSize s'.store
  newScope {s s' : State} {parent : ScopeId} :
    A.states s s' → A.reads s.store parent →
      A.states { s with store := (s.store.newScope (some parent)).2 }
          { s' with store := (s'.store.newScope (some parent)).2 } ∧
        A.hosts (s.store.newScope (some parent)).2 (s.store.newScope (some parent)).1
  define {s s' : State} {id : ScopeId} {name : String} {value value' : Value} :
    A.states s s' → A.defines s.store id → A.values s.store value value' →
      A.states { s with store := s.store.define id name value }
        { s' with store := s'.store.define id name value' }
  assign {s s' : State} {id : ScopeId} {name : String} {value value' : Value} :
    A.states s s' → A.reads s.store id → A.values s.store value value' →
      A.states { s with store := (s.store.assign id name value).2 }
        { s' with store := (s'.store.assign id name value').2 }
  lookup {s s' : State} {id : ScopeId} (name : String) :
    A.states s s' → A.reads s.store id →
      Option.Rel (A.values s.store) (s.store.lookup? id name) (s'.store.lookup? id name)
  newArray {s s' : State} {items items' : List Value} :
    A.states s s' → List.Forall₂ (A.values s.store) items items' →
      A.states { s with store := (s.store.newArray items.toArray).2 }
          { s' with store := (s'.store.newArray items'.toArray).2 } ∧
        A.allowed (s.store.newArray items.toArray).2 (s.store.newArray items.toArray).1
  newMap {s s' : State} {entries entries' : Bindings Value} :
    A.states s s' → List.Forall₂ (A.bindings s.store) entries entries' →
      A.states { s with store := (s.store.newMap entries).2 }
          { s' with store := (s'.store.newMap entries').2 } ∧
        A.allowed (s.store.newMap entries).2 (s.store.newMap entries).1
  items {s s' : State} {id : ArrayId} :
    A.states s s' → A.allowed s.store (.array id) →
      List.Forall₂ (A.values s.store) (s.store.items id).toList (s'.store.items id).toList
  entries {s s' : State} {id : MapId} :
    A.states s s' → A.allowed s.store (.map id) →
      List.Forall₂ (A.bindings s.store) (s.store.entries id) (s'.store.entries id)
  setItem {s s' : State} {id : ArrayId} {index : Nat} {value value' : Value} :
    A.states s s' → A.allowed s.store (.array id) → A.values s.store value value' →
      A.states { s with store := s.store.setItem id index value }
        { s' with store := s'.store.setItem id index value' }
  setEntry {s s' : State} {id : MapId} {key : String} {value value' : Value} :
    A.states s s' → A.allowed s.store (.map id) → A.values s.store value value' →
      A.states { s with store := s.store.setEntry id key value }
        { s' with store := s'.store.setEntry id key value' }
  view {s s' : State} {value value' : Value} :
    A.states s s' → A.values s.store value value' → s'.store.view? value' = s.store.view? value
  output {s s' : State} {text : String} :
    A.states s s' →
      A.states { s with output := s.output ++ text } { s' with output := s'.output ++ text }
  record {store : Store} {event event' : Event} {offset offset' : Nat} :
    A.events store event event' → A.offsets offset offset' →
      A.Alike Accord.done store (Run.record setting event.level offset (event.entry setting))
        (Run.record setting' event'.level offset' (event'.entry setting'))
  readFile {store : Store} (path : String) :
    A.Alike A.values store (Native.readFile setting path) (Native.readFile setting' path)

/-! ## Putting runs together -/

namespace Run

variable {α : Type}

theorem get_bind_apply (next : State → Run α) (state : State) :
    (get >>= next) state = next state state :=
  rfl

theorem set_bind_apply (new : State) (next : PUnit → Run α) (state : State) :
    (set new >>= next) state = next ⟨⟩ new :=
  rfl

end Run

namespace Accord

variable {A : Accord} {α α' β β' : Type}

theorem Ends.weaken
    {results : Store → α → α' → Prop} {start start' : Store} {result : EStateM.Result Halt State α}
    {result' : EStateM.Result Halt State α'}
    (hgrows : start.Grows start') (h : A.Ends results start' result result') :
    A.Ends results start result result' := by
  cases h with
  | ok hmore hstates hvalues => exact .ok (hgrows.trans hmore) hstates hvalues
  | error hmore hstates hhalts => exact .error (hgrows.trans hmore) hstates hhalts

theorem Alike.mono
    {results : Store → α → α' → Prop} {start start' : Store} {run : Run α} {run' : Run α'}
    (h : A.Alike results start run run') (hgrows : start.Grows start') :
    A.Alike results start' run run' :=
  fun state state' hmore hstates => h state state' (hgrows.trans hmore) hstates

theorem alike_pure
    {results : Store → α → α' → Prop} {start : Store} {value : α} {value' : α'}
    (h : ∀ store, start.Grows store → results store value value') :
    A.Alike results start (pure value) (pure value') :=
  fun state _ hgrows hstates => .ok (.refl _) hstates (h state.store hgrows)

theorem Alike.bind
    {results : Store → α → α' → Prop} {results' : Store → β → β' → Prop} {start : Store}
    {run : Run α} {run' : Run α'} {next : α → Run β} {next' : α' → Run β'}
    (h : A.Alike results start run run')
    (h' : ∀ store value value', start.Grows store → results store value value' →
      A.Alike results' store (next value) (next' value')) :
    A.Alike results' start (run >>= next) (run' >>= next') := by
  intro state state' hgrows hstates
  have hfirst := h state state' hgrows hstates
  change A.Ends results' state.store (EStateM.bind run next state) (EStateM.bind run' next' state')
  unfold EStateM.bind
  generalize run state = result at hfirst ⊢
  generalize run' state' = result' at hfirst ⊢
  cases hfirst with
  | ok hmore hstates hvalues =>
    exact (h' _ _ _ (hgrows.trans hmore) hvalues _ _ (.refl _) hstates).weaken hmore
  | error hmore hstates hhalts => exact .error hmore hstates hhalts

theorem alike_throw
    {results : Store → α → α' → Prop} {start : Store} {halt halt' : Halt}
    (h : Halt.Like A.offsets halt halt') :
    A.Alike results start (throw halt) (throw halt') :=
  fun _ _ _ hstates => .error (.refl _) hstates h

theorem alike_failAt
    {results : Store → α → α' → Prop} {start : Store} {offset offset' : Nat}
    (h : A.offsets offset offset') (cause : Cause) :
    A.Alike results start (Run.failAt offset cause) (Run.failAt offset' cause) :=
  alike_throw (.fault (.some h))

theorem alike_fail {results : Store → α → α' → Prop} {start : Store} (cause : Cause) :
    A.Alike results start (Run.fail cause) (Run.fail cause) :=
  alike_throw (.fault .none)

/-- A run that first reads the state. -/
theorem alike_get_bind
    {results : Store → α → α' → Prop} {start : Store} {next : State → Run α}
    {next' : State → Run α'}
    (h : ∀ state state', start.Grows state.store → A.states state state' →
      A.Alike results state.store (next state) (next' state')) :
    A.Alike results start (get >>= next) (get >>= next') :=
  fun state state' hgrows hstates => h state state' hgrows hstates state state' (.refl _) hstates

/-- A run that changes the state. -/
theorem alike_modify
    {start : Store} {change change' : State → State}
    (hgrows : ∀ state : State, state.store.Grows (change state).store)
    (h : ∀ state state' : State, start.Grows state.store → A.states state state' →
      A.states (change state) (change' state')) :
    A.Alike done start (modify change) (modify change') :=
  fun state state' hmore hstates => .ok (hgrows state) (h state state' hmore hstates) trivial

theorem Alike.relocate
    {results : Store → α → α' → Prop} {start : Store} {run : Run α} {run' : Run α'}
    {offset offset' : Nat}
    (h : A.Alike results start run run') (hcorrespond : A.offsets offset offset') :
    A.Alike results start (Run.relocate offset run) (Run.relocate offset' run') := by
  intro state state' hgrows hstates
  have hends := h state state' hgrows hstates
  unfold Run.relocate
  generalize run state = result at hends ⊢
  generalize run' state' = result' at hends ⊢
  cases hends with
  | ok hmore hstates hvalues => exact .ok hmore hstates hvalues
  | error hmore hstates hhalts =>
    cases hhalts with
    | fault _ => exact .error hmore hstates (.fault (.some hcorrespond))
    | exhausted => exact .error hmore hstates .exhausted
    | waiting => exact .error hmore hstates .waiting

end Accord

end PuzzleLang
