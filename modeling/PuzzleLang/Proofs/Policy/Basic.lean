import PuzzleLang.Proofs.Run.Halting
import PuzzleLang.Proofs.Session.WellFormed
import PuzzleLang.Proofs.Tree.Node
import PuzzleLang.Proofs.Value.Range

/-!
# Policies

A policy says which nodes of a script may be run and in which ways a run may halt.  A run meets a
policy if it starts from a store that holds nothing but values which the policy lets a script make,
and leaves such a store behind, however it ends; and if it halts, it does so in one of the ways that
the policy names.

The values that a script can make are those of its literals and of the standard functions, and the
functions that are written in it.  Functions of the host are not among them, nor are ranges that
never reach their end.
-/

namespace PuzzleLang

/-! ## What a store holds -/

/-- Every value that a store holds satisfies a predicate. -/
def Store.Every (p : Value → Prop) (store : Store) : Prop :=
  ∀ place cell value, store.at? place = some cell → value ∈ cell.values → p value

namespace Store.Every

variable {p : Value → Prop} {store store' : Store}

theorem of_step
    (h : store.Every p)
    (hstep : ∀ place cell, store'.at? place = some cell →
      store.at? place = some cell ∨ ∀ value ∈ cell.values, p value) :
    store'.Every p := by
  intro place cell value hfound hheld
  rcases hstep place cell hfound with hunchanged | hchanged
  · exact h place cell value hunchanged hheld
  · exact hchanged value hheld

theorem newScope (h : store.Every p) (parent : Option ScopeId) :
    (store.newScope parent).2.Every p := by
  apply h.of_step
  intro place cell hfound
  rw [at?_newScope] at hfound
  split at hfound
  · right
    cases hfound
    intro value hheld
    cases hheld
  · exact .inl hfound

theorem define
    {value : Value} (h : store.Every p) (hfits : p value) (id : ScopeId) (name : String) :
    (store.define id name value).Every p := by
  apply h.of_step
  intro place cell hfound
  rw [at?_define] at hfound
  split at hfound
  · right
    obtain ⟨scope, hscope, rfl⟩ := Option.map_eq_some_iff.mp hfound
    intro held hmem
    rcases Region.mem_values_put hmem with hold | rfl
    · exact h _ _ held (at?_scope hscope) hold
    · exact hfits
  · exact .inl hfound

theorem defineAll
    {pairs : List (String × Value)}
    (h : store.Every p) (hfits : ∀ pair ∈ pairs, p pair.2) (id : ScopeId) :
    (store.defineAll id pairs).Every p := by
  induction pairs generalizing store with
  | nil =>
    rw [defineAll_nil]
    exact h
  | cons pair pairs ih =>
    obtain ⟨hfirst, hmore⟩ := List.forall_mem_cons.mp hfits
    rw [defineAll_cons]
    exact ih (h.define hfirst id pair.1) hmore

theorem assign
    {value : Value} (h : store.Every p) (hfits : p value) (id : ScopeId) (name : String) :
    (store.assign id name value).2.Every p := by
  unfold Store.assign
  split
  · exact h.define hfits _ name
  · exact h

theorem newArray {items : List Value} (h : store.Every p) (hfits : ∀ item ∈ items, p item) :
    (store.newArray items.toArray).2.Every p := by
  apply h.of_step
  intro place cell hfound
  rw [at?_newArray] at hfound
  split at hfound
  · right
    cases hfound
    exact hfits
  · exact .inl hfound

theorem newMap
    {pairs : List (String × Value)} (h : store.Every p) (hfits : ∀ pair ∈ pairs, p pair.2) :
    (store.newMap (Bindings.putAll [] pairs)).2.Every p := by
  apply h.of_step
  intro place cell hfound
  rw [at?_newMap] at hfound
  split at hfound
  · right
    cases hfound
    intro value hheld
    rcases mem_values_putAll hheld with hbefore | hgiven
    · cases hbefore
    · obtain ⟨pair, hpair, rfl⟩ := List.mem_map.mp hgiven
      exact hfits pair hpair
  · exact .inl hfound

theorem write {value : Value} (h : store.Every p) (hfits : p value) (slot : Slot) :
    (store.write slot value).Every p := by
  apply h.of_step
  intro place cell hfound
  cases slot with
  | item id index =>
    rw [Store.write, at?_setItem] at hfound
    split at hfound
    · right
      obtain ⟨items, harray, rfl⟩ := Option.map_eq_some_iff.mp hfound
      have hbefore : store.at? (.array id) = some (.array items) := by
        rw [at?, harray, Option.map_some]
      intro held hmem
      simp only [Cell.values, Array.toList_setIfInBounds] at hmem
      rcases List.mem_or_eq_of_mem_set hmem with hold | rfl
      · exact h _ _ held hbefore hold
      · exact hfits
    · exact .inl hfound
  | entry id key =>
    rw [Store.write, at?_setEntry] at hfound
    split at hfound
    · right
      obtain ⟨entries, hmap, rfl⟩ := Option.map_eq_some_iff.mp hfound
      have hbefore : store.at? (.map id) = some (.map entries) := by
        rw [at?, hmap, Option.map_some]
      intro held hmem
      rcases Region.mem_values_put hmem with hold | rfl
      · exact h _ _ held hbefore hold
      · exact hfits
    · exact .inl hfound

theorem lookup?
    {id : ScopeId} {name : String} {value : Value}
    (h : store.Every p) (hfound : store.lookup? id name = some value) :
    p value := by
  unfold Store.lookup? Store.own at hfound
  split at hfound
  case h_2 => cases hfound
  case h_1 home _ =>
    split at hfound
    case h_2 => cases hfound
    case h_1 scope hscope => exact h _ _ value (at?_scope hscope) (mem_of_get? hfound)

theorem items
    {id : ArrayId} {value : Value} (h : store.Every p) (hmem : value ∈ (store.items id).toList) :
    p value := by
  obtain ⟨cell, hfound, hheld⟩ := exists_cell_of_mem_items hmem
  exact h _ cell value hfound hheld

theorem entries
    {id : MapId} {entry : String × Value} (h : store.Every p) (hmem : entry ∈ store.entries id) :
    p entry.2 := by
  obtain ⟨cell, hfound, hheld⟩ := exists_cell_of_mem_entries (List.mem_map_of_mem hmem)
  exact h _ cell entry.2 hfound hheld

theorem getD_items
    {fallback : Value} (h : store.Every p) (hfits : p fallback) (id : ArrayId) (index : Nat) :
    p ((store.items id).getD index fallback) := by
  rw [Array.getD_eq_getD_getElem?]
  cases hfound : (store.items id)[index]? with
  | none => exact hfits
  | some value =>
    have hmem : value ∈ (store.items id).toList := by
      rw [← Array.getElem?_toList] at hfound
      exact List.mem_of_getElem? hfound
    exact h.items hmem

end Store.Every

/-! ## Policies -/

/-- The causes of the faults that a node can have by itself. -/
def Cause.Ordinary (cause : Cause) : Prop :=
  cause.stage = .run ∧ cause ≠ .breakOutsideLoop ∧ cause ≠ .continueOutsideLoop

/-- Which nodes a script may run, and in which ways a run may halt. -/
structure Policy where
  admits : Node → Prop
  halts : Halt → Prop

namespace Policy

variable (P : Policy)

/-- A node may be run, with all nodes inside it. -/
def Admits (node : Node) : Prop :=
  ∀ inner, node.Contains inner → P.admits inner

/-- The values that a script may make. -/
inductive Fits : Value → Prop
  | nil : Fits .nil
  | number (value : Int) : Fits (.number value)
  | string (value : String) : Fits (.string value)
  | array (id : ArrayId) : Fits (.array id)
  | map (id : MapId) : Fits (.map id)
  | range {range : Range} : range.Reaches → Fits (.range range)
  | native {native : Native} : native ∈ Native.standard → Fits (.native native)
  | closure {f : Function} {scope : ScopeId} :
    P.Admits (.expr (.function f)) → Fits (.closure ⟨f, scope⟩)

/-- The faults that a node can have by itself may be put down to an offset. -/
def Blames (offset : Nat) : Prop :=
  ∀ cause : Cause, cause.Ordinary → P.halts (.fault ⟨cause, some offset⟩)

/-- The ways to halt that a policy has to name for the nodes that it lets a script run. -/
structure Laws (setting : Setting) : Prop where
  blames {node : Node} : P.admits node → P.Blames node.offset
  exhausted {offset : Nat} {body : Block} :
    P.admits (.statement (.forever offset body)) → P.halts .exhausted
  waiting {earlier : Nat} {path : String} {trace : Option String} :
    setting.files.ask earlier path trace = .unknown → P.halts (.waiting path)
  stray {node : Node} {body : Block} {jump : Stmt} {fault : Fault} :
    P.admits node → node.body? = some body →
      (Node.statement (.block body)).Exposes (.statement jump) → jump.strayFault? = some fault →
      P.halts (.fault fault)

/-- A run has ended, and the store holds what it may. -/
inductive Ends {α : Type} (halts : Halt → Prop) (results : α → Prop) :
    EStateM.Result Halt State α → Prop
  | ok {value : α} {state : State} :
    state.store.Every P.Fits → results value → Ends halts results (.ok value state)
  | error {halt : Halt} {state : State} :
    state.store.Every P.Fits → halts halt → Ends halts results (.error halt state)

/-- A run that starts from a store that holds what it may ends so, and it gives one of some results
or halts in one of some ways. -/
def Meets {α : Type} (halts : Halt → Prop) (results : α → Prop) (run : Run α) : Prop :=
  ∀ state : State, state.store.Every P.Fits → P.Ends halts results (run state)

variable {P} {α β : Type} {halts : Halt → Prop} {results : α → Prop}

theorem Admits.self {node : Node} (h : P.Admits node) : P.admits node :=
  h node (Node.Contains.refl node)

theorem Admits.child {node child : Node} (h : P.Admits node) (hchild : child ∈ node.children) :
    P.Admits child := by
  intro inner hcontains
  exact h inner (hcontains.of_child hchild)

/-! ## Putting runs together -/

theorem meets_pure {value : α} (h : results value) : P.Meets halts results (pure value) :=
  fun _ hholds => .ok hholds h

theorem meets_throw {halt : Halt} (h : halts halt) : P.Meets halts results (throw halt) :=
  fun _ hholds => .error hholds h

theorem Meets.bind
    {results' : β → Prop} {run : Run α} {next : α → Run β}
    (h : P.Meets halts results run)
    (h' : ∀ value, results value → P.Meets halts results' (next value)) :
    P.Meets halts results' (run >>= next) := by
  intro state hholds
  have hfirst := h state hholds
  change P.Ends halts results' (EStateM.bind run next state)
  unfold EStateM.bind
  generalize run state = result at hfirst ⊢
  cases hfirst with
  | ok hholds hgiven => exact h' _ hgiven _ hholds
  | error hholds hhalted => exact .error hholds hhalted

theorem meets_get_bind
    {next : State → Run α}
    (h : ∀ state : State, state.store.Every P.Fits → P.Meets halts results (next state)) :
    P.Meets halts results (get >>= next) :=
  fun state hholds => h state hholds state hholds

theorem meets_modify
    {change : State → State}
    (h : ∀ state : State, state.store.Every P.Fits → (change state).store.Every P.Fits) :
    P.Meets halts (fun _ => True) (modify change) :=
  fun state hholds => .ok (h state hholds) trivial

theorem Meets.also
    {results' : α → Prop} {run : Run α}
    (h : P.Meets halts results run)
    (h' : ∀ state value state', run state = .ok value state' → results' value) :
    P.Meets halts (fun value => results value ∧ results' value) run := by
  intro state hholds
  have hends := h state hholds
  cases hran : run state with
  | ok value state' =>
    rw [hran] at hends
    cases hends with
    | ok hholds hgiven => exact .ok hholds ⟨hgiven, h' state value state' hran⟩
  | error halt state' =>
    rw [hran] at hends
    cases hends with
    | error hholds hhalted => exact .error hholds hhalted

theorem Meets.relocate
    {run : Run α} {offset : Nat}
    (h : P.Meets (fun halt => halts (halt.movedTo offset)) results run) :
    P.Meets halts results (Run.relocate offset run) := by
  intro state hholds
  have hends := h state hholds
  unfold Run.relocate
  generalize run state = result at hends ⊢
  cases hends with
  | ok hholds hgiven => exact .ok hholds hgiven
  | @error halt _ hholds hhalted =>
    cases halt with
    | fault fault => exact .error hholds hhalted
    | exhausted => exact .error hholds hhalted
    | waiting path => exact .error hholds hhalted

theorem meets_failAt
    {offset : Nat} {cause : Cause} (hblames : P.Blames offset) (hordinary : cause.Ordinary) :
    P.Meets P.halts results (Run.failAt offset cause) :=
  meets_throw (hblames cause hordinary)

theorem meets_lift
    {result : Except Cause α}
    (hok : ∀ value, result = .ok value → results value)
    (herror : ∀ cause, result = .error cause → halts (.fault ⟨cause, none⟩)) :
    P.Meets halts results (Run.lift result) := by
  cases result with
  | ok value => exact meets_pure (hok value rfl)
  | error cause => exact meets_throw (herror cause rfl)

theorem meets_liftAt
    {offset : Nat} {result : Except Cause α}
    (hblames : P.Blames offset) (hok : ∀ value, result = .ok value → results value)
    (herror : ∀ cause, result = .error cause → cause.Ordinary) :
    P.Meets P.halts results (Run.liftAt offset result) := by
  cases result with
  | ok value => exact meets_pure (hok value rfl)
  | error cause => exact meets_failAt hblames (herror cause rfl)

/-! ## Scopes -/

theorem meets_newScope (parent : ScopeId) : P.Meets halts (fun _ => True) (Run.newScope parent) :=
  fun _ hholds => .ok (hholds.newScope (some parent)) trivial

theorem meets_define {value : Value} (hfits : P.Fits value) (scope : ScopeId) (name : String) :
    P.Meets halts (fun _ => True) (Run.define scope name value) :=
  meets_modify fun _ hholds => hholds.define hfits scope name

theorem meets_defineAll
    {pairs : List (String × Value)} (hfits : ∀ pair ∈ pairs, P.Fits pair.2) (scope : ScopeId) :
    P.Meets halts (fun _ => True) (Run.defineAll scope pairs) :=
  meets_modify fun _ hholds => hholds.defineAll hfits scope

theorem meets_assign {value : Value} (hfits : P.Fits value) (scope : ScopeId) (name : String) :
    P.Meets halts (fun _ => True) (Run.assign scope name value) :=
  meets_modify fun _ hholds => hholds.assign hfits scope name

theorem meets_lookup {offset : Nat} (hblames : P.Blames offset) (scope : ScopeId) (name : String) :
    P.Meets P.halts P.Fits (Run.lookup offset scope name) := by
  apply meets_get_bind
  intro state hholds
  cases hfound : state.store.lookup? scope name with
  | some value => exact meets_pure (hholds.lookup? hfound)
  | none => exact meets_failAt hblames ⟨rfl, nofun, nofun⟩

/-! ## Arrays and maps -/

theorem meets_newArray {items : List Value} (hfits : ∀ item ∈ items, P.Fits item) :
    P.Meets halts P.Fits (Run.newArray items) :=
  fun _ hholds => .ok (hholds.newArray hfits) (.array _)

theorem meets_newMap {entries : List (String × Value)} (hfits : ∀ entry ∈ entries, P.Fits entry.2) :
    P.Meets halts P.Fits (Run.newMap entries) :=
  fun _ hholds => .ok (hholds.newMap hfits) (.map _)

end Policy

end PuzzleLang
