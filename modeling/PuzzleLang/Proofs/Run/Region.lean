import PuzzleLang.Proofs.Session.Accord
import PuzzleLang.Proofs.Store.Place

/-!
# Regions of the store

A run keeps to a region of the store if it never gets hold of a place outside.  Since every place a
run gets hold of is new or linked to one it had before, a region that is closed under links is kept
to by all runs that start inside it.  Along the way a region can keep watch over more: the values
that are held in it, the scopes that gain names, and a property of the store as a whole.
-/

namespace PuzzleLang

/-! ## Runs that leave the store as it is -/

namespace Run

variable {α β : Type}

/-- The state in which a run ends, however it ends. -/
def final (run : Run α) (state : State) : State :=
  match run state with
  | .ok _ state => state
  | .error _ state => state

/-- A run has left the store and the active section as they were. -/
inductive LeavesStore (results : α → Prop) (state : State) : EStateM.Result Halt State α → Prop
  | ok {value : α} {state' : State} :
    state'.store = state.store → state'.active = state.active → results value →
      LeavesStore results state (.ok value state')
  | error {halt : Halt} {state' : State} :
    state'.store = state.store → state'.active = state.active →
      LeavesStore results state (.error halt state')

/-- A run leaves the store and the active section as they are. -/
def Quiet (results : α → Prop) (run : Run α) : Prop :=
  ∀ state, LeavesStore results state (run state)

theorem quiet_pure {results : α → Prop} {value : α} (h : results value) :
    Quiet results (pure value) :=
  fun _ => .ok rfl rfl h

theorem quiet_get_bind
    {results : α → Prop} {next : State → Run α}
    (h : ∀ state, LeavesStore results state (next state state)) :
    Quiet results (get >>= next) :=
  h

theorem Quiet.bind
    {results : α → Prop} {results' : β → Prop} {run : Run α} {next : α → Run β}
    (h : Quiet results run) (h' : ∀ value, results value → Quiet results' (next value)) :
    Quiet results' (run >>= next) := by
  intro state
  have hfirst := h state
  change LeavesStore results' state (EStateM.bind run next state)
  unfold EStateM.bind
  generalize run state = result at hfirst ⊢
  cases hfirst with
  | error hstore hactive => exact .error hstore hactive
  | @ok value state' hstore hactive hholds =>
    have hsecond := h' value hholds state'
    dsimp only
    generalize next value state' = result at hsecond ⊢
    cases hsecond with
    | ok hstore' hactive' hholds => exact .ok (hstore'.trans hstore) (hactive'.trans hactive) hholds
    | error hstore' hactive' => exact .error (hstore'.trans hstore) (hactive'.trans hactive)

theorem Quiet.relocate {results : α → Prop} {run : Run α} (h : Quiet results run) (offset : Nat) :
    Quiet results (relocate offset run) := by
  intro state
  have hends := h state
  unfold Run.relocate
  generalize run state = result at hends ⊢
  cases hends with
  | ok hstore hactive hholds => exact .ok hstore hactive hholds
  | @error halt _ hstore hactive => cases halt <;> exact .error hstore hactive

theorem quiet_render (value : Value) : Quiet (fun _ => True) (render value) := by
  refine quiet_get_bind fun state => ?_
  cases state.store.render? value with
  | some text => exact .ok rfl rfl trivial
  | none => exact .error rfl rfl

theorem quiet_mapM_render (values : List Value) : Quiet (fun _ => True) (values.mapM render) := by
  induction values with
  | nil => exact quiet_pure trivial
  | cons value values ih =>
    rw [List.mapM_cons]
    exact (quiet_render value).bind fun _ _ => ih.bind fun _ _ => quiet_pure trivial

theorem quiet_entry (setting : Setting) (event : Event) :
    Quiet (fun _ => True) (event.entry setting) := by
  cases event with
  | enter | defineFunction => exact quiet_pure trivial
  | leave | define | condition | select =>
    exact (quiet_render _).bind fun _ _ => quiet_pure trivial
  | call => exact (quiet_mapM_render _).bind fun _ _ => quiet_pure trivial

theorem quiet_record (setting : Setting) (level : Int) (offset : Nat) (event : Event) :
    Quiet (fun _ => True) (record setting level offset (event.entry setting)) := by
  unfold record
  split
  · exact ((quiet_entry setting event).relocate offset).bind fun _ _ _ => .ok rfl rfl trivial
  · exact quiet_pure trivial

theorem quiet_readFile (setting : Setting) (path : String) :
    Quiet Value.IsPlain (Native.readFile setting path) := by
  refine quiet_get_bind fun state => ?_
  generalize setting.files.ask _ _ _ = reply
  rw [set_bind_apply]
  split
  · exact .error rfl rfl
  · cases reply.text with
    | ok text => exact .ok rfl rfl (.string text)
    | error fault => exact .error rfl rfl

end Run

/-! ## Equal values -/

theorem Value.Like.eq {value value' : Value} (h : Value.Like Eq value value') : value' = value := by
  cases h with
  | same => rfl
  | closure hfunctions => rw [hfunctions.eq]

theorem Halt.Like.eq {halt halt' : Halt} (h : Halt.Like Eq halt halt') : halt' = halt := by
  cases h with
  | fault hoffsets =>
    cases hoffsets with
    | none => rfl
    | some hsame => rw [hsame]
  | exhausted | waiting => rfl

theorem Halt.like_self (halt : Halt) : Halt.Like Eq halt halt := by
  cases halt with
  | fault fault =>
    obtain ⟨cause, offset⟩ := fault
    cases offset with
    | none => exact .fault .none
    | some offset => exact .fault (.some rfl)
  | exhausted => exact .exhausted
  | waiting path => exact .waiting

/-! ## Regions -/

/-- A part of the store to which runs keep, and what else they keep to. -/
structure Region where
  /-- The places inside. -/
  inside : Store → Place → Prop
  /-- The values that may be held inside, by what they are. -/
  fits : Value → Prop
  /-- The scopes in which new names may be bound. -/
  binds : ScopeId → Prop
  /-- What holds of the store and of the section that is being evaluated. -/
  intact : Store → Option String → Prop

namespace Region

variable (R : Region)

/-- A value that runs may hold. -/
def allowed (store : Store) (value : Value) : Prop :=
  R.fits value ∧ ∀ place, value.place? = some place → R.inside store place

/-- No link leads out of the region, and every value inside fits. -/
structure Closed (store : Store) : Prop where
  parent {id parent : ScopeId} {cell : Cell} :
    R.inside store (.scope id) → store.at? (.scope id) = some cell → cell.parent? = some parent →
      R.inside store (.scope parent)
  value {place : Place} {cell : Cell} {value : Value} :
    R.inside store place → store.at? place = some cell → value ∈ cell.values →
      R.allowed store value

/-- The region is closed, and the store is intact. -/
structure Kept (state : State) : Prop where
  closed : R.Closed state.store
  intact : R.intact state.store state.active

/-- The accord of a run with itself that says that it keeps to the region. -/
def accord : Accord where
  offsets := Eq
  states s s' := s' = s ∧ R.Kept s
  allowed := R.allowed
  reads store id := R.inside store (.scope id)
  defines store id := R.inside store (.scope id) ∧ R.binds id

/-- The operations on the store respect a region. -/
structure Laws : Prop where
  inside_mono {store store' : Store} {place : Place} :
    store.Grows store' → R.inside store place → R.inside store' place
  inside_old {store store' : Store} {place : Place} :
    store.Grows store' → store.Has place → R.inside store' place → R.inside store place
  fits {value : Value} :
    (∀ name target, value ≠ .native (.evaluate name target)) → R.fits value
  newScope {store : Store} {active : Option String} {parent : ScopeId} :
    R.intact store active → R.inside store (.scope parent) →
      R.intact (store.newScope (some parent)).2 active ∧
        R.inside (store.newScope (some parent)).2 (.scope ⟨store.scopes.size⟩) ∧
        R.binds ⟨store.scopes.size⟩
  newArray {store : Store} {active : Option String} {items : Array Value} :
    R.intact store active →
      R.intact (store.newArray items).2 active ∧
        R.inside (store.newArray items).2 (.array ⟨store.arrays.size⟩)
  newMap {store : Store} {active : Option String} {entries : Bindings Value} :
    R.intact store active →
      R.intact (store.newMap entries).2 active ∧
        R.inside (store.newMap entries).2 (.map ⟨store.maps.size⟩)
  define {store : Store} {active : Option String} {id : ScopeId} {name : String} {value : Value} :
    R.intact store active → R.inside store (.scope id) →
      (R.binds id ∨ (store.own id).binds name = true) →
      R.intact (store.define id name value) active
  setItem {store : Store} {active : Option String} {id : ArrayId} {index : Nat} {value : Value} :
    R.intact store active → R.inside store (.array id) →
      R.intact (store.setItem id index value) active
  setEntry {store : Store} {active : Option String} {id : MapId} {key : String} {value : Value} :
    R.intact store active → R.inside store (.map id) →
      R.intact (store.setEntry id key value) active

variable {R} {store store' : Store}

/-! ## Values inside -/

theorem values_iff {value value' : Value} :
    R.accord.values store value value' ↔ value' = value ∧ R.allowed store value := by
  constructor
  · rintro ⟨hlike, hallowed⟩
    exact ⟨hlike.eq, hallowed⟩
  · rintro ⟨rfl, hallowed⟩
    exact ⟨Value.like_self (fun _ => rfl) _, hallowed⟩

theorem bindings_iff {entry entry' : String × Value} :
    R.accord.bindings store entry entry' ↔ entry' = entry ∧ R.allowed store entry.2 := by
  obtain ⟨name, value⟩ := entry
  obtain ⟨name', value'⟩ := entry'
  simp [Accord.bindings, Bindings.LikeEntry, values_iff, and_assoc]

theorem forall₂_iff_of_same
    {α : Type} {r : α → α → Prop} {p : α → Prop} {xs ys : List α} (h : ∀ x y, r x y ↔ y = x ∧ p x) :
    List.Forall₂ r xs ys ↔ ys = xs ∧ ∀ x ∈ xs, p x := by
  induction xs generalizing ys with
  | nil => simp
  | cons x xs ih =>
    rw [List.forall₂_cons_left_iff]
    constructor
    · rintro ⟨y, ys, hfirst, hmore, rfl⟩
      obtain ⟨rfl, hholds⟩ := (h x y).mp hfirst
      obtain ⟨rfl, hholdsMore⟩ := ih.mp hmore
      exact ⟨rfl, List.forall_mem_cons.mpr ⟨hholds, hholdsMore⟩⟩
    · rintro ⟨rfl, hholds⟩
      obtain ⟨hfirst, hmore⟩ := List.forall_mem_cons.mp hholds
      exact ⟨x, xs, (h x x).mpr ⟨rfl, hfirst⟩, ih.mpr ⟨rfl, hmore⟩, rfl⟩

theorem forall₂_values_iff {values values' : List Value} :
    List.Forall₂ (R.accord.values store) values values' ↔
      values' = values ∧ ∀ value ∈ values, R.allowed store value :=
  forall₂_iff_of_same fun _ _ => values_iff

theorem forall₂_bindings_iff {entries entries' : Bindings Value} :
    List.Forall₂ (R.accord.bindings store) entries entries' ↔
      entries' = entries ∧ ∀ entry ∈ entries, R.allowed store entry.2 :=
  forall₂_iff_of_same fun _ _ => bindings_iff

theorem mem_values_put
    {bindings : Bindings Value} {name : String} {value held : Value}
    (hmem : held ∈ (bindings.put name value).map Prod.snd) :
    held ∈ bindings.map Prod.snd ∨ held = value := by
  induction bindings with
  | nil =>
    right
    simpa [Bindings.put] using hmem
  | cons entry later ih =>
    obtain ⟨key, bound⟩ := entry
    rw [Bindings.put] at hmem
    split at hmem
    · rcases List.mem_cons.mp hmem with rfl | hlater
      · exact .inr rfl
      · exact .inl (List.mem_cons_of_mem _ hlater)
    · rcases List.mem_cons.mp hmem with rfl | hlater
      · exact .inl List.mem_cons_self
      · exact (ih hlater).imp_left (List.mem_cons_of_mem _)

namespace Laws

variable (hlaws : R.Laws)

include hlaws

theorem allowed_mono {value : Value} (hgrows : store.Grows store') (h : R.allowed store value) :
    R.allowed store' value :=
  ⟨h.1, fun place hnamed => hlaws.inside_mono hgrows (h.2 place hnamed)⟩

theorem allowed_plain {value : Value} (hplain : value.IsPlain) : R.allowed store value := by
  refine ⟨hlaws.fits ?_, fun place hnamed => ?_⟩
  · rintro name target rfl
    cases hplain
  · rw [hplain.place?] at hnamed
    cases hnamed

theorem allowed_array {id : ArrayId} :
    R.allowed store (.array id) ↔ R.inside store (.array id) := by
  refine ⟨fun h => h.2 _ rfl, fun h => ⟨hlaws.fits nofun, ?_⟩⟩
  rintro place ⟨⟩
  exact h

theorem allowed_map {id : MapId} : R.allowed store (.map id) ↔ R.inside store (.map id) := by
  refine ⟨fun h => h.2 _ rfl, fun h => ⟨hlaws.fits nofun, ?_⟩⟩
  rintro place ⟨⟩
  exact h

theorem allowed_closure {closure : Closure} :
    R.allowed store (.closure closure) ↔ R.inside store (.scope closure.scope) := by
  refine ⟨fun h => h.2 _ rfl, fun h => ⟨hlaws.fits nofun, ?_⟩⟩
  rintro place ⟨⟩
  exact h

/-! ## Steps keep a region closed -/

theorem closed_of_step
    (hclosed : R.Closed store) (hgrows : store.Grows store')
    (hstep : ∀ place cell, R.inside store' place → store'.at? place = some cell →
      store.at? place = some cell ∨
        (∀ id, cell.parent? = some id → R.inside store' (.scope id)) ∧
          ∀ value ∈ cell.values, R.allowed store' value) :
    R.Closed store' := by
  have hold {place : Place} {cell : Cell} (hinside : R.inside store' place)
      (hfound : store.at? place = some cell) : R.inside store place :=
    hlaws.inside_old hgrows (Store.has_of_at? hfound) hinside
  constructor
  · intro id parent cell hinside hfound hparent
    rcases hstep _ cell hinside hfound with hunchanged | ⟨hparents, -⟩
    · exact hlaws.inside_mono hgrows (hclosed.parent (hold hinside hunchanged) hunchanged hparent)
    · exact hparents parent hparent
  · intro place cell value hinside hfound hheld
    rcases hstep place cell hinside hfound with hunchanged | ⟨-, hvalues⟩
    · exact hlaws.allowed_mono hgrows (hclosed.value (hold hinside hunchanged) hunchanged hheld)
    · exact hvalues value hheld

theorem closed_newScope
    {parent : ScopeId} (hclosed : R.Closed store) (hinside : R.inside store (.scope parent)) :
    R.Closed (store.newScope (some parent)).2 := by
  have hgrows := store.grows_newScope (some parent)
  refine hlaws.closed_of_step hclosed hgrows fun place cell _ hfound => ?_
  rw [Store.at?_newScope] at hfound
  split at hfound
  · cases hfound
    refine .inr ⟨?_, nofun⟩
    rintro id ⟨⟩
    exact hlaws.inside_mono hgrows hinside
  · exact .inl hfound

theorem closed_define
    {id : ScopeId} {value : Value}
    (hclosed : R.Closed store) (hinside : R.inside store (.scope id))
    (hallowed : R.allowed store value) (name : String) :
    R.Closed (store.define id name value) := by
  have hgrows := store.grows_define id name value
  refine hlaws.closed_of_step hclosed hgrows fun place cell _ hfound => ?_
  rw [Store.at?_define] at hfound
  split at hfound
  · obtain ⟨scope, hscope, rfl⟩ := Option.map_eq_some_iff.mp hfound
    have hbefore := Store.at?_scope hscope
    refine .inr ⟨fun parent hparent => ?_, fun held hmem => ?_⟩
    · exact hlaws.inside_mono hgrows (hclosed.parent hinside hbefore hparent)
    · rcases mem_values_put hmem with hold | rfl
      · exact hlaws.allowed_mono hgrows (hclosed.value hinside hbefore hold)
      · exact hlaws.allowed_mono hgrows hallowed
  · exact .inl hfound

theorem closed_newArray
    {items : Array Value}
    (hclosed : R.Closed store) (hallowed : ∀ value ∈ items.toList, R.allowed store value) :
    R.Closed (store.newArray items).2 := by
  have hgrows := store.grows_newArray items
  refine hlaws.closed_of_step hclosed hgrows fun place cell _ hfound => ?_
  rw [Store.at?_newArray] at hfound
  split at hfound
  · cases hfound
    exact .inr ⟨nofun, fun value hmem => hlaws.allowed_mono hgrows (hallowed value hmem)⟩
  · exact .inl hfound

theorem closed_newMap
    {entries : Bindings Value}
    (hclosed : R.Closed store) (hallowed : ∀ entry ∈ entries, R.allowed store entry.2) :
    R.Closed (store.newMap entries).2 := by
  have hgrows := store.grows_newMap entries
  refine hlaws.closed_of_step hclosed hgrows fun place cell _ hfound => ?_
  rw [Store.at?_newMap] at hfound
  split at hfound
  · cases hfound
    refine .inr ⟨nofun, fun value hmem => ?_⟩
    obtain ⟨entry, hentry, rfl⟩ := List.mem_map.mp hmem
    exact hlaws.allowed_mono hgrows (hallowed entry hentry)
  · exact .inl hfound

theorem closed_setItem
    {id : ArrayId} {value : Value}
    (hclosed : R.Closed store) (hinside : R.inside store (.array id))
    (hallowed : R.allowed store value) (index : Nat) :
    R.Closed (store.setItem id index value) := by
  have hgrows := store.grows_write (.item id index) value
  refine hlaws.closed_of_step hclosed hgrows fun place cell _ hfound => ?_
  rw [Store.at?_setItem] at hfound
  split at hfound
  · obtain ⟨items, harray, rfl⟩ := Option.map_eq_some_iff.mp hfound
    have hbefore : store.at? (.array id) = some (.array items) := by
      rw [Store.at?, harray, Option.map_some]
    refine .inr ⟨fun _ hparent => (by cases hparent), fun held hmem => ?_⟩
    simp only [Cell.values, Array.toList_setIfInBounds] at hmem
    rcases List.mem_or_eq_of_mem_set hmem with hold | rfl
    · exact hlaws.allowed_mono hgrows (hclosed.value hinside hbefore hold)
    · exact hlaws.allowed_mono hgrows hallowed
  · exact .inl hfound

theorem closed_setEntry
    {id : MapId} {value : Value}
    (hclosed : R.Closed store) (hinside : R.inside store (.map id))
    (hallowed : R.allowed store value) (key : String) :
    R.Closed (store.setEntry id key value) := by
  have hgrows := store.grows_write (.entry id key) value
  refine hlaws.closed_of_step hclosed hgrows fun place cell _ hfound => ?_
  rw [Store.at?_setEntry] at hfound
  split at hfound
  · obtain ⟨entries, hmap, rfl⟩ := Option.map_eq_some_iff.mp hfound
    have hbefore : store.at? (.map id) = some (.map entries) := by
      rw [Store.at?, hmap, Option.map_some]
    refine .inr ⟨fun _ hparent => (by cases hparent), fun held hmem => ?_⟩
    rcases mem_values_put hmem with hold | rfl
    · exact hlaws.allowed_mono hgrows (hclosed.value hinside hbefore hold)
    · exact hlaws.allowed_mono hgrows hallowed
  · exact .inl hfound

end Laws

/-! ## Names -/

theorem inside_home
    {name : String} {id home : ScopeId}
    (hclosed : R.Closed store) (hinside : R.inside store (.scope id))
    (hfound : store.home? name id = some home) :
    R.inside store (.scope home) := by
  fun_induction Store.home? store name id with
  | case1 | case3 | case5 => cases hfound
  | case2 id scope hscope hbinds =>
    cases hfound
    exact hinside
  | case4 id scope hscope _ parent hparent _ ih =>
    exact ih (hclosed.parent hinside (Store.at?_scope hscope) hparent) hfound

theorem binds_home {name : String} {id home : ScopeId} (hfound : store.home? name id = some home) :
    (store.own home).binds name = true := by
  fun_induction Store.home? store name id with
  | case1 | case3 | case5 => cases hfound
  | case2 id scope hscope hbinds =>
    cases hfound
    rw [Store.own, hscope]
    exact hbinds
  | case4 id scope hscope _ parent hparent _ ih => exact ih hfound

theorem allowed_of_lookup?
    {name : String} {id : ScopeId} {value : Value}
    (hclosed : R.Closed store) (hinside : R.inside store (.scope id))
    (hfound : store.lookup? id name = some value) :
    R.allowed store value := by
  unfold Store.lookup? at hfound
  split at hfound
  case h_2 => cases hfound
  case h_1 home hhome =>
    unfold Store.own at hfound
    split at hfound
    case h_2 => cases hfound
    case h_1 scope hscope =>
      exact hclosed.value (inside_home hclosed hinside hhome) (Store.at?_scope hscope)
        (Store.mem_of_get? hfound)

/-! ## Runs in a region -/

theorem alike_of_quiet
    {α : Type} {holds : α → Prop} {results : Store → α → α → Prop} {run : Run α} {start : Store}
    (hquiet : Run.Quiet holds run) (h : ∀ store value, holds value → results store value value) :
    R.accord.Alike results start run run := by
  rintro _ state hgrows ⟨rfl, hkept⟩
  have hends := hquiet state
  generalize run state = result at hends ⊢
  have hkeptAfter {after : State} (hsameStore : after.store = state.store)
      (hsameActive : after.active = state.active) : R.accord.states after after := by
    refine ⟨rfl, ?_, ?_⟩
    · rw [hsameStore]
      exact hkept.closed
    · rw [hsameStore, hsameActive]
      exact hkept.intact
  cases hends with
  | ok hsameStore hsameActive hvalue =>
    refine .ok ?_ (hkeptAfter hsameStore hsameActive) (h _ _ hvalue)
    rw [hsameStore]
    exact .refl _
  | error hsameStore hsameActive =>
    refine .error ?_ (hkeptAfter hsameStore hsameActive) (Halt.like_self _)
    rw [hsameStore]
    exact .refl _

theorem events_eq {event event' : Event} (h : R.accord.events store event event') :
    event' = event := by
  cases h with
  | enter | defineFunction => rfl
  | leave _ hvalues | define _ hvalues | condition hvalues => rw [(values_iff.mp hvalues).1]
  | select hvalues hsameOffset =>
    rw [(values_iff.mp hvalues).1, show _ = _ from hsameOffset]
  | call hvalues hargs => rw [(values_iff.mp hvalues).1, (forall₂_values_iff.mp hargs).1]

namespace Laws

variable (hlaws : R.Laws)

include hlaws

theorem kept_assign
    {s : State} {id : ScopeId} {value : Value}
    (hkept : R.Kept s) (hinside : R.inside s.store (.scope id)) (hallowed : R.allowed s.store value)
    (name : String) :
    R.Kept { s with store := (s.store.assign id name value).2 } := by
  unfold Store.assign
  split
  case h_2 => exact hkept
  case h_1 home hhome =>
    have hinsideHome := inside_home hkept.closed hinside hhome
    exact ⟨hlaws.closed_define hkept.closed hinsideHome hallowed name,
      hlaws.define hkept.intact hinsideHome (.inr (binds_home hhome))⟩

theorem accord (setting : Setting) :
    R.accord.Laws setting setting where
  limits := rfl
  allowed_mono := hlaws.allowed_mono
  reads_mono := hlaws.inside_mono
  defines_mono := fun hgrows h => ⟨hlaws.inside_mono hgrows h.1, h.2⟩
  plain := hlaws.allowed_plain
  closure := fun hinside => hlaws.allowed_closure.mpr hinside
  scope_of_closure := hlaws.allowed_closure.mp
  sizes := by
    rintro s _ ⟨rfl, -⟩
    exact ⟨rfl, rfl, rfl⟩
  newScope := by
    rintro s _ parent ⟨rfl, hkept⟩ hinside
    obtain ⟨hintact, hisInside, hbinds⟩ := hlaws.newScope hkept.intact hinside
    exact ⟨⟨rfl, hlaws.closed_newScope hkept.closed hinside, hintact⟩, hisInside, hisInside, hbinds⟩
  define := by
    rintro s _ id name value _ ⟨rfl, hkept⟩ ⟨hinside, hbinds⟩ hvalues
    obtain ⟨rfl, hallowed⟩ := values_iff.mp hvalues
    exact ⟨rfl, hlaws.closed_define hkept.closed hinside hallowed name,
      hlaws.define hkept.intact hinside (.inl hbinds)⟩
  assign := by
    rintro s _ id name value _ ⟨rfl, hkept⟩ hinside hvalues
    obtain ⟨rfl, hallowed⟩ := values_iff.mp hvalues
    exact ⟨rfl, hlaws.kept_assign hkept hinside hallowed name⟩
  lookup := by
    rintro _ s id name ⟨rfl, hkept⟩ hinside
    cases hfound : s.store.lookup? id name with
    | none => exact .none
    | some value =>
      exact .some (values_iff.mpr ⟨rfl, allowed_of_lookup? hkept.closed hinside hfound⟩)
  newArray := by
    rintro s _ items _ ⟨rfl, hkept⟩ hvalues
    obtain ⟨rfl, hallowed⟩ := forall₂_values_iff.mp hvalues
    obtain ⟨hintact, hinside⟩ := hlaws.newArray hkept.intact
    exact ⟨⟨rfl, hlaws.closed_newArray hkept.closed hallowed, hintact⟩,
      hlaws.allowed_array.mpr hinside⟩
  newMap := by
    rintro s _ entries _ ⟨rfl, hkept⟩ hvalues
    obtain ⟨rfl, hallowed⟩ := forall₂_bindings_iff.mp hvalues
    obtain ⟨hintact, hinside⟩ := hlaws.newMap hkept.intact
    exact ⟨⟨rfl, hlaws.closed_newMap hkept.closed hallowed, hintact⟩, hlaws.allowed_map.mpr hinside⟩
  items := by
    rintro s _ id ⟨rfl, hkept⟩ hallowed
    refine forall₂_values_iff.mpr ⟨rfl, fun value hmem => ?_⟩
    obtain ⟨cell, hfound, hheld⟩ := Store.exists_cell_of_mem_items hmem
    exact hkept.closed.value (hlaws.allowed_array.mp hallowed) hfound hheld
  entries := by
    rintro s _ id ⟨rfl, hkept⟩ hallowed
    refine forall₂_bindings_iff.mpr ⟨rfl, fun entry hmem => ?_⟩
    obtain ⟨cell, hfound, hheld⟩ := Store.exists_cell_of_mem_entries
      (List.mem_map_of_mem hmem)
    exact hkept.closed.value (hlaws.allowed_map.mp hallowed) hfound hheld
  setItem := by
    rintro s _ id index value _ ⟨rfl, hkept⟩ harray hvalues
    obtain ⟨rfl, hallowed⟩ := values_iff.mp hvalues
    have hinside := hlaws.allowed_array.mp harray
    exact ⟨rfl, hlaws.closed_setItem hkept.closed hinside hallowed index,
      hlaws.setItem hkept.intact hinside⟩
  setEntry := by
    rintro s _ id key value _ ⟨rfl, hkept⟩ hmap hvalues
    obtain ⟨rfl, hallowed⟩ := values_iff.mp hvalues
    have hinside := hlaws.allowed_map.mp hmap
    exact ⟨rfl, hlaws.closed_setEntry hkept.closed hinside hallowed key,
      hlaws.setEntry hkept.intact hinside⟩
  view := by
    rintro s _ value _ ⟨rfl, -⟩ hvalues
    rw [(values_iff.mp hvalues).1]
  output := by
    rintro s _ text ⟨rfl, hkept⟩
    exact ⟨rfl, hkept.closed, hkept.intact⟩
  record := by
    rintro store event event' offset _ hevents rfl
    rw [events_eq hevents]
    exact alike_of_quiet (Run.quiet_record setting _ _ event) fun _ _ _ => trivial
  readFile := fun path =>
    alike_of_quiet (Run.quiet_readFile setting path) fun _ _ hplain =>
      values_iff.mpr ⟨rfl, hlaws.allowed_plain hplain⟩

end Laws

/-! ## Whole runs -/

theorem kept_of_ends
    {α : Type} {results : Store → α → α → Prop} {run : Run α} {s : State}
    (halike : R.accord.Alike results s.store run run) (hkept : R.Kept s) :
    s.store.Grows (run.final s).store ∧ R.Kept (run.final s) := by
  have hends := halike s s (.refl _) ⟨rfl, hkept⟩
  unfold Run.final
  generalize run s = result at hends ⊢
  cases hends with
  | ok hgrows hstates _ => exact ⟨hgrows, hstates.2⟩
  | error hgrows hstates _ => exact ⟨hgrows, hstates.2⟩

theorem results_of_ok
    {α : Type} {results : Store → α → α → Prop} {run : Run α} {s s' : State} {value : α}
    (halike : R.accord.Alike results s.store run run) (hkept : R.Kept s)
    (hran : run s = .ok value s') :
    results s'.store value value := by
  have hends := halike s s (.refl _) ⟨rfl, hkept⟩
  rw [hran] at hends
  cases hends with
  | ok _ _ hresults => exact hresults

/-- Sections may be entered in a region that has the root scope inside. -/
theorem opens
    {setting : Setting}
    (hanyActive : ∀ {store active active'}, R.intact store active → R.intact store active')
    (hroot : ∀ {s}, R.Kept s → R.inside s.store (.scope rootScope) ∧ R.binds rootScope) :
    R.accord.Opens setting setting where
  sections :=
    Accord.rel_find? (List.forall₂_same.mpr fun part _ => Section.like_self (fun _ => rfl) part)
  active := by
    rintro s _ ⟨rfl, -⟩
    rfl
  mark := by
    rintro s _ active ⟨rfl, hkept⟩
    exact ⟨rfl, hkept.closed, hanyActive hkept.intact⟩
  root := by
    rintro s _ ⟨rfl, hkept⟩
    obtain ⟨hinside, hbinds⟩ := hroot hkept
    exact ⟨hinside, hinside, hbinds⟩

/-- No section is entered in a region where one is being evaluated. -/
theorem enters_of_busy
    (hbusy : ∀ {store active}, R.intact store active → active.isSome) (setting : Setting) :
    R.accord.Enters setting setting := by
  intro store name target body body' _ _
  unfold Run.guardSection
  cases setting.sections.find? (·.name == target) with
  | none => exact Accord.alike_fail _
  | some part =>
    refine Accord.alike_get_bind fun state state' _ hstates => ?_
    obtain ⟨rfl, hkept⟩ := hstates
    obtain ⟨active, hactive⟩ := Option.isSome_iff_exists.mp (hbusy hkept.intact)
    rw [hactive]
    exact Accord.alike_fail _

end Region

end PuzzleLang
