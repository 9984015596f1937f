import PuzzleLang.Proofs.Policy.Session
import PuzzleLang.Proofs.Session.Confinement
import PuzzleLang.Proofs.Session.Scoping

/-!
# Containers

A run changes the store by few kinds of steps only: it makes scopes, arrays and maps, binds names
and writes items and entries.  No such step changes the size of an array, and none takes a key from
a map or changes the order of its keys; so none of this happens in any run.  The standard functions
do even less: they make at most one array and change nothing that is there, and the array they give
is a new one.
-/

namespace PuzzleLang

/-! ## Steps of a store -/

namespace Store

/-- A single change of the store. -/
inductive Step : Store → Store → Prop
  | newScope (store : Store) (parent : ScopeId) : Step store (store.newScope (some parent)).2
  | newArray (store : Store) (items : Array Value) : Step store (store.newArray items).2
  | newMap (store : Store) (entries : Bindings Value) : Step store (store.newMap entries).2
  | define (store : Store) (id : ScopeId) (name : String) (value : Value) :
    Step store (store.define id name value)
  | setItem (store : Store) (id : ArrayId) (index : Nat) (value : Value) :
    Step store (store.setItem id index value)
  | setEntry (store : Store) (id : MapId) (key : String) (value : Value) :
    Step store (store.setEntry id key value)

/-- One store becomes another by single changes. -/
def Evolves : Store → Store → Prop :=
  Relation.ReflTransGen Step

/-- Every array has kept its size, and every map its keys in their order, before any new ones. -/
structure Steady (before after : Store) : Prop where
  array {id : ArrayId} {items : Array Value} :
    before.at? (.array id) = some (.array items) →
      ∃ items', after.at? (.array id) = some (.array items') ∧ items'.size = items.size
  map {id : MapId} {entries : Bindings Value} :
    before.at? (.map id) = some (.map entries) →
      ∃ entries', after.at? (.map id) = some (.map entries') ∧ entries.names <+: entries'.names

variable {before store store' : Store}

theorem Steady.refl (store : Store) :
    store.Steady store where
  array hfound := ⟨_, hfound, rfl⟩
  map hfound := ⟨_, hfound, List.prefix_rfl⟩

theorem Steady.trans (h : before.Steady store) (h' : store.Steady store') :
    before.Steady store' := by
  constructor
  · intro id items hfound
    obtain ⟨items', hfound', hsame⟩ := h.array hfound
    obtain ⟨items'', hfound'', hsame'⟩ := h'.array hfound'
    exact ⟨items'', hfound'', hsame'.trans hsame⟩
  · intro id entries hfound
    obtain ⟨entries', hfound', hkeeps⟩ := h.map hfound
    obtain ⟨entries'', hfound'', hkeeps'⟩ := h'.map hfound'
    exact ⟨entries'', hfound'', hkeeps.trans hkeeps'⟩

/-- Arrays and maps that are left as they are have kept their sizes and keys. -/
theorem steady_of_same
    (harrays : ∀ id, store.Has (.array id) → store'.at? (.array id) = store.at? (.array id))
    (hmaps : ∀ id, store.Has (.map id) → store'.at? (.map id) = store.at? (.map id)) :
    store.Steady store' := by
  constructor
  · intro id items hfound
    exact ⟨items, (harrays id (has_of_at? hfound)).trans hfound, rfl⟩
  · intro id entries hfound
    exact ⟨entries, (hmaps id (has_of_at? hfound)).trans hfound, List.prefix_rfl⟩

theorem at?_newArray_of_has {place : Place} (hhas : store.Has place) (items : Array Value) :
    (store.newArray items).2.at? place = store.at? place := by
  rw [at?_newArray, if_neg]
  rintro rfl
  exact Nat.lt_irrefl _ (has_array.mp hhas)

theorem at?_newMap_of_has {place : Place} (hhas : store.Has place) (entries : Bindings Value) :
    (store.newMap entries).2.at? place = store.at? place := by
  rw [at?_newMap, if_neg]
  rintro rfl
  exact Nat.lt_irrefl _ (has_map.mp hhas)

theorem steady_setItem (store : Store) (id : ArrayId) (index : Nat) (value : Value) :
    store.Steady (store.setItem id index value) := by
  constructor
  · intro id' items hfound
    rw [at?_setItem]
    by_cases hsame : id' = id
    · subst hsame
      obtain ⟨items', harray, hitems⟩ := Option.map_eq_some_iff.mp hfound
      cases hitems
      refine ⟨items.setIfInBounds index value, ?_, Array.size_setIfInBounds⟩
      rw [if_pos rfl, harray, Option.map_some]
    · refine ⟨items, ?_, rfl⟩
      rw [if_neg fun h => hsame (Place.array.inj h), hfound]
  · intro id' entries hfound
    exact ⟨entries, hfound, List.prefix_rfl⟩

theorem steady_setEntry (store : Store) (id : MapId) (key : String) (value : Value) :
    store.Steady (store.setEntry id key value) := by
  constructor
  · intro id' items hfound
    exact ⟨items, hfound, rfl⟩
  · intro id' entries hfound
    rw [at?_setEntry]
    by_cases hsame : id' = id
    · subst hsame
      obtain ⟨entries', hmap, hentries⟩ := Option.map_eq_some_iff.mp hfound
      cases hentries
      refine ⟨entries.put key value, ?_, Bindings.names_prefix_put entries key value⟩
      rw [if_pos rfl, hmap, Option.map_some]
    · refine ⟨entries, ?_, List.prefix_rfl⟩
      rw [if_neg fun h => hsame (Place.map.inj h), hfound]

theorem Step.steady (h : Step store store') : store.Steady store' := by
  cases h with
  | newScope | define => exact steady_of_same (fun _ _ => rfl) fun _ _ => rfl
  | newArray items =>
    exact steady_of_same (fun _ hhas => at?_newArray_of_has hhas items) fun _ _ => rfl
  | newMap entries =>
    exact steady_of_same (fun _ _ => rfl) fun _ hhas => at?_newMap_of_has hhas entries
  | setItem id index value => exact steady_setItem store id index value
  | setEntry id key value => exact steady_setEntry store id key value

theorem Evolves.steady (h : store.Evolves store') : store.Steady store' := by
  induction h with
  | refl => exact .refl store
  | tail _ hstep ih => exact ih.trans hstep.steady

end Store

/-! ## Runs -/

/-- The region of everything, where the store has come about by single changes. -/
def Region.evolution (before : Store) : Region where
  inside _ _ := True
  fits _ := True
  binds _ := True
  intact store _ := before.Evolves store

namespace Region

variable {before : Store}

theorem evolution_laws : (evolution before).Laws where
  inside_mono _ _ := trivial
  inside_old _ _ _ := trivial
  fits _ := trivial
  newScope hevolved _ := ⟨hevolved.tail (.newScope _ _), trivial, trivial⟩
  newArray hevolved := ⟨hevolved.tail (.newArray _ _), trivial⟩
  newMap hevolved := ⟨hevolved.tail (.newMap _ _), trivial⟩
  define hevolved _ _ := hevolved.tail (.define _ _ _ _)
  setItem hevolved _ := hevolved.tail (.setItem _ _ _ _)
  setEntry hevolved _ := hevolved.tail (.setEntry _ _ _ _)

theorem kept_evolution {state : State} (hevolved : before.Evolves state.store) :
    (evolution before).Kept state :=
  ⟨⟨fun _ _ _ => trivial, fun _ _ _ => ⟨trivial, fun _ _ => trivial⟩⟩, hevolved⟩

theorem evolution_opens (setting : Setting) : (evolution before).accord.Opens setting setting :=
  opens id fun _ => ⟨trivial, trivial⟩

end Region

theorem Run.evolves_of_alike
    {α : Type} {results : Store → α → α → Prop} {run : Run α} {state : State}
    (halike : (Region.evolution state.store).accord.Alike results state.store run run) :
    state.store.Evolves (run.final state).store :=
  (Region.kept_of_ends halike (Region.kept_evolution .refl)).2.intact

section

variable (setting : Setting) (depth : Nat) (state : State)

theorem evolution_callees :
    Callees.Alike (Region.evolution state.store).accord (.within setting depth)
      (.within setting depth) :=
  Region.evolution_laws.callees_alike (Region.evolution_opens setting) depth

theorem evolves_evaluate (e : Expr) (scope : ScopeId) :
    state.store.Evolves ((evaluate setting (.within setting depth) e scope).final state).store :=
  Run.evolves_of_alike (Accord.alike_evaluate (Region.evolution_laws.accord setting)
    (evolution_callees setting depth state) (Expr.like_self (fun _ => rfl) e)
    ⟨trivial, trivial, trivial⟩)

theorem evolves_execute (statement : Stmt) (scope : ScopeId) :
    state.store.Evolves
      ((execute setting (.within setting depth) statement scope).final state).store :=
  Run.evolves_of_alike (Accord.alike_execute (Region.evolution_laws.accord setting)
    (evolution_callees setting depth state) (Stmt.like_self (fun _ => rfl) statement)
    ⟨trivial, trivial, trivial⟩)

theorem evolves_callFunction (offset : Nat) (closure : Closure) (args : List Value) :
    state.store.Evolves
      ((Run.callFunction setting depth offset closure args).final state).store := by
  have hallowed (value : Value) : (Region.evolution state.store).allowed state.store value :=
    ⟨trivial, fun _ _ => trivial⟩
  exact Run.evolves_of_alike ((evolution_callees setting depth state).call rfl
    (Region.values_iff.mpr ⟨rfl, hallowed _⟩)
    (Region.forall₂_values_iff.mpr ⟨rfl, fun value _ => hallowed value⟩))

theorem evolves_enterSection (name : String) :
    state.store.Evolves ((Run.enterSection setting depth name).final state).store :=
  Run.evolves_of_alike ((Region.evolution_laws.accord setting).alike_enterSection
    (Region.evolution_opens setting) depth name)

end

theorem Session.evolves_load (program : Program) (level : Int) (files : Files) (limits : Limits) :
    Store.initial.Evolves (Session.load program level files limits).2.state.store := by
  have hlikes : List.Forall₂ (Item.Like Eq) program.items program.items :=
    List.forall₂_same.mpr fun item _ => Item.like_self (fun _ => rfl) item
  let setting := Setting.ofProgram program level files limits
  rw [Session.load, Session.state_perform]
  change State.initial.store.Evolves ((Run.loadItems setting [] program.items).final .initial).store
  exact Run.evolves_of_alike ((Region.evolution_laws.accord setting).alike_loadItems hlikes
    ⟨trivial, trivial, trivial⟩ [])

theorem Session.evolves_handle (session : Session) (request : Request) :
    session.state.store.Evolves (session.handle request).2.state.store := by
  cases request with
  | readInput text =>
    change session.state.store.Evolves (session.perform (Run.readInput text)).2.state.store
    rw [Session.state_perform]
    exact Run.evolves_of_alike ((Region.evolution_laws.accord session.setting).alike_readInput
      ⟨trivial, trivial, trivial⟩ text)
  | evaluate name =>
    change session.state.store.Evolves (session.evaluate name).2.state.store
    rw [Session.evaluate, Session.state_perform]
    exact evolves_enterSection _ _ _ name

theorem Session.evolves_after (session : Session) (requests : List Request) :
    session.state.store.Evolves (session.after requests).state.store := by
  induction requests generalizing session with
  | nil => exact .refl
  | cons request requests ih => exact (session.evolves_handle request).trans (ih _)

/-! ## Native functions -/

namespace Native

/-- Whether a native function gives an array. -/
def givesArray : Native → Bool
  | push | slice | delete | sort | split => true
  | _ => false

/-- What a call of a standard function can do to the store: it gives an array that it has made, or
it leaves the store as it is. -/
inductive Effect (native : Native) (store : Store) : EStateM.Result Halt State Value → Prop
  | array {items : Array Value} {state : State} :
    state.store = (store.newArray items).2 →
      Effect native store (.ok (store.newArray items).1 state)
  | value {value : Value} {state : State} :
    native.givesArray = false → state.store = store → Effect native store (.ok value state)
  | halted {halt : Halt} {state : State} :
    state.store = store → Effect native store (.error halt state)

theorem quiet_line (args : List Value) : Run.Quiet (fun _ => True) (line args) := by
  have htext (value : Value) : Run.Quiet (fun _ => True) (Run.text value) := by
    refine Run.quiet_get_bind fun state => ?_
    cases state.store.text? value with
    | some text => exact .ok rfl rfl trivial
    | none => exact .error rfl rfl
  have htexts : Run.Quiet (fun _ => True) (args.mapM Run.text) := by
    induction args with
    | nil => exact Run.quiet_pure trivial
    | cons arg args ih =>
      rw [List.mapM_cons]
      exact (htext arg).bind fun _ _ => ih.bind fun _ _ => Run.quiet_pure trivial
  exact htexts.bind fun _ _ => Run.quiet_pure trivial

/-- A standard function that gives no array changes nothing in the store. -/
theorem quiet_perform
    {native : Native}
    (hstandard : native ∈ Native.standard) (hnoArray : native.givesArray = false)
    (setting : Setting) (enter : String → Run Value) (args : List Value) :
    Run.Quiet (fun _ => True) (native.perform setting enter args) := by
  have hprints (text : String → String) : Run.Quiet (fun _ => True) (do
      Run.write (text (← line args))
      return Value.nil) :=
    (quiet_line args).bind fun _ _ _ => .ok rfl rfl trivial
  unfold perform
  split
  case h_1 => exact hprints id
  case h_2 => exact hprints (· ++ "\n")
  case h_3 text =>
    split
    · exact Run.quiet_pure trivial
    · exact Run.quiet_pure trivial
  case h_5 =>
    refine Run.quiet_get_bind fun state => ?_
    cases length state.store args with
    | ok value => exact .ok rfl rfl trivial
    | error cause => exact .error rfl rfl
  case h_4 | h_6 | h_7 | h_8 | h_11 => cases hnoArray
  case h_9 | h_10 | h_12 | h_15 => exact Run.quiet_pure trivial
  case h_13 path =>
    intro state
    have hleaves := Run.quiet_readFile setting path state
    generalize readFile setting path state = result at hleaves ⊢
    cases hleaves with
    | ok hsameStore hsameActive => exact .ok hsameStore hsameActive trivial
    | error hsameStore hsameActive => exact .error hsameStore hsameActive
  case h_14 => simp [Native.standard] at hstandard

theorem effect_newArray (native : Native) (state : State) (items : List Value) :
    Effect native state.store (Run.newArray items state) :=
  .array rfl

theorem effect_newArray_of_lift
    (native : Native) (state : State) (result : Except Cause (List Value)) :
    Effect native state.store ((do Run.newArray (← Run.lift result)) state) := by
  cases result with
  | ok items => exact effect_newArray native state items
  | error cause => exact .halted rfl

/-- The other functions give a new array, as their arguments pass the check. -/
theorem effect_perform
    {native : Native} {args : List Value}
    (hgives : native.givesArray = true) (hpassed : native.check args = .ok ()) (setting : Setting)
    (enter : String → Run Value) (state : State) :
    Effect native state.store (native.perform setting enter args state) := by
  have hlike (value : Value) : Value.Like Eq value value := Value.like_self (fun _ => rfl) value
  cases native with
  | split =>
    obtain _ | ⟨hfirst, _ | ⟨hsecond, _ | _⟩⟩ := fitsTag_of_check rfl hpassed
    obtain ⟨text, rfl, -⟩ := (hlike _).string_of_fits hfirst
    obtain ⟨separator, rfl, -⟩ := (hlike _).string_of_fits hsecond
    exact effect_newArray _ state _
  | push =>
    obtain _ | ⟨hfirst, _ | ⟨_, _ | _⟩⟩ := fitsTag_of_check rfl hpassed
    obtain ⟨id, rfl, -⟩ := (hlike _).array_of_fits hfirst
    exact effect_newArray _ state _
  | slice =>
    obtain _ | ⟨hfirst, _ | ⟨hsecond, _ | ⟨hthird, _ | _⟩⟩⟩ := fitsTag_of_check rfl hpassed
    obtain ⟨id, rfl, -⟩ := (hlike _).array_of_fits hfirst
    obtain ⟨start, rfl, -⟩ := (hlike _).number_of_fits hsecond
    obtain ⟨stop, rfl, -⟩ := (hlike _).number_of_fits hthird
    exact effect_newArray_of_lift _ state (sliced (state.store.items id) start stop)
  | delete =>
    obtain _ | ⟨hfirst, _ | ⟨hsecond, _ | _⟩⟩ := fitsTag_of_check rfl hpassed
    obtain ⟨id, rfl, -⟩ := (hlike _).array_of_fits hfirst
    obtain ⟨index, rfl, -⟩ := (hlike _).number_of_fits hsecond
    exact effect_newArray _ state _
  | sort =>
    obtain _ | ⟨hfirst, _ | _⟩ := fitsTag_of_check rfl hpassed
    obtain ⟨id, rfl, -⟩ := (hlike _).array_of_fits hfirst
    exact effect_newArray_of_lift _ state (sorted (state.store.items id).toList)
  | _ => cases hgives

theorem effect_call
    {native : Native}
    (hstandard : native ∈ Native.standard) (setting : Setting) (enter : String → Run Value)
    (args : List Value) (state : State) :
    Effect native state.store (native.call setting enter args state) := by
  unfold call
  cases hpassed : native.check args with
  | error cause => exact .halted rfl
  | ok =>
    change Effect native state.store (native.perform setting enter args state)
    cases hgives : native.givesArray with
    | true => exact effect_perform hgives hpassed setting enter state
    | false =>
      have hleaves := quiet_perform hstandard hgives setting enter args state
      generalize native.perform setting enter args state = result at hleaves ⊢
      cases hleaves with
      | ok hsameStore => exact .value hgives hsameStore
      | error hsameStore => exact .halted hsameStore

/-- A standard function leaves everything that is there as it is. -/
theorem at?_final_call
    {native : Native} {state : State} {place : Place}
    (hstandard : native ∈ Native.standard) (hhas : state.store.Has place) (setting : Setting)
    (enter : String → Run Value) (args : List Value) :
    ((native.call setting enter args).final state).store.at? place = state.store.at? place := by
  have heffect := effect_call hstandard setting enter args state
  unfold Run.final
  generalize native.call setting enter args state = result at heffect ⊢
  cases heffect with
  | array hstore =>
    rw [hstore]
    exact Store.at?_newArray_of_has hhas _
  | value _ hstore => rw [hstore]
  | halted hstore => rw [hstore]

/-- The array that a standard function gives is a new one. -/
theorem fresh_of_call
    {native : Native} {setting : Setting} {enter : String → Run Value} {args : List Value}
    {state state' : State} {value : Value}
    (hgives : native.givesArray = true)
    (hran : native.call setting enter args state = .ok value state') :
    ∃ id, value = .array id ∧ ¬ state.store.Has (.array id) ∧ state'.store.Has (.array id) := by
  have hstandard : native ∈ Native.standard := by
    cases native with
    | push | slice | delete | sort | split => decide
    | _ => cases hgives
  have heffect := effect_call hstandard setting enter args state
  rw [hran] at heffect
  cases heffect with
  | @array items _ hstore =>
    refine ⟨⟨state.store.arrays.size⟩, rfl, ?_, ?_⟩
    · intro hhas
      exact Nat.lt_irrefl _ (Store.has_array.mp hhas)
    · rw [hstore]
      exact Store.has_array.mpr (by simp [Store.newArray])
  | value hnoArray => cases hgives.symm.trans hnoArray

end Native

/-! ## Writing through one of two arrays -/

theorem Store.slot_array
    {store : Store} {id : ArrayId} {key : Value} {slot : Slot}
    (h : store.slot (.array id) key = .ok slot) :
    ∃ place, slot = .item id place := by
  cases key with
  | number index =>
    obtain ⟨place, hslot⟩ := Store.exists_of_index? h
    exact ⟨place, hslot.symm⟩
  | _ => cases h

theorem Store.items_setItem_of_ne
    {id other : ArrayId} (hdifferent : other ≠ id) (store : Store) (index : Nat) (value : Value) :
    (store.setItem id index value).items other = store.items other := by
  have hindices : id.index ≠ other.index := by
    intro hsame
    exact hdifferent (by cases id; cases other; cases hsame; rfl)
  simp [Store.items, Store.setItem, Array.getD_eq_getD_getElem?, Array.getElem?_modify, hindices]

theorem Run.items_of_save
    {offset : Nat} {id other : ArrayId} {key value : Value} {state state' : State}
    (hdifferent : other ≠ id)
    (hsaved : Run.save offset (.array id) key value state = .ok () state') :
    state'.store.items other = state.store.items other := by
  rw [Run.save, Run.get_bind_apply] at hsaved
  cases hslot : state.store.slot (.array id) key with
  | error cause =>
    rw [hslot] at hsaved
    cases hsaved
  | ok slot =>
    rw [hslot] at hsaved
    obtain ⟨place, rfl⟩ := Store.slot_array hslot
    cases hsaved
    exact Store.items_setItem_of_ne hdifferent state.store place value

/-! ## All runs -/

/-- Every run changes the store by single changes only, and these keep the sizes of all arrays and
the keys of all maps in their order.  A call of a standard function leaves everything as it is that
was there before, and the array that one of `push`, `slice`, `delete`, `sort` and `split` gives is a
new one: what is written later through an older array is not seen in it, nor the other way round. -/
theorem containers_keep_their_shape :
    (∀ (setting : Setting) (depth : Nat) (state : State),
      (∀ e scope, state.store.Evolves
        ((evaluate setting (.within setting depth) e scope).final state).store) ∧
      (∀ statement scope, state.store.Evolves
        ((execute setting (.within setting depth) statement scope).final state).store) ∧
      (∀ offset closure args, state.store.Evolves
        ((Run.callFunction setting depth offset closure args).final state).store) ∧
      ∀ name, state.store.Evolves ((Run.enterSection setting depth name).final state).store) ∧
    (∀ (program : Program) (level : Int) (files : Files) (limits : Limits),
      Store.initial.Evolves (Session.load program level files limits).2.state.store) ∧
    (∀ (session : Session) (requests : List Request),
      session.state.store.Evolves (session.after requests).state.store) ∧
    (∀ before after : Store, before.Evolves after → before.Steady after) ∧
    (∀ (setting : Setting) (enter : String → Run Value) (args : List Value) (state : State),
      ∀ native ∈ Native.standard, ∀ place, state.store.Has place →
        ((native.call setting enter args).final state).store.at? place = state.store.at? place) ∧
    ∀ (setting : Setting) (enter : String → Run Value) (args : List Value) (state state' : State)
        (native : Native) (value : Value), native.givesArray = true →
      native.call setting enter args state = .ok value state' →
        ∃ id, value = .array id ∧ ¬ state.store.Has (.array id) ∧ state'.store.Has (.array id) ∧
          ∀ old, state.store.Has (.array old) →
            ∀ (offset : Nat) (key written : Value) (later after : State),
              (Run.save offset (.array old) key written later = .ok () after →
                after.store.items id = later.store.items id) ∧
              (Run.save offset (.array id) key written later = .ok () after →
                after.store.items old = later.store.items old) := by
  refine ⟨?_, Session.evolves_load, Session.evolves_after, fun _ _ hevolves => hevolves.steady, ?_,
    ?_⟩
  · intro setting depth state
    exact ⟨evolves_evaluate setting depth state, evolves_execute setting depth state,
      evolves_callFunction setting depth state, evolves_enterSection setting depth state⟩
  · intro setting enter args state native hstandard place hhas
    exact Native.at?_final_call hstandard hhas setting enter args
  · intro setting enter args state state' native value hgives hran
    obtain ⟨id, harray, hnew, hhas⟩ := Native.fresh_of_call hgives hran
    refine ⟨id, harray, hnew, hhas, fun old hhasOld offset key written later after => ?_⟩
    have hdifferent : id ≠ old := by
      rintro rfl
      exact hnew hhasOld
    exact ⟨Run.items_of_save hdifferent, Run.items_of_save hdifferent.symm⟩

/-- An array with one item, before a second one is pushed. -/
def State.oneArray : State :=
  { State.initial with store := (Store.initial.newArray #[.number 1]).2 }

/-- The array with both items is a new one, the old one is as it was, and an item that is written to
the old one later is not seen in the new one. -/
theorem containers_keep_their_shape_push :
    ∃ state after : State,
      Native.push.call (.ofProgram ⟨[], []⟩ 0 ⟨fun _ _ _ => .missing⟩ .standard)
        (fun _ => return .nil) [.array ⟨0⟩, .number 2] .oneArray = .ok (.array ⟨1⟩) state ∧
      State.oneArray.store.Has (.array ⟨0⟩) ∧
      state.store.at? (.array ⟨0⟩) = State.oneArray.store.at? (.array ⟨0⟩) ∧
      Run.save 0 (.array ⟨0⟩) (.number 0) (.number 7) state = .ok () after ∧
      after.store.items ⟨0⟩ = #[.number 7] ∧
      after.store.items ⟨1⟩ = state.store.items ⟨1⟩ ∧
      State.oneArray.store.Steady after.store := by
  have hhas : State.oneArray.store.Has (.array ⟨0⟩) := Store.has_array.mpr (by decide)
  obtain ⟨state, hstate⟩ : ∃ state, Native.push.call
      (.ofProgram ⟨[], []⟩ 0 ⟨fun _ _ _ => .missing⟩ .standard) (fun _ => return .nil)
      [.array ⟨0⟩, .number 2] .oneArray = .ok (.array ⟨1⟩) state := ⟨_, rfl⟩
  obtain ⟨-, -, -, hsteady, hunchanged, hfresh⟩ := containers_keep_their_shape
  have hsame := hunchanged (.ofProgram ⟨[], []⟩ 0 ⟨fun _ _ _ => .missing⟩ .standard)
    (fun _ => return .nil) [.array ⟨0⟩, .number 2] .oneArray .push (by decide) _ hhas
  rw [Run.final, hstate] at hsame
  obtain ⟨id, harray, -, -, hapart⟩ := hfresh _ _ _ _ _ _ _ rfl hstate
  cases harray
  cases hstate
  obtain ⟨after, hsaved⟩ : ∃ after, Run.save 0 (.array ⟨0⟩) (.number 0) (.number 7)
      { State.oneArray with store := (State.oneArray.store.newArray #[.number 1, .number 2]).2 } =
        .ok () after := ⟨_, rfl⟩
  have hunseen := (hapart ⟨0⟩ hhas 0 (.number 0) (.number 7) _ after).1 hsaved
  cases hsaved
  have hevolves : State.oneArray.store.Evolves _ :=
    .tail (.single (.newArray _ #[.number 1, .number 2])) (.setItem _ ⟨0⟩ 0 (.number 7))
  exact ⟨_, _, rfl, hhas, hsame, rfl, rfl, hunseen, hsteady _ _ hevolves⟩

end PuzzleLang
