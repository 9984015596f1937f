import PuzzleLang.Proofs.Run.Accord
import Mathlib.Logic.Relation

/-!
# Places in the store

A store keeps a scope, an array or a map at each of its places.  A place links to others: a scope to
the scope around it, and every place to those of the values it holds.  The places that can be
reached over such links from a scope are what a program that runs in it can get hold of.  Each
operation on a store changes one place at most.
-/

namespace PuzzleLang

/-- A place in the store. -/
inductive Place
  | scope (id : ScopeId)
  | array (id : ArrayId)
  | map (id : MapId)
deriving DecidableEq

/-- What is kept at a place. -/
inductive Cell
  | scope (scope : Scope)
  | array (items : Array Value)
  | map (entries : Bindings Value)

/-- The place that a value names: that of an array or a map, or the scope of a function. -/
def Value.place? : Value → Option Place
  | .array id => some (.array id)
  | .map id => some (.map id)
  | .closure ⟨_, scope⟩ => some (.scope scope)
  | _ => none

theorem Value.IsPlain.place? {value : Value} (hplain : value.IsPlain) : value.place? = none := by
  cases hplain <;> rfl

namespace Cell

/-- The scope around a scope. -/
def parent? : Cell → Option ScopeId
  | scope inner => inner.parent
  | array _ | map _ => none

/-- The values that are held at a place. -/
def values : Cell → List Value
  | scope inner => inner.bindings.map Prod.snd
  | array items => items.toList
  | map entries => entries.map Prod.snd

end Cell

namespace Store

/-- What a store keeps at a place. -/
def at? (store : Store) : Place → Option Cell
  | .scope id => (store.scopes[id.index]?).map .scope
  | .array id => (store.arrays[id.index]?).map .array
  | .map id => (store.maps[id.index]?).map .map

/-- A store has a place. -/
def Has (store : Store) (place : Place) : Prop :=
  (store.at? place).isSome

/-- A place links to another one. -/
inductive Links (store : Store) : Place → Place → Prop
  | parent {id parent : ScopeId} {cell : Cell} :
    store.at? (.scope id) = some cell → cell.parent? = some parent →
      Links store (.scope id) (.scope parent)
  | value {place place' : Place} {cell : Cell} {value : Value} :
    store.at? place = some cell → value ∈ cell.values → value.place? = some place' →
      Links store place place'

/-- A place can be reached from another one. -/
def Reaches (store : Store) : Place → Place → Prop :=
  Relation.ReflTransGen store.Links

variable {store : Store}

theorem eq_of_reaches
    {place place' : Place}
    (hunlinked : ∀ next, ¬ store.Links place next) (hreaches : store.Reaches place place') :
    place' = place := by
  induction hreaches with
  | refl => rfl
  | tail _ hlink ih =>
    rw [ih] at hlink
    exact absurd hlink (hunlinked _)

/-! ## Sizes -/

theorem has_scope {id : ScopeId} : store.Has (.scope id) ↔ id.index < store.scopes.size := by
  simp [Has, at?]

theorem has_array {id : ArrayId} : store.Has (.array id) ↔ id.index < store.arrays.size := by
  simp [Has, at?]

theorem has_map {id : MapId} : store.Has (.map id) ↔ id.index < store.maps.size := by
  simp [Has, at?]

theorem Grows.has
    {store' : Store} {place : Place} (hgrows : store.Grows store') (h : store.Has place) :
    store'.Has place := by
  cases place with
  | scope id => exact has_scope.mpr (Nat.lt_of_lt_of_le (has_scope.mp h) hgrows.scopes)
  | array id => exact has_array.mpr (Nat.lt_of_lt_of_le (has_array.mp h) hgrows.arrays)
  | map id => exact has_map.mpr (Nat.lt_of_lt_of_le (has_map.mp h) hgrows.maps)

theorem has_of_at? {place : Place} {cell : Cell} (hfound : store.at? place = some cell) :
    store.Has place := by
  rw [Has, hfound]
  rfl

theorem exists_at?_of_has {place : Place} (h : store.Has place) :
    ∃ cell, store.at? place = some cell :=
  Option.isSome_iff_exists.mp h

/-! ## Reading a place -/

theorem at?_scope {id : ScopeId} {scope : Scope} (hfound : store.scope? id = some scope) :
    store.at? (.scope id) = some (.scope scope) := by
  rw [at?, show store.scopes[id.index]? = some scope from hfound, Option.map_some]

theorem exists_scope_of_at?
    {id : ScopeId} {cell : Cell} (hfound : store.at? (.scope id) = some cell) :
    ∃ scope, store.scope? id = some scope ∧ cell = .scope scope := by
  obtain ⟨scope, hscope, hsame⟩ := Option.map_eq_some_iff.mp hfound
  exact ⟨scope, hscope, hsame.symm⟩

theorem mem_of_get?
    {bindings : Bindings Value} {name : String} {value : Value}
    (hfound : bindings.get? name = some value) :
    value ∈ bindings.map Prod.snd := by
  induction bindings with
  | nil => cases hfound
  | cons entry later ih =>
    obtain ⟨key, bound⟩ := entry
    rw [Bindings.get?] at hfound
    split at hfound
    · cases hfound
      exact List.mem_cons_self
    · exact List.mem_cons_of_mem _ (ih hfound)

theorem exists_cell_of_mem_items
    {id : ArrayId} {value : Value} (hmem : value ∈ (store.items id).toList) :
    ∃ cell, store.at? (.array id) = some cell ∧ value ∈ cell.values := by
  unfold items at hmem
  rw [Array.getD_eq_getD_getElem?] at hmem
  cases hfound : store.arrays[id.index]? with
  | none =>
    rw [hfound] at hmem
    cases hmem
  | some items =>
    rw [hfound] at hmem
    exact ⟨.array items, by rw [at?, hfound, Option.map_some], hmem⟩

theorem exists_cell_of_mem_entries
    {id : MapId} {value : Value} (hmem : value ∈ (store.entries id).map Prod.snd) :
    ∃ cell, store.at? (.map id) = some cell ∧ value ∈ cell.values := by
  unfold entries at hmem
  rw [Array.getD_eq_getD_getElem?] at hmem
  cases hfound : store.maps[id.index]? with
  | none =>
    rw [hfound] at hmem
    cases hmem
  | some entries =>
    rw [hfound] at hmem
    exact ⟨.map entries, by rw [at?, hfound, Option.map_some], hmem⟩

/-! ## Changing a place -/

theorem at?_newScope (parent : Option ScopeId) (place : Place) :
    (store.newScope parent).2.at? place =
      if place = .scope (store.newScope parent).1 then some (.scope ⟨parent, []⟩)
      else store.at? place := by
  cases place with
  | scope id =>
    obtain ⟨index⟩ := id
    by_cases hnew : index = store.scopes.size <;> simp [newScope, at?, Array.getElem?_push, hnew]
  | array id => rfl
  | map id => rfl

theorem at?_newArray (items : Array Value) (place : Place) :
    (store.newArray items).2.at? place =
      if place = .array ⟨store.arrays.size⟩ then some (.array items) else store.at? place := by
  cases place with
  | array id =>
    obtain ⟨index⟩ := id
    by_cases hnew : index = store.arrays.size <;> simp [newArray, at?, Array.getElem?_push, hnew]
  | scope id => rfl
  | map id => rfl

theorem at?_newMap (entries : Bindings Value) (place : Place) :
    (store.newMap entries).2.at? place =
      if place = .map ⟨store.maps.size⟩ then some (.map entries) else store.at? place := by
  cases place with
  | map id =>
    obtain ⟨index⟩ := id
    by_cases hnew : index = store.maps.size <;> simp [newMap, at?, Array.getElem?_push, hnew]
  | scope id => rfl
  | array id => rfl

theorem at?_define (id : ScopeId) (name : String) (value : Value) (place : Place) :
    (store.define id name value).at? place =
      if place = .scope id then
        (store.scope? id).map fun scope =>
          .scope { scope with bindings := scope.bindings.put name value }
      else store.at? place := by
  cases place with
  | scope id' =>
    obtain ⟨index⟩ := id
    obtain ⟨index'⟩ := id'
    by_cases hsame : index' = index
    · simp [define, at?, scope?, Array.getElem?_modify, hsame, Function.comp_def]
    · simp [define, at?, Array.getElem?_modify, hsame, Ne.symm hsame]
  | array id' => rfl
  | map id' => rfl

theorem scope?_define (id : ScopeId) (name : String) (value : Value) (id' : ScopeId) :
    (store.define id name value).scope? id' =
      if id' = id then
        (store.scope? id').map fun scope =>
          { scope with bindings := scope.bindings.put name value }
      else store.scope? id' := by
  obtain ⟨index⟩ := id
  obtain ⟨index'⟩ := id'
  by_cases hsame : index' = index
  · simp [define, scope?, Array.getElem?_modify, hsame]
  · simp [define, scope?, Array.getElem?_modify, hsame, Ne.symm hsame]

theorem at?_setItem (id : ArrayId) (index : Nat) (value : Value) (place : Place) :
    (store.setItem id index value).at? place =
      if place = .array id then
        (store.arrays[id.index]?).map fun items => .array (items.setIfInBounds index value)
      else store.at? place := by
  cases place with
  | array id' =>
    obtain ⟨at'⟩ := id
    obtain ⟨at''⟩ := id'
    by_cases hsame : at'' = at'
    · simp [setItem, at?, Array.getElem?_modify, hsame, Function.comp_def]
    · simp [setItem, at?, Array.getElem?_modify, hsame, Ne.symm hsame]
  | scope id' => rfl
  | map id' => rfl

theorem at?_setEntry (id : MapId) (key : String) (value : Value) (place : Place) :
    (store.setEntry id key value).at? place =
      if place = .map id then
        (store.maps[id.index]?).map fun entries => .map (entries.put key value)
      else store.at? place := by
  cases place with
  | map id' =>
    obtain ⟨at'⟩ := id
    obtain ⟨at''⟩ := id'
    by_cases hsame : at'' = at'
    · simp [setEntry, at?, Array.getElem?_modify, hsame, Function.comp_def]
    · simp [setEntry, at?, Array.getElem?_modify, hsame, Ne.symm hsame]
  | scope id' => rfl
  | array id' => rfl

end Store

end PuzzleLang
