import PuzzleLang.Store
import Mathlib.Data.Fintype.Card

/-!
# Values that hold data

A value holds a datum in a store if it names the same contents, level by level.  A value goes on
holding its datum while the store only gains arrays and maps.  Writing it out gives the datum, since
a store never holds data deeper than the number of its arrays and maps.
-/

namespace PuzzleLang

namespace Datum

mutual

/-- How many arrays and maps lie inside each other. -/
def depth : Datum → Nat
  | array items => depthAll items + 1
  | map entries => depthEntries entries + 1
  | _ => 0

/-- The greatest depth in a list. -/
def depthAll : List Datum → Nat
  | [] => 0
  | item :: items => max (depth item) (depthAll items)

/-- The greatest depth in the entries of a map. -/
def depthEntries : List (String × Datum) → Nat
  | [] => 0
  | (_, value) :: entries => max (depth value) (depthEntries entries)

end

end Datum

namespace Store

/-! ## Stores that keep arrays and maps -/

/-- The arrays and maps of a store are unchanged in another one, which may have more. -/
structure Keeps (store store' : Store) : Prop where
  arrays {index : Nat} {items : Array Value} :
    store.arrays[index]? = some items → store'.arrays[index]? = some items
  maps {index : Nat} {entries : Bindings Value} :
    store.maps[index]? = some entries → store'.maps[index]? = some entries

theorem Keeps.refl (store : Store) : Keeps store store :=
  ⟨id, id⟩

theorem Keeps.trans
    {store store' store'' : Store} (h : Keeps store store') (h' : Keeps store' store'') :
    Keeps store store'' :=
  ⟨fun hfound => h'.arrays (h.arrays hfound), fun hfound => h'.maps (h.maps hfound)⟩

theorem getElem?_push_of_some
    {α : Type} {xs : Array α} {x y : α} {index : Nat} (hfound : xs[index]? = some x) :
    (xs.push y)[index]? = some x := by
  obtain ⟨hinside, -⟩ := Array.getElem?_eq_some_iff.mp hfound
  rw [Array.getElem?_push, if_neg (Nat.ne_of_lt hinside), hfound]

theorem keeps_newArray (store : Store) (items : Array Value) :
    Keeps store (store.newArray items).2 :=
  ⟨getElem?_push_of_some, id⟩

theorem keeps_newMap (store : Store) (entries : Bindings Value) :
    Keeps store (store.newMap entries).2 :=
  ⟨id, getElem?_push_of_some⟩

/-! ## Reading arrays and maps -/

theorem items_of_some
    {store : Store} {id : ArrayId} {items : Array Value}
    (hfound : store.arrays[id.index]? = some items) :
    store.items id = items := by
  rw [Store.items, Array.getD_eq_getD_getElem?, hfound, Option.getD_some]

theorem entries_of_some
    {store : Store} {id : MapId} {entries : Bindings Value}
    (hfound : store.maps[id.index]? = some entries) :
    store.entries id = entries := by
  rw [Store.entries, Array.getD_eq_getD_getElem?, hfound, Option.getD_some]

/-! ## Holding a datum -/

mutual

/-- A value holds a datum. -/
def Holds (store : Store) : Value → Datum → Prop
  | .nil, .nil => True
  | .number value, .number value' => value = value'
  | .string value, .string value' => value = value'
  | .array id, .array items =>
    ∃ values, store.arrays[id.index]? = some values ∧ HoldsAll store values.toList items
  | .map id, .map entries =>
    ∃ bindings, store.maps[id.index]? = some bindings ∧ HoldsEntries store bindings entries
  | _, _ => False
termination_by structural _ datum => datum

/-- Values hold data, one each. -/
def HoldsAll (store : Store) : List Value → List Datum → Prop
  | [], [] => True
  | value :: values, item :: items => Holds store value item ∧ HoldsAll store values items
  | _, _ => False
termination_by structural _ items => items

/-- Bindings hold the entries of a map, with the same names in the same order. -/
def HoldsEntries (store : Store) : Bindings Value → List (String × Datum) → Prop
  | [], [] => True
  | (name, value) :: bindings, (key, item) :: entries =>
    name = key ∧ Holds store value item ∧ HoldsEntries store bindings entries
  | _, _ => False
termination_by structural _ entries => entries

end

mutual

theorem Keeps.holds {store store' : Store} (hkeeps : Keeps store store') :
    ∀ (datum : Datum) {value : Value}, Holds store value datum → Holds store' value datum
  | .nil, .nil, _ => trivial
  | .number _, .number _, hsame => hsame
  | .string _, .string _, hsame => hsame
  | .array items, .array _, ⟨values, hfound, hholds⟩ =>
    ⟨values, hkeeps.arrays hfound, hkeeps.holdsAll items hholds⟩
  | .map entries, .map _, ⟨bindings, hfound, hholds⟩ =>
    ⟨bindings, hkeeps.maps hfound, hkeeps.holdsEntries entries hholds⟩

theorem Keeps.holdsAll {store store' : Store} (hkeeps : Keeps store store') :
    ∀ (items : List Datum) {values : List Value},
      HoldsAll store values items → HoldsAll store' values items
  | [], [], _ => trivial
  | item :: items, _ :: _, hholds => ⟨hkeeps.holds item hholds.1, hkeeps.holdsAll items hholds.2⟩

theorem Keeps.holdsEntries {store store' : Store} (hkeeps : Keeps store store') :
    ∀ (entries : List (String × Datum)) {bindings : Bindings Value},
      HoldsEntries store bindings entries → HoldsEntries store' bindings entries
  | [], [], _ => trivial
  | (_, item) :: entries, (_, _) :: _, hholds =>
    ⟨hholds.1, hkeeps.holds item hholds.2.1, hkeeps.holdsEntries entries hholds.2.2⟩

end

/-! ## Writing out a value that holds a datum -/

mutual

theorem Holds.viewWithin {store : Store} :
    ∀ (datum : Datum) {value : Value} {depth : Nat},
    Holds store value datum → datum.depth ≤ depth → store.viewWithin depth value = some datum
  | .nil, .nil, _, _, _ => by rw [Store.viewWithin]
  | .number _, .number _, _, hsame, _ => by rw [Store.viewWithin, show _ = _ from hsame]
  | .string _, .string _, _, hsame, _ => by rw [Store.viewWithin, show _ = _ from hsame]
  | .array items, .array id, depth + 1, ⟨values, hfound, hholds⟩, hle => by
    have hviews := HoldsAll.mapM_viewWithin items hholds (Nat.le_of_succ_le_succ hle)
    have hsame : store.items id = values := by simp [Store.items, hfound]
    rw [Store.viewWithin, hsame, hviews]
    rfl
  | .map entries, .map id, depth + 1, ⟨bindings, hfound, hholds⟩, hle => by
    have hviews := HoldsEntries.mapM_viewWithin entries hholds (Nat.le_of_succ_le_succ hle)
    have hsame : store.entries id = bindings := by simp [Store.entries, hfound]
    rw [Store.viewWithin, hsame, hviews]
    rfl

theorem HoldsAll.mapM_viewWithin {store : Store} :
    ∀ (items : List Datum) {values : List Value} {depth : Nat},
      HoldsAll store values items → Datum.depthAll items ≤ depth →
        values.mapM (store.viewWithin depth) = some items
  | [], [], _, _, _ => rfl
  | item :: items, value :: values, depth, hholds, hle => by
    have hbound : item.depth ≤ depth ∧ Datum.depthAll items ≤ depth := Nat.max_le.mp hle
    rw [List.mapM_cons, Holds.viewWithin item hholds.1 hbound.1,
      HoldsAll.mapM_viewWithin items hholds.2 hbound.2]
    rfl

theorem HoldsEntries.mapM_viewWithin {store : Store} :
    ∀ (entries : List (String × Datum)) {bindings : Bindings Value} {depth : Nat},
      HoldsEntries store bindings entries → Datum.depthEntries entries ≤ depth →
        (bindings.mapM fun entry => do
          let value ← store.viewWithin depth entry.2
          return (entry.1, value)) = some entries
  | [], [], _, _, _ => rfl
  | (key, item) :: entries, (name, value) :: bindings, depth, ⟨hsame, hholds, hholdsMore⟩, hle => by
    have hbound : item.depth ≤ depth ∧ Datum.depthEntries entries ≤ depth := Nat.max_le.mp hle
    rw [List.mapM_cons, Holds.viewWithin item hholds hbound.1,
      HoldsEntries.mapM_viewWithin entries hholdsMore hbound.2, hsame]
    rfl

end

/-! ## Depth

Whatever can be written out is no deeper than the number of arrays and maps there are: the data of
different depths in it lie in different places.
-/

theorem Holds.unique
    {store : Store} {value : Value} {datum datum' : Datum}
    (hholds : Holds store value datum) (hholds' : Holds store value datum') :
    datum = datum' := by
  have hview := Holds.viewWithin datum hholds (Nat.le_max_left datum.depth datum'.depth)
  have hview' := Holds.viewWithin datum' hholds' (Nat.le_max_right datum.depth datum'.depth)
  exact Option.some.inj (hview.symm.trans hview')

mutual

theorem Holds.exists_depth {store : Store} :
    ∀ (datum : Datum) {value : Value} {depth : Nat},
    Holds store value datum → depth < datum.depth →
      ∃ value' datum', Holds store value' datum' ∧ datum'.depth = depth + 1
  | .array items, .array id, depth, hholds, hlt => by
    by_cases houtermost : depth = Datum.depthAll items
    · exact ⟨.array id, .array items, hholds, by rw [houtermost, Datum.depth]⟩
    · obtain ⟨values, -, hinside⟩ := hholds
      rw [Datum.depth] at hlt
      exact HoldsAll.exists_depth items hinside (by omega)
  | .map entries, .map id, depth, hholds, hlt => by
    by_cases houtermost : depth = Datum.depthEntries entries
    · exact ⟨.map id, .map entries, hholds, by rw [houtermost, Datum.depth]⟩
    · obtain ⟨bindings, -, hinside⟩ := hholds
      rw [Datum.depth] at hlt
      exact HoldsEntries.exists_depth entries hinside (by omega)

theorem HoldsAll.exists_depth {store : Store} :
    ∀ (items : List Datum) {values : List Value} {depth : Nat},
      HoldsAll store values items → depth < Datum.depthAll items →
        ∃ value' datum', Holds store value' datum' ∧ datum'.depth = depth + 1
  | item :: items, _ :: _, depth, hholds, hlt => by
    rcases lt_max_iff.mp hlt with hinItem | hinItems
    · exact Holds.exists_depth item hholds.1 hinItem
    · exact HoldsAll.exists_depth items hholds.2 hinItems

theorem HoldsEntries.exists_depth {store : Store} :
    ∀ (entries : List (String × Datum)) {bindings : Bindings Value} {depth : Nat},
      HoldsEntries store bindings entries → depth < Datum.depthEntries entries →
        ∃ value' datum', Holds store value' datum' ∧ datum'.depth = depth + 1
  | (_, item) :: entries, (_, _) :: _, depth, hholds, hlt => by
    rcases lt_max_iff.mp hlt with hinItem | hinEntries
    · exact Holds.exists_depth item hholds.2.1 hinItem
    · exact HoldsEntries.exists_depth entries hholds.2.2 hinEntries

end

/-- The place of an array or a map among all of them. -/
def place (store : Store) : Value → Nat
  | .array id => id.index
  | .map id => store.arrays.size + id.index
  | _ => 0

/-- A value is an array or a map of a store. -/
def IsContainer (store : Store) (value : Value) : Prop :=
  (∃ index, value = .array ⟨index⟩ ∧ index < store.arrays.size) ∨
    ∃ index, value = .map ⟨index⟩ ∧ index < store.maps.size

theorem IsContainer.place_lt
    {store : Store} {value : Value} (hcontainer : store.IsContainer value) :
    store.place value < store.arrays.size + store.maps.size := by
  rcases hcontainer with ⟨index, rfl, hinside⟩ | ⟨index, rfl, hinside⟩ <;>
    simp only [place] <;> omega

theorem IsContainer.eq_of_place_eq
    {store : Store} {value value' : Value}
    (hcontainer : store.IsContainer value) (hcontainer' : store.IsContainer value')
    (hsame : store.place value = store.place value') :
    value = value' := by
  rcases hcontainer with ⟨index, rfl, hinside⟩ | ⟨index, rfl, hinside⟩ <;>
    rcases hcontainer' with ⟨index', rfl, hinside'⟩ | ⟨index', rfl, hinside'⟩ <;>
    simp only [place] at hsame <;> grind

theorem Holds.isContainer
    {store : Store} {value : Value} {datum : Datum}
    (hholds : Holds store value datum) (hdeep : datum.depth ≠ 0) :
    store.IsContainer value := by
  match datum, value, hholds with
  | .array _, .array id, ⟨_, hfound, _⟩ =>
    exact .inl ⟨id.index, rfl, (Array.getElem?_eq_some_iff.mp hfound).1⟩
  | .map _, .map id, ⟨_, hfound, _⟩ =>
    exact .inr ⟨id.index, rfl, (Array.getElem?_eq_some_iff.mp hfound).1⟩
  | .nil, _, _ | .number _, _, _ | .string _, _, _ => exact (hdeep rfl).elim

theorem Holds.depth_le
    {store : Store} {value : Value} {datum : Datum} (hholds : Holds store value datum) :
    datum.depth ≤ store.arrays.size + store.maps.size := by
  -- One array or map for each depth; two of different depths hold different data.
  choose source contents hholdsContents hdepth using
    fun depth : Fin datum.depth => Holds.exists_depth datum hholds depth.isLt
  have hcontainer (depth : Fin datum.depth) : store.IsContainer (source depth) := by
    apply (hholdsContents depth).isContainer
    rw [hdepth]
    exact Nat.succ_ne_zero _
  let placeOf (depth : Fin datum.depth) : Fin (store.arrays.size + store.maps.size) :=
    ⟨store.place (source depth), (hcontainer depth).place_lt⟩
  have hinjective : Function.Injective placeOf := by
    intro depth depth' hsame
    have hsameSource := (hcontainer depth).eq_of_place_eq (hcontainer depth') (Fin.mk.inj hsame)
    have hsameContents := (hholdsContents depth).unique (hsameSource ▸ hholdsContents depth')
    have hsameDepth := (hdepth depth).symm.trans ((congrArg Datum.depth hsameContents).trans
      (hdepth depth'))
    exact Fin.ext (Nat.succ.inj hsameDepth)
  simpa using Fintype.card_le_of_injective placeOf hinjective

theorem Holds.view?
    {store : Store} {value : Value} {datum : Datum} (hholds : Holds store value datum) :
    store.view? value = some datum :=
  Holds.viewWithin datum hholds hholds.depth_le

theorem Holds.render?
    {store : Store} {value : Value} {datum : Datum} (hholds : Holds store value datum) :
    store.render? value = some datum.render := by
  rw [Store.render?, hholds.view?, Option.map_some]

end Store

end PuzzleLang
