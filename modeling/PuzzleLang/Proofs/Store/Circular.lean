import PuzzleLang.Proofs.Session.WellFormed
import PuzzleLang.Proofs.Store.Holds
import Mathlib.Data.Fintype.Pigeonhole

/-!
# Values that contain themselves

An array or a map can come to lie in itself, directly or over others.  Only such a value is without
a text: if a value cannot be written out through as many levels as there are arrays and maps, then
one of them comes up twice on the way down.
-/

namespace PuzzleLang

namespace Store

/-- The values that lie in an array or a map. -/
def contents (store : Store) : Value → List Value
  | .array id => (store.items id).toList
  | .map id => (store.entries id).map Prod.snd
  | _ => []

/-- A value lies in another one. -/
def Contains (store : Store) (outer inner : Value) : Prop :=
  inner ∈ store.contents outer

/-- A value contains itself, or something in it does. -/
def Circular (store : Store) (value : Value) : Prop :=
  ∃ inner, Relation.ReflTransGen store.Contains value inner ∧
    Relation.TransGen store.Contains inner inner

variable {store : Store} {value : Value}

/-- All places that a value names exist. -/
def Knows (store : Store) (value : Value) : Prop :=
  ∀ place, value.place? = some place → store.Has place

theorem WellFormed.knows_of_contains
    {inner : Value} (hwellFormed : store.WellFormed) (hcontains : store.Contains value inner) :
    store.Knows inner := by
  intro place hnamed
  cases value with
  | array id =>
    obtain ⟨cell, hfound, hheld⟩ := exists_cell_of_mem_items hcontains
    exact hwellFormed.named hfound hheld hnamed
  | map id =>
    obtain ⟨cell, hfound, hheld⟩ := exists_cell_of_mem_entries hcontains
    exact hwellFormed.named hfound hheld hnamed
  | nil | number | string | range | native | closure => cases hcontains

theorem not_circular_of_string (text : String) : ¬ store.Circular (.string text) := by
  rintro ⟨inner, hreaches, hcontains⟩
  have hempty {inner : Value} : ¬ store.Contains (.string text) inner := List.not_mem_nil
  rcases hreaches.cases_head with rfl | ⟨_, hfirst, -⟩
  · obtain ⟨_, hfirst, -⟩ := Relation.TransGen.head'_iff.mp hcontains
    exact hempty hfirst
  · exact hempty hfirst

/-! ## The way down -/

theorem exists_of_mapM_eq_none
    {α β : Type} {f : α → Option β} {xs : List α} (h : xs.mapM f = none) :
    ∃ x ∈ xs, f x = none := by
  induction xs with
  | nil => cases h
  | cons x xs ih =>
    cases hfirst : f x with
    | none => exact ⟨x, List.mem_cons_self, hfirst⟩
    | some y =>
      cases hmore : xs.mapM f with
      | none =>
        obtain ⟨x', hmem, hnone⟩ := ih hmore
        exact ⟨x', List.mem_cons_of_mem _ hmem, hnone⟩
      | some ys =>
        rw [List.mapM_cons, hfirst, hmore] at h
        cases h

/-- What cannot be written out contains something that cannot be written out one level down. -/
theorem exists_contains_of_viewWithin
    {depth : Nat} (h : store.viewWithin (depth + 1) value = none) :
    ∃ inner, store.Contains value inner ∧ store.viewWithin depth inner = none := by
  cases value with
  | nil | number | string | range | native | closure => cases h
  | array id =>
    rw [viewWithin, Option.bind_eq_bind, Option.bind_eq_none_iff] at h
    cases hviews : (store.items id).toList.mapM (store.viewWithin depth) with
    | some items => cases h items hviews
    | none => exact exists_of_mapM_eq_none hviews
  | map id =>
    rw [viewWithin] at h
    cases hviews : (store.entries id).mapM fun entry => do
        let value ← store.viewWithin depth entry.2
        return (entry.1, value) with
    | some entries =>
      rw [hviews] at h
      cases h
    | none =>
      obtain ⟨entry, hmem, hnone⟩ := exists_of_mapM_eq_none hviews
      refine ⟨entry.2, List.mem_map_of_mem hmem, ?_⟩
      cases hview : store.viewWithin depth entry.2 with
      | none => rfl
      | some datum =>
        rw [hview] at hnone
        cases hnone

theorem isContainer_of_viewWithin
    {depth : Nat} (h : store.viewWithin depth value = none) (hknows : store.Knows value) :
    store.IsContainer value := by
  cases value with
  | nil | number | string | range | native | closure => cases depth <;> cases h
  | array id => exact .inl ⟨id.index, rfl, has_array.mp (hknows _ rfl)⟩
  | map id => exact .inr ⟨id.index, rfl, has_map.mp (hknows _ rfl)⟩

/-- A value that cannot be written out begins a way down through as many arrays and maps. -/
theorem exists_way_of_viewWithin
    {depth : Nat}
    (hwellFormed : store.WellFormed) (hknows : store.Knows value)
    (h : store.viewWithin depth value = none) :
    ∃ way : Nat → Value, way 0 = value ∧
      (∀ level < depth, store.Contains (way level) (way (level + 1))) ∧
      ∀ level ≤ depth, store.IsContainer (way level) := by
  induction depth generalizing value with
  | zero =>
    refine ⟨fun _ => value, rfl, fun level hbelow => absurd hbelow (Nat.not_lt_zero level), ?_⟩
    exact fun _ _ => isContainer_of_viewWithin h hknows
  | succ depth ih =>
    obtain ⟨inner, hcontains, hnone⟩ := exists_contains_of_viewWithin h
    obtain ⟨way, hstart, hdown, hcontainers⟩ := ih (hwellFormed.knows_of_contains hcontains) hnone
    refine ⟨fun level => level.casesOn value way, rfl, ?_, ?_⟩
    · intro level hbelow
      cases level with
      | zero =>
        rw [← hstart] at hcontains
        exact hcontains
      | succ level => exact hdown level (Nat.lt_of_succ_lt_succ hbelow)
    · intro level hle
      cases level with
      | zero => exact isContainer_of_viewWithin h hknows
      | succ level => exact hcontainers level (Nat.le_of_succ_le_succ hle)

theorem reaches_along_way
    {way : Nat → Value} {depth level : Nat}
    (hdown : ∀ level < depth, store.Contains (way level) (way (level + 1))) (steps : Nat)
    (hle : level + steps ≤ depth) :
    Relation.ReflTransGen store.Contains (way level) (way (level + steps)) := by
  induction steps with
  | zero => exact .refl
  | succ steps ih => exact (ih (by omega)).tail (hdown (level + steps) (by omega))

/-- Every value has a text that does not contain itself. -/
theorem WellFormed.render?_ne_none
    (hwellFormed : store.WellFormed) (hknows : store.Knows value)
    (hnotCircular : ¬ store.Circular value) :
    store.render? value ≠ none := by
  intro huntold
  rw [render?, Option.map_eq_none_iff] at huntold
  obtain ⟨way, hstart, hdown, hcontainers⟩ := exists_way_of_viewWithin hwellFormed hknows huntold
  -- The way down is longer than there are arrays and maps, so one of them comes up twice.
  let placeOf (level : Fin (store.arrays.size + store.maps.size + 1)) :
      Fin (store.arrays.size + store.maps.size) :=
    ⟨store.place (way level), (hcontainers level (Nat.le_of_lt_succ level.isLt)).place_lt⟩
  obtain ⟨first, second, hdifferent, hsame⟩ :=
    Fintype.exists_ne_map_eq_of_card_lt placeOf (by simp)
  wlog before : first < second generalizing first second
  · exact this second first hdifferent.symm hsame.symm (by omega)
  have hsameValue : way first = way second :=
    (hcontainers first (by omega)).eq_of_place_eq (hcontainers second (by omega)) (Fin.mk.inj hsame)
  have hreached := reaches_along_way hdown first (by omega : 0 + (first : Nat) ≤ _)
  rw [Nat.zero_add, hstart] at hreached
  have hbelow := hdown first (by omega)
  have hbeyond := reaches_along_way hdown (second - (first + 1))
    (by omega : (first : Nat) + 1 + (second - (first + 1)) ≤ _)
  rw [show (first : Nat) + 1 + (second - (first + 1)) = second by omega, ← hsameValue] at hbeyond
  exact hnotCircular ⟨way first, hreached, .head' hbelow hbeyond⟩

end Store

end PuzzleLang
