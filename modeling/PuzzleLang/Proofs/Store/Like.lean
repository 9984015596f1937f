import PuzzleLang.Proofs.Tree.Like
import PuzzleLang.Store
import PuzzleLang.Value.Arithmetic

/-!
# Values and stores that are alike

Two values are alike if they are the same, functions of the script aside, which have to be alike as
trees and to belong to the same scope.  Two stores are alike if they have alike values at the same
places.  The operations on stores respect this, and values that are alike are written out in the
same way.
-/

namespace PuzzleLang

/-! ## Lists side by side -/

section

variable {α α' β : Type} {r : α → α' → Prop} {xs : List α} {ys : List α'}

theorem forall₂_getElem? (h : List.Forall₂ r xs ys) (index : Nat) :
    Option.Rel r xs[index]? ys[index]? := by
  induction h generalizing index with
  | nil => exact .none
  | cons hfirst _ ih =>
    cases index with
    | zero => exact .some hfirst
    | succ index => exact ih index

theorem rel_getD
    {fallback : α} {fallback' : α'} {found : Option α} {found' : Option α'}
    (h : Option.Rel r found found') (hotherwise : r fallback fallback') :
    r (found.getD fallback) (found'.getD fallback') := by
  cases h with
  | none => exact hotherwise
  | some hvalues => exact hvalues

theorem rel_imp
    {r' : α → α' → Prop} {found : Option α} {found' : Option α'}
    (h : Option.Rel r found found') (himp : ∀ x y, r x y → r' x y) :
    Option.Rel r' found found' := by
  cases h with
  | none => exact .none
  | some hvalues => exact .some (himp _ _ hvalues)

theorem forall₂_modify
    {change : α → α} {change' : α' → α'}
    (h : List.Forall₂ r xs ys) (hchanges : ∀ x y, r x y → r (change x) (change' y)) (index : Nat) :
    List.Forall₂ r (xs.modify index change) (ys.modify index change') := by
  induction h generalizing index with
  | nil =>
    rw [List.modify_nil, List.modify_nil]
    exact .nil
  | cons hfirst hmore ih =>
    cases index with
    | zero => exact .cons (hchanges _ _ hfirst) hmore
    | succ index => exact .cons hfirst (ih index)

theorem map_eq_of_forall₂
    {f : α → β} {f' : α' → β} (h : List.Forall₂ r xs ys) (hsame : ∀ x y, r x y → f x = f' y) :
    xs.map f = ys.map f' := by
  induction h with
  | nil => rfl
  | cons hfirst _ ih => rw [List.map_cons, List.map_cons, hsame _ _ hfirst, ih]

theorem mapM_same
    {f : α → Option β} {f' : α' → Option β}
    (h : List.Forall₂ r xs ys) (hsame : ∀ x y, r x y → f' y = f x) :
    ys.mapM f' = xs.mapM f := by
  induction h with
  | nil => rfl
  | cons hfirst _ ih => rw [List.mapM_cons, List.mapM_cons, hsame _ _ hfirst, ih]

end

/-! ## Values -/

/-- Two values are alike: they are the same, or functions that are alike in the same scope. -/
inductive Value.Like (offsets : Nat → Nat → Prop) : Value → Value → Prop
  | same {value : Value} :
    (∀ closure, value ≠ .closure closure) → Value.Like offsets value value
  | closure {f f' : Function} {scope : ScopeId} :
    Function.Like offsets f f' →
      Value.Like offsets (.closure ⟨f, scope⟩) (.closure ⟨f', scope⟩)

/-- Values without parts in the store, native functions aside. -/
inductive Value.IsPlain : Value → Prop
  | nil : IsPlain .nil
  | number (n : Int) : IsPlain (.number n)
  | string (text : String) : IsPlain (.string text)
  | range (range : Range) : IsPlain (.range range)

namespace Value

variable {offsets : Nat → Nat → Prop} {a a' b b' : Value}

theorem IsPlain.like (h : a.IsPlain) : Like offsets a a := by
  refine .same ?_
  rintro closure rfl
  cases h

theorem isPlain_ofBool (b : Bool) : (ofBool b).IsPlain :=
  .number _

theorem like_self (hreflexive : ∀ offset, offsets offset offset) (value : Value) :
    Like offsets value value := by
  cases value with
  | closure closure => exact .closure (Function.like_self hreflexive closure.function)
  | nil | number | string | array | map | range | native => exact .same nofun

theorem Like.type (h : Like offsets a a') : a'.type = a.type := by
  cases h <;> rfl

theorem Like.isTruthy (h : Like offsets a a') : a'.isTruthy = a.isTruthy := by
  cases h <;> rfl

theorem Like.operand? (h : Like offsets a a') : a'.operand? = a.operand? := by
  cases h <;> rfl

theorem Like.mapKey? (h : Like offsets a a') : a'.mapKey? = a.mapKey? := by
  cases h <;> rfl

theorem Like.negate (h : Like offsets a a') : a'.negate = a.negate := by
  cases h <;> rfl

theorem Like.equals (h : Like offsets a a') (h' : Like offsets b b') :
    a'.equals b' = a.equals b := by
  cases h with
  | same =>
    cases h' with
    | same => rfl
    | closure => cases a <;> rfl
  | closure =>
    cases h' with
    | same => cases b <;> rfl
    | closure => rfl

end Value

/-! ## Bindings -/

namespace Bindings

variable {α α' : Type}

/-- Two entries have the same name and values that correspond. -/
def LikeEntry (values : α → α' → Prop) (entry : String × α) (entry' : String × α') : Prop :=
  entry'.1 = entry.1 ∧ values entry.2 entry'.2

/-- The entries of two lists of bindings correspond, one by one. -/
abbrev Like (values : α → α' → Prop) : Bindings α → Bindings α' → Prop :=
  List.Forall₂ (LikeEntry values)

variable {values : α → α' → Prop} {bindings : Bindings α} {bindings' : Bindings α'}

theorem Like.put
    {name : String} {value : α} {value' : α'}
    (h : Like values bindings bindings') (hnew : values value value') :
    Like values (bindings.put name value) (bindings'.put name value') := by
  induction h with
  | nil => exact .cons ⟨rfl, hnew⟩ .nil
  | @cons entry entry' later later' hfirst hmore ih =>
    obtain ⟨key, bound⟩ := entry
    obtain ⟨key', bound'⟩ := entry'
    obtain ⟨hsameKey, hbounds⟩ := hfirst
    obtain rfl : key' = key := hsameKey
    by_cases hfound : (key' == name) = true
    · rw [Bindings.put, Bindings.put, if_pos hfound, if_pos hfound]
      exact .cons ⟨rfl, hnew⟩ hmore
    · rw [Bindings.put, Bindings.put, if_neg hfound, if_neg hfound]
      exact .cons ⟨rfl, hbounds⟩ ih

theorem Like.putAll
    {pairs : List (String × α)} {pairs' : List (String × α')}
    (h : Like values bindings bindings') (hmore : Like values pairs pairs') :
    Like values (bindings.putAll pairs) (bindings'.putAll pairs') := by
  induction hmore generalizing bindings bindings' with
  | nil => exact h
  | @cons pair pair' pairs pairs' hfirst _ ih =>
    obtain ⟨name, value⟩ := pair
    obtain ⟨name', value'⟩ := pair'
    obtain ⟨hsameName, hnew⟩ := hfirst
    obtain rfl : name' = name := hsameName
    exact ih (Like.put h hnew)

theorem Like.get? (h : Like values bindings bindings') (name : String) :
    Option.Rel values (bindings.get? name) (bindings'.get? name) := by
  induction h with
  | nil => exact .none
  | @cons entry entry' later later' hfirst _ ih =>
    obtain ⟨key, bound⟩ := entry
    obtain ⟨key', bound'⟩ := entry'
    obtain ⟨hsameKey, hbounds⟩ := hfirst
    obtain rfl : key' = key := hsameKey
    by_cases hfound : (key' == name) = true
    · rw [Bindings.get?, Bindings.get?, if_pos hfound, if_pos hfound]
      exact .some hbounds
    · rw [Bindings.get?, Bindings.get?, if_neg hfound, if_neg hfound]
      exact ih

theorem Like.binds (h : Like values bindings bindings') (name : String) :
    bindings'.binds name = bindings.binds name := by
  have hfound := Like.get? h name
  unfold Bindings.binds
  generalize bindings.get? name = bound at hfound ⊢
  generalize bindings'.get? name = bound' at hfound ⊢
  cases hfound <;> rfl

theorem like_zip
    {xs : List α} {ys : List α'} (h : List.Forall₂ values xs ys) (names : List String) :
    Like values (names.zip xs) (names.zip ys) := by
  induction h generalizing names with
  | nil =>
    rw [List.zip_nil_right, List.zip_nil_right]
    exact .nil
  | cons hfirst _ ih =>
    cases names with
    | nil => exact .nil
    | cons name names => exact .cons ⟨rfl, hfirst⟩ (ih names)

end Bindings

/-! ## Stores -/

/-- Two scopes have the same parent and bindings that are alike. -/
structure Scope.Like (offsets : Nat → Nat → Prop) (scope scope' : Scope) : Prop where
  parent : scope'.parent = scope.parent
  bindings : Bindings.Like (Value.Like offsets) scope.bindings scope'.bindings

/-- The items of two arrays are alike. -/
abbrev Value.LikeItems (offsets : Nat → Nat → Prop) (items items' : Array Value) : Prop :=
  List.Forall₂ (Value.Like offsets) items.toList items'.toList

/-- Two stores have scopes, arrays and maps that are alike at the same places. -/
structure Store.Like (offsets : Nat → Nat → Prop) (store store' : Store) : Prop where
  scopes : List.Forall₂ (Scope.Like offsets) store.scopes.toList store'.scopes.toList
  arrays : List.Forall₂ (Value.LikeItems offsets) store.arrays.toList store'.arrays.toList
  maps : List.Forall₂ (Bindings.Like (Value.Like offsets)) store.maps.toList store'.maps.toList

namespace Store

variable {offsets : Nat → Nat → Prop} {store store' : Store} {value value' : Value}

theorem likeBindings_self
    (hreflexive : ∀ offset, offsets offset offset) (bindings : Bindings Value) :
    Bindings.Like (Value.Like offsets) bindings bindings :=
  List.forall₂_same.mpr fun _ _ => ⟨rfl, Value.like_self hreflexive _⟩

/-- A name is at home in the same scope of two stores, if each scope binds the same names in both
and has the same parent. -/
theorem home?_of_sameNames
    (h : ∀ id, Option.Rel (fun scope scope' => scope'.parent = scope.parent ∧
      ∀ name, scope'.bindings.binds name = scope.bindings.binds name)
      (store.scope? id) (store'.scope? id))
    (name : String) (id : ScopeId) :
    store'.home? name id = store.home? name id := by
  have hfound := h id
  rw [Store.home?, Store.home?]
  generalize store.scope? id = scope at hfound ⊢
  generalize store'.scope? id = scope' at hfound ⊢
  cases hfound with
  | none => rfl
  | some hscopes =>
    dsimp only
    rw [hscopes.2 name, hscopes.1]
    split
    · rfl
    · split
      · rfl
      · split
        · exact home?_of_sameNames h name _
        · rfl
termination_by id.index

namespace Like

theorem scope? (h : Like offsets store store') (id : ScopeId) :
    Option.Rel (Scope.Like offsets) (store.scope? id) (store'.scope? id) := by
  have hfound := forall₂_getElem? h.scopes id.index
  rwa [Array.getElem?_toList, Array.getElem?_toList] at hfound

theorem own (h : Like offsets store store') (id : ScopeId) :
    Bindings.Like (Value.Like offsets) (store.own id) (store'.own id) := by
  have hfound := h.scope? id
  unfold Store.own
  generalize store.scope? id = scope at hfound ⊢
  generalize store'.scope? id = scope' at hfound ⊢
  cases hfound with
  | none => exact .nil
  | some hscopes => exact hscopes.bindings

theorem newScope (h : Like offsets store store') (parent : Option ScopeId) :
    Like offsets (store.newScope parent).2 (store'.newScope parent).2 where
  scopes := by
    simp only [Store.newScope, Array.toList_push]
    exact List.rel_append h.scopes (.cons ⟨rfl, .nil⟩ .nil)
  arrays := h.arrays
  maps := h.maps

theorem define
    (h : Like offsets store store') (hvalues : Value.Like offsets value value') (id : ScopeId)
    (name : String) :
    Like offsets (store.define id name value) (store'.define id name value') where
  scopes := by
    simp only [Store.define, Array.toList_modify]
    refine forall₂_modify h.scopes (fun _ _ hscopes => ?_) id.index
    exact ⟨hscopes.parent, hscopes.bindings.put hvalues⟩
  arrays := h.arrays
  maps := h.maps

theorem home? (h : Like offsets store store') (name : String) (id : ScopeId) :
    store'.home? name id = store.home? name id :=
  home?_of_sameNames
    (fun id => rel_imp (h.scope? id) fun _ _ hlike => ⟨hlike.parent, hlike.bindings.binds⟩) name id

theorem lookup? (h : Like offsets store store') (id : ScopeId) (name : String) :
    Option.Rel (Value.Like offsets) (store.lookup? id name) (store'.lookup? id name) := by
  unfold Store.lookup?
  rw [h.home? name id]
  split
  · exact (h.own _).get? name
  · exact .none

theorem assign
    (h : Like offsets store store') (hvalues : Value.Like offsets value value') (id : ScopeId)
    (name : String) :
    Like offsets (store.assign id name value).2 (store'.assign id name value').2 := by
  unfold Store.assign
  rw [h.home? name id]
  split
  · exact h.define hvalues _ name
  · exact h

theorem newArray
    {items items' : List Value}
    (h : Like offsets store store') (hvalues : List.Forall₂ (Value.Like offsets) items items') :
    Like offsets (store.newArray items.toArray).2 (store'.newArray items'.toArray).2 where
  scopes := h.scopes
  arrays := by
    simp only [Store.newArray, Array.toList_push]
    exact List.rel_append h.arrays (.cons hvalues .nil)
  maps := h.maps

theorem newMap
    {entries entries' : Bindings Value}
    (h : Like offsets store store')
    (hvalues : Bindings.Like (Value.Like offsets) entries entries') :
    Like offsets (store.newMap entries).2 (store'.newMap entries').2 where
  scopes := h.scopes
  arrays := h.arrays
  maps := by
    simp only [Store.newMap, Array.toList_push]
    exact List.rel_append h.maps (.cons hvalues .nil)

theorem items (h : Like offsets store store') (id : ArrayId) :
    Value.LikeItems offsets (store.items id) (store'.items id) := by
  have hfound := forall₂_getElem? h.arrays id.index
  rw [Array.getElem?_toList, Array.getElem?_toList] at hfound
  rw [Store.items, Store.items, Array.getD_eq_getD_getElem?, Array.getD_eq_getD_getElem?]
  exact rel_getD hfound .nil

theorem entries (h : Like offsets store store') (id : MapId) :
    Bindings.Like (Value.Like offsets) (store.entries id) (store'.entries id) := by
  have hfound := forall₂_getElem? h.maps id.index
  rw [Array.getElem?_toList, Array.getElem?_toList] at hfound
  rw [Store.entries, Store.entries, Array.getD_eq_getD_getElem?, Array.getD_eq_getD_getElem?]
  exact rel_getD hfound .nil

theorem setItem
    (h : Like offsets store store') (hvalues : Value.Like offsets value value') (id : ArrayId)
    (index : Nat) :
    Like offsets (store.setItem id index value) (store'.setItem id index value') where
  scopes := h.scopes
  arrays := by
    simp only [Store.setItem, Array.toList_modify]
    refine forall₂_modify h.arrays (fun items items' hlikes => ?_) id.index
    simp only [Value.LikeItems, Array.toList_setIfInBounds, List.set_eq_modify]
    exact forall₂_modify hlikes (fun _ _ _ => hvalues) index
  maps := h.maps

theorem setEntry
    (h : Like offsets store store') (hvalues : Value.Like offsets value value') (id : MapId)
    (key : String) :
    Like offsets (store.setEntry id key value) (store'.setEntry id key value') where
  scopes := h.scopes
  arrays := h.arrays
  maps := by
    simp only [Store.setEntry, Array.toList_modify]
    exact forall₂_modify h.maps (fun _ _ hlikes => hlikes.put hvalues) id.index

theorem refl (hreflexive : ∀ offset, offsets offset offset) (store : Store) :
    Like offsets store store where
  scopes := List.forall₂_same.mpr fun _ _ => ⟨rfl, likeBindings_self hreflexive _⟩
  arrays := List.forall₂_same.mpr fun _ _ => List.forall₂_same.mpr fun _ _ =>
    Value.like_self hreflexive _
  maps := List.forall₂_same.mpr fun _ _ => likeBindings_self hreflexive _

/-! ## Values written out -/

theorem viewWithin
    (h : Like offsets store store') (hvalues : Value.Like offsets value value') (depth : Nat) :
    store'.viewWithin depth value' = store.viewWithin depth value := by
  induction depth generalizing value value' with
  | zero =>
    cases hvalues with
    | same => cases value <;> rfl
    | closure hfunctions =>
      cases hfunctions
      rfl
  | succ depth ih =>
    cases hvalues with
    | closure hfunctions =>
      cases hfunctions
      rfl
    | same =>
      cases value with
      | array id =>
        rw [Store.viewWithin, Store.viewWithin,
          mapM_same (h.items id) fun _ _ hvalues => ih hvalues]
      | map id =>
        have hsameEntry : ∀ entry entry' : String × Value,
            Bindings.LikeEntry (Value.Like offsets) entry entry' →
            (do return (entry'.1, ← store'.viewWithin depth entry'.2) : Option (String × Datum)) =
              do return (entry.1, ← store.viewWithin depth entry.2) := by
          rintro entry entry' ⟨hsameKey, hvalues⟩
          rw [hsameKey, ih hvalues]
        rw [Store.viewWithin, Store.viewWithin, mapM_same (h.entries id) hsameEntry]
      | _ => rfl

theorem view? (h : Like offsets store store') (hvalues : Value.Like offsets value value') :
    store'.view? value' = store.view? value := by
  have harrays : store'.arrays.size = store.arrays.size := h.arrays.length_eq.symm
  have hmaps : store'.maps.size = store.maps.size := h.maps.length_eq.symm
  rw [Store.view?, Store.view?, harrays, hmaps]
  exact h.viewWithin hvalues _

end Like

end Store

end PuzzleLang
