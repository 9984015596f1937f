import PuzzleLang.Proofs.Store.Circular
import PuzzleLang.Proofs.Store.Like

/-!
# Values of the same structure

Two values have the same structure, each in its own store, if they cannot be told apart by looking
into them, however deep: arrays have as many items and maps the same keys in the same order, with
items and entries of the same structure.  Where the arrays and maps lie does not matter.  Values
that contain themselves can have the same structure as well, so it is enough that some pairing of
values is kept from level to level.

Values of the same structure are written out in the same way.  How deep a store looks into a value
before it gives up depends on the size of the store, but what it comes to does not.
-/

namespace PuzzleLang

namespace Store

/-- A store has all that is in another one, unchanged, and may have more arrays and maps. -/
structure Extends (store after : Store) : Prop extends Keeps store after where
  scopes : after.scopes = store.scopes

/-- Two values have the same structure one level down, with parts that are paired.  Functions are
the same only if they belong to the same scope. -/
inductive Level (store store' : Store) (paired : Value → Value → Prop) : Value → Value → Prop
  | leaf {value : Value} :
    (∀ id, value ≠ .array id) → (∀ id, value ≠ .map id) → store.Knows value →
      store'.Knows value → Level store store' paired value value
  | array {id id' : ArrayId} {items items' : Array Value} :
    store.arrays[id.index]? = some items → store'.arrays[id'.index]? = some items' →
      List.Forall₂ paired items.toList items'.toList →
      Level store store' paired (.array id) (.array id')
  | map {id id' : MapId} {entries entries' : Bindings Value} :
    store.maps[id.index]? = some entries → store'.maps[id'.index]? = some entries' →
      Bindings.Like paired entries entries' → Level store store' paired (.map id) (.map id')

/-- Two values have the same structure, each in its store. -/
def Same (store store' : Store) (value value' : Value) : Prop :=
  ∃ paired : Value → Value → Prop,
    (∀ a b, paired a b → Level store store' paired a b) ∧ paired value value'

variable {store store' : Store} {value value' : Value}

/-! ## Stores that grow -/

theorem Extends.refl (store : Store) : store.Extends store :=
  ⟨.refl store, rfl⟩

theorem Extends.trans {store'' : Store} (h : store.Extends store') (h' : store'.Extends store'') :
    store.Extends store'' :=
  ⟨h.toKeeps.trans h'.toKeeps, h'.scopes.trans h.scopes⟩

theorem extends_newArray (store : Store) (items : Array Value) :
    store.Extends (store.newArray items).2 :=
  ⟨keeps_newArray store items, rfl⟩

theorem extends_newMap (store : Store) (entries : Bindings Value) :
    store.Extends (store.newMap entries).2 :=
  ⟨keeps_newMap store entries, rfl⟩

theorem Extends.has {place : Place} (hgrown : store.Extends store') (hhas : store.Has place) :
    store'.Has place := by
  cases place with
  | scope id =>
    rw [has_scope, hgrown.scopes]
    exact has_scope.mp hhas
  | array id =>
    have hfound := hgrown.arrays (Array.getElem?_eq_getElem (has_array.mp hhas))
    exact has_array.mpr (Array.getElem?_eq_some_iff.mp hfound).1
  | map id =>
    have hfound := hgrown.maps (Array.getElem?_eq_getElem (has_map.mp hhas))
    exact has_map.mpr (Array.getElem?_eq_some_iff.mp hfound).1

theorem Extends.knows (hgrown : store.Extends store') (hknows : store.Knows value) :
    store'.Knows value :=
  fun place hnamed => hgrown.has (hknows place hnamed)

/-! ## Level by level -/

theorem Level.imp
    {paired paired' : Value → Value → Prop}
    (hlevel : Level store store' paired value value') (himp : ∀ a b, paired a b → paired' a b) :
    Level store store' paired' value value' := by
  cases hlevel with
  | leaf hnotArray hnotMap hknows hknows' => exact .leaf hnotArray hnotMap hknows hknows'
  | array hfound hfound' hitems => exact .array hfound hfound' (hitems.imp himp)
  | map hfound hfound' hentries =>
    exact .map hfound hfound' (hentries.imp fun _ _ hlike => ⟨hlike.1, himp _ _ hlike.2⟩)

theorem Level.mono
    {after after' : Store} {paired : Value → Value → Prop}
    (hlevel : Level store store' paired value value') (hmore : store.Extends after)
    (hmore' : store'.Extends after') :
    Level after after' paired value value' := by
  cases hlevel with
  | leaf hnotArray hnotMap hknows hknows' =>
    exact .leaf hnotArray hnotMap (hmore.knows hknows) (hmore'.knows hknows')
  | array hfound hfound' hitems => exact .array (hmore.arrays hfound) (hmore'.arrays hfound') hitems
  | map hfound hfound' hentries => exact .map (hmore.maps hfound) (hmore'.maps hfound') hentries

theorem Same.level (hsame : store.Same store' value value') :
    Level store store' (store.Same store') value value' := by
  obtain ⟨paired, hlevels, hpaired⟩ := hsame
  exact (hlevels _ _ hpaired).imp fun a b hpaired => ⟨paired, hlevels, hpaired⟩

theorem Level.same (hlevel : Level store store' (store.Same store') value value') :
    store.Same store' value value' := by
  refine ⟨fun a b => store.Same store' a b ∨ a = value ∧ b = value', ?_, .inr ⟨rfl, rfl⟩⟩
  rintro a b (hsame | ⟨rfl, rfl⟩)
  · exact hsame.level.imp fun _ _ => .inl
  · exact hlevel.imp fun _ _ => .inl

theorem Same.mono
    {after after' : Store}
    (hsame : store.Same store' value value') (hmore : store.Extends after)
    (hmore' : store'.Extends after') :
    after.Same after' value value' := by
  obtain ⟨paired, hlevels, hpaired⟩ := hsame
  exact ⟨paired, fun a b hpaired => (hlevels a b hpaired).mono hmore hmore', hpaired⟩

theorem Same.knows (hsame : store.Same store' value value') :
    store.Knows value ∧ store'.Knows value' := by
  cases hsame.level with
  | leaf _ _ hknows hknows' => exact ⟨hknows, hknows'⟩
  | array hfound hfound' =>
    constructor
    · rintro _ ⟨⟩
      exact has_array.mpr (Array.getElem?_eq_some_iff.mp hfound).1
    · rintro _ ⟨⟩
      exact has_array.mpr (Array.getElem?_eq_some_iff.mp hfound').1
  | map hfound hfound' =>
    constructor
    · rintro _ ⟨⟩
      exact has_map.mpr (Array.getElem?_eq_some_iff.mp hfound).1
    · rintro _ ⟨⟩
      exact has_map.mpr (Array.getElem?_eq_some_iff.mp hfound').1

theorem same_of_place?_eq_none (hnoPlace : value.place? = none) :
    store.Same store' value value := by
  have hknows (store : Store) : store.Knows value := by
    intro place hnamed
    rw [hnoPlace] at hnamed
    cases hnamed
  refine Level.same (.leaf ?_ ?_ (hknows store) (hknows store'))
  · rintro id rfl
    cases hnoPlace
  · rintro id rfl
    cases hnoPlace

/-- A value that exists keeps its structure while arrays and maps are made. -/
theorem WellFormed.same_self
    {base : Store}
    (hwellFormed : base.WellFormed) (hknows : base.Knows value) (hmore : base.Extends store)
    (hmore' : base.Extends store') :
    store.Same store' value value := by
  refine ⟨fun a b => a = b ∧ base.Knows a, ?_, rfl, hknows⟩
  rintro a _ ⟨rfl, hknows⟩
  have hwithin {inner : Value} (hmem : inner ∈ base.contents a) : base.Knows inner :=
    hwellFormed.knows_of_contains hmem
  cases a with
  | array id =>
    obtain ⟨items, hfound⟩ : ∃ items, base.arrays[id.index]? = some items :=
      ⟨_, Array.getElem?_eq_getElem (has_array.mp (hknows _ rfl))⟩
    refine .array (hmore.arrays hfound) (hmore'.arrays hfound) (List.forall₂_same.mpr ?_)
    refine fun item hmem => ⟨rfl, hwithin ?_⟩
    rwa [contents, items_of_some hfound]
  | map id =>
    obtain ⟨entries, hfound⟩ : ∃ entries, base.maps[id.index]? = some entries :=
      ⟨_, Array.getElem?_eq_getElem (has_map.mp (hknows _ rfl))⟩
    refine .map (hmore.maps hfound) (hmore'.maps hfound) (List.forall₂_same.mpr ?_)
    refine fun entry hmem => ⟨rfl, rfl, hwithin ?_⟩
    rw [contents, entries_of_some hfound]
    exact List.mem_map_of_mem hmem
  | nil | number | string | range | native | closure =>
    exact .leaf nofun nofun (hmore.knows hknows) (hmore'.knows hknows)

/-! ## What does not depend on where things lie -/

theorem Same.type (hsame : store.Same store' value value') : value'.type = value.type := by
  cases hsame.level <;> rfl

theorem Same.operand? (hsame : store.Same store' value value') :
    value'.operand? = value.operand? := by
  cases hsame.level <;> rfl

theorem Same.mapKey? (hsame : store.Same store' value value') : value'.mapKey? = value.mapKey? := by
  cases hsame.level <;> rfl

theorem Same.negate (hsame : store.Same store' value value') : value'.negate = value.negate := by
  cases hsame.level <;> rfl

theorem Same.equals
    {other other' : Value}
    (hsame : store.Same store' value value') (hothers : store.Same store' other other') :
    value'.equals other' = value.equals other := by
  cases hsame.level with
  | leaf =>
    cases hothers.level with
    | leaf => rfl
    | array | map => cases value <;> rfl
  | array | map =>
    cases hothers.level with
    | leaf => cases other <;> rfl
    | array | map => rfl

theorem viewWithin_leaf
    (hnotArray : ∀ id, value ≠ .array id) (hnotMap : ∀ id, value ≠ .map id) (depth : Nat) :
    store'.viewWithin depth value = store.viewWithin depth value := by
  cases value with
  | array id => exact absurd rfl (hnotArray id)
  | map id => exact absurd rfl (hnotMap id)
  | nil | number | string | range | native | closure => cases depth <;> rfl

theorem Same.viewWithin (hsame : store.Same store' value value') (depth : Nat) :
    store'.viewWithin depth value' = store.viewWithin depth value := by
  induction depth generalizing value value' with
  | zero =>
    cases hsame.level with
    | leaf hnotArray hnotMap => exact viewWithin_leaf hnotArray hnotMap 0
    | array | map => rfl
  | succ depth ih =>
    cases hsame.level with
    | leaf hnotArray hnotMap => exact viewWithin_leaf hnotArray hnotMap (depth + 1)
    | @array id id' items items' hfound hfound' hall =>
      rw [Store.viewWithin, Store.viewWithin, items_of_some hfound, items_of_some hfound',
        mapM_same hall fun _ _ => ih]
    | @map id id' entries entries' hfound hfound' hall =>
      rw [Store.viewWithin, Store.viewWithin, entries_of_some hfound, entries_of_some hfound',
        mapM_same hall]
      rintro entry entry' ⟨hsameKey, hsameValue⟩
      rw [hsameKey, ih hsameValue]

/-! ## Depth -/

theorem mapM_eq_some_iff {α β : Type} {f : α → Option β} {xs : List α} {ys : List β} :
    xs.mapM f = some ys ↔ List.Forall₂ (fun x y => f x = some y) xs ys := by
  induction xs generalizing ys with
  | nil =>
    rw [List.mapM_nil, List.forall₂_nil_left_iff]
    exact ⟨fun h => (Option.some.inj h).symm, fun h => congrArg some h.symm⟩
  | cons x xs ih =>
    rw [List.mapM_cons, List.forall₂_cons_left_iff]
    simp only [Option.bind_eq_bind, Option.bind_eq_some_iff, ih]
    constructor
    · rintro ⟨y, hfirst, more, hmore, hall⟩
      exact ⟨y, more, hfirst, hmore, (Option.some.inj hall).symm⟩
    · rintro ⟨y, more, hfirst, hmore, rfl⟩
      exact ⟨y, hfirst, more, hmore, rfl⟩

theorem exists_of_mapM_eq_some
    {α β : Type} {f : α → Option β} {xs : List α} {ys : List β} {x : α}
    (h : xs.mapM f = some ys) (hmem : x ∈ xs) :
    ∃ y, f x = some y := by
  have hall := mapM_eq_some_iff.mp h
  induction hall with
  | nil => cases hmem
  | cons hfirst _ ih =>
    rcases List.mem_cons.mp hmem with rfl | hmem
    · exact ⟨_, hfirst⟩
    · exact ih (mapM_eq_some_iff.mpr ‹_›) hmem

/-- Looking deeper does not change what a value is written out as. -/
theorem viewWithin_mono
    {depth depth' : Nat} {datum : Datum}
    (hle : depth ≤ depth') (h : store.viewWithin depth value = some datum) :
    store.viewWithin depth' value = some datum := by
  induction depth generalizing value depth' datum with
  | zero =>
    cases value with
    | array id | map id => cases h
    | nil | number | string | range | native | closure => cases depth' <;> exact h
  | succ depth ih =>
    obtain ⟨depth', rfl⟩ : ∃ deeper, depth' = deeper + 1 := ⟨depth' - 1, by omega⟩
    have hle : depth ≤ depth' := Nat.le_of_succ_le_succ hle
    cases value with
    | array id =>
      obtain ⟨items, hviews, hdatum⟩ := Option.bind_eq_some_iff.mp h
      have hdeeper : (store.items id).toList.mapM (store.viewWithin depth') = some items :=
        mapM_eq_some_iff.mpr ((mapM_eq_some_iff.mp hviews).imp fun _ _ => ih hle)
      rw [viewWithin, hdeeper]
      exact hdatum
    | map id =>
      obtain ⟨entries, hviews, hdatum⟩ := Option.bind_eq_some_iff.mp h
      have hdeeper := mapM_eq_some_iff.mpr ((mapM_eq_some_iff.mp hviews).imp
        (S := fun entry entry' => (do
          let value ← store.viewWithin depth' entry.2
          return (entry.1, value)) = some entry') fun entry entry' hview' => by
            obtain ⟨datum, hview, hentry⟩ := Option.bind_eq_some_iff.mp hview'
            rw [ih hle hview]
            exact hentry)
      rw [viewWithin, hdeeper]
      exact hdatum
    | nil | number | string | range | native | closure => exact h

/-- What lies in a value that can be written out can be written out, one level less deep. -/
theorem exists_viewWithin_of_contains
    {depth : Nat} {datum : Datum} {inner : Value}
    (h : store.viewWithin depth value = some datum) (hcontains : store.Contains value inner) :
    ∃ less datum', depth = less + 1 ∧ store.viewWithin less inner = some datum' := by
  cases value with
  | nil | number | string | range | native | closure => cases hcontains
  | array id =>
    cases depth with
    | zero => cases h
    | succ depth =>
      obtain ⟨items, hviews, -⟩ := Option.bind_eq_some_iff.mp h
      obtain ⟨datum', hview'⟩ := exists_of_mapM_eq_some hviews hcontains
      exact ⟨depth, datum', rfl, hview'⟩
  | map id =>
    cases depth with
    | zero => cases h
    | succ depth =>
      obtain ⟨entries, hviews, -⟩ := Option.bind_eq_some_iff.mp h
      obtain ⟨entry, hmem, rfl⟩ := List.mem_map.mp hcontains
      obtain ⟨entry', hview'⟩ := exists_of_mapM_eq_some hviews hmem
      obtain ⟨datum', hview, -⟩ := Option.bind_eq_some_iff.mp hview'
      exact ⟨depth, datum', rfl, hview⟩

theorem acc_of_viewWithin
    {depth : Nat} {datum : Datum} (h : store.viewWithin depth value = some datum) :
    Acc (fun inner outer => store.Contains outer inner) value := by
  induction depth generalizing value datum with
  | zero =>
    refine ⟨value, fun inner hcontains => ?_⟩
    obtain ⟨_, _, ⟨⟩, _⟩ := exists_viewWithin_of_contains h hcontains
  | succ depth ih =>
    refine ⟨value, fun inner hcontains => ?_⟩
    obtain ⟨_, datum', ⟨⟩, hview⟩ := exists_viewWithin_of_contains h hcontains
    exact ih hview

theorem not_circular_of_viewWithin
    {depth : Nat} {datum : Datum} (h : store.viewWithin depth value = some datum) :
    ¬ store.Circular value := by
  rintro ⟨inner, hreaches, haround⟩
  have haccessible : Acc (fun inner outer => store.Contains outer inner) inner := by
    have hstart := acc_of_viewWithin h
    clear haround
    induction hreaches with
    | refl => exact hstart
    | tail _ hcontains ih => exact ih.inv hcontains
  -- A way around back to the same value would go on forever.
  have hdescending := haccessible.transGen
  rw [← Relation.transGen_swap] at haround
  clear hreaches haccessible
  induction hdescending with
  | intro inner _ ih => exact ih inner haround haround

/-- What a value is written out as does not depend on how many arrays and maps there are. -/
theorem WellFormed.view?_of_viewWithin
    {depth : Nat} {datum : Datum}
    (hwellFormed : store.WellFormed) (hknows : store.Knows value)
    (h : store.viewWithin depth value = some datum) :
    store.view? value = some datum := by
  have htold : store.render? value ≠ none :=
    hwellFormed.render?_ne_none hknows (not_circular_of_viewWithin h)
  cases hview : store.view? value with
  | none => exact absurd (by rw [render?, hview]; rfl) htold
  | some datum' =>
    have hdeeper := viewWithin_mono (Nat.le_max_left depth (store.arrays.size + store.maps.size)) h
    have hdeeper' := viewWithin_mono
      (Nat.le_max_right depth (store.arrays.size + store.maps.size)) hview
    exact hdeeper'.symm.trans hdeeper

theorem Same.view?
    (hsame : store.Same store' value value') (hwellFormed : store.WellFormed)
    (hwellFormed' : store'.WellFormed) :
    store'.view? value' = store.view? value := by
  obtain ⟨hknows, hknows'⟩ := hsame.knows
  cases hview : store.view? value with
  | some datum =>
    exact hwellFormed'.view?_of_viewWithin hknows' ((hsame.viewWithin _).trans hview)
  | none =>
    cases hview' : store'.view? value' with
    | none => rfl
    | some datum =>
      have hview'' :=
        hwellFormed.view?_of_viewWithin hknows ((hsame.viewWithin _).symm.trans hview')
      rw [hview] at hview''
      cases hview''

end Store

end PuzzleLang
