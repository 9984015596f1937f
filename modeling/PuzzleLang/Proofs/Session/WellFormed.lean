import PuzzleLang.Proofs.Run.Region

/-!
# Well-formed stores

In a well-formed store nothing names a place that does not exist, a scope is older than the scopes
inside it, and the scopes lie inside each other around one root.  A session has a well-formed store,
whatever has been done in it, and every run keeps a store well-formed.
-/

namespace PuzzleLang

namespace Store

/-- All scopes lie inside the root scope, and a scope is older than those inside it. -/
structure Rooted (store : Store) : Prop where
  root : store.Has (.scope rootScope)
  older {id parent : ScopeId} {cell : Cell} :
    store.at? (.scope id) = some cell → cell.parent? = some parent → parent.index < id.index
  outermost {id : ScopeId} {cell : Cell} :
    store.at? (.scope id) = some cell → cell.parent? = none → id = rootScope

/-- All scopes lie inside the root scope, and all places that are named exist. -/
structure WellFormed (store : Store) : Prop extends Rooted store where
  named {place place' : Place} {cell : Cell} {value : Value} :
    store.at? place = some cell → value ∈ cell.values → value.place? = some place' →
      store.Has place'

theorem WellFormed.reaches_root
    {store : Store} {id : ScopeId} (hwellFormed : store.WellFormed) (hhas : store.Has (.scope id)) :
    store.Reaches (.scope id) (.scope rootScope) := by
  obtain ⟨index⟩ := id
  -- Parents are older, so the way out to the root comes to an end.
  induction index using Nat.strongRecOn with
  | ind index ih =>
    obtain ⟨cell, hfound⟩ := exists_at?_of_has hhas
    cases hparent : cell.parent? with
    | none =>
      rw [hwellFormed.outermost hfound hparent]
      exact .refl
    | some parent =>
      have holder : parent.index < index := hwellFormed.older hfound hparent
      have hhasParent : store.Has (.scope parent) :=
        has_scope.mpr (Nat.lt_trans holder (has_scope.mp hhas))
      exact (Relation.ReflTransGen.single (.parent hfound hparent)).trans
        (ih parent.index holder hhasParent)

theorem WellFormed.has_of_reaches
    {store : Store} {place place' : Place}
    (hwellFormed : store.WellFormed) (hhas : store.Has place)
    (hreaches : store.Reaches place place') :
    store.Has place' := by
  induction hreaches with
  | refl => exact hhas
  | tail _ hlink ih =>
    cases hlink with
    | value hfound hheld hnamed => exact hwellFormed.named hfound hheld hnamed
    | parent hfound hparent =>
      exact has_scope.mpr
        (Nat.lt_trans (hwellFormed.older hfound hparent) (has_scope.mp (has_of_at? hfound)))

end Store

/-! ## Runs keep stores well-formed -/

namespace Store

variable {store store' : Store}

theorem Rooted.of_parents
    (hrooted : store.Rooted)
    (hsame : ∀ id, (store'.at? (.scope id)).map Cell.parent? =
      (store.at? (.scope id)).map Cell.parent?) :
    store'.Rooted := by
  have hbefore {id : ScopeId} {cell : Cell} (hfound : store'.at? (.scope id) = some cell) :
      ∃ cell', store.at? (.scope id) = some cell' ∧ cell'.parent? = cell.parent? := by
    have hparents := hsame id
    rw [hfound, Option.map_some] at hparents
    exact Option.map_eq_some_iff.mp hparents.symm
  refine ⟨?_, fun hfound hparent => ?_, fun hfound houtermost => ?_⟩
  · obtain ⟨cell, hfound⟩ := exists_at?_of_has hrooted.root
    have hparents := hsame rootScope
    rw [hfound, Option.map_some] at hparents
    obtain ⟨cell', hfound', -⟩ := Option.map_eq_some_iff.mp hparents
    exact has_of_at? hfound'
  · obtain ⟨cell', hfound', hsameParent⟩ := hbefore hfound
    exact hrooted.older hfound' (hsameParent.trans hparent)
  · obtain ⟨cell', hfound', hsameParent⟩ := hbefore hfound
    exact hrooted.outermost hfound' (hsameParent.trans houtermost)

theorem Rooted.define (hrooted : store.Rooted) (id : ScopeId) (name : String) (value : Value) :
    (store.define id name value).Rooted := by
  refine hrooted.of_parents fun id' => ?_
  rw [at?_define]
  split
  case isFalse => rfl
  case isTrue hsame =>
    cases hsame
    unfold at? scope?
    rw [Option.map_map, Option.map_map]
    rfl

theorem Rooted.newScope
    {parent : ScopeId} (hrooted : store.Rooted) (hhas : store.Has (.scope parent)) :
    (store.newScope (some parent)).2.Rooted := by
  refine ⟨(store.grows_newScope _).has hrooted.root, fun hfound hparent => ?_,
    fun hfound houtermost => ?_⟩
  · rw [at?_newScope] at hfound
    split at hfound
    case isFalse => exact hrooted.older hfound hparent
    case isTrue hsame =>
      cases hsame
      cases hfound
      cases hparent
      exact has_scope.mp hhas
  · rw [at?_newScope] at hfound
    split at hfound
    case isFalse => exact hrooted.outermost hfound houtermost
    case isTrue =>
      cases hfound
      cases houtermost

end Store

namespace Region

/-- The region of all places that exist. -/
def whole : Region where
  inside := Store.Has
  fits _ := True
  binds _ := True
  intact store _ := store.Rooted

theorem kept_whole {state : State} : whole.Kept state ↔ state.store.WellFormed := by
  constructor
  · rintro ⟨hclosed, hrooted⟩
    exact { hrooted with
      named := fun hfound hheld hnamed =>
        (hclosed.value (Store.has_of_at? hfound) hfound hheld).2 _ hnamed }
  · intro hwellFormed
    refine ⟨⟨fun hinside hfound hparent => ?_, fun hinside hfound hheld => ?_⟩,
      hwellFormed.toRooted⟩
    · exact Store.has_scope.mpr
        (Nat.lt_trans (hwellFormed.older hfound hparent) (Store.has_scope.mp hinside))
    · exact ⟨trivial, fun _ hnamed => hwellFormed.named hfound hheld hnamed⟩

theorem whole_laws : whole.Laws where
  inside_mono := Store.Grows.has
  inside_old _ hhas _ := hhas
  fits _ := trivial
  newScope {store} _ parent hrooted hhas :=
    ⟨hrooted.newScope hhas, Store.has_scope.mpr (by simp [Store.newScope]), trivial⟩
  newArray hrooted :=
    ⟨hrooted.of_parents fun _ => rfl, Store.has_array.mpr (by simp [Store.newArray])⟩
  newMap hrooted := ⟨hrooted.of_parents fun _ => rfl, Store.has_map.mpr (by simp [Store.newMap])⟩
  define hrooted _ _ := hrooted.define _ _ _
  setItem hrooted _ := hrooted.of_parents fun _ => rfl
  setEntry hrooted _ := hrooted.of_parents fun _ => rfl

end Region

theorem Store.WellFormed.newScope
    {store : Store} {parent : ScopeId}
    (hwellFormed : store.WellFormed) (hhas : store.Has (.scope parent)) :
    (store.newScope (some parent)).2.WellFormed := by
  have hkept : Region.whole.Kept { State.initial with store } := Region.kept_whole.mpr hwellFormed
  have hafter : Region.whole.Kept
      { State.initial with store := (store.newScope (some parent)).2 } :=
    ⟨Region.whole_laws.closed_newScope hkept.closed hhas, hkept.intact.newScope hhas⟩
  exact Region.kept_whole.mp hafter

theorem Store.WellFormed.define
    {store : Store} {id : ScopeId} {value : Value}
    (hwellFormed : store.WellFormed) (hhas : store.Has (.scope id))
    (hexist : ∀ place, value.place? = some place → store.Has place) (name : String) :
    (store.define id name value).WellFormed := by
  have hkept : Region.whole.Kept { State.initial with store } := Region.kept_whole.mpr hwellFormed
  have hafter : Region.whole.Kept { State.initial with store := store.define id name value } :=
    ⟨Region.whole_laws.closed_define hkept.closed hhas ⟨trivial, hexist⟩ name,
      hkept.intact.define id name value⟩
  exact Region.kept_whole.mp hafter

namespace Region

theorem whole_opens (setting : Setting) : whole.accord.Opens setting setting :=
  opens id fun hkept => ⟨hkept.intact.root, trivial⟩

end Region

/-! ## Sessions -/

namespace Session

/-- The sessions that come about: a script is loaded, and then sections are evaluated, inputs are
read, and the host binds names to values by hand. -/
inductive Reachable (byHand : Value → Prop) : Session → Prop
  | load (program : Program) (level : Int) (files : Files) (limits : Limits) :
    (load program level files limits).1 = .ok () →
      Reachable byHand (load program level files limits).2
  | evaluate {session : Session} (name : String) :
    Reachable byHand session → Reachable byHand (session.evaluate name).2
  | readInput {session : Session} (text : String) :
    Reachable byHand session → Reachable byHand (session.readInput text)
  | define {session : Session} (name : String) {value : Value} :
    Reachable byHand session → byHand value →
      (∀ place, value.place? = some place → session.state.store.Has place) →
      Reachable byHand (session.define name value)

theorem state_perform {α : Type} (session : Session) (run : Run α) :
    (session.perform run).2.state = run.final session.state := by
  unfold perform Run.final
  cases run session.state <;> rfl

section

variable {R : Region} (hlaws : R.Laws) (hopens : ∀ setting, R.accord.Opens setting setting)

include hlaws hopens

theorem kept_load
    (hinitial : R.Kept .initial) (program : Program) (level : Int) (files : Files)
    (limits : Limits) :
    R.Kept (load program level files limits).2.state := by
  have hlikes : List.Forall₂ (Item.Like Eq) program.items program.items :=
    List.forall₂_same.mpr fun item _ => Item.like_self (fun _ => rfl) item
  let setting := Setting.ofProgram program level files limits
  have hhosts := (hopens setting).root (show R.accord.states .initial .initial from ⟨rfl, hinitial⟩)
  have halike := (hlaws.accord setting).alike_loadItems hlikes hhosts []
  rw [load, state_perform]
  exact (Region.kept_of_ends halike hinitial).2

theorem kept_evaluate {session : Session} (hkept : R.Kept session.state) (name : String) :
    R.Kept (session.evaluate name).2.state := by
  have halike : R.accord.Alike R.accord.values session.state.store _ _ :=
    (hlaws.accord session.setting).alike_enterSection (hopens session.setting)
      session.setting.limits.calls name
  rw [evaluate, state_perform]
  exact (Region.kept_of_ends halike hkept).2

theorem kept_readInput {session : Session} (hkept : R.Kept session.state) (text : String) :
    R.Kept (session.readInput text).state := by
  have hhosts := (hopens session.setting).root
    (show R.accord.states session.state session.state from ⟨rfl, hkept⟩)
  have halike := (hlaws.accord session.setting).alike_readInput hhosts text
  rw [readInput, state_perform]
  exact (Region.kept_of_ends halike hkept).2

theorem Reachable.kept
    {byHand : Value → Prop} {session : Session}
    (hinitial : R.Kept .initial)
    (hallowed : ∀ {state value}, R.Kept state → byHand value →
      (∀ place, value.place? = some place → state.store.Has place) →
      R.allowed state.store value)
    (h : Reachable byHand session) :
    R.Kept session.state := by
  induction h with
  | load program level files limits _ =>
    exact kept_load hlaws hopens hinitial program level files limits
  | evaluate name _ hkept => exact kept_evaluate hlaws hopens hkept name
  | readInput text _ hkept => exact kept_readInput hlaws hopens hkept text
  | @define session name value _ hmay hexist hkept =>
    have hhosts := (hopens session.setting).root
      (show R.accord.states session.state session.state from ⟨rfl, hkept⟩)
    have hvalues : R.accord.values session.state.store value value :=
      Region.values_iff.mpr ⟨rfl, hallowed hkept hmay hexist⟩
    have halike := (hlaws.accord session.setting).alike_define hhosts.2 hvalues name
    rw [Session.define, state_perform]
    exact (Region.kept_of_ends halike hkept).2

end

end Session

/-! ## The store before a script is loaded -/

theorem mem_values_putAll
    {pairs : List (String × Value)} {bindings : Bindings Value} {held : Value}
    (hmem : held ∈ (bindings.putAll pairs).map Prod.snd) :
    held ∈ bindings.map Prod.snd ∨ held ∈ pairs.map Prod.snd := by
  induction pairs generalizing bindings with
  | nil => exact .inl hmem
  | cons pair pairs ih =>
    rcases ih hmem with hbefore | hlater
    · rcases Region.mem_values_put hbefore with hold | rfl
      · exact .inl hold
      · exact .inr List.mem_cons_self
    · exact .inr (List.mem_cons_of_mem _ hlater)

namespace Store

theorem at?_initial {place : Place} {cell : Cell} (hfound : Store.initial.at? place = some cell) :
    place = .scope rootScope ∧ cell.parent? = none ∧
      ∀ value ∈ cell.values, ∃ native ∈ Native.standard, value = .native native := by
  cases place with
  | array id => simp [at?, initial, defineAll, Store.newScope, empty] at hfound
  | map id => simp [at?, initial, defineAll, Store.newScope, empty] at hfound
  | scope id =>
    obtain ⟨index⟩ := id
    obtain ⟨scope, hscope, rfl⟩ := exists_scope_of_at? hfound
    simp only [scope?, initial, defineAll, Store.newScope, empty, Array.getElem?_modify,
      Array.getElem?_push] at hscope
    by_cases hroot : index = 0
    · subst hroot
      cases hscope
      refine ⟨rfl, rfl, fun value hheld => ?_⟩
      rcases mem_values_putAll hheld with hbefore | hstandard
      · cases hbefore
      · rw [List.map_map] at hstandard
        obtain ⟨native, hmem, rfl⟩ := List.mem_map.mp hstandard
        exact ⟨native, hmem, rfl⟩
    · simp [hroot, Ne.symm hroot] at hscope

theorem wellFormed_initial : Store.initial.WellFormed where
  root := has_scope.mpr (by decide)
  older hfound hparent := by
    rw [(at?_initial hfound).2.1] at hparent
    cases hparent
  outermost hfound _ := by
    cases (at?_initial hfound).1
    rfl
  named hfound hheld hnamed := by
    obtain ⟨native, -, rfl⟩ := (at?_initial hfound).2.2 _ hheld
    cases hnamed

end Store

theorem Region.kept_whole_initial : Region.whole.Kept .initial :=
  Region.kept_whole.mpr Store.wellFormed_initial

theorem Session.Reachable.wellFormed
    {byHand : Value → Prop} {session : Session} (h : Session.Reachable byHand session) :
    session.state.store.WellFormed :=
  Region.kept_whole.mp (h.kept Region.whole_laws Region.whole_opens Region.kept_whole_initial
    fun _ _ hexist => ⟨trivial, hexist⟩)

end PuzzleLang
