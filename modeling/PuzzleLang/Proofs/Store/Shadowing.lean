import PuzzleLang.Proofs.Bindings
import PuzzleLang.Proofs.Session.WellFormed

/-!
# Shadowing

The scopes of a store form a tree.  A name means what the nearest scope outwards makes of it: a
scope that binds the name hides what the scopes around it bind it to.  Binding a name in a scope is
seen from just those scopes that come to it before any other one that binds the name; giving a name
a new value is binding it once more in the nearest scope that binds it.
-/

namespace PuzzleLang

namespace Store

/-- The scope around a scope. -/
def parent? (store : Store) (id : ScopeId) : Option ScopeId :=
  (store.scope? id).bind Scope.parent

/-- The stores whose scopes have been made one inside the other around one root, while names were
bound in them and given new values. -/
inductive ScopeTree : Store → Prop
  | root : ScopeTree (empty.newScope none).2
  | child {store : Store} {parent : ScopeId} :
    ScopeTree store → store.Has (.scope parent) → ScopeTree (store.newScope (some parent)).2
  | define {store : Store} {id : ScopeId} (name : String) (value : Value) :
    ScopeTree store → store.Has (.scope id) → ScopeTree (store.define id name value)
  | assign {store : Store} {id : ScopeId} (name : String) (value : Value) :
    ScopeTree store → store.Has (.scope id) → ScopeTree (store.assign id name value).2

/-- Outwards from a scope, another one is reached before any scope around it that binds a name.  It
may bind the name itself. -/
inductive Sees (store : Store) (name : String) : ScopeId → ScopeId → Prop
  | self (id : ScopeId) : Sees store name id id
  | outer {id parent target : ScopeId} :
    (store.own id).binds name = false → store.parent? id = some parent →
      Sees store name parent target → Sees store name id target

/-- The nearest scope outwards from a scope that binds a name. -/
def Nearest (store : Store) (name : String) (id home : ScopeId) : Prop :=
  store.Sees name id home ∧ (store.own home).binds name = true

/-- A name has been bound in a scope, and nothing else has changed.  The names of the scope keep
their places, and a new one comes last. -/
structure Rebinds (store after : Store) (id : ScopeId) (name : String) (value : Value) :
    Prop where
  parents (other : ScopeId) : after.parent? other = store.parent? other
  scopes {other : ScopeId} : other ≠ id → after.scope? other = store.scope? other
  value : (after.own id).get? name = some value
  values {other : String} : other ≠ name → (after.own id).get? other = (store.own id).get? other
  names : (after.own id).names =
    if (store.own id).binds name then (store.own id).names else (store.own id).names ++ [name]
  arrays : after.arrays = store.arrays
  maps : after.maps = store.maps

variable {store : Store} {id parent home : ScopeId} {name : String} {value : Value}

/-! ## Parents -/

theorem exists_scope_of_parent? (hparent : store.parent? id = some parent) :
    ∃ scope, store.scope? id = some scope ∧ scope.parent = some parent :=
  Option.bind_eq_some_iff.mp hparent

theorem exists_scope_of_binds (hbound : (store.own id).binds name = true) :
    ∃ scope, store.scope? id = some scope ∧ scope.bindings = store.own id := by
  unfold own at hbound ⊢
  cases hfound : store.scope? id with
  | none =>
    rw [hfound] at hbound
    cases hbound
  | some scope => exact ⟨scope, rfl, rfl⟩

theorem Rooted.parent_lt (hrooted : store.Rooted) (hparent : store.parent? id = some parent) :
    parent.index < id.index := by
  obtain ⟨scope, hfound, hparent⟩ := exists_scope_of_parent? hparent
  exact hrooted.older (at?_scope hfound) hparent

theorem rooted_root : (empty.newScope none).2.Rooted := by
  have honly {id : ScopeId} {cell : Cell}
      (hfound : (empty.newScope none).2.at? (.scope id) = some cell) :
      id = rootScope ∧ cell.parent? = none := by
    rw [at?_newScope] at hfound
    split at hfound
    case isTrue hnew =>
      cases hnew
      cases hfound
      exact ⟨rfl, rfl⟩
    case isFalse => cases hfound
  refine ⟨has_scope.mpr (by decide), ?_, ?_⟩
  · intro id parent cell hfound hparent
    rw [(honly hfound).2] at hparent
    cases hparent
  · intro id cell hfound _
    exact (honly hfound).1

theorem ScopeTree.rooted (htree : store.ScopeTree) : store.Rooted := by
  induction htree with
  | root => exact rooted_root
  | child _ hhas ih => exact ih.newScope hhas
  | define name value _ _ ih => exact ih.define _ name value
  | assign name value _ _ ih =>
    unfold Store.assign
    split
    · exact ih.define _ name value
    · exact ih

/-! ## The nearest scope -/

theorem nearest_of_home? (hfound : store.home? name id = some home) :
    store.Nearest name id home := by
  fun_induction Store.home? store name id with
  | case1 | case3 | case5 => cases hfound
  | case2 id scope hscope hbound =>
    obtain rfl : id = home := Option.some.inj hfound
    refine ⟨.self id, ?_⟩
    rw [own, hscope]
    exact hbound
  | case4 id scope hscope hunbound parent hparent _ ih =>
    obtain ⟨hsees, hbound⟩ := ih hfound
    have hunboundHere : (store.own id).binds name = false := by
      rw [own, hscope]
      exact Bool.eq_false_iff.mpr hunbound
    have hparent : store.parent? id = some parent := by
      rw [parent?, hscope]
      exact hparent
    exact ⟨.outer hunboundHere hparent hsees, hbound⟩

/-- What a name means in a scope is told by the scope itself, or else by the scope around it. -/
theorem Rooted.home?_eq (hrooted : store.Rooted) (name : String) (id : ScopeId) :
    store.home? name id =
      if (store.own id).binds name then some id
      else (store.parent? id).bind (store.home? name) := by
  rw [Store.home?, own, parent?]
  cases hfound : store.scope? id with
  | none => rfl
  | some scope =>
    dsimp only [Option.bind_some]
    split
    · rfl
    · cases hparent : scope.parent with
      | none => rfl
      | some parent =>
        have holder : parent.index < id.index := hrooted.older (at?_scope hfound) hparent
        dsimp only [Option.bind_some]
        rw [if_pos holder]

theorem Rooted.home?_of_nearest (hrooted : store.Rooted) (hnearest : store.Nearest name id home) :
    store.home? name id = some home := by
  obtain ⟨hsees, hbound⟩ := hnearest
  induction hsees with
  | self id => rw [hrooted.home?_eq, if_pos hbound]
  | @outer id parent target hunbound hparent _ ih =>
    rw [hrooted.home?_eq, hunbound, hparent]
    exact ih hbound

theorem Rooted.lookup?_eq (hrooted : store.Rooted) (id : ScopeId) (name : String) :
    store.lookup? id name =
      ((store.own id).get? name).or ((store.parent? id).bind (store.lookup? · name)) := by
  rw [Store.lookup?, hrooted.home?_eq]
  cases hbound : (store.own id).binds name with
  | true =>
    obtain ⟨value, hvalue⟩ := Option.isSome_iff_exists.mp hbound
    rw [if_pos rfl, hvalue, Option.some_or]
    exact hvalue
  | false =>
    rw [Bindings.binds_eq_false_iff.mp hbound, Option.none_or]
    cases store.parent? id <;> rfl

/-- A name has the value that the nearest scope binds it to. -/
theorem Rooted.lookup?_eq_some_iff (hrooted : store.Rooted) :
    store.lookup? id name = some value ↔
      ∃ home, store.Nearest name id home ∧ (store.own home).get? name = some value := by
  constructor
  · intro hfound
    unfold Store.lookup? at hfound
    cases hhome : store.home? name id with
    | none =>
      rw [hhome] at hfound
      cases hfound
    | some home =>
      rw [hhome] at hfound
      exact ⟨home, nearest_of_home? hhome, hfound⟩
  · rintro ⟨home, hnearest, hvalue⟩
    rw [Store.lookup?, hrooted.home?_of_nearest hnearest]
    exact hvalue

theorem isSome_home? (store : Store) (id : ScopeId) (name : String) :
    (store.home? name id).isSome = (store.lookup? id name).isSome := by
  unfold Store.lookup?
  cases hhome : store.home? name id with
  | none => rfl
  | some home => exact (nearest_of_home? hhome).2.symm

/-! ## Binding a name -/

theorem own_define
    (hhas : store.Has (.scope id)) (name : String) (value : Value) (other : ScopeId) :
    (store.define id name value).own other =
      if other = id then (store.own id).put name value else store.own other := by
  rw [own, scope?_define]
  by_cases hsame : other = id
  · subst hsame
    obtain ⟨cell, hfound⟩ := exists_at?_of_has hhas
    obtain ⟨scope, hscope, -⟩ := exists_scope_of_at? hfound
    rw [if_pos rfl, if_pos rfl, own, hscope]
    rfl
  · rw [if_neg hsame, if_neg hsame, own]

theorem parent?_define
    (store : Store) (id : ScopeId) (name : String) (value : Value) (other : ScopeId) :
    (store.define id name value).parent? other = store.parent? other := by
  rw [parent?, parent?, scope?_define]
  split
  · cases store.scope? other <;> rfl
  · rfl

theorem rebinds_define (hhas : store.Has (.scope id)) (name : String) (value : Value) :
    store.Rebinds (store.define id name value) id name value := by
  have hown : (store.define id name value).own id = (store.own id).put name value := by
    rw [own_define hhas, if_pos rfl]
  constructor
  · exact store.parent?_define id name value
  · intro other hne
    rw [scope?_define, if_neg hne]
  · rw [hown, Bindings.get?_put_self]
  · intro other hne
    rw [hown, Bindings.get?_put_of_ne (Ne.symm hne)]
  · rw [hown, Bindings.names_put]
  · rfl
  · rfl

/-- The scopes that come to the scope before any other that binds the name see the new value. -/
theorem Rooted.lookup?_define_of_sees
    {other : ScopeId}
    (hrooted : store.Rooted) (hhas : store.Has (.scope id)) (hsees : store.Sees name other id)
    (value : Value) :
    (store.define id name value).lookup? other name = some value := by
  induction hsees with
  | self id =>
    rw [(hrooted.define id name value).lookup?_eq, own_define hhas, if_pos rfl,
      Bindings.get?_put_self, Option.some_or]
  | @outer other parent id hunbound hparent _ ih =>
    rw [(hrooted.define id name value).lookup?_eq, own_define hhas, parent?_define, hparent]
    by_cases hsame : other = id
    · subst hsame
      rw [if_pos rfl, Bindings.get?_put_self, Option.some_or]
    · rw [if_neg hsame, Bindings.binds_eq_false_iff.mp hunbound, Option.none_or]
      exact ih hhas

/-- All other names, and all other scopes, see what they saw before. -/
theorem Rooted.lookup?_define_of_not_sees
    {other : ScopeId} {wanted : String}
    (hrooted : store.Rooted) (hhas : store.Has (.scope id))
    (hunseen : ¬ (wanted = name ∧ store.Sees name other id)) (value : Value) :
    (store.define id name value).lookup? other wanted = store.lookup? other wanted := by
  have hrootedAfter := hrooted.define id name value
  -- The parents of a scope are older, so the way outwards is followed by induction.
  induction hindex : other.index using Nat.strongRecOn generalizing other with
  | ind index ih =>
    subst hindex
    have hsameOwn : ((store.define id name value).own other).get? wanted =
        (store.own other).get? wanted := by
      rw [own_define hhas]
      by_cases hsame : other = id
      · subst hsame
        have hne : name ≠ wanted := by
          rintro rfl
          exact hunseen ⟨rfl, .self other⟩
        rw [if_pos rfl, Bindings.get?_put_of_ne hne]
      · rw [if_neg hsame]
    rw [hrootedAfter.lookup?_eq, hrooted.lookup?_eq, hsameOwn, parent?_define]
    cases hvalue : (store.own other).get? wanted with
    | some found => rw [Option.some_or, Option.some_or]
    | none =>
      rw [Option.none_or, Option.none_or]
      cases hparent : store.parent? other with
      | none => rfl
      | some parent =>
        have hunseenThere : ¬ (wanted = name ∧ store.Sees name parent id) := by
          rintro ⟨rfl, hsees⟩
          exact hunseen ⟨rfl, .outer (Bindings.binds_eq_false_iff.mpr hvalue) hparent hsees⟩
        exact ih parent.index (hrooted.parent_lt hparent) hunseenThere rfl

/-! ## Main result -/

/-- The scopes of a tree are nested maps that hide each other.  A name has the value that the
nearest scope binds it to.  Giving it a new value succeeds just if it has one, binds it in the
nearest scope that does, and is seen from the scopes for which that is the nearest one; otherwise
nothing changes.  Binding a name in a scope is seen from the scopes that come to it before any other
that binds the name. -/
theorem scopes_shadow
    (htree : store.ScopeTree) (hhas : store.Has (.scope id)) (name : String) (value : Value) :
    (∀ other wanted found, store.lookup? other wanted = some found ↔
      ∃ home, store.Nearest wanted other home ∧ (store.own home).get? wanted = some found) ∧
    ((store.assign id name value).1 = true ↔ (store.lookup? id name).isSome = true) ∧
    ((store.assign id name value).1 = false → (store.assign id name value).2 = store) ∧
    ((store.assign id name value).1 = true →
      ∃ home, store.Nearest name id home ∧
        store.Rebinds (store.assign id name value).2 home name value ∧
        ∀ other wanted,
          (wanted = name ∧ store.Nearest name other home →
            (store.assign id name value).2.lookup? other wanted = some value) ∧
          (¬ (wanted = name ∧ store.Nearest name other home) →
            (store.assign id name value).2.lookup? other wanted =
              store.lookup? other wanted)) ∧
    store.Rebinds (store.define id name value) id name value ∧
    ∀ other wanted,
      (wanted = name ∧ store.Sees name other id →
        (store.define id name value).lookup? other wanted = some value) ∧
      (¬ (wanted = name ∧ store.Sees name other id) →
        (store.define id name value).lookup? other wanted = store.lookup? other wanted) := by
  have hrooted := htree.rooted
  have hassigned : (store.assign id name value).1 = (store.home? name id).isSome := by
    unfold Store.assign
    cases store.home? name id <;> rfl
  refine ⟨fun _ _ _ => hrooted.lookup?_eq_some_iff, ?_, ?_, ?_, rebinds_define hhas name value, ?_⟩
  · rw [hassigned, isSome_home?]
  · intro hfalse
    rw [hassigned, Option.isSome_eq_false_iff, Option.isNone_iff_eq_none] at hfalse
    rw [Store.assign, hfalse]
  · intro htrue
    rw [hassigned] at htrue
    obtain ⟨home, hhome⟩ := Option.isSome_iff_exists.mp htrue
    have hnearest := nearest_of_home? hhome
    have hhasHome : store.Has (.scope home) := by
      obtain ⟨scope, hfound, -⟩ := exists_scope_of_binds hnearest.2
      exact has_of_at? (at?_scope hfound)
    have hafter : (store.assign id name value).2 = store.define home name value := by
      rw [Store.assign, hhome]
    rw [hafter]
    refine ⟨home, hnearest, rebinds_define hhasHome name value, fun other wanted => ⟨?_, ?_⟩⟩
    · rintro ⟨rfl, hsees, -⟩
      exact hrooted.lookup?_define_of_sees hhasHome hsees value
    · intro hunseen
      apply hrooted.lookup?_define_of_not_sees hhasHome
      rintro ⟨hsame, hsees⟩
      exact hunseen ⟨hsame, hsees, hnearest.2⟩
  · intro other wanted
    constructor
    · rintro ⟨rfl, hsees⟩
      exact hrooted.lookup?_define_of_sees hhas hsees value
    · intro hunseen
      exact hrooted.lookup?_define_of_not_sees hhas hunseen value

/-- A root that binds a name, a scope inside it, and two scopes inside that one, the first of which
binds the name as well. -/
def shadowed : Store :=
  let root := (empty.newScope none).2.define ⟨0⟩ "x" (.number 1)
  let tree := (((root.newScope (some ⟨0⟩)).2.newScope (some ⟨1⟩)).2.newScope (some ⟨1⟩)).2
  tree.define ⟨2⟩ "x" (.number 2)

theorem scopeTree_shadowed : shadowed.ScopeTree := by
  have houtermost : ((empty.newScope none).2.define ⟨0⟩ "x" (.number 1)).ScopeTree :=
    .define _ _ .root (has_scope.mpr (by decide))
  refine .define _ _ (.child (.child (.child houtermost ?_) ?_) ?_) ?_
  all_goals exact has_scope.mpr (by decide)

/-- The second of the two inner scopes gives the name of the root a new value, which the first one
does not see; nor does it see what the scope around both binds the name to. -/
theorem scopes_shadow_siblings :
    shadowed.ScopeTree ∧ shadowed.Has (.scope ⟨3⟩) ∧ shadowed.Nearest "x" ⟨3⟩ ⟨0⟩ ∧
      (shadowed.assign ⟨3⟩ "x" (.number 9)).2.lookup? ⟨1⟩ "x" = some (.number 9) ∧
      (shadowed.assign ⟨3⟩ "x" (.number 9)).2.lookup? ⟨2⟩ "x" = some (.number 2) ∧
      (shadowed.define ⟨1⟩ "x" (.number 5)).lookup? ⟨3⟩ "x" = some (.number 5) ∧
      (shadowed.define ⟨1⟩ "x" (.number 5)).lookup? ⟨2⟩ "x" = some (.number 2) := by
  have htree := scopeTree_shadowed
  have hinner : shadowed.Has (.scope ⟨3⟩) := has_scope.mpr (by decide)
  have hmiddle : shadowed.Has (.scope ⟨1⟩) := has_scope.mpr (by decide)
  have hfromMiddle : shadowed.Nearest "x" ⟨1⟩ ⟨0⟩ := ⟨.outer rfl rfl (.self _), rfl⟩
  have hfromInner : shadowed.Nearest "x" ⟨3⟩ ⟨0⟩ := ⟨.outer rfl rfl hfromMiddle.1, rfl⟩
  have hhidden {target : ScopeId} (hsees : shadowed.Sees "x" ⟨2⟩ target) : target = ⟨2⟩ := by
    cases hsees with
    | self => rfl
    | outer hunbound => cases hunbound
  obtain ⟨hvalues, hassigned, -, hgives, -, -⟩ := scopes_shadow htree hinner "x" (.number 9)
  obtain ⟨-, -, -, -, -, hbinds⟩ := scopes_shadow htree hmiddle "x" (.number 5)
  have hbefore : shadowed.lookup? ⟨2⟩ "x" = some (.number 2) :=
    (hvalues _ _ _).mpr ⟨⟨2⟩, ⟨.self _, rfl⟩, rfl⟩
  have hfound : shadowed.lookup? ⟨3⟩ "x" = some (.number 1) :=
    (hvalues _ _ _).mpr ⟨⟨0⟩, hfromInner, rfl⟩
  obtain ⟨home, hnearest, -, hseen⟩ := hgives (hassigned.mpr (by rw [hfound]; rfl))
  obtain rfl : home = ⟨0⟩ := by
    have hrooted := htree.rooted
    have hsame :=
      (hrooted.home?_of_nearest hnearest).symm.trans (hrooted.home?_of_nearest hfromInner)
    exact Option.some.inj hsame
  refine ⟨htree, hinner, hfromInner, (hseen _ _).1 ⟨rfl, hfromMiddle⟩, ?_, ?_, ?_⟩
  · rw [(hseen _ _).2 fun hunseen => by cases hhidden hunseen.2.1]
    exact hbefore
  · exact (hbinds _ _).1 ⟨rfl, .outer rfl rfl (.self _)⟩
  · rw [(hbinds _ _).2 fun hunseen => by cases hhidden hunseen.2]
    exact hbefore

end Store

end PuzzleLang
