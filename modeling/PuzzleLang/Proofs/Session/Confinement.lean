import PuzzleLang.Proofs.Session.WellFormed

/-!
# Confinement

A run changes only what it can reach.  Scopes, arrays and maps that cannot be reached from the scope
of a run are unchanged when it ends, however it ends, and what can be reached afterwards could be
reached before or is new.  A call is confined to what the function and the arguments reach, so that
it never changes a local of its caller that no function has captured.
-/

namespace PuzzleLang

/-- A place can be reached from one of some places. -/
def Store.ReachedFrom (store : Store) (roots : Place → Prop) (place : Place) : Prop :=
  ∃ root, roots root ∧ store.Reaches root place

/-- The value that a statement returns. -/
def Flow.value? : Flow → Option Value
  | .returned value => some value
  | .next | .broke _ | .continued _ => none

/-- A run from a state is confined to what can be reached from some places. -/
structure Run.Confined {α : Type} (run : Run α) (result? : α → Option Value)
    (roots : Place → Prop) (state : State) : Prop where
  wellFormed : (run.final state).store.WellFormed
  /-- What could not be reached is unchanged. -/
  unchanged {place : Place} :
    state.store.Has place → ¬ state.store.ReachedFrom roots place →
      (run.final state).store.at? place = state.store.at? place
  /-- What can be reached afterwards could be reached before or is new. -/
  reached {place : Place} :
    (run.final state).store.ReachedFrom roots place →
      state.store.ReachedFrom roots place ∨
        ¬ state.store.Has place ∧ (run.final state).store.Has place
  /-- What can be reached from the result could be reached before or is new. -/
  result {value : α} {state' : State} {given : Value} {place : Place} :
    run state = .ok value state' → result? value = some given →
      state'.store.ReachedFrom (fun root => given.place? = some root) place →
      state.store.ReachedFrom roots place ∨ ¬ state.store.Has place ∧ state'.store.Has place

/-! ## The region that a run can reach -/

namespace Region

variable {before store store' : Store} {roots : Place → Prop}

/-- The region of what could be reached in an earlier store, with all that is new since then. -/
def reached (before : Store) (roots : Place → Prop) : Region where
  inside _ place := before.ReachedFrom roots place ∨ ¬ before.Has place
  fits _ := True
  binds _ := True
  intact store _ := before.Grows store ∧
    ∀ place, before.Has place → ¬ before.ReachedFrom roots place →
      store.at? place = before.at? place

theorem closed_reached : (reached before roots).Closed before where
  parent hinside hfound hparent := by
    rcases hinside with ⟨root, hroot, hreaches⟩ | hfresh
    · exact .inl ⟨root, hroot, hreaches.tail (.parent hfound hparent)⟩
    · exact absurd (Store.has_of_at? hfound) hfresh
  value hinside hfound hheld := by
    refine ⟨trivial, fun place hnamed => ?_⟩
    rcases hinside with ⟨root, hroot, hreaches⟩ | hfresh
    · exact .inl ⟨root, hroot, hreaches.tail (.value hfound hheld hnamed)⟩
    · exact absurd (Store.has_of_at? hfound) hfresh

theorem kept_reached {state : State} : (reached state.store roots).Kept state :=
  ⟨closed_reached, .refl _, fun _ _ _ => rfl⟩

theorem intact_reached
    {active : Option String} {changed : Place}
    (hintact : (reached before roots).intact store active) (hgrows : store.Grows store')
    (hinside : before.ReachedFrom roots changed ∨ ¬ before.Has changed)
    (hsame : ∀ place, place ≠ changed → store'.at? place = store.at? place) :
    (reached before roots).intact store' active := by
  refine ⟨hintact.1.trans hgrows, fun place hhas hunreached => ?_⟩
  have hother : place ≠ changed := by
    rintro rfl
    rcases hinside with hreachable | hfresh
    · exact hunreached hreachable
    · exact hfresh hhas
  rw [hsame place hother, hintact.2 place hhas hunreached]

theorem reached_laws : (reached before roots).Laws where
  inside_mono _ hinside := hinside
  inside_old _ _ hinside := hinside
  fits _ := trivial
  newScope {store _ parent} hintact _ := by
    have hfresh : ¬ before.Has (.scope ⟨store.scopes.size⟩) := fun hhas =>
      Nat.lt_irrefl _ (Nat.lt_of_lt_of_le (Store.has_scope.mp hhas) hintact.1.scopes)
    refine ⟨intact_reached hintact (store.grows_newScope _) (.inr hfresh) fun place hother => ?_,
      .inr hfresh, trivial⟩
    rw [Store.at?_newScope]
    exact if_neg hother
  newArray {store _ items} hintact := by
    have hfresh : ¬ before.Has (.array ⟨store.arrays.size⟩) := fun hhas =>
      Nat.lt_irrefl _ (Nat.lt_of_lt_of_le (Store.has_array.mp hhas) hintact.1.arrays)
    refine ⟨intact_reached hintact (store.grows_newArray _) (.inr hfresh) fun place hother => ?_,
      .inr hfresh⟩
    rw [Store.at?_newArray, if_neg hother]
  newMap {store _ entries} hintact := by
    have hfresh : ¬ before.Has (.map ⟨store.maps.size⟩) := fun hhas =>
      Nat.lt_irrefl _ (Nat.lt_of_lt_of_le (Store.has_map.mp hhas) hintact.1.maps)
    refine ⟨intact_reached hintact (store.grows_newMap _) (.inr hfresh) fun place hother => ?_,
      .inr hfresh⟩
    rw [Store.at?_newMap, if_neg hother]
  define {store _ id name value} hintact hinside _ := by
    refine intact_reached hintact (store.grows_define id name value) hinside fun place hother => ?_
    rw [Store.at?_define, if_neg hother]
  setItem {store _ id index value} hintact hinside := by
    refine intact_reached hintact (store.grows_write (.item id index) value) hinside
      fun place hother => ?_
    exact (Store.at?_setItem id index value place).trans (if_neg hother)
  setEntry {store _ id key value} hintact hinside := by
    refine intact_reached hintact (store.grows_write (.entry id key) value) hinside
      fun place hother => ?_
    exact (Store.at?_setEntry id key value place).trans (if_neg hother)

theorem reached_opens (hroot : before.ReachedFrom roots (.scope rootScope)) (setting : Setting) :
    (reached before roots).accord.Opens setting setting :=
  opens id fun _ => ⟨.inl hroot, trivial⟩

theorem Closed.inside_of_reaches
    {R : Region} {place place' : Place}
    (hclosed : R.Closed store) (hinside : R.inside store place)
    (hreaches : store.Reaches place place') :
    R.inside store place' := by
  induction hreaches with
  | refl => exact hinside
  | tail _ hlink ih =>
    cases hlink with
    | parent hfound hparent => exact hclosed.parent ih hfound hparent
    | value hfound hheld hnamed => exact (hclosed.value ih hfound hheld).2 _ hnamed

end Region

/-! ## Runs are confined -/

section

variable {α : Type} {run : Run α} {result? : α → Option Value} {roots : Place → Prop}
  {state : State}

theorem Run.confined_of_alike
    (results : Region → Store → α → α → Prop)
    (hyields : ∀ {R store value given}, results R store value value → result? value = some given →
      R.allowed store given)
    (hwellFormed : state.store.WellFormed) (hexist : ∀ root, roots root → state.store.Has root)
    (hinWhole : Region.whole.accord.Alike (results .whole) state.store run run)
    (hinReached : (Region.reached state.store roots).accord.Alike
      (results (.reached state.store roots)) state.store run run) :
    run.Confined result? roots state := by
  have hkept : (Region.reached state.store roots).Kept state := Region.kept_reached
  obtain ⟨hgrows, hkeptWhole⟩ := Region.kept_of_ends hinWhole (Region.kept_whole.mpr hwellFormed)
  obtain ⟨-, hkeptReached⟩ := Region.kept_of_ends hinReached hkept
  have hwellFormedAfter := Region.kept_whole.mp hkeptWhole
  -- Inside and existing means reachable before, or new.
  have hsplit {place : Place}
      (hinside : (Region.reached state.store roots).inside (run.final state).store place)
      (hhas : (run.final state).store.Has place) :
      state.store.ReachedFrom roots place ∨
        ¬ state.store.Has place ∧ (run.final state).store.Has place :=
    hinside.imp_right fun hfresh => ⟨hfresh, hhas⟩
  refine ⟨hwellFormedAfter, fun hhas hunreached => hkeptReached.intact.2 _ hhas hunreached, ?_, ?_⟩
  · rintro place ⟨root, hroot, hreaches⟩
    have hhasRoot := hgrows.has (hexist root hroot)
    exact hsplit (hkeptReached.closed.inside_of_reaches (.inl ⟨root, hroot, .refl⟩) hreaches)
      (hwellFormedAfter.has_of_reaches hhasRoot hreaches)
  · rintro value state' given place hran hgiven ⟨root, hnamed, hreaches⟩
    obtain rfl : run.final state = state' := by rw [Run.final, hran]
    have hinside := (hyields (Region.results_of_ok hinReached hkept hran) hgiven).2 root hnamed
    have hhasRoot := (hyields
      (Region.results_of_ok hinWhole (Region.kept_whole.mpr hwellFormed) hran) hgiven).2 root hnamed
    exact hsplit (hkeptReached.closed.inside_of_reaches hinside hreaches)
      (hwellFormedAfter.has_of_reaches hhasRoot hreaches)

end

section

variable {R : Region} {setting : Setting}

theorem Region.Laws.callees_alike
    (hlaws : R.Laws) (hopens : R.accord.Opens setting setting) (depth : Nat) :
    Callees.Alike R.accord (.within setting depth) (.within setting depth) :=
  (hlaws.accord setting).alike_callees ((hlaws.accord setting).enters_of_opens hopens) depth

theorem Region.allowed_of_flows
    {store : Store} {flow : Flow} {value : Value}
    (hflows : R.accord.flows store flow flow) (hgiven : flow.value? = some value) :
    R.allowed store value := by
  cases hflows with
  | returned hvalues =>
    cases hgiven
    exact hvalues.2
  | next | broke | continued => cases hgiven

end

section

variable {state : State} {scope : ScopeId}

theorem Store.WellFormed.reachedFrom_root
    {roots : Place → Prop}
    (hwellFormed : state.store.WellFormed) (hroot : roots (.scope scope))
    (hhas : state.store.Has (.scope scope)) :
    state.store.ReachedFrom roots (.scope rootScope) :=
  ⟨.scope scope, hroot, hwellFormed.reaches_root hhas⟩

theorem Run.confined_in_scope
    {α : Type} {run : Run α} {result? : α → Option Value}
    (setting : Setting) (results : Region → Store → α → α → Prop)
    (hyields : ∀ {R store value given}, results R store value value → result? value = some given →
      R.allowed store given)
    (hwellFormed : state.store.WellFormed) (hhas : state.store.Has (.scope scope))
    (halike : ∀ {R : Region}, R.Laws → R.accord.Opens setting setting →
      R.accord.hosts state.store scope → R.accord.Alike (results R) state.store run run) :
    run.Confined result? (· = .scope scope) state := by
  refine Run.confined_of_alike results hyields hwellFormed ?_ ?_ ?_
  · rintro root rfl
    exact hhas
  · exact halike Region.whole_laws (Region.whole_opens setting) ⟨hhas, hhas, trivial⟩
  · have hroot : state.store.ReachedFrom (· = .scope scope) (.scope rootScope) :=
      hwellFormed.reachedFrom_root rfl hhas
    have hinside : state.store.ReachedFrom (· = .scope scope) (.scope scope) := ⟨_, rfl, .refl⟩
    exact halike Region.reached_laws (Region.reached_opens hroot setting)
      ⟨.inl hinside, .inl hinside, trivial⟩

theorem confined_evaluate
    (hwellFormed : state.store.WellFormed) (hhas : state.store.Has (.scope scope))
    (setting : Setting) (depth : Nat) (e : Expr) :
    (evaluate setting (.within setting depth) e scope).Confined some (· = .scope scope) state := by
  refine Run.confined_in_scope setting (fun R => R.accord.values) ?_ hwellFormed hhas
    fun hlaws hopens hhosts => ?_
  · rintro R store value given hvalues ⟨⟩
    exact hvalues.2
  · exact Accord.alike_evaluate (hlaws.accord setting) (hlaws.callees_alike hopens depth)
      (Expr.like_self (fun _ => rfl) e) hhosts

theorem confined_execute
    (hwellFormed : state.store.WellFormed) (hhas : state.store.Has (.scope scope))
    (setting : Setting) (depth : Nat) (statement : Stmt) :
    (execute setting (.within setting depth) statement scope).Confined Flow.value?
      (· = .scope scope) state := by
  refine Run.confined_in_scope setting (fun R => R.accord.flows) Region.allowed_of_flows hwellFormed
    hhas fun hlaws hopens hhosts => ?_
  exact Accord.alike_execute (hlaws.accord setting) (hlaws.callees_alike hopens depth)
    (Stmt.like_self (fun _ => rfl) statement) hhosts

/-- The places that some values name. -/
def Place.NamedIn (values : List Value) (place : Place) : Prop :=
  ∃ value ∈ values, value.place? = some place

theorem confined_callFunction
    {closure : Closure} {args : List Value}
    (hwellFormed : state.store.WellFormed)
    (hexist : ∀ place, Place.NamedIn (.closure closure :: args) place → state.store.Has place)
    (setting : Setting) (depth : Nat) (offset : Nat) :
    (Run.callFunction setting depth offset closure args).Confined some
      (Place.NamedIn (.closure closure :: args)) state := by
  have hscope : Place.NamedIn (.closure closure :: args) (.scope closure.scope) :=
    ⟨.closure closure, List.mem_cons_self, rfl⟩
  -- In each of the two regions, the function and the arguments may be held.
  have halike {R : Region} (hlaws : R.Laws) (hopens : R.accord.Opens setting setting)
      (hallowed : ∀ value ∈ .closure closure :: args, R.allowed state.store value) :
      R.accord.Alike R.accord.values state.store
        (Run.callFunction setting depth offset closure args)
        (Run.callFunction setting depth offset closure args) := by
    obtain ⟨hallowedClosure, hallowedArgs⟩ := List.forall_mem_cons.mp hallowed
    exact (hlaws.callees_alike hopens depth).call rfl (Region.values_iff.mpr ⟨rfl, hallowedClosure⟩)
      (Region.forall₂_values_iff.mpr ⟨rfl, hallowedArgs⟩)
  refine Run.confined_of_alike (fun R => R.accord.values) ?_ hwellFormed hexist ?_ ?_
  · rintro R store value given hvalues ⟨⟩
    exact hvalues.2
  · exact halike Region.whole_laws (Region.whole_opens setting) fun value hmem =>
      ⟨trivial, fun place hnamed => hexist place ⟨value, hmem, hnamed⟩⟩
  · have hroot := hwellFormed.reachedFrom_root hscope (hexist _ hscope)
    exact halike Region.reached_laws (Region.reached_opens hroot setting) fun value hmem =>
      ⟨trivial, fun place hnamed => .inl ⟨place, ⟨value, hmem, hnamed⟩, .refl⟩⟩

/-- The stores of sessions are well-formed, and in a well-formed store every expression and every
statement is confined to what can be reached from its scope, and every call to what can be reached
from the function and the arguments. -/
theorem runs_confined :
    (∀ session, Session.Reachable (fun _ => True) session → session.state.store.WellFormed) ∧
      ∀ (setting : Setting) (depth : Nat) (state : State), state.store.WellFormed →
        (∀ scope, state.store.Has (.scope scope) →
          (∀ e, (evaluate setting (.within setting depth) e scope).Confined some
            (· = .scope scope) state) ∧
          ∀ statement, (execute setting (.within setting depth) statement scope).Confined
            Flow.value? (· = .scope scope) state) ∧
        ∀ offset closure args,
          (∀ place, Place.NamedIn (.closure closure :: args) place → state.store.Has place) →
          (Run.callFunction setting depth offset closure args).Confined some
            (Place.NamedIn (.closure closure :: args)) state := by
  refine ⟨fun session hreachable => hreachable.wellFormed,
    fun setting depth state hwellFormed => ?_⟩
  refine ⟨fun scope hhas => ⟨fun e => ?_, fun statement => ?_⟩,
    fun offset closure args hexist => ?_⟩
  · exact confined_evaluate hwellFormed hhas setting depth e
  · exact confined_execute hwellFormed hhas setting depth statement
  · exact confined_callFunction hwellFormed hexist setting depth offset

/-- A function of the root scope that assigns to `x` leaves the `x` of a caller alone. -/
theorem runs_confined_local :
    let setting := Setting.ofProgram ⟨[], []⟩ 0 ⟨fun _ _ _ => .missing⟩ .standard
    let body : Block := ⟨0, [.expr 0 (.assign 0 0 "x" (.number 0 2))]⟩
    let caller : ScopeId := ⟨1⟩
    let state : State := { State.initial with
      store := (Store.initial.newScope (some rootScope)).2.define caller "x" (.number 1) }
    let run := Run.callFunction setting 1 0 ⟨⟨0, none, [], body⟩, rootScope⟩ []
    state.store.Has (.scope caller) ∧
      (run.final state).store.at? (.scope caller) = state.store.at? (.scope caller) := by
  intro setting body caller state run
  have hhasCaller : (Store.initial.newScope (some rootScope)).2.Has (.scope caller) :=
    Store.has_scope.mpr (by decide)
  have hwellFormed : state.store.WellFormed := by
    have hinner := Store.wellFormed_initial.newScope Store.wellFormed_initial.root
    refine hinner.define hhasCaller (fun place hnamed' => ?_) "x"
    cases hnamed'
  have hroot : state.store.at? (.scope rootScope) = Store.initial.at? (.scope rootScope) := by
    rw [Store.at?_define, if_neg (by decide), Store.at?_newScope, if_neg (by decide)]
  -- The root scope holds native functions only, so that nothing else can be reached from it.
  have halone {place : Place} (hreaches : state.store.Reaches (.scope rootScope) place) :
      place = .scope rootScope := by
    refine Store.eq_of_reaches (fun place hlink => ?_) hreaches
    cases hlink with
    | parent hfound hparent =>
      rw [(Store.at?_initial (hroot.symm.trans hfound)).2.1] at hparent
      cases hparent
    | value hfound hheld hnamed' =>
      obtain ⟨native, -, rfl⟩ := (Store.at?_initial (hroot.symm.trans hfound)).2.2 _ hheld
      cases hnamed'
  have hnamed' {place : Place}
      (h : Place.NamedIn [.closure ⟨⟨0, none, [], body⟩, rootScope⟩] place) :
      place = .scope rootScope := by
    obtain ⟨value, hmem, hplace⟩ := h
    cases List.mem_singleton.mp hmem
    cases hplace
    rfl
  have hhas : state.store.Has (.scope caller) := (Store.grows_define _ _ _ _).has hhasCaller
  refine ⟨hhas, ((runs_confined.2 setting 1 state hwellFormed).2 0 _ [] ?_).unchanged hhas ?_⟩
  · intro place hnamed
    rw [hnamed' hnamed]
    exact hwellFormed.root
  · rintro ⟨place, hnamed, hreaches⟩
    rw [hnamed' hnamed] at hreaches
    have hapart : Place.scope ⟨1⟩ ≠ .scope rootScope := by decide
    exact hapart (halone hreaches)

end

end PuzzleLang
