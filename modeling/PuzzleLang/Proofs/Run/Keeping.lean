import PuzzleLang.Proofs.Run.Activity
import PuzzleLang.Proofs.Run.Region

/-!
# Regions are kept from part to part

A run that starts inside a region keeps to it up to its end.  The parts of an activity start where
other runs have ended, so they start inside the region as well, with the scopes and values that they
are given; and so does everything that they come to in turn.
-/

namespace PuzzleLang

open Run

namespace Region

/-- A task has its scope and its values inside a region. -/
def Admits (R : Region) (store : Store) : Task → Prop
  | .expr _ scope | .statement _ scope | .body _ scope => R.accord.hosts store scope
  | .call _ closure args =>
    R.allowed store (.closure closure) ∧ ∀ arg ∈ args, R.allowed store arg
  | .enter _ => True

/-- An activity starts inside a region that is kept. -/
structure Covers (R : Region) (activity : Activity) : Prop where
  kept : R.Kept activity.state
  admits : R.Admits activity.state.store activity.task

/-- A region is kept by calls and by sections that are entered. -/
structure Oversees (R : Region) (setting : Setting) : Prop where
  laws : R.Laws
  callees (depth : Nat) :
    Callees.Alike R.accord (.within setting depth) (.within setting depth)
  entered {state : State} (name : String) (trace : Array Entry) :
    R.Kept state → state.active = none →
      R.Kept { state with active := some name, trace } ∧ R.accord.hosts state.store rootScope

/-- What a run inside a region has come to. -/
structure Reached (R : Region) (before after : State) : Prop where
  grows : before.store.Grows after.store
  kept : R.Kept after

section

variable {R : Region} {setting : Setting} {depth : Nat} {scope : ScopeId} {state state' : State}

theorem Reached.trans
    {middle : State} (hfirst : R.Reached state middle) (hsecond : R.Reached middle state') :
    R.Reached state state' :=
  ⟨hfirst.grows.trans hsecond.grows, hsecond.kept⟩

theorem reached_of_ok
    {α : Type} {results : Store → α → α → Prop} {run : Run α} {value : α}
    (halike : R.accord.Alike results state.store run run) (hkept : R.Kept state)
    (hran : run state = .ok value state') :
    R.Reached state state' ∧ results state'.store value value := by
  have hends := halike state state (.refl _) ⟨rfl, hkept⟩
  rw [hran] at hends
  cases hends with | ok hgrows hstates hvalues => exact ⟨⟨hgrows, hstates.2⟩, hvalues⟩

theorem reached_of_trace
    {offset : Nat} {event : Event}
    (hkept : R.Kept state) (htraced : Run.trace setting offset event state = .ok () state') :
    R.Reached state state' := by
  have hleaves := quiet_record setting event.level offset event state
  rw [show record setting event.level offset (event.entry setting) state = _ from htraced]
    at hleaves
  cases hleaves with | ok hsameStore hsameActive _
  refine ⟨by rw [hsameStore]; exact .refl _, ?_, ?_⟩
  · rw [hsameStore]
    exact hkept.closed
  · rw [hsameStore, hsameActive]
    exact hkept.intact

theorem reached_of_passes
    {α : Type} {body : α → Run Flow} {items : List α}
    (hkept : R.Kept state)
    (heach : ∀ item ∈ items, ∀ before after flow, R.Reached state before →
      body item before = .ok flow after → R.Reached before after)
    (hpasses : Passes body items state state') :
    R.Reached state state' := by
  induction hpasses with
  | nil => exact ⟨.refl _, hkept⟩
  | @cons item items flow first second third hran _ _ ih =>
    have hreached := heach item List.mem_cons_self first second flow ⟨.refl _, hkept⟩ hran
    refine hreached.trans (ih hreached.kept fun item hmem before after flow hlater hran => ?_)
    exact heach item (List.mem_cons_of_mem _ hmem) before after flow (hreached.trans hlater) hran

namespace Oversees

variable (hoversees : R.Oversees setting)

include hoversees

theorem hosts_mono (hreached : R.Reached state state') (hhosts : R.accord.hosts state.store scope) :
    R.accord.hosts state'.store scope :=
  (hoversees.laws.accord setting).hosts_mono hreached.grows hhosts

theorem allowed_mono
    {value : Value} (hreached : R.Reached state state') (hallowed : R.allowed state.store value) :
    R.allowed state'.store value :=
  (hoversees.laws.accord setting).allowed_mono hreached.grows hallowed

theorem evaluate
    {e : Expr} {value : Value}
    (hkept : R.Kept state) (hhosts : R.accord.hosts state.store scope)
    (hran : PuzzleLang.evaluate setting (.within setting depth) e scope state = .ok value state') :
    R.Reached state state' ∧ R.allowed state'.store value := by
  obtain ⟨hreached, hvalues⟩ := reached_of_ok (Accord.alike_evaluate (hoversees.laws.accord setting)
    (hoversees.callees depth) (Expr.like_self (fun _ => rfl) e) hhosts) hkept hran
  exact ⟨hreached, (values_iff.mp hvalues).2⟩

theorem evaluateAll
    {items : List Expr} {values : List Value}
    (hkept : R.Kept state) (hhosts : R.accord.hosts state.store scope)
    (hran : PuzzleLang.evaluateAll setting (.within setting depth) items scope state =
      .ok values state') :
    R.Reached state state' ∧ ∀ value ∈ values, R.allowed state'.store value := by
  obtain ⟨hreached, hall⟩ := reached_of_ok (Accord.alike_evaluateAll (hoversees.laws.accord setting)
    (hoversees.callees depth) (Expr.likeAll_self (fun _ => rfl) items) hhosts) hkept hran
  exact ⟨hreached, (forall₂_values_iff.mp hall).2⟩

theorem executeAll
    {statements : List Stmt} {flow : Flow}
    (hkept : R.Kept state) (hhosts : R.accord.hosts state.store scope)
    (hran : PuzzleLang.executeAll setting (.within setting depth) statements scope state =
      .ok flow state') :
    R.Reached state state' :=
  (reached_of_ok (Accord.alike_executeAll (hoversees.laws.accord setting) (hoversees.callees depth)
    (Stmt.likeAll_self (fun _ => rfl) statements) hhosts) hkept hran).1

theorem executeBlock
    {block : Block} {flow : Flow}
    (hkept : R.Kept state) (hhosts : R.accord.hosts state.store scope)
    (hran : PuzzleLang.executeBlock setting (.within setting depth) block scope state =
      .ok flow state') :
    R.Reached state state' :=
  (reached_of_ok (Accord.alike_executeBlock (hoversees.laws.accord setting)
    (hoversees.callees depth) (Block.like_self (fun _ => rfl) block) hhosts.1) hkept hran).1

theorem evaluateBody
    {part : Section} {value : Value}
    (hkept : R.Kept state) (hhosts : R.accord.hosts state.store rootScope)
    (hran : Run.evaluateBody setting (.within setting depth) part state = .ok value state') :
    R.Reached state state' ∧ R.allowed state'.store value := by
  obtain ⟨hreached, hvalues⟩ := reached_of_ok ((hoversees.laws.accord setting).alike_evaluateBody
    (hoversees.callees depth) (Section.like_self (fun _ => rfl) part) hhosts) hkept hran
  exact ⟨hreached, (values_iff.mp hvalues).2⟩

theorem newScope
    {inner : ScopeId}
    (hkept : R.Kept state) (hhosts : R.inside state.store (.scope scope))
    (hmade : Run.newScope scope state = .ok inner state') :
    R.Reached state state' ∧ R.accord.hosts state'.store inner := by
  obtain ⟨hreached, -, hhosted⟩ := reached_of_ok
    ((hoversees.laws.accord setting).alike_newScope hhosts) hkept hmade
  exact ⟨hreached, hhosted⟩

theorem defineAll
    {bindings : Bindings Value}
    (hkept : R.Kept state) (hhosts : R.accord.hosts state.store scope)
    (hallowed : ∀ entry ∈ bindings, R.allowed state.store entry.2)
    (hbound : Run.defineAll scope bindings state = .ok () state') :
    R.Reached state state' :=
  (reached_of_ok ((hoversees.laws.accord setting).alike_defineAll hhosts.2
    (forall₂_bindings_iff.mpr ⟨rfl, hallowed⟩)) hkept hbound).1

theorem bindLoop
    {item : String} {index : Option String} {value key : Value}
    (hkept : R.Kept state) (hhosts : R.accord.hosts state.store scope)
    (hallowedValue : R.allowed state.store value) (hallowedKey : R.allowed state.store key)
    (hbound : Run.bindLoop scope item index value key state = .ok () state') :
    R.Reached state state' :=
  (reached_of_ok ((hoversees.laws.accord setting).alike_bindLoop hhosts.2
    (values_iff.mpr ⟨rfl, hallowedValue⟩) (values_iff.mpr ⟨rfl, hallowedKey⟩)) hkept hbound).1

theorem round
    {item : String} {index : Option String} {body : Block} {pair : Value × Value} {flow : Flow}
    (hkept : R.Kept state) (hhosts : R.accord.hosts state.store scope)
    (hallowedValue : R.allowed state.store pair.1) (hallowedKey : R.allowed state.store pair.2)
    (hran : Activity.round setting depth scope item index body pair state = .ok flow state') :
    R.Reached state state' := by
  cases hbound : Run.bindLoop scope item index pair.1 pair.2 state with
  | error halt middle =>
    rw [Activity.round, bind_of_error hbound] at hran
    cases hran
  | ok done middle =>
    rw [Activity.round, bind_of_ok hbound] at hran
    have hfilled := hoversees.bindLoop hkept hhosts hallowedValue hallowedKey hbound
    exact hfilled.trans
      (hoversees.executeBlock hfilled.kept (hoversees.hosts_mono hfilled hhosts) hran)

theorem pairs
    {value : Value} {iteration : Iteration}
    (hkept : R.Kept state) (hallowed : R.allowed state.store value)
    (hiterates : state.store.iteration value = .ok iteration) (limits : Limits) :
    ∀ pair ∈ iteration.pairs limits,
      R.allowed state.store pair.1 ∧ R.allowed state.store pair.2 := by
  have hiterated := (hoversees.laws.accord setting).like_iteration
    (show R.accord.states state state from ⟨rfl, hkept⟩) (values_iff.mpr ⟨rfl, hallowed⟩)
  rw [hiterates] at hiterated
  cases hiterated with | ok hiterations
  intro pair hmem
  have hpairs := (hoversees.laws.accord setting).elements_pairs hiterations limits
  obtain ⟨hvalue, hkey⟩ := List.forall₂_same.mp hpairs pair hmem
  exact ⟨(values_iff.mp hvalue).2, (values_iff.mp hkey).2⟩

theorem matchPattern
    {pattern : Expr} {subject : Value} {found : Option (Bindings Value)}
    (hkept : R.Kept state) (hhosts : R.accord.hosts state.store scope)
    (hallowed : R.allowed state.store subject)
    (hran : PuzzleLang.matchPattern setting (.within setting depth) pattern subject scope state =
      .ok found state') :
    R.Reached state state' ∧
      ∀ bindings, found = some bindings → ∀ entry ∈ bindings, R.allowed state'.store entry.2 := by
  obtain ⟨hreached, hmatched⟩ := reached_of_ok ((hoversees.laws.accord setting).alike_matchPattern
    (hoversees.callees depth) hhosts (Expr.like_self (fun _ => rfl) pattern)
    (values_iff.mpr ⟨rfl, hallowed⟩)) hkept hran
  refine ⟨hreached, ?_⟩
  rintro bindings rfl
  cases hmatched with | some hentries => exact (forall₂_bindings_iff.mp hentries).2

/-! ## Sequences -/

theorem misses
    {subject : Value} {arms : List Arm}
    (hkept : R.Kept state) (hhosts : R.accord.hosts state.store scope)
    (hallowed : R.allowed state.store subject)
    (hmisses : Misses setting (.within setting depth) scope subject arms state state') :
    R.Reached state state' := by
  induction hmisses with
  | nil => exact ⟨.refl _, hkept⟩
  | cons hran _ ih =>
    have hreached := (hoversees.matchPattern hkept hhosts hallowed hran).1
    exact hreached.trans (ih hreached.kept (hoversees.hosts_mono hreached hhosts)
      (hoversees.allowed_mono hreached hallowed))

theorem tries
    {subject : Value} {pattern inner : Expr}
    (hkept : R.Kept state) (hhosts : R.accord.hosts state.store scope)
    (hallowed : R.allowed state.store subject)
    (htries : Tries setting (.within setting depth) scope subject pattern state inner state') :
    R.Reached state state' := by
  cases htries with
  | value => exact ⟨.refl _, hkept⟩
  | @item offset items before later inner id made _ _ harray _ hran _ =>
    have hsubject : subject = .array id := by
      cases subject with
      | array id' =>
        rw [arrayOfSize, bind_of_ok (get_of_state state)] at harray
        split at harray
        · cases harray
        · cases harray
          rfl
      | _ => cases harray
    subst hsubject
    exact (reached_of_ok ((hoversees.laws.accord setting).alike_matchItems (hoversees.callees depth)
      hhosts hallowed (Expr.likeAll_self (fun _ => rfl) before) 0 .nil) hkept hran).1

end Oversees

end

end Region

namespace Activity

variable {R : Region} {setting : Setting} {activity part : Activity}

/-- The parts of an activity inside a region start inside it. -/
theorem Performs.covers
    (hoversees : R.Oversees setting) (hperforms : Performs setting activity part)
    (hcovers : R.Covers activity) :
    R.Covers part := by
  obtain ⟨hkept, hadmits⟩ := hcovers
  cases hperforms with
  | operand _ hran =>
    obtain ⟨hreached, -⟩ := hoversees.evaluateAll hkept hadmits hran
    exact ⟨hreached.kept, hoversees.hosts_mono hreached hadmits⟩
  | callee hran htraced =>
    obtain ⟨hreached, hallowed⟩ := hoversees.evaluateAll hkept hadmits hran
    have hlater := Region.reached_of_trace hreached.kept htraced
    obtain ⟨hclosure, hargs⟩ := List.forall_mem_cons.mp hallowed
    exact ⟨hlater.kept, hoversees.allowed_mono hlater hclosure,
      fun arg hmem => hoversees.allowed_mono hlater (hargs arg hmem)⟩
  | lead => exact ⟨hkept, hadmits⟩
  | block hmade =>
    obtain ⟨hreached, hhosts⟩ := hoversees.newScope hkept hadmits.1 hmade
    exact ⟨hreached.kept, hhosts⟩
  | member hran =>
    have hreached := hoversees.executeAll hkept hadmits hran
    exact ⟨hreached.kept, hoversees.hosts_mono hreached hadmits⟩
  | endless hmade _ hpasses =>
    obtain ⟨hreached, hhosts⟩ := hoversees.newScope hkept hadmits.1 hmade
    have hpassed := Region.reached_of_passes hreached.kept
      (fun _ _ before after flow hlater hran =>
        hoversees.executeBlock hlater.kept (hoversees.hosts_mono hlater hhosts) hran) hpasses
    exact ⟨hpassed.kept, hoversees.hosts_mono hpassed hhosts⟩
  | @element depth offset item index iterable body scope inner value iteration before later pair
      state first second third last hran hiterates hmade hpairs hpasses hbound =>
    obtain ⟨hreached, hallowed⟩ := hoversees.evaluate hkept hadmits hran
    have hinside := (hoversees.hosts_mono hreached hadmits).1
    obtain ⟨hnested, hhosts⟩ := hoversees.newScope hreached.kept hinside hmade
    have helements (pair : Value × Value) (hmem : pair ∈ iteration.pairs setting.limits) :
        R.allowed second.store pair.1 ∧ R.allowed second.store pair.2 := by
      obtain ⟨hvalue, hkey⟩ :=
        hoversees.pairs hreached.kept hallowed hiterates setting.limits pair hmem
      exact ⟨hoversees.allowed_mono hnested hvalue, hoversees.allowed_mono hnested hkey⟩
    rw [hpairs] at helements
    have hpassed : R.Reached second third := by
      refine Region.reached_of_passes hnested.kept (fun pair hmem _ _ _ hmore hran => ?_) hpasses
      obtain ⟨hvalue, hkey⟩ := helements pair (List.mem_append_left _ hmem)
      exact hoversees.round hmore.kept (hoversees.hosts_mono hmore hhosts)
        (hoversees.allowed_mono hmore hvalue) (hoversees.allowed_mono hmore hkey) hran
    obtain ⟨hvalue, hkey⟩ := helements pair (by simp)
    have hhosts := hoversees.hosts_mono hpassed hhosts
    have hfilled := hoversees.bindLoop hpassed.kept hhosts (hoversees.allowed_mono hpassed hvalue)
      (hoversees.allowed_mono hpassed hkey) hbound
    exact ⟨hfilled.kept, hoversees.hosts_mono hfilled hhosts⟩
  | @choice depth inner chosen scope value state state' state'' hran htraced hchosen =>
    obtain ⟨hreached, -⟩ := hoversees.evaluate hkept hadmits hran
    have hlater := hreached.trans (Region.reached_of_trace hreached.kept htraced)
    exact ⟨hlater.kept, hoversees.hosts_mono hlater hadmits⟩
  | pattern hran hmisses htries =>
    obtain ⟨hreached, hallowed⟩ := hoversees.evaluate hkept hadmits hran
    have hhosts := hoversees.hosts_mono hreached hadmits
    have hmissed := hoversees.misses hreached.kept hhosts hallowed hmisses
    have htried := hoversees.tries hmissed.kept (hoversees.hosts_mono hmissed hhosts)
      (hoversees.allowed_mono hmissed hallowed) htries
    exact ⟨htried.kept, hoversees.hosts_mono (hmissed.trans htried) hhosts⟩
  | arm hran hmisses hmatched htraced hmade hbound =>
    obtain ⟨hreached, hallowed⟩ := hoversees.evaluate hkept hadmits hran
    have hhosts := hoversees.hosts_mono hreached hadmits
    have hmissed := hoversees.misses hreached.kept hhosts hallowed hmisses
    obtain ⟨hfound, hbindings⟩ := hoversees.matchPattern hmissed.kept
      (hoversees.hosts_mono hmissed hhosts) (hoversees.allowed_mono hmissed hallowed) hmatched
    have hnoted := Region.reached_of_trace hfound.kept htraced
    have hhosts := hoversees.hosts_mono ((hmissed.trans hfound).trans hnoted) hhosts
    obtain ⟨hnested, hinner⟩ := hoversees.newScope hnoted.kept hhosts.1 hmade
    have hfilled := hoversees.defineAll hnested.kept hinner
      (fun entry hmem => hoversees.allowed_mono (hnoted.trans hnested)
        (hbindings _ rfl entry hmem)) hbound
    exact ⟨hfilled.kept, hoversees.hosts_mono hfilled hinner⟩
  | @called depth offset closure args inner state state' state'' _ hmade hbound =>
    have hinside : R.inside state.store (.scope closure.scope) := hadmits.1.2 _ rfl
    obtain ⟨hnested, hhosts⟩ := hoversees.newScope hkept hinside hmade
    have hfilled := hoversees.defineAll hnested.kept hhosts (fun entry hmem =>
      hoversees.allowed_mono hnested (hadmits.2 entry.2 (List.of_mem_zip hmem).2)) hbound
    exact ⟨hfilled.kept, hoversees.hosts_mono hfilled hhosts⟩
  | @entered depth name part state trace henters =>
    obtain ⟨hmarked, hhosts⟩ := hoversees.entered name trace hkept henters.idle
    refine ⟨hmarked, ?_⟩
    cases part.body with
    | expr e => exact hhosts
    | block block => exact hhosts

theorem covers_of_reflTransGen
    (hoversees : R.Oversees setting)
    (hchain : Relation.ReflTransGen (Performs setting) activity part)
    (hcovers : R.Covers activity) :
    R.Covers part := by
  induction hchain with
  | refl => exact hcovers
  | tail _ hperforms ih => exact hperforms.covers hoversees ih

/-- An activity inside a region calls native functions inside it. -/
theorem CallsNative.kept
    {offset : Nat} {native : Native} {values : List Value} {state : State}
    (hoversees : R.Oversees setting)
    (hcalls : CallsNative setting activity offset native values state)
    (hcovers : R.Covers activity) :
    R.Kept state := by
  cases hcalls with | call hran htraced
  obtain ⟨hreached, -⟩ := hoversees.evaluateAll hcovers.kept hcovers.admits hran
  exact (Region.reached_of_trace hreached.kept htraced).kept

/-- What an activity inside a region traces has its values inside. -/
theorem Traces.covers
    {offset : Nat} {event : Event} {state : State}
    (hoversees : R.Oversees setting)
    (hleft : ∀ {state}, R.Kept state → R.Kept { state with active := none })
    (htraces : Traces setting activity offset event state) (hcovers : R.Covers activity) :
    R.Kept state ∧ ∀ value ∈ event.values, R.allowed state.store value := by
  obtain ⟨hkept, hadmits⟩ := hcovers
  cases htraces with
  | call hran =>
    obtain ⟨hreached, hallowed⟩ := hoversees.evaluateAll hkept hadmits hran
    exact ⟨hreached.kept, (List.forall_mem_cons.mp hallowed).2⟩
  | @define depth offset name e scope value state state' state'' hran hbound =>
    obtain ⟨hreached, hallowed⟩ := hoversees.evaluate hkept hadmits hran
    have hheld : R.accord.values state'.store value value := Region.values_iff.mpr ⟨rfl, hallowed⟩
    obtain ⟨hfilled, -⟩ := Region.reached_of_ok ((hoversees.laws.accord setting).alike_define
      (hoversees.hosts_mono hreached hadmits).2 hheld name) hreached.kept hbound
    exact ⟨hfilled.kept, List.forall_mem_singleton.mpr (hoversees.allowed_mono hfilled hallowed)⟩
  | condition hran =>
    obtain ⟨hreached, hallowed⟩ := hoversees.evaluate hkept hadmits hran
    exact ⟨hreached.kept, List.forall_mem_singleton.mpr hallowed⟩
  | select hran hmisses hmatched =>
    obtain ⟨hreached, hallowed⟩ := hoversees.evaluate hkept hadmits hran
    have hhosts := hoversees.hosts_mono hreached hadmits
    have hmissed := hoversees.misses hreached.kept hhosts hallowed hmisses
    obtain ⟨hfound, -⟩ := hoversees.matchPattern hmissed.kept
      (hoversees.hosts_mono hmissed hhosts) (hoversees.allowed_mono hmissed hallowed) hmatched
    exact ⟨hfound.kept, List.forall_mem_singleton.mpr
      (hoversees.allowed_mono (hmissed.trans hfound) hallowed)⟩
  | @leave depth name part value state state' trace henters hran =>
    obtain ⟨hmarked, hhosts⟩ := hoversees.entered name trace hkept henters.idle
    obtain ⟨hreached, hallowed⟩ := hoversees.evaluateBody hmarked hhosts hran
    exact ⟨hleft hreached.kept, List.forall_mem_singleton.mpr hallowed⟩

end Activity

/-! ## While a section runs -/

namespace Region

variable {name : String} {setting : Setting}

/-- The region of all places while a section is being evaluated. -/
def running (name : String) : Region where
  inside _ _ := True
  fits _ := True
  binds _ := True
  intact _ active := active = some name

theorem running_laws : (running name).Laws where
  inside_mono _ _ := trivial
  inside_old _ _ _ := trivial
  fits _ := trivial
  newScope hintact _ := ⟨hintact, trivial, trivial⟩
  newArray hintact := ⟨hintact, trivial⟩
  newMap hintact := ⟨hintact, trivial⟩
  define hintact _ _ := hintact
  setItem hintact _ := hintact
  setEntry hintact _ := hintact

theorem running_allowed (store : Store) (value : Value) : (running name).allowed store value :=
  ⟨trivial, fun _ _ => trivial⟩

theorem kept_running {state : State} (hactive : state.active = some name) :
    (running name).Kept state :=
  ⟨⟨fun _ _ _ => trivial, fun _ _ _ => running_allowed _ _⟩, hactive⟩

theorem running_callees (setting : Setting) (depth : Nat) :
    Callees.Alike (running name).accord (.within setting depth) (.within setting depth) := by
  refine (running_laws.accord setting).alike_callees (enters_of_busy ?_ setting) depth
  rintro store _ rfl
  rfl

theorem running_oversees (setting : Setting) :
    (running name).Oversees setting where
  laws := running_laws
  callees := running_callees setting
  entered {state} _ _ hkept hidle := by
    have hmarked : state.active = some name := hkept.intact
    rw [hmarked] at hidle
    cases hidle

theorem running_covers {activity : Activity} (hactive : activity.state.active = some name) :
    (running name).Covers activity := by
  refine ⟨kept_running hactive, ?_⟩
  cases activity.task with
  | expr | statement | body => exact ⟨trivial, trivial, trivial⟩
  | call => exact ⟨running_allowed _ _, fun _ _ => running_allowed _ _⟩
  | enter => trivial

end Region

namespace Activity

variable {setting : Setting} {activity part : Activity} {name : String}

/-- A part of an activity finds the same section marked. -/
theorem Performs.active
    (hperforms : Performs setting activity part) (hactive : activity.state.active = some name) :
    part.state.active = some name :=
  (hperforms.covers (Region.running_oversees setting) (Region.running_covers hactive)).kept.intact

theorem CallsNative.active
    {offset : Nat} {native : Native} {values : List Value} {state : State}
    (hcalls : CallsNative setting activity offset native values state)
    (hactive : activity.state.active = some name) :
    state.active = some name :=
  (hcalls.kept (Region.running_oversees setting) (Region.running_covers hactive)).intact

end Activity

end PuzzleLang
