import PuzzleLang.Proofs.Bindings
import PuzzleLang.Proofs.Run.Halting
import PuzzleLang.Proofs.Run.Region
import PuzzleLang.Proofs.Session.Layout

/-!
# The order of declarations

A host cannot tell in which order the parts of a script stand, as long as its sections have names of
their own and functions of one name keep their order.  Loading another order binds the same names to
the same functions, at other places among the bindings of the root scope, and nothing that a run
does depends on these places.
-/

namespace PuzzleLang

/-! ## Bindings that agree -/

namespace Bindings

variable {α : Type} {bindings bindings' : Bindings α} {name wanted : String}

/-- Two lists of bindings give every name the same value. -/
def Agree (bindings bindings' : Bindings α) : Prop :=
  ∀ name, bindings'.get? name = bindings.get? name

theorem Agree.binds (h : Agree bindings bindings') (name : String) :
    bindings'.binds name = bindings.binds name := by
  rw [Bindings.binds, Bindings.binds, h name]

theorem Agree.put (h : Agree bindings bindings') (name : String) (value : α) :
    Agree (bindings.put name value) (bindings'.put name value) := by
  intro wanted
  by_cases hsame : name = wanted
  · subst hsame
    rw [get?_put_self, get?_put_self]
  · rw [get?_put_of_ne hsame, get?_put_of_ne hsame, h wanted]

/-- Only the pairs of a name have a say in its value. -/
theorem get?_putAll_filter
    (hsame : bindings'.get? name = bindings.get? name) (pairs : List (String × α)) :
    (bindings'.putAll (pairs.filter (·.1 == name))).get? name =
      (bindings.putAll pairs).get? name := by
  induction pairs generalizing bindings bindings' with
  | nil => exact hsame
  | cons pair pairs ih =>
    obtain ⟨bound, value⟩ := pair
    by_cases hfound : bound = name
    · subst hfound
      rw [List.filter_cons_of_pos (by simp)]
      exact ih (by rw [get?_put_self, get?_put_self])
    · rw [List.filter_cons_of_neg (by simpa using hfound)]
      exact ih (by rw [get?_put_of_ne hfound, hsame])

theorem Agree.putAll
    {pairs pairs' : List (String × α)}
    (h : Agree bindings bindings')
    (hsame : ∀ name, pairs'.filter (·.1 == name) = pairs.filter (·.1 == name)) :
    Agree (bindings.putAll pairs) (bindings'.putAll pairs') := by
  intro name
  calc
    (bindings'.putAll pairs').get? name
      = (bindings'.putAll (pairs'.filter (·.1 == name))).get? name :=
        (get?_putAll_filter rfl pairs').symm
    _ = (bindings'.putAll (pairs.filter (·.1 == name))).get? name := by rw [hsame name]
    _ = (bindings.putAll pairs).get? name := get?_putAll_filter (h name) pairs

end Bindings

/-! ## Stores that agree -/

/-- Two scopes have the same parent and give every name the same value. -/
structure Scope.Agree (scope scope' : Scope) : Prop where
  parent : scope'.parent = scope.parent
  bindings : Bindings.Agree scope.bindings scope'.bindings

/-- Two stores have the same arrays and maps, and scopes that agree at the same places. -/
structure Store.Agree (store store' : Store) : Prop where
  scopes : List.Forall₂ Scope.Agree store.scopes.toList store'.scopes.toList
  arrays : store'.arrays = store.arrays
  maps : store'.maps = store.maps

namespace Store

variable {store store' : Store}

theorem viewWithin_of_same
    (harrays : store'.arrays = store.arrays) (hmaps : store'.maps = store.maps) (depth : Nat)
    (value : Value) :
    store'.viewWithin depth value = store.viewWithin depth value := by
  induction depth generalizing value with
  | zero => cases value <;> simp only [viewWithin]
  | succ depth ih =>
    cases value with
    | array id => simp only [viewWithin, items, harrays, funext ih]
    | map id => simp only [viewWithin, entries, hmaps, funext ih]
    | nil | number | string | range | closure | native => simp only [viewWithin]

namespace Agree

theorem refl (store : Store) : Agree store store :=
  ⟨List.forall₂_same.mpr fun _ _ => ⟨rfl, fun _ => rfl⟩, rfl, rfl⟩

theorem scope? (h : Agree store store') (id : ScopeId) :
    Option.Rel Scope.Agree (store.scope? id) (store'.scope? id) := by
  have hfound := forall₂_getElem? h.scopes id.index
  rwa [Array.getElem?_toList, Array.getElem?_toList] at hfound

theorem own (h : Agree store store') (id : ScopeId) :
    Bindings.Agree (store.own id) (store'.own id) := by
  have hfound := h.scope? id
  unfold Store.own
  generalize store.scope? id = scope at hfound ⊢
  generalize store'.scope? id = scope' at hfound ⊢
  cases hfound with
  | none => exact fun _ => rfl
  | some hscopes => exact hscopes.bindings

theorem newScope (h : Agree store store') (parent : Option ScopeId) :
    Agree (store.newScope parent).2 (store'.newScope parent).2 where
  scopes := by
    simp only [Store.newScope, Array.toList_push]
    exact List.rel_append h.scopes (.cons ⟨rfl, fun _ => rfl⟩ .nil)
  arrays := h.arrays
  maps := h.maps

theorem define (h : Agree store store') (id : ScopeId) (name : String) (value : Value) :
    Agree (store.define id name value) (store'.define id name value) where
  scopes := by
    simp only [Store.define, Array.toList_modify]
    refine forall₂_modify h.scopes (fun _ _ hscopes => ?_) id.index
    exact ⟨hscopes.parent, hscopes.bindings.put name value⟩
  arrays := h.arrays
  maps := h.maps

theorem home? (h : Agree store store') (name : String) (id : ScopeId) :
    store'.home? name id = store.home? name id :=
  home?_of_sameNames
    (fun id => rel_imp (h.scope? id) fun _ _ hscopes => ⟨hscopes.parent, hscopes.bindings.binds⟩)
    name id

theorem lookup? (h : Agree store store') (id : ScopeId) (name : String) :
    store'.lookup? id name = store.lookup? id name := by
  unfold Store.lookup?
  rw [h.home? name id]
  split
  · exact h.own _ name
  · rfl

theorem assign (h : Agree store store') (id : ScopeId) (name : String) (value : Value) :
    Agree (store.assign id name value).2 (store'.assign id name value).2 := by
  unfold Store.assign
  rw [h.home? name id]
  split
  · exact h.define _ name value
  · exact h

theorem view? (h : Agree store store') (value : Value) :
    store'.view? value = store.view? value := by
  rw [Store.view?, Store.view?, h.arrays, h.maps, viewWithin_of_same h.arrays h.maps]

theorem defineAll
    {pairs pairs' : List (String × Value)}
    (h : Agree store store')
    (hsame : ∀ name, pairs'.filter (·.1 == name) = pairs.filter (·.1 == name)) (id : ScopeId) :
    Agree (store.defineAll id pairs) (store'.defineAll id pairs') where
  scopes := by
    simp only [Store.defineAll, Array.toList_modify]
    refine forall₂_modify h.scopes (fun _ _ hscopes => ?_) id.index
    exact ⟨hscopes.parent, hscopes.bindings.putAll hsame⟩
  arrays := h.arrays
  maps := h.maps

end Agree

end Store

/-! ## Runs side by side -/

/-- Two states are the same, apart from the places of names among the bindings of a scope. -/
structure State.Agree (state state' : State) : Prop where
  store : Store.Agree state.store state'.store
  output : state'.output = state.output
  trace : state'.trace = state.trace
  active : state'.active = state.active
  asked : state'.asked = state.asked

/-- The accord of runs in states that agree. -/
def Accord.agreement : Accord where
  offsets := Eq
  states := State.Agree
  allowed _ _ := True
  reads _ _ := True
  defines _ _ := True

/-- Two settings find the same sections by name, have everything else in common, and keep no
trace. -/
structure Setting.Agree (setting setting' : Setting) : Prop where
  sections (name : String) :
    setting'.sections.find? (·.name == name) = setting.sections.find? (·.name == name)
  silent : setting.level ≤ 0
  level : setting'.level = setting.level
  lineOf : setting'.lineOf = setting.lineOf
  files : setting'.files = setting.files
  limits : setting'.limits = setting.limits

section

variable {setting setting' : Setting} {state state' : State} {start : Store}

theorem State.Agree.withStore
    {store store' : Store} (h : State.Agree state state') (hstores : Store.Agree store store') :
    State.Agree { state with store } { state' with store := store' } :=
  ⟨hstores, h.output, h.trace, h.active, h.asked⟩

theorem Accord.eq_of_agreement_values
    {values values' : List Value} (h : List.Forall₂ (agreement.values start) values values') :
    values' = values := by
  induction h with
  | nil => rfl
  | cons hfirst _ ih => rw [hfirst.1.eq, ih]

theorem Accord.eq_of_agreement_bindings
    {entries entries' : Bindings Value}
    (h : List.Forall₂ (agreement.bindings start) entries entries') :
    entries' = entries := by
  induction h with
  | nil => rfl
  | @cons entry entry' _ _ hfirst _ ih =>
    have hsame : entry' = entry := Prod.ext hfirst.1 hfirst.2.1.eq
    rw [hsame, ih]

theorem Accord.agreement_values_self (value : Value) : agreement.values start value value :=
  ⟨Value.like_self (fun _ => rfl) value, trivial⟩

theorem Setting.Agree.laws (h : Setting.Agree setting setting') :
    Accord.agreement.Laws setting setting' where
  limits := h.limits
  allowed_mono _ _ := trivial
  reads_mono _ _ := trivial
  defines_mono _ _ := trivial
  plain _ := trivial
  closure _ := trivial
  scope_of_closure _ := trivial
  sizes hstates :=
    ⟨hstates.store.scopes.length_eq.symm, by rw [hstates.store.arrays], by rw [hstates.store.maps]⟩
  newScope hstates _ := ⟨hstates.withStore (hstates.store.newScope _), trivial, trivial⟩
  define hstates _ hvalues := by
    rw [hvalues.1.eq]
    exact hstates.withStore (hstates.store.define _ _ _)
  assign hstates _ hvalues := by
    rw [hvalues.1.eq]
    exact hstates.withStore (hstates.store.assign _ _ _)
  lookup {s s' id} name hstates _ := by
    rw [hstates.store.lookup? id name]
    cases s.store.lookup? id name with
    | none => exact .none
    | some value => exact .some (Accord.agreement_values_self value)
  newArray hstates hvalues := by
    rw [Accord.eq_of_agreement_values hvalues]
    refine ⟨hstates.withStore ⟨hstates.store.scopes, ?_, hstates.store.maps⟩, trivial⟩
    simp only [Store.newArray, hstates.store.arrays]
  newMap hstates hvalues := by
    rw [Accord.eq_of_agreement_bindings hvalues]
    refine ⟨hstates.withStore ⟨hstates.store.scopes, hstates.store.arrays, ?_⟩, trivial⟩
    simp only [Store.newMap, hstates.store.maps]
  items hstates _ := by
    simp only [Store.items, hstates.store.arrays]
    exact List.forall₂_same.mpr fun value _ => Accord.agreement_values_self value
  entries hstates _ := by
    simp only [Store.entries, hstates.store.maps]
    exact List.forall₂_same.mpr fun entry _ => ⟨rfl, Accord.agreement_values_self entry.2⟩
  setItem hstates _ hvalues := by
    rw [hvalues.1.eq]
    refine hstates.withStore ⟨hstates.store.scopes, ?_, hstates.store.maps⟩
    simp only [Store.setItem, hstates.store.arrays]
  setEntry hstates _ hvalues := by
    rw [hvalues.1.eq]
    refine hstates.withStore ⟨hstates.store.scopes, hstates.store.arrays, ?_⟩
    simp only [Store.setEntry, hstates.store.maps]
  view hstates hvalues := by
    rw [hvalues.1.eq]
    exact hstates.store.view? _
  output hstates :=
    ⟨hstates.store, by rw [hstates.output], hstates.trace, hstates.active, hstates.asked⟩
  record hevents _ := by
    rw [Run.record_silent h.silent, Run.record_silent (h.level ▸ h.silent)]
    exact Accord.alike_pure fun _ _ => trivial
  readFile path :=
    Accord.agreement.alike_readFile_silent h.silent (h.level ▸ h.silent) h.files
      (fun hstates => hstates.asked)
      (fun _ hstates => ⟨hstates.store, hstates.output, hstates.trace, hstates.active, rfl⟩)
      (fun _ => trivial) _ path

theorem Setting.Agree.opens (h : Setting.Agree setting setting') :
    Accord.agreement.Opens setting setting' where
  sections name := by
    rw [h.sections name]
    cases setting.sections.find? (·.name == name) with
    | none => exact .none
    | some part => exact .some (Section.like_self (fun _ => rfl) part)
  active hstates := hstates.active
  mark _ hstates := ⟨hstates.store, hstates.output, hstates.trace, rfl, hstates.asked⟩
  root _ := ⟨trivial, trivial⟩

end

/-! ## Sessions side by side -/

/-- Two sessions have settings and states that agree. -/
structure Session.Agree (session session' : Session) : Prop where
  setting : Setting.Agree session.setting session'.setting
  state : State.Agree session.state session'.state

theorem OutcomeLike.eq
    {outcome outcome' : Except Halt Value} (h : OutcomeLike Eq (Value.Like Eq) outcome outcome') :
    outcome' = outcome := by
  cases h with
  | ok hvalues => rw [hvalues.eq]
  | error hhalts => rw [hhalts.eq]

namespace Session.Agree

variable {session session' : Session}

theorem perform
    {α α' : Type} {results : Store → α → α' → Prop} {outcomes : α → α' → Prop} {run : Run α}
    {run' : Run α'}
    (h : Session.Agree session session')
    (halike : Accord.agreement.Alike results session.state.store run run')
    (himp : ∀ store value value', results store value value' → outcomes value value') :
    OutcomeLike Eq outcomes (session.perform run).1 (session'.perform run').1 ∧
      Session.Agree (session.perform run).2 (session'.perform run').2 := by
  obtain ⟨houtcomes, hstates⟩ := halike.perform h.state himp
  refine ⟨houtcomes, ?_, hstates⟩
  rw [session.setting_perform, session'.setting_perform]
  exact h.setting

theorem handle (h : Session.Agree session session') (request : Request) :
    (session'.handle request).1 = (session.handle request).1 ∧
      Session.Agree (session.handle request).2 (session'.handle request).2 := by
  have hlaws := h.setting.laws
  cases request with
  | readInput text =>
    have hhosts : Accord.agreement.hosts session.state.store rootScope := ⟨trivial, trivial⟩
    have hended := h.perform (hlaws.alike_readInput hhosts text) fun _ _ _ hvalues => hvalues
    exact ⟨rfl, hended.2⟩
  | evaluate name =>
    rw [Session.handle, Session.handle, Session.evaluate, Session.evaluate, h.setting.limits]
    obtain ⟨houtcomes, hnext⟩ := h.perform
      (hlaws.alike_enterSection h.setting.opens session.setting.limits.calls name)
      fun _ _ _ hvalues => hvalues.1
    exact ⟨houtcomes.eq, hnext⟩

theorem observe (h : Session.Agree session session') (outcome : Except Halt Value) :
    session'.observe outcome = session.observe outcome := by
  unfold Session.observe
  rw [h.setting.lineOf, h.state.output, h.state.store.arrays, h.state.store.maps,
    funext h.state.store.view?]

theorem record_observe (h : Session.Agree session session') (requests : List Request) :
    session'.record Session.observe requests = session.record Session.observe requests := by
  refine Session.record_eq_of_related (fun {session session'} hagree request => ?_) h requests
  obtain ⟨houtcome, hnext⟩ := Session.Agree.handle hagree request
  rw [houtcome]
  exact ⟨hnext.observe _, hnext⟩

end Session.Agree

/-! ## Scripts side by side -/

/-- What loading a part of a script binds in the root scope. -/
def Item.binding? : Item → Option (String × Value)
  | .labelled _ => none
  | .function f => f.name.map fun name => (name, .closure ⟨f, rootScope⟩)

/-- Whether a part of a script is a function of that name. -/
def Item.defines (name : String) : Item → Bool
  | .labelled _ => false
  | .function f => f.name == some name

/-- The section that a part of a script is. -/
def Item.section? : Item → Option Section
  | .labelled part => some part
  | .function _ => none

theorem Item.filter_bindings (items : List Item) (name : String) :
    (items.filterMap Item.binding?).filter (·.1 == name) =
      (items.filter (Item.defines name)).filterMap Item.binding? := by
  rw [List.filter_filterMap, List.filterMap_filter]
  congr 1
  funext item
  match item with
  | .labelled _ => rfl
  | .function ⟨_, none, _, _⟩ => rfl
  | .function ⟨offset, some bound, params, body⟩ =>
    simp only [Item.binding?, Item.defines, Option.map_some, Option.filter_some,
      Option.some_beq_some]
    rfl

/-- Making a function without a trace binds it, if it has a name. -/
theorem Run.makeFunction_silent
    {setting : Setting} (hsilent : setting.level ≤ 0) (f : Function) (state : State) :
    Run.makeFunction setting f rootScope state =
      .ok (.closure ⟨f, rootScope⟩) { state with
        store := state.store.defineAll rootScope (Item.function f).binding?.toList } := by
  obtain ⟨offset, name, params, body⟩ := f
  cases name with
  | none =>
    rw [Item.binding?, Option.map_none, Option.toList_none, Store.defineAll_nil]
    rfl
  | some name =>
    have huntraced := Run.record_silent hsilent (.defineFunction name params) offset
      (return .defineFunction name params)
    simp only [Event.level] at huntraced
    rw [Item.binding?, Option.map_some, Option.toList_some, Store.defineAll_cons,
      Store.defineAll_nil]
    simp only [Run.makeFunction, huntraced]
    rfl

/-- Loading sections of different names without a trace only binds the functions of the script, one
after the other. -/
theorem Run.loadItems_of_distinct
    {setting : Setting}
    (hsilent : setting.level ≤ 0)
    {items : List Item} {seen : List String}
    (hdistinct : (seen ++ (items.filterMap Item.section?).map (·.name)).Nodup) (state : State) :
    Run.loadItems setting seen items state =
      .ok () { state with
        store := state.store.defineAll rootScope (items.filterMap Item.binding?) } := by
  induction items generalizing seen state with
  | nil =>
    rw [List.filterMap_nil, Store.defineAll_nil]
    rfl
  | cons item items ih =>
    cases item with
    | labelled part =>
      rw [List.filterMap_cons_some (show Item.section? (.labelled part) = some part from rfl),
        List.map_cons, List.nodup_middle] at hdistinct
      have hfresh : ¬ seen.contains part.name = true := by
        rw [List.contains_iff_mem]
        exact fun hmem => (List.nodup_cons.mp hdistinct).1 (List.mem_append_left _ hmem)
      rw [Run.loadItems, if_neg hfresh]
      exact ih hdistinct state
    | function f =>
      rw [Run.loadItems, Run.bind_of_ok (makeFunction_silent hsilent f state), ih hdistinct,
        List.filterMap_cons]
      cases (Item.function f).binding? with
      | none => rw [Option.toList_none, Store.defineAll_nil]
      | some pair =>
        rw [Option.toList_some, Store.defineAll_cons, Store.defineAll_cons, Store.defineAll_nil]

theorem Section.find?_eq_some_iff
    {sections : List Section} {name : String} {part : Section}
    (hdistinct : (sections.map (·.name)).Nodup) :
    sections.find? (·.name == name) = some part ↔ part ∈ sections ∧ part.name = name := by
  constructor
  · intro hfound
    have hnamed := List.find?_some hfound
    exact ⟨List.mem_of_find?_eq_some hfound, beq_iff_eq.mp hnamed⟩
  · rintro ⟨hmem, rfl⟩
    cases hfound : sections.find? (·.name == part.name) with
    | none => exact absurd (beq_self_eq_true part.name) (List.find?_eq_none.mp hfound part hmem)
    | some other =>
      have hnamed := List.find?_some hfound
      rw [List.inj_on_of_nodup_map hdistinct (List.mem_of_find?_eq_some hfound) hmem
        (beq_iff_eq.mp hnamed)]

theorem Section.find?_of_perm
    {sections sections' : List Section}
    (hdistinct : (sections.map (·.name)).Nodup) (hperm : sections'.Perm sections) (name : String) :
    sections'.find? (·.name == name) = sections.find? (·.name == name) := by
  have hdistinct' : (sections'.map (·.name)).Nodup := (hperm.map _).nodup_iff.mpr hdistinct
  ext part
  rw [find?_eq_some_iff hdistinct', find?_eq_some_iff hdistinct, hperm.mem_iff]

theorem Session.load_of_distinct
    {program : Program}
    (hdistinct : (program.sections.map (·.name)).Nodup) (files : Files) (limits : Limits) :
    Session.load program 0 files limits =
      (.ok (), ⟨.ofProgram program 0 files limits, { State.initial with
        store := Store.initial.defineAll rootScope (program.items.filterMap Item.binding?) }⟩) := by
  have hsilent : (Setting.ofProgram program 0 files limits).level ≤ 0 := Int.le_refl _
  have hloaded := Run.loadItems_of_distinct hsilent (show ([] ++ _).Nodup from hdistinct)
    State.initial
  rw [Session.load, Session.perform, hloaded]
  rfl

/-- The order of declarations does not matter.  Let the sections of a script have different names,
and let its parts be put in another order that keeps the functions of each name in theirs.  Both
orders load, and a host that makes the same calls sees the same values, faults and lines of faults,
output, and contents of arrays and maps. -/
theorem Program.observations_eq_of_perm
    {program : Program} {items : List Item}
    (hdistinct : (program.sections.map (·.name)).Nodup) (hperm : items.Perm program.items)
    (hordered : ∀ name, items.filter (Item.defines name) = program.items.filter (Item.defines name))
    (files : Files) (limits : Limits) :
    (Session.load program 0 files limits).1 = .ok () ∧
      (Session.load ⟨items, program.source⟩ 0 files limits).1 = .ok () ∧
      ∀ requests, Program.record Session.observe ⟨items, program.source⟩ 0 files limits requests =
        program.record Session.observe 0 files limits requests := by
  have hsections : (Program.mk items program.source).sections.Perm program.sections :=
    hperm.filterMap _
  have hdistinct' := (hsections.map (·.name)).nodup_iff.mpr hdistinct
  have hsame (name : String) : (items.filterMap Item.binding?).filter (·.1 == name) =
      (program.items.filterMap Item.binding?).filter (·.1 == name) := by
    rw [Item.filter_bindings, Item.filter_bindings, hordered name]
  have hloaded := Session.load_of_distinct hdistinct files limits
  have hloaded' := Session.load_of_distinct hdistinct' files limits
  have hagree : Session.Agree (Session.load program 0 files limits).2
      (Session.load ⟨items, program.source⟩ 0 files limits).2 := by
    rw [hloaded, hloaded']
    exact ⟨⟨Section.find?_of_perm hdistinct hsections, Int.le_refl _, rfl, rfl, rfl, rfl⟩,
      (Store.Agree.refl _).defineAll hsame rootScope, rfl, rfl, rfl, rfl⟩
  refine ⟨by rw [hloaded], by rw [hloaded'], fun requests => ?_⟩
  have hfirst : (Session.load ⟨items, program.source⟩ 0 files limits).1 =
      (Session.load program 0 files limits).1 := by
    rw [hloaded, hloaded']
  rw [Program.record, Program.record, hfirst]
  exact congrArg₂ List.cons (hagree.observe _) (hagree.record_observe requests)

/-- A script with a section before the functions it needs, one of which is defined twice. -/
def unorderedText : List Char :=
  ("a: g()\nfn f() \x7b return 1 \x7d\n" ++
    "fn g() \x7b return 1 / (f() - 2) \x7d\nfn f() \x7b return 2 \x7d").toList

/-- The section of that script. -/
def Section.unordered : Section :=
  ⟨0, "a", .expr (.call 3 (.ident 3 "g") [])⟩

/-- The function that the section calls. -/
def Function.caller : Function :=
  ⟨27, some "g", [], ⟨34, [.returns 36 (some (.binary 45 .divide (.number 43 1)
    (.binary 52 .subtract (.call 48 (.ident 48 "f") []) (.number 54 2))))]⟩⟩

/-- The definition of the other function that does not count. -/
def Function.earlier : Function :=
  ⟨7, some "f", [], ⟨14, [.returns 16 (some (.number 23 1))]⟩⟩

/-- The definition of the other function that counts. -/
def Function.later : Function :=
  ⟨59, some "f", [], ⟨66, [.returns 68 (some (.number 75 2))]⟩⟩

/-- The script of that text. -/
def Program.unordered : Program where
  items := [.labelled .unordered, .function .earlier, .function .caller, .function .later]
  source := unorderedText

/-- The parts of that script, with the function before its uses and the section at the end. -/
def Item.ordered : List Item :=
  [.function .earlier, .function .later, .function .caller, .labelled .unordered]

set_option maxRecDepth 10000 in
/-- The section stands before or after the functions, and in both cases the later definition makes
the division on the third line fail. -/
theorem Program.observations_eq_of_perm_functions :
    Program.parse unorderedText = .ok .unordered ∧
      (Program.unordered.sections.map (·.name)).Nodup ∧
      Item.ordered.Perm Program.unordered.items ∧
      (∀ name, Item.ordered.filter (Item.defines name) =
        Program.unordered.items.filter (Item.defines name)) ∧
      (∀ requests, Program.record Session.observe ⟨Item.ordered, unorderedText⟩ 0
          ⟨fun _ _ _ => .missing⟩ .standard requests =
        Program.unordered.record Session.observe 0 ⟨fun _ _ _ => .missing⟩ .standard requests) ∧
      ((Session.load ⟨Item.ordered, unorderedText⟩ 0 ⟨fun _ _ _ => .missing⟩
        .standard).2.evaluate "a").1 = .error (.fault ⟨.divisionByZero, some 45⟩) ∧
      lineAt unorderedText 45 = 3 := by
  have hparsed : Program.parse unorderedText = .ok .unordered := by cbv
  have hdistinct : (Program.unordered.sections.map (·.name)).Nodup := by decide
  have hperm : Item.ordered.Perm Program.unordered.items := by
    have hlast := List.perm_append_singleton (Item.labelled .unordered)
      [.function .earlier, .function .later, .function .caller]
    exact hlast.trans (.cons _ (.cons _ (.swap _ _ _)))
  have hordered (name : String) : Item.ordered.filter (Item.defines name) =
      Program.unordered.items.filter (Item.defines name) := by
    by_cases hcaller : name = "g"
    · subst hcaller
      rfl
    · have hother : Item.defines name (.function .caller) = false := by
        simpa [Item.defines, Function.caller] using fun hsame => hcaller hsame.symm
      simp only [Item.ordered, Program.unordered, List.filter_cons, hother]
      rfl
  obtain ⟨-, -, hsame⟩ :=
    Program.observations_eq_of_perm hdistinct hperm hordered ⟨fun _ _ _ => .missing⟩ .standard
  exact ⟨hparsed, hdistinct, hperm, hordered, hsame, by with_unfolding_all rfl, by decide⟩

end PuzzleLang
