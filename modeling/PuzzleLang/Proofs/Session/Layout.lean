import PuzzleLang.Proofs.Grammar.Layout
import PuzzleLang.Proofs.Session.Accord

/-!
# Layout does not change what a script means

Two texts that are cut into tokens of the same kinds and texts, in the same order, are one script to
every host.  Reading them fails for the same cause or gives the same parts, offsets aside.  Sessions
of the two then go side by side: as long as no trace is kept, offsets show up nowhere but in the
lines of faults.
-/

namespace PuzzleLang

/-! ## What a host sees -/

namespace Erase

/-- The value with all offsets set to zero. -/
def value : Value → Value
  | .closure ⟨f, scope⟩ => .closure ⟨function f, scope⟩
  | value => value

/-- The bindings with all offsets set to zero. -/
def bindings (bound : Bindings Value) : Bindings Value :=
  bound.map fun entry => (entry.1, value entry.2)

/-- The store with all offsets set to zero. -/
def store (store : Store) : Store where
  scopes := store.scopes.map fun scope => { scope with bindings := bindings scope.bindings }
  arrays := store.arrays.map fun items => items.map value
  maps := store.maps.map bindings

/-- The fault with its offset, if it has one, set to zero. -/
def fault (fault : Fault) : Fault :=
  ⟨fault.cause, fault.offset.map fun _ => 0⟩

/-- The halt with its offset, if it has one, set to zero. -/
def halt : Halt → Halt
  | .fault fault => .fault (Erase.fault fault)
  | halt => halt

end Erase

/-- A call of a host. -/
inductive Request
  | readInput (text : String)
  | evaluate (name : String)

/-- What a host sees after a call, offsets aside. -/
structure Answer where
  /-- The value that the call gave, or why there is none. -/
  outcome : Except Halt Value
  /-- The value written out. -/
  shown : Option Datum
  /-- Everything that has been printed. -/
  output : String
  /-- The contents of all values that the host has ever been given. -/
  store : Store

namespace Session

/-- What a host sees of a session in which a call has had an outcome. -/
def answer (session : Session) (outcome : Except Halt Value) : Answer where
  outcome := (outcome.map Erase.value).mapError Erase.halt
  shown := outcome.toOption.bind session.state.store.view?
  output := session.state.output
  store := Erase.store session.state.store

/-- Does what a host calls for. -/
def handle (session : Session) : Request → Except Halt Value × Session
  | .readInput text => (.ok .nil, session.readInput text)
  | .evaluate name => session.evaluate name

/-- What a host records when it makes calls, one after the other, where `view` is what it sees of a
session in which a call has had an outcome. -/
def record {α : Type} (view : Session → Except Halt Value → α) (session : Session) :
    List Request → List α
  | [] => []
  | request :: requests =>
    let handled := session.handle request
    view handled.2 handled.1 :: handled.2.record view requests

/-- Two sessions that stay related and look the same after each call have the same record. -/
theorem record_eq_of_related
    {α : Type} {view : Session → Except Halt Value → α} {related : Session → Session → Prop}
    (hstep : ∀ {session session' : Session}, related session session' → ∀ request,
      view (session'.handle request).2 (session'.handle request).1 =
          view (session.handle request).2 (session.handle request).1 ∧
        related (session.handle request).2 (session'.handle request).2)
    {session session' : Session}
    (h : related session session') (requests : List Request) :
    session'.record view requests = session.record view requests := by
  induction requests generalizing session session' with
  | nil => rfl
  | cons request requests ih =>
    obtain ⟨hview, hnext⟩ := hstep h request
    rw [record, record, hview, ih hnext]

end Session

/-- What a host records when it loads a script and then makes calls. -/
def Program.record {α : Type} (view : Session → Except Halt Value → α) (program : Program)
    (level : Int) (files : Files) (limits : Limits) (requests : List Request) : List α :=
  let loaded := Session.load program level files limits
  view loaded.2 (loaded.1.map fun _ => .nil) :: loaded.2.record view requests

/-- What a host sees after a call. -/
structure Observation where
  /-- The value that the call gave, or why there is none. -/
  outcome : Except Halt Value
  /-- The line of the fault, if the call has ended in one that has a place. -/
  line : Option Nat
  /-- The value written out. -/
  shown : Option Datum
  /-- Everything that has been printed. -/
  output : String
  /-- The contents of all arrays that the host has ever been given. -/
  arrays : Array (Array Value)
  /-- The contents of all maps that the host has ever been given. -/
  maps : Array (Bindings Value)

/-- The offset that a halt is attributed to. -/
def Halt.offset? : Halt → Option Nat
  | .fault ⟨_, offset⟩ => offset
  | .exhausted | .waiting _ => none

namespace Session

/-- What a host sees of a session in which a call has had an outcome. -/
def observe (session : Session) (outcome : Except Halt Value) : Observation where
  outcome := outcome
  line :=
    match outcome with
    | .ok _ => none
    | .error halt => halt.offset?.map session.setting.lineOf
  shown := outcome.toOption.bind session.state.store.view?
  output := session.state.output
  arrays := session.state.store.arrays
  maps := session.state.store.maps

end Session

/-! ## Equal erasures -/

section

variable {offsets : Nat → Nat → Prop}

theorem Value.Like.erase {value value' : Value} (h : Value.Like offsets value value') :
    Erase.value value = Erase.value value' := by
  cases h with
  | same => rfl
  | closure hfunctions => rw [Erase.value, Erase.value, hfunctions.erase]

theorem Halt.Like.erase {halt halt' : Halt} (h : Halt.Like offsets halt halt') :
    Erase.halt halt = Erase.halt halt' := by
  cases h with
  | fault hcorrespond => cases hcorrespond <;> rfl
  | exhausted | waiting => rfl

theorem Fault.Like.erase {fault fault' : Fault} (h : Fault.Like offsets fault fault') :
    Erase.fault fault = Erase.fault fault' := by
  obtain ⟨cause, offset⟩ := fault
  obtain ⟨cause', offset'⟩ := fault'
  obtain ⟨hsameCause, hcorrespond⟩ := h
  obtain rfl : cause' = cause := hsameCause
  cases hcorrespond <;> rfl

theorem Bindings.Like.erase
    {bindings bindings' : Bindings Value}
    (h : Bindings.Like (Value.Like offsets) bindings bindings') :
    Erase.bindings bindings = Erase.bindings bindings' :=
  map_eq_of_forall₂ h fun entry entry' hlike => by rw [hlike.1, hlike.2.erase]

theorem Store.Like.erase {store store' : Store} (h : Store.Like offsets store store') :
    Erase.store store = Erase.store store' := by
  have hscopes : (Erase.store store).scopes = (Erase.store store').scopes := by
    apply Array.toList_inj.mp
    simp only [Erase.store, Array.toList_map]
    exact map_eq_of_forall₂ h.scopes fun _ _ hlike => by rw [hlike.parent, hlike.bindings.erase]
  have harrays : (Erase.store store).arrays = (Erase.store store').arrays := by
    apply Array.toList_inj.mp
    simp only [Erase.store, Array.toList_map]
    refine map_eq_of_forall₂ h.arrays fun items items' hlikes => Array.toList_inj.mp ?_
    rw [Array.toList_map, Array.toList_map]
    exact map_eq_of_forall₂ hlikes fun _ _ hlike => hlike.erase
  have hmaps : (Erase.store store).maps = (Erase.store store').maps := by
    apply Array.toList_inj.mp
    simp only [Erase.store, Array.toList_map]
    exact map_eq_of_forall₂ h.maps fun _ _ hlikes => hlikes.erase
  exact Store.mk.injEq .. |>.mpr ⟨hscopes, harrays, hmaps⟩

theorem items_erase_of_like
    {items items' : List Item} (h : List.Forall₂ (Item.Like offsets) items items') :
    Erase.items items = Erase.items items' := by
  induction h with
  | nil => rfl
  | cons hfirst _ ih =>
    cases hfirst with
    | @labelled part part' hlike =>
      obtain ⟨offset, name, body⟩ := part
      obtain ⟨offset', name', body'⟩ := part'
      obtain rfl : name = name' := hlike.name
      rw [Erase.items, Erase.items, ih]
      cases hlike.body with
      | block hbodies => rw [Erase.labelled, Erase.labelled, hbodies.erase]
      | expr hbodies => rw [Erase.labelled, Erase.labelled, hbodies.erase]
    | function hlike => rw [Erase.items, Erase.items, ih, hlike.erase]

end

/-! ## Runs side by side -/

/-- Two states are the same, apart from the offsets in the store. -/
structure State.Like (offsets : Nat → Nat → Prop) (state state' : State) : Prop where
  store : Store.Like offsets state.store state'.store
  output : state'.output = state.output
  trace : state'.trace = state.trace
  active : state'.active = state.active
  asked : state'.asked = state.asked

/-- The accord of runs that differ in offsets only. -/
def Accord.layout (offsets : Nat → Nat → Prop) : Accord where
  offsets := offsets
  states := State.Like offsets
  allowed _ _ := True
  reads _ _ := True
  defines _ _ := True

/-- Two settings differ in offsets only, and keep no trace. -/
structure Setting.Like (offsets : Nat → Nat → Prop) (setting setting' : Setting) : Prop where
  sections : List.Forall₂ (Section.Like offsets) setting.sections setting'.sections
  silent : setting.level ≤ 0
  silent' : setting'.level ≤ 0
  files : setting'.files = setting.files
  limits : setting'.limits = setting.limits

theorem Event.level_pos (event : Event) : 0 < event.level := by
  cases event <;> simp [level]

theorem Run.record_silent
    {setting : Setting}
    (hsilent : setting.level ≤ 0) (event : Event) (offset : Nat) (entry : Run Entry) :
    Run.record setting event.level offset entry = pure () := by
  have hpositive := event.level_pos
  rw [Run.record, if_neg (by omega)]

section

variable {offsets : Nat → Nat → Prop} {setting setting' : Setting}

theorem State.Like.withStore
    {state state' : State} {store store' : Store}
    (h : State.Like offsets state state') (hstores : Store.Like offsets store store') :
    State.Like offsets { state with store } { state' with store := store' } :=
  ⟨hstores, h.output, h.trace, h.active, h.asked⟩

/-- Without a trace, the question for a file is the same in two settings that share the files. -/
theorem Accord.alike_readFile_silent
    (A : Accord) (hsilent : setting.level ≤ 0) (hsilent' : setting'.level ≤ 0)
    (hfiles : setting'.files = setting.files)
    (hasked : ∀ {state state' : State}, A.states state state' → state'.asked = state.asked)
    (hcount : ∀ {state state' : State} (asked : Nat), A.states state state' →
      A.states { state with asked } { state' with asked })
    (hplain : ∀ {store : Store} {value : Value}, value.IsPlain → A.allowed store value)
    (start : Store) (path : String) :
    A.Alike A.values start (Native.readFile setting path) (Native.readFile setting' path) := by
  intro state state' _ hstates
  have huntraced : ¬ 0 < setting.level := Int.not_lt.mpr hsilent
  have huntraced' : ¬ 0 < setting'.level := Int.not_lt.mpr hsilent'
  have hcounted := hcount (state.asked + 1) hstates
  rw [Native.readFile, Native.readFile, Run.get_bind_apply, Run.get_bind_apply]
  simp only [if_neg huntraced, if_neg huntraced', hfiles, hasked hstates]
  generalize setting.files.ask state.asked path none = reply
  rw [Run.set_bind_apply, Run.set_bind_apply]
  split
  · exact .error (.refl _) hcounted .waiting
  · cases reply.text with
    | ok text =>
      have hread := Value.IsPlain.string text
      exact .ok (.refl _) hcounted ⟨hread.like, hplain hread⟩
    | error fault => exact .error (.refl _) hcounted (.fault .none)

theorem Setting.Like.laws (h : Setting.Like offsets setting setting') :
    (Accord.layout offsets).Laws setting setting' where
  limits := h.limits
  allowed_mono _ _ := trivial
  reads_mono _ _ := trivial
  defines_mono _ _ := trivial
  plain _ := trivial
  closure _ := trivial
  scope_of_closure _ := trivial
  sizes hstates :=
    ⟨hstates.store.scopes.length_eq.symm, hstates.store.arrays.length_eq.symm,
      hstates.store.maps.length_eq.symm⟩
  newScope hstates _ := ⟨hstates.withStore (hstates.store.newScope _), trivial, trivial⟩
  define hstates _ hvalues := hstates.withStore (hstates.store.define hvalues.1 _ _)
  assign hstates _ hvalues := hstates.withStore (hstates.store.assign hvalues.1 _ _)
  lookup name hstates _ :=
    rel_imp (hstates.store.lookup? _ name) fun _ _ hlike => ⟨hlike, trivial⟩
  newArray hstates hvalues :=
    ⟨hstates.withStore (hstates.store.newArray (hvalues.imp fun _ _ hlike => hlike.1)), trivial⟩
  newMap hstates hvalues :=
    ⟨hstates.withStore (hstates.store.newMap
      (hvalues.imp fun _ _ hlike => ⟨hlike.1, hlike.2.1⟩)), trivial⟩
  items hstates _ := (hstates.store.items _).imp fun _ _ hlike => ⟨hlike, trivial⟩
  entries hstates _ := (hstates.store.entries _).imp fun _ _ hlike => ⟨hlike.1, hlike.2, trivial⟩
  setItem hstates _ hvalues := hstates.withStore (hstates.store.setItem hvalues.1 _ _)
  setEntry hstates _ hvalues := hstates.withStore (hstates.store.setEntry hvalues.1 _ _)
  view hstates hvalues := hstates.store.view? hvalues.1
  output hstates :=
    ⟨hstates.store, by rw [hstates.output], hstates.trace, hstates.active, hstates.asked⟩
  record hevents _ := by
    rw [Run.record_silent h.silent, Run.record_silent h.silent']
    exact Accord.alike_pure fun _ _ => trivial
  readFile path := (Accord.layout offsets).alike_readFile_silent h.silent h.silent' h.files
    (fun hstates => hstates.asked)
    (fun _ hstates => ⟨hstates.store, hstates.output, hstates.trace, hstates.active, rfl⟩)
    (fun _ => trivial) _ path

theorem Setting.Like.opens (h : Setting.Like offsets setting setting') :
    (Accord.layout offsets).Opens setting setting' where
  sections name := Accord.rel_find? h.sections name
  active hstates := hstates.active
  mark _ hstates := ⟨hstates.store, hstates.output, hstates.trace, rfl, hstates.asked⟩
  root _ := ⟨trivial, trivial⟩

/-! ## Sessions side by side -/

/-- Two sessions differ in offsets only, and keep no trace. -/
structure Session.Like (offsets : Nat → Nat → Prop) (session session' : Session) : Prop where
  setting : Setting.Like offsets session.setting session'.setting
  state : State.Like offsets session.state session'.state

/-- Two runs have given results that correspond, or have halted alike. -/
inductive OutcomeLike (offsets : Nat → Nat → Prop) {α α' : Type} (results : α → α' → Prop) :
    Except Halt α → Except Halt α' → Prop
  | ok {value : α} {value' : α'} :
    results value value' → OutcomeLike offsets results (.ok value) (.ok value')
  | error {halt halt' : Halt} :
    Halt.Like offsets halt halt' → OutcomeLike offsets results (.error halt) (.error halt')

theorem OutcomeLike.map
    {α α' β β' : Type} {results : α → α' → Prop} {results' : β → β' → Prop} {f : α → β}
    {f' : α' → β'} {outcome : Except Halt α} {outcome' : Except Halt α'}
    (h : OutcomeLike offsets results outcome outcome')
    (himp : ∀ value value', results value value' → results' (f value) (f' value')) :
    OutcomeLike offsets results' (outcome.map f) (outcome'.map f') := by
  cases h with
  | ok hvalues => exact .ok (himp _ _ hvalues)
  | error hhalts => exact .error hhalts

theorem Session.setting_perform {α : Type} (session : Session) (run : Run α) :
    (session.perform run).2.setting = session.setting := by
  unfold perform
  cases run session.state <;> rfl

/-- Runs in accord that are performed in two sessions leave them in accord. -/
theorem Accord.Alike.perform
    {A : Accord} {α α' : Type} {results : Store → α → α' → Prop} {outcomes : α → α' → Prop}
    {run : Run α} {run' : Run α'} {session session' : Session}
    (halike : A.Alike results session.state.store run run')
    (hstates : A.states session.state session'.state)
    (himp : ∀ store value value', results store value value' → outcomes value value') :
    OutcomeLike A.offsets outcomes (session.perform run).1 (session'.perform run').1 ∧
      A.states (session.perform run).2.state (session'.perform run').2.state := by
  have hends := halike session.state session'.state (.refl _) hstates
  unfold Session.perform
  generalize run session.state = result at hends ⊢
  generalize run' session'.state = result' at hends ⊢
  cases hends with
  | ok _ hstates hvalues => exact ⟨.ok (himp _ _ _ hvalues), hstates⟩
  | error _ hstates hhalts => exact ⟨.error hhalts, hstates⟩

namespace Session.Like

variable {session session' : Session}

theorem perform
    {α α' : Type} {results : Store → α → α' → Prop} {outcomes : α → α' → Prop} {run : Run α}
    {run' : Run α'}
    (h : Session.Like offsets session session')
    (halike : (Accord.layout offsets).Alike results session.state.store run run')
    (himp : ∀ store value value', results store value value' → outcomes value value') :
    OutcomeLike offsets outcomes (session.perform run).1 (session'.perform run').1 ∧
      Session.Like offsets (session.perform run).2 (session'.perform run').2 := by
  obtain ⟨houtcomes, hstates⟩ := halike.perform h.state himp
  refine ⟨houtcomes, ?_, hstates⟩
  rw [session.setting_perform, session'.setting_perform]
  exact h.setting

theorem handle (h : Session.Like offsets session session') (request : Request) :
    OutcomeLike offsets (Value.Like offsets) (session.handle request).1
        (session'.handle request).1 ∧
      Session.Like offsets (session.handle request).2 (session'.handle request).2 := by
  have hlaws := h.setting.laws
  cases request with
  | readInput text =>
    have hhosts : (Accord.layout offsets).hosts session.state.store rootScope := ⟨trivial, trivial⟩
    have hended := h.perform (hlaws.alike_readInput hhosts text) fun _ _ _ hvalues => hvalues
    exact ⟨.ok Value.IsPlain.nil.like, hended.2⟩
  | evaluate name =>
    rw [Session.handle, Session.handle, Session.evaluate, Session.evaluate, h.setting.limits]
    exact h.perform (hlaws.alike_enterSection h.setting.opens _ name) fun _ _ _ hvalues => hvalues.1

theorem answer
    {outcome outcome' : Except Halt Value}
    (h : Session.Like offsets session session')
    (houtcomes : OutcomeLike offsets (Value.Like offsets) outcome outcome') :
    session'.answer outcome' = session.answer outcome := by
  unfold Session.answer
  rw [h.state.output, h.state.store.erase]
  cases houtcomes with
  | @ok value value' hvalues =>
    have hshown : session'.state.store.view? value' = session.state.store.view? value :=
      h.state.store.view? hvalues
    simp only [Except.map, Except.mapError, Except.toOption, Option.bind_some, hvalues.erase,
      hshown]
  | error hhalts =>
    simp only [Except.map, Except.mapError, Except.toOption, Option.bind_none, hhalts.erase]

theorem record_answer (h : Session.Like offsets session session') (requests : List Request) :
    session'.record Session.answer requests = session.record Session.answer requests := by
  refine Session.record_eq_of_related (fun {session session'} hlike request => ?_) h requests
  obtain ⟨houtcomes, hnext⟩ := Session.Like.handle hlike request
  exact ⟨hnext.answer houtcomes, hnext⟩

end Session.Like

/-! ## Scripts side by side -/

theorem Setting.like_ofProgram
    {program program' : Program}
    (h : List.Forall₂ (Item.Like offsets) program.items program'.items) (files : Files)
    (limits : Limits) :
    Setting.Like offsets (.ofProgram program 0 files limits)
      (.ofProgram program' 0 files limits) where
  sections := by
    refine List.rel_filterMap (fun item item' hlike => ?_) h
    cases hlike with
    | labelled hpart => exact .some hpart
    | function => exact .none
  silent := Int.le_refl _
  silent' := Int.le_refl _
  files := rfl
  limits := rfl

theorem Program.record_answer_of_like
    {program program' : Program}
    (hreflexive : ∀ offset, offsets offset offset)
    (h : List.Forall₂ (Item.Like offsets) program.items program'.items) (files : Files)
    (limits : Limits) (requests : List Request) :
    program'.record Session.answer 0 files limits requests =
      program.record Session.answer 0 files limits requests := by
  have hstart : Session.Like offsets ⟨.ofProgram program 0 files limits, .initial⟩
      ⟨.ofProgram program' 0 files limits, .initial⟩ :=
    ⟨Setting.like_ofProgram h files limits, .refl hreflexive _, rfl, rfl, rfl, rfl⟩
  have hhosts : (Accord.layout offsets).hosts State.initial.store rootScope := ⟨trivial, trivial⟩
  have hloads := hstart.setting.laws.alike_loadItems h hhosts []
  obtain ⟨houtcomes, hnext⟩ := hstart.perform hloads fun _ _ _ hdone => hdone
  have hloaded := hnext.answer (houtcomes.map fun _ _ _ => Value.IsPlain.nil.like)
  exact congrArg₂ List.cons hloaded (hnext.record_answer requests)

end

/-! ## The script of a text -/

theorem Program.parse_of_lexed_ok
    {source : List Char} {items : List Item} (h : (Lexed.ofSource source).parse = .ok items) :
    Program.parse source = .ok ⟨items, source⟩ := by
  rw [Program.parse, h]
  rfl

theorem Program.parse_of_lexed_error
    {source : List Char} {fault : Fault} (h : (Lexed.ofSource source).parse = .error fault) :
    Program.parse source = .error fault := by
  rw [Program.parse, h]
  rfl

/-- Layout never changes what a script means.  If two texts are cut into tokens of the same kinds
and texts, then reading them fails for the same cause, which decides the kind and the message of the
fault, or it gives the same parts up to offsets, and a host that loads the two scripts and makes the
same calls sees the same answers. -/
theorem Program.answers_eq_of_terminals
    {source source' : List Char} {ts ts' : List Token}
    (htokens : tokenize source = .ok ts) (htokens' : tokenize source' = .ok ts')
    (hsame : ts'.map Token.terminal = ts.map Token.terminal) :
    (∃ fault fault', Program.parse source = .error fault ∧ Program.parse source' = .error fault' ∧
        Erase.fault fault' = Erase.fault fault) ∨
      ∃ program program', Program.parse source = .ok program ∧
        Program.parse source' = .ok program' ∧
        Erase.items program'.items = Erase.items program.items ∧
        ∀ files limits requests, program'.record Session.answer 0 files limits requests =
          program.record Session.answer 0 files limits requests := by
  have halike := itemsAlike_of_terminals htokens htokens' hsame
  generalize hread : (Lexed.ofSource source).parse = items at halike
  generalize hread' : (Lexed.ofSource source').parse = items' at halike
  cases halike with
  | error hfaults =>
    exact .inl ⟨_, _, parse_of_lexed_error hread, parse_of_lexed_error hread', hfaults.erase.symm⟩
  | ok hlikes =>
    exact .inr ⟨_, _, parse_of_lexed_ok hread, parse_of_lexed_ok hread',
      (items_erase_of_like hlikes).symm, record_answer_of_like (fun _ => trivial) hlikes⟩

set_option maxRecDepth 10000 in
/-- A comment and line breaks move every token and change nothing. -/
theorem Program.answers_eq_of_terminals_comment :
    ∃ ts ts', tokenize "a: 1 / 0".toList = .ok ts ∧
      tokenize "# half\na:\n  1 /\n  0\n".toList = .ok ts' ∧
      ts'.map Token.terminal = ts.map Token.terminal ∧
      ∃ program program', Program.parse "a: 1 / 0".toList = .ok program ∧
        Program.parse "# half\na:\n  1 /\n  0\n".toList = .ok program' ∧
        Erase.items program'.items = Erase.items program.items ∧
        ∀ files limits requests, program'.record Session.answer 0 files limits requests =
          program.record Session.answer 0 files limits requests := by
  have htokens : tokenize "a: 1 / 0".toList =
      .ok [⟨.identifier, "a", 0⟩, ⟨.colon, ":", 1⟩, ⟨.number, "1", 3⟩, ⟨.slash, "/", 5⟩,
        ⟨.number, "0", 7⟩, ⟨.eof, "", 8⟩] := by
    cbv
  have htokens' : tokenize "# half\na:\n  1 /\n  0\n".toList =
      .ok [⟨.identifier, "a", 7⟩, ⟨.colon, ":", 8⟩, ⟨.number, "1", 12⟩, ⟨.slash, "/", 14⟩,
        ⟨.number, "0", 18⟩, ⟨.eof, "", 20⟩] := by
    cbv
  have hparsed : Program.parse "a: 1 / 0".toList =
      .ok ⟨[.labelled ⟨0, "a", .expr (.binary 5 .divide (.number 3 1) (.number 7 0))⟩],
        "a: 1 / 0".toList⟩ := by
    cbv
  refine ⟨_, _, htokens, htokens', rfl, ?_⟩
  rcases Program.answers_eq_of_terminals htokens htokens' rfl with ⟨_, _, hfailed, _⟩ | hread
  · rw [hparsed] at hfailed
    cases hfailed
  · exact hread

end PuzzleLang
