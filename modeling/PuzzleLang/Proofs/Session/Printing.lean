import PuzzleLang.Proofs.Run.Halting
import PuzzleLang.Proofs.Run.Region

/-!
# What has been printed

A run cannot see what has been printed before it.  From a state with another text printed first, it
ends in the same way, with the same value and in the same store, and adds the same to what has been
printed.  Evaluating a section of a script is such a run.
-/

namespace PuzzleLang

namespace State

/-- The state with a text printed before everything else. -/
def preceded (before : String) (state : State) : State :=
  { state with output := before ++ state.output }

/-- The state with a text printed after everything else. -/
def followed (state : State) (text : String) : State :=
  { state with output := state.output ++ text }

/-- The state with nothing printed. -/
def unprinted (state : State) : State :=
  { state with output := "" }

@[simp]
theorem store_preceded (before : String) (state : State) :
    (state.preceded before).store = state.store :=
  rfl

@[simp]
theorem preceded_preceded (before first : String) (state : State) :
    (state.preceded before).preceded first = state.preceded (first ++ before) := by
  simp [preceded, String.append_assoc]

@[simp]
theorem store_followed (state : State) (text : String) :
    (state.followed text).store = state.store :=
  rfl

@[simp]
theorem output_followed (state : State) (text : String) :
    (state.followed text).output = state.output ++ text :=
  rfl

@[simp]
theorem followed_empty (state : State) : state.followed "" = state := by
  simp [followed]

@[simp]
theorem followed_followed (state : State) (text more : String) :
    (state.followed text).followed more = state.followed (text ++ more) := by
  simp [followed, String.append_assoc]

@[simp]
theorem preceded_unprinted (state : State) : state.unprinted.preceded state.output = state := by
  simp [preceded, unprinted]

theorem followed_eq_preceded (state : State) (text : String) :
    state.followed text = state.unprinted.preceded (state.output ++ text) := by
  simp [preceded, followed, unprinted]

theorem followed_preceded (before text : String) (state : State) :
    (state.preceded before).followed text = (state.followed text).preceded before := by
  simp [preceded, followed, String.append_assoc]

end State

namespace Run

variable {α β : Type}

/-- What a run has come to, with a text printed before everything else. -/
def precededBy (before : String) :
    EStateM.Result Halt State α → EStateM.Result Halt State α
  | .ok value state => .ok value (state.preceded before)
  | .error halt state => .error halt (state.preceded before)

@[simp]
theorem precededBy_precededBy (before first : String) (result : EStateM.Result Halt State α) :
    precededBy first (precededBy before result) = precededBy (first ++ before) result := by
  cases result <;> simp [precededBy]

/-- A run does not depend on what has been printed before it, and only adds to it. -/
def Appends (run : Run α) : Prop :=
  ∀ before state, run (state.preceded before) = precededBy before (run state)

theorem appends_pure (value : α) : Appends (pure value) :=
  fun _ _ => rfl

theorem Appends.bind
    {run : Run α} {next : α → Run β} (h : Appends run) (h' : ∀ value, Appends (next value)) :
    Appends (run >>= next) := by
  intro before state
  have hfirst := h before state
  cases hran : run state with
  | error halt state' =>
    rw [hran] at hfirst
    rw [bind_of_error hran, bind_of_error hfirst]
    rfl
  | ok value state' =>
    rw [hran] at hfirst
    rw [bind_of_ok hran, bind_of_ok hfirst]
    exact h' value before state'

theorem appends_fail (cause : Cause) : Appends (fail cause : Run α) :=
  fun _ _ => rfl

theorem appends_lift (result : Except Cause α) : Appends (lift result) := by
  cases result with
  | ok value => exact appends_pure value
  | error cause => exact appends_fail cause

theorem write_of_state (text : String) (state : State) :
    write text state = .ok () (state.followed text) :=
  rfl

theorem write_empty : write "" = pure () := by
  funext state
  rw [write_of_state, State.followed_empty]
  rfl

theorem appends_write (text : String) : Appends (write text) := by
  intro before state
  rw [write_of_state, write_of_state, State.followed_preceded]
  rfl

theorem Appends.relocate {run : Run α} (h : Appends run) (offset : Nat) :
    Appends (relocate offset run) := by
  intro before state
  unfold Run.relocate
  rw [h before state]
  cases run state with
  | ok value state' => rfl
  | error halt state' => cases halt <;> rfl

theorem appends_render (value : Value) : Appends (render value) := by
  intro before state
  unfold render
  rw [get_bind_apply, get_bind_apply, State.store_preceded]
  cases state.store.render? value <;> rfl

theorem appends_entry (setting : Setting) (event : Event) : Appends (event.entry setting) := by
  cases event with
  | enter | defineFunction => exact appends_pure _
  | leave | define | condition | select =>
    exact (appends_render _).bind fun _ => appends_pure _
  | call callee args =>
    have htexts : Appends (args.mapM render) := by
      induction args with
      | nil => exact appends_pure []
      | cons arg args ih =>
        rw [List.mapM_cons]
        exact (appends_render arg).bind fun _ => ih.bind fun _ => appends_pure _
    exact htexts.bind fun _ => appends_pure _

theorem appends_record (setting : Setting) (level : Int) (offset : Nat) (event : Event) :
    Appends (record setting level offset (event.entry setting)) := by
  unfold record
  split
  · exact ((appends_entry setting event).relocate offset).bind fun _ _ _ => rfl
  · exact appends_pure _

theorem appends_readFile (setting : Setting) (path : String) :
    Appends (Native.readFile setting path) := by
  intro before state
  have hsame : setting.files.ask (state.preceded before).asked path
        (if 0 < setting.level then some (traceText (state.preceded before).trace) else none) =
      setting.files.ask state.asked path
        (if 0 < setting.level then some (traceText state.trace) else none) :=
    rfl
  unfold Native.readFile
  rw [get_bind_apply, get_bind_apply, set_bind_apply, set_bind_apply, hsame]
  generalize setting.files.ask state.asked path _ = reply
  split
  · rfl
  · cases reply.text <;> rfl

/-! ## Runs after something else has been printed -/

section

variable {run : Run α} {state state' : State}

theorem Appends.eq_precededBy (h : Appends run) (state : State) :
    run state = precededBy state.output (run state.unprinted) := by
  rw [← h, State.preceded_unprinted]

theorem Appends.followed_eq_precededBy (h : Appends run) (state : State) (text : String) :
    run (state.followed text) = precededBy (state.output ++ text) (run state.unprinted) := by
  rw [State.followed_eq_preceded, h]

/-- With a text printed before it, a run gives the same value and the same store. -/
theorem Appends.ok_of_followed
    {value : α} (h : Appends run) (hran : run state = .ok value state') (text : String) :
    ∃ added last, run (state.followed text) = .ok value last ∧ last.store = state'.store ∧
      last.output = state.output ++ text ++ added := by
  have hwhole := h.eq_precededBy state
  rw [hran] at hwhole
  cases hfresh : run state.unprinted with
  | error halt last =>
    rw [hfresh] at hwhole
    cases hwhole
  | ok found last =>
    rw [hfresh] at hwhole
    cases hwhole
    refine ⟨last.output, last.preceded (state.output ++ text), ?_, rfl, rfl⟩
    rw [h.followed_eq_precededBy, hfresh]
    rfl

theorem Appends.exists_ok_followed_iff
    {value : α} (h : Appends run) (state : State) (text : String) :
    (∃ last, run (state.followed text) = .ok value last) ↔ ∃ last, run state = .ok value last := by
  rw [h.followed_eq_precededBy, h.eq_precededBy state]
  cases run state.unprinted with
  | ok found last => simp [precededBy]
  | error halt last => simp [precededBy]

theorem Appends.error_of_followed
    {halt : Halt} (h : Appends run) (hran : run state = .error halt state') (text : String) :
    ∃ last, run (state.followed text) = .error halt last := by
  have hwhole := h.eq_precededBy state
  rw [hran] at hwhole
  cases hfresh : run state.unprinted with
  | ok found last =>
    rw [hfresh] at hwhole
    cases hwhole
  | error halt last =>
    rw [hfresh] at hwhole
    cases hwhole
    exact ⟨_, by rw [h.followed_eq_precededBy, hfresh]; rfl⟩

end

end Run

/-! ## Whole runs -/

/-- The accord of a run with itself after another text. -/
def Accord.printing (before : String) : Accord where
  offsets := Eq
  states state state' := state' = state.preceded before
  allowed _ _ := True
  reads _ _ := True
  defines _ _ := True

namespace Accord

variable {before : String} {store : Store}

theorem printing_values_iff {value value' : Value} :
    (printing before).values store value value' ↔ value' = value := by
  constructor
  · rintro ⟨hlike, _⟩
    exact hlike.eq
  · rintro rfl
    exact ⟨Value.like_self (fun _ => rfl) _, trivial⟩

theorem printing_bindings_iff {entry entry' : String × Value} :
    (printing before).bindings store entry entry' ↔ entry' = entry := by
  obtain ⟨name, value⟩ := entry
  obtain ⟨name', value'⟩ := entry'
  simp [Accord.bindings, Bindings.LikeEntry, printing_values_iff]

theorem forall₂_iff_of_eq
    {α : Type} {r : α → α → Prop} {xs ys : List α} (h : ∀ x y, r x y ↔ y = x) :
    List.Forall₂ r xs ys ↔ ys = xs := by
  have hsame : List.Forall₂ r xs ys ↔ ys = xs ∧ ∀ x ∈ xs, True :=
    Region.forall₂_iff_of_same fun x y => by rw [h x y, and_true]
  simpa using hsame

theorem printing_events_eq
    {event event' : Event} (h : (printing before).events store event event') :
    event' = event := by
  cases h with
  | enter | defineFunction => rfl
  | leave _ hvalues | define _ hvalues | condition hvalues =>
    rw [printing_values_iff.mp hvalues]
  | select hvalues hsameOffset =>
    rw [printing_values_iff.mp hvalues, show _ = _ from hsameOffset]
  | call hvalues hargs =>
    rw [printing_values_iff.mp hvalues, (forall₂_iff_of_eq fun _ _ => printing_values_iff).mp hargs]

theorem alike_printing
    {α : Type} {holds : α → Prop} {results : Store → α → α → Prop} {run : Run α}
    (happends : run.Appends) (hquiet : Run.Quiet holds run)
    (h : ∀ store value, results store value value) :
    (printing before).Alike results store run run := by
  rintro state _ - rfl
  have hends := hquiet state
  rw [happends before state]
  generalize run state = result at hends ⊢
  cases hends with
  | ok hsameStore =>
    refine .ok ?_ rfl (h _ _)
    rw [hsameStore]
    exact .refl _
  | error hsameStore =>
    refine .error ?_ rfl (Halt.like_self _)
    rw [hsameStore]
    exact .refl _

theorem printing_laws (before : String) (setting : Setting) :
    (printing before).Laws setting setting where
  limits := rfl
  allowed_mono _ _ := trivial
  reads_mono _ _ := trivial
  defines_mono _ _ := trivial
  plain _ := trivial
  closure _ := trivial
  scope_of_closure _ := trivial
  sizes := by
    rintro s _ rfl
    exact ⟨rfl, rfl, rfl⟩
  newScope := by
    rintro s _ parent rfl _
    exact ⟨rfl, trivial, trivial⟩
  define := by
    rintro s _ id name value value' rfl _ hvalues
    rw [printing_values_iff.mp hvalues]
    rfl
  assign := by
    rintro s _ id name value value' rfl _ hvalues
    rw [printing_values_iff.mp hvalues]
    rfl
  lookup := by
    rintro s _ id name rfl _
    rw [State.store_preceded]
    cases s.store.lookup? id name with
    | none => exact .none
    | some value => exact .some (printing_values_iff.mpr rfl)
  newArray := by
    rintro s _ items items' rfl hvalues
    rw [(forall₂_iff_of_eq fun _ _ => printing_values_iff).mp hvalues]
    exact ⟨rfl, trivial⟩
  newMap := by
    rintro s _ entries entries' rfl hvalues
    rw [(forall₂_iff_of_eq fun _ _ => printing_bindings_iff).mp hvalues]
    exact ⟨rfl, trivial⟩
  items := by
    rintro s _ id rfl _
    exact (forall₂_iff_of_eq fun _ _ => printing_values_iff).mpr rfl
  entries := by
    rintro s _ id rfl _
    exact (forall₂_iff_of_eq fun _ _ => printing_bindings_iff).mpr rfl
  setItem := by
    rintro s _ id index value value' rfl _ hvalues
    rw [printing_values_iff.mp hvalues]
    rfl
  setEntry := by
    rintro s _ id key value value' rfl _ hvalues
    rw [printing_values_iff.mp hvalues]
    rfl
  view := by
    rintro s _ value value' rfl hvalues
    rw [printing_values_iff.mp hvalues]
    rfl
  output := by
    rintro s _ text rfl
    exact State.followed_preceded before text s
  record := by
    rintro store event event' offset _ hevents rfl
    rw [printing_events_eq hevents]
    exact alike_printing (Run.appends_record setting _ _ event)
      (Run.quiet_record setting _ _ event) fun _ _ => trivial
  readFile path :=
    alike_printing (Run.appends_readFile setting path) (Run.quiet_readFile setting path)
      fun _ _ => printing_values_iff.mpr rfl

theorem printing_opens (before : String) (setting : Setting) :
    (printing before).Opens setting setting where
  sections name := by
    cases setting.sections.find? (·.name == name) with
    | none => exact .none
    | some part => exact .some (Section.like_self (fun _ => rfl) part)
  active := by
    rintro s _ rfl
    rfl
  mark := by
    rintro s _ active rfl
    rfl
  root _ := ⟨trivial, trivial⟩

theorem appends_of_alike
    {α : Type} {results : String → Store → α → α → Prop} {run : Run α}
    (halike : ∀ before store, (printing before).Alike (results before) store run run)
    (hsame : ∀ before store value value', results before store value value' → value' = value) :
    run.Appends := by
  intro before state
  have hends := halike before state.store state (state.preceded before) (.refl _) rfl
  generalize run state = result at hends ⊢
  generalize run (state.preceded before) = result' at hends ⊢
  cases hends with
  | ok _ hstates hvalues =>
    rw [hsame _ _ _ _ hvalues, hstates]
    rfl
  | error _ hstates hhalts =>
    rw [hhalts.eq, hstates]
    rfl

end Accord

theorem Run.appends_enterSection (setting : Setting) (depth : Nat) (name : String) :
    (Run.enterSection setting depth name).Appends := by
  have halike (before : String) (store : Store) :
      (Accord.printing before).Alike (Accord.printing before).values store
        (Run.enterSection setting depth name) (Run.enterSection setting depth name) :=
    (Accord.printing_laws before setting).alike_enterSection
      (Accord.printing_opens before setting) depth name
  exact Accord.appends_of_alike halike fun _ _ _ _ hvalues => Accord.printing_values_iff.mp hvalues

end PuzzleLang
