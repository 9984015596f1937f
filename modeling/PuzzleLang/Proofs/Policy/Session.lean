import PuzzleLang.Proofs.Policy.Evaluation
import PuzzleLang.Proofs.Session.Layout

/-!
# Sessions under a policy

The knot of evaluation is tied by induction on the depth of calls.  A session in which nothing but
the script and its inputs makes values then keeps to a policy from one call of its host to the next,
and the evaluation of a section that the script has halts only as the policy allows.
-/

namespace PuzzleLang

/-- The session after a host has made calls, one after the other. -/
def Session.after (session : Session) : List Request → Session
  | [] => session
  | request :: requests => (session.handle request).2.after requests

/-! ## The active section -/

namespace Run

variable {α β : Type}

/-- A run leaves the mark of the section that is being evaluated as it is. -/
def KeepsActive (run : Run α) : Prop :=
  ∀ state, (run.final state).active = state.active

theorem keepsActive_pure (value : α) : KeepsActive (pure value) := by
  intro state
  rfl

theorem Quiet.keepsActive {results : α → Prop} {run : Run α} (h : Quiet results run) :
    KeepsActive run := by
  intro state
  have hleaves := h state
  unfold final
  generalize run state = result at hleaves ⊢
  cases hleaves with
  | ok _ hsame => exact hsame
  | error _ hsame => exact hsame

theorem final_bind (run : Run α) (next : α → Run β) (state : State) :
    (run >>= next).final state = run.final state ∨
      ∃ value, (run >>= next).final state = (next value).final (run.final state) := by
  unfold final
  cases hran : run state with
  | ok value middle =>
    rw [bind_of_ok hran]
    exact .inr ⟨value, rfl⟩
  | error halt middle =>
    rw [bind_of_error hran]
    exact .inl rfl

theorem KeepsActive.bind
    {run : Run α} {next : α → Run β}
    (h : KeepsActive run) (h' : ∀ value, KeepsActive (next value)) :
    KeepsActive (run >>= next) := by
  intro state
  rcases final_bind run next state with hsame | ⟨value, hsame⟩
  · rw [hsame, h]
  · rw [hsame, h', h]

theorem keepsActive_makeFunction (setting : Setting) (f : Function) (scope : ScopeId) :
    KeepsActive (makeFunction setting f scope) := by
  unfold makeFunction
  cases f.name with
  | none => exact keepsActive_pure _
  | some name =>
    have hdefines (value : Value) : KeepsActive (define scope name value) := fun _ => rfl
    apply (hdefines _).bind
    intro _
    apply (quiet_record setting 2 f.offset (.defineFunction name f.params)).keepsActive.bind
    intro _
    exact keepsActive_pure _

theorem keepsActive_loadItems (setting : Setting) (seen : List String) (items : List Item) :
    KeepsActive (loadItems setting seen items) := by
  induction items generalizing seen with
  | nil => exact keepsActive_pure _
  | cons item items ih =>
    cases item with
    | labelled part =>
      rw [loadItems]
      split
      · intro state
        rfl
      · exact ih (part.name :: seen)
    | function f =>
      apply (keepsActive_makeFunction setting f rootScope).bind
      intro _
      exact ih seen

theorem keepsActive_readInput (text : String) : KeepsActive (readInput text) := by
  intro state
  rfl

theorem active_final_thenIdle (run : Run α) (state : State) :
    ((thenIdle run).final state).active = none := by
  unfold final thenIdle
  cases run state <;> rfl

theorem active_final_leaveSection
    (setting : Setting) (body : Section → Run Value) (part : Section) (name : String)
    (state : State) :
    ((leaveSection setting body part name).final state).active = none := by
  have hleave (value : Value) : KeepsActive (do
      record setting 1 part.offset (return .leave name (← render value))
      return value) := by
    apply (quiet_record setting 1 part.offset (.leave name value)).keepsActive.bind
    intro _
    exact keepsActive_pure value
  unfold leaveSection
  rcases final_bind (thenIdle (body part)) _ state with hsame | ⟨value, hsame⟩
  · rw [hsame, active_final_thenIdle]
  · rw [hsame, hleave value, active_final_thenIdle]

theorem active_final_guardSection
    {state : State}
    (hidle : state.active = none) (setting : Setting) (body : Section → Run Value) (name : String) :
    ((guardSection setting body name).final state).active = none := by
  cases hfound : setting.sections.find? (·.name == name) with
  | none => rw [final, guardSection_of_unknown hfound, hidle]
  | some part =>
    obtain ⟨trace, hsame⟩ := guardSection_of_idle hfound hidle body
    rw [final, hsame]
    exact active_final_leaveSection setting body part name _

theorem active_final_enterSection
    {state : State}
    (hidle : state.active = none) (setting : Setting) (depth : Nat) (name : String) :
    ((enterSection setting depth name).final state).active = none := by
  cases depth with
  | zero => exact active_final_guardSection hidle setting _ name
  | succ depth => exact active_final_guardSection hidle setting _ name

theorem enterSection_of_unknown
    {setting : Setting} {name : String}
    (hunknown : setting.sections.find? (·.name == name) = none) (depth : Nat) (state : State) :
    enterSection setting depth name state = .error (.fault ⟨.noSection name, none⟩) state := by
  cases depth with
  | zero => exact guardSection_of_unknown hunknown _ state
  | succ depth => exact guardSection_of_unknown hunknown _ state

end Run

theorem Session.exists_of_hasSection
    {session : Session} {name : String} (h : session.hasSection name = true) :
    ∃ part, session.setting.sections.find? (·.name == name) = some part := by
  rw [← Option.isSome_iff_exists, List.find?_isSome, ← List.any_eq_true]
  exact h

namespace Policy

variable {P : Policy} {setting : Setting} {callees : Callees}

/-! ## Bodies of functions and sections -/

theorem meets_resultOf
    {node : Node} {body : Block} {flow : Flow}
    (hlaws : P.Laws setting) (hadmits : P.admits node) (hbody : node.body? = some body)
    (hfits : P.FlowFits flow) (hcomes : flow.ComesFrom (.statement (.block body))) :
    P.Meets P.halts P.Fits (Run.resultOf flow) := by
  cases flow with
  | next => exact meets_pure .nil
  | returned value => exact meets_pure (hfits value rfl)
  | broke offset => exact meets_throw (hlaws.stray hadmits hbody (hcomes _ rfl) rfl)
  | continued offset => exact meets_throw (hlaws.stray hadmits hbody (hcomes _ rfl) rfl)

theorem meets_callBody
    {offset : Nat} {closure : Closure} {args : List Value}
    (hlaws : P.Laws setting) (hwelcomes : P.Welcomes callees) (hblames : P.Blames offset)
    (hfits : P.Fits (.closure closure)) (hfitsAll : ∀ arg ∈ args, P.Fits arg) :
    P.Meets P.halts P.Fits (Run.callBody setting callees offset closure args) := by
  cases hfits with | @closure f scope hadmits
  by_cases harity : args.length = f.params.length
  · rw [Run.callBody_eq harity]
    have hbound : ∀ pair ∈ f.params.zip args, P.Fits pair.2 := by
      intro pair hmem
      exact hfitsAll pair.2 (List.of_mem_zip hmem).2
    have hruns : P.Meets P.halts P.FlowFits (Run.bodyFlow setting callees ⟨f, scope⟩ args) := by
      apply (meets_newScope scope).bind
      intro inner _
      apply (meets_defineAll hbound inner).bind
      intro _ _
      exact meets_executeBody hlaws hwelcomes f.body inner (hadmits.child List.mem_cons_self)
    apply (hruns.also (comesFrom_bodyFlow setting callees ⟨f, scope⟩ args)).bind
    intro flow ⟨hfits, hcomes⟩
    exact meets_resultOf hlaws hadmits.self rfl hfits hcomes
  · rw [Run.callBody_of_misfit harity]
    exact meets_failAt hblames ⟨rfl, nofun, nofun⟩

theorem welcomes_within (hlaws : P.Laws setting) (depth : Nat) :
    P.Welcomes (.within setting depth) := by
  induction depth with
  | zero =>
    intro offset closure args hblames _ _
    exact meets_failAt hblames ⟨rfl, nofun, nofun⟩
  | succ depth ih =>
    intro offset closure args hblames hfits hfitsAll
    exact meets_callBody hlaws ih hblames hfits hfitsAll

theorem meets_evaluateBody
    {part : Section}
    (hlaws : P.Laws setting) (hwelcomes : P.Welcomes callees) (hadmits : P.Admits (.part part)) :
    P.Meets P.halts P.Fits (Run.evaluateBody setting callees part) := by
  obtain ⟨offset, name, body⟩ := part
  have hadmitsBody : P.Admits body.node := hadmits.child List.mem_cons_self
  cases body with
  | expr e => exact meets_evaluate hlaws hwelcomes e rootScope hadmitsBody
  | block block =>
    have hruns := meets_executeBlock hlaws hwelcomes block rootScope hadmitsBody
    apply (hruns.also (comesFrom_executeBlock setting callees block rootScope)).bind
    intro flow ⟨hfits, hcomes⟩
    exact meets_resultOf hlaws hadmits.self rfl hfits hcomes

/-! ## Sections -/

theorem Meets.thenIdle
    {α : Type} {halts : Halt → Prop} {results : α → Prop} {run : Run α}
    (h : P.Meets halts results run) :
    P.Meets halts results (Run.thenIdle run) := by
  intro state hholds
  have hends := h state hholds
  unfold Run.thenIdle
  generalize run state = result at hends ⊢
  cases hends with
  | ok hholds hgiven => exact .ok hholds hgiven
  | error hholds hhalted => exact .error hholds hhalted

theorem meets_leaveSection
    {body : Section → Run Value} {part : Section}
    (hblames : P.Blames part.offset) (h : P.Meets P.halts P.Fits (body part)) (name : String) :
    P.Meets P.halts P.Fits (Run.leaveSection setting body part name) := by
  apply h.thenIdle.bind
  intro value hfits
  apply (meets_record hblames 1 (.leave name value)).bind
  intro _ _
  exact meets_pure hfits

theorem ends_guardSection
    {body : Section → Run Value} {name : String} {part : Section} {state : State}
    (hfound : setting.sections.find? (·.name == name) = some part) (hidle : state.active = none)
    (hholds : state.store.Every P.Fits) (hblames : P.Blames part.offset)
    (h : P.Meets P.halts P.Fits (body part)) :
    P.Ends P.halts P.Fits (Run.guardSection setting body name state) := by
  obtain ⟨trace, hsame⟩ := Run.guardSection_of_idle hfound hidle body
  rw [hsame]
  exact meets_leaveSection hblames h name _ hholds

theorem ends_enterSection
    {name : String} {part : Section} {state : State}
    (hlaws : P.Laws setting) (hfound : setting.sections.find? (·.name == name) = some part)
    (hadmits : P.Admits (.part part)) (hidle : state.active = none)
    (hholds : state.store.Every P.Fits) (depth : Nat) :
    P.Ends P.halts P.Fits (Run.enterSection setting depth name state) := by
  have hblames : P.Blames part.offset := hlaws.blames hadmits.self
  cases depth with
  | zero =>
    apply ends_guardSection hfound hidle hholds hblames
    exact meets_failAt hblames ⟨rfl, nofun, nofun⟩
  | succ depth =>
    apply ends_guardSection hfound hidle hholds hblames
    exact meets_evaluateBody hlaws (welcomes_within hlaws depth) hadmits

/-! ## Loading and inputs -/

theorem ordinary_duplicateSection (name : String) : (Cause.duplicateSection name).Ordinary :=
  ⟨rfl, nofun, nofun⟩

theorem meets_loadItems
    {items : List Item}
    (hlaws : P.Laws setting) (hadmits : ∀ item ∈ items, P.Admits item.node) (seen : List String) :
    P.Meets P.halts (fun _ => True) (Run.loadItems setting seen items) := by
  induction items generalizing seen with
  | nil => exact meets_pure trivial
  | cons item items ih =>
    obtain ⟨hfirst, hmore⟩ := List.forall_mem_cons.mp hadmits
    cases item with
    | labelled part =>
      rw [Run.loadItems]
      split
      · exact meets_failAt (hlaws.blames hfirst.self) (ordinary_duplicateSection part.name)
      · exact ih hmore (part.name :: seen)
    | function f =>
      apply (meets_makeFunction hlaws hfirst rootScope).bind
      intro _ _
      exact ih hmore seen

theorem meets_readInput (text : String) : P.Meets P.halts (fun _ => True) (Run.readInput text) := by
  apply (meets_define (.string text) rootScope "input").bind
  intro _ _
  have hlines : ∀ value ∈ (Run.inputLines text).map Value.string, P.Fits value := by
    intro value hmem
    obtain ⟨line, -, rfl⟩ := List.mem_map.mp hmem
    exact .string line
  apply (meets_newArray hlines).bind
  intro lines hfits
  exact meets_define hfits rootScope "lines"

theorem every_initial : Store.initial.Every P.Fits := by
  intro place cell value hfound hheld
  obtain ⟨native, hstandard, rfl⟩ := (Store.at?_initial hfound).2.2 value hheld
  exact .native hstandard

/-! ## Sessions -/

theorem Ends.final
    {α : Type} {halts : Halt → Prop} {results : α → Prop} {run : Run α} {state : State}
    (h : P.Ends halts results (run state)) :
    (run.final state).store.Every P.Fits := by
  unfold Run.final
  generalize run state = result at h ⊢
  cases h with
  | ok hholds => exact hholds
  | error hholds => exact hholds

/-- A session keeps to a policy, and no section of it is being evaluated. -/
structure Serves (P : Policy) (session : Session) : Prop where
  laws : P.Laws session.setting
  admits {part : Section} : part ∈ session.setting.sections → P.Admits (.part part)
  holds : session.state.store.Every P.Fits
  idle : session.state.active = none

namespace Serves

variable {session : Session}

theorem perform
    {α : Type} {run : Run α}
    (h : P.Serves session) (hholds : (run.final session.state).store.Every P.Fits)
    (hidle : (run.final session.state).active = none) :
    P.Serves (session.perform run).2 := by
  constructor
  · rw [Session.setting_perform]
    exact h.laws
  · rw [Session.setting_perform]
    exact h.admits
  · rw [Session.state_perform]
    exact hholds
  · rw [Session.state_perform]
    exact hidle

theorem ends_evaluate
    {name : String} {part : Section}
    (h : P.Serves session) (hfound : session.setting.sections.find? (·.name == name) = some part) :
    P.Ends P.halts P.Fits
      (Run.enterSection session.setting session.setting.limits.calls name session.state) :=
  ends_enterSection h.laws hfound (h.admits (List.mem_of_find?_eq_some hfound)) h.idle h.holds _

theorem handle (h : P.Serves session) (request : Request) :
    P.Serves (session.handle request).2 := by
  cases request with
  | readInput text =>
    change P.Serves (session.perform (Run.readInput text)).2
    apply h.perform
    · exact (meets_readInput text session.state h.holds).final
    · rw [Run.keepsActive_readInput]
      exact h.idle
  | evaluate name =>
    apply h.perform
    · cases hfound : session.setting.sections.find? (·.name == name) with
      | some part => exact (h.ends_evaluate hfound).final
      | none =>
        rw [Run.final, Run.enterSection_of_unknown hfound]
        exact h.holds
    · exact Run.active_final_enterSection h.idle session.setting _ name

theorem after (h : P.Serves session) (requests : List Request) :
    P.Serves (session.after requests) := by
  induction requests generalizing session with
  | nil => exact h
  | cons request requests ih => exact ih (h.handle request)

/-- The evaluation of a section that the script has halts only as the policy allows. -/
theorem halts_of_evaluate
    {name : String} {halt : Halt}
    (h : P.Serves session) (hhasSection : session.hasSection name = true)
    (houtcome : (session.evaluate name).1 = .error halt) :
    P.halts halt := by
  obtain ⟨part, hfound⟩ := Session.exists_of_hasSection hhasSection
  have hends := h.ends_evaluate hfound
  unfold Session.evaluate Session.perform at houtcome
  generalize Run.enterSection _ _ _ _ = result at hends houtcome
  cases hends with
  | ok => cases houtcome
  | error _ hhalted =>
    cases houtcome
    exact hhalted

/-- Whatever is evaluated, it halts as the policy allows, or there is no such section. -/
theorem halts_or_unknown
    {name : String} {halt : Halt}
    (h : P.Serves session) (houtcome : (session.evaluate name).1 = .error halt) :
    P.halts halt ∨ halt = .fault ⟨.noSection name, none⟩ := by
  by_cases hhasSection : session.hasSection name = true
  · exact .inl (h.halts_of_evaluate hhasSection houtcome)
  · right
    have hunknown : session.setting.sections.find? (·.name == name) = none := by
      rw [← Option.not_isSome_iff_eq_none, List.find?_isSome, ← List.any_eq_true]
      exact hhasSection
    unfold Session.evaluate Session.perform at houtcome
    rw [Run.enterSection_of_unknown hunknown] at houtcome
    cases houtcome
    rfl

end Serves

theorem serves_load
    {program : Program} {level : Int} {files : Files} {limits : Limits}
    (hlaws : P.Laws (Setting.ofProgram program level files limits))
    (hadmits : ∀ node, program.Contains node → P.admits node) :
    P.Serves (Session.load program level files limits).2 := by
  have hadmitsAll {node : Node} (hcontains : program.Contains node) : P.Admits node := by
    intro inner hinside
    exact hadmits inner (hcontains.trans hinside)
  have hbefore : P.Serves ⟨Setting.ofProgram program level files limits, .initial⟩ :=
    ⟨hlaws, fun hpart => hadmitsAll (Program.contains_part hpart), every_initial, rfl⟩
  have hitems : ∀ item ∈ program.items, P.Admits item.node := by
    intro item hitem
    exact hadmitsAll (Program.contains_item hitem)
  apply hbefore.perform
  · exact (meets_loadItems hlaws hitems [] State.initial every_initial).final
  · rw [Run.keepsActive_loadItems]
    rfl

end Policy

end PuzzleLang
