import PuzzleLang.Proofs.Run.Evaluation

/-!
# Sessions in accord

What evaluation hands out is tied back here.  Calls of functions that are alike are in accord to any
depth, if the evaluation of a section from inside a run is.  That it is can have two reasons: an
accord may leave the root scope open to runs, or it may keep sections from being entered at all.
-/

namespace PuzzleLang

/-- What evaluation is handed where calls may be nested `depth` deep. -/
abbrev Callees.within (setting : Setting) (depth : Nat) : Callees :=
  ⟨Run.callFunction setting depth, Run.enterSection setting depth⟩

theorem Value.Like.closure_inv
    {offsets : Nat → Nat → Prop} {closure closure' : Closure}
    (h : Value.Like offsets (.closure closure) (.closure closure')) :
    Function.Like offsets closure.function closure'.function ∧ closure'.scope = closure.scope := by
  cases h with
  | same hnotClosure => exact absurd rfl (hnotClosure closure)
  | closure hfunctions => exact ⟨hfunctions, rfl⟩

namespace Accord

variable {A : Accord} {setting setting' : Setting} {start : Store}

/-- The evaluation of a section by a function of the host is in accord, if that of its body is where
the root scope is open to runs. -/
def Enters (A : Accord) (setting setting' : Setting) : Prop :=
  ∀ {store : Store} {name target : String} {body body' : Section → Run Value},
    (∀ store part part', Section.Like A.offsets part part' → A.hosts store rootScope →
      A.Alike A.values store (body part) (body' part')) →
    A.allowed store (.native (.evaluate name target)) →
      A.Alike A.values store (Run.guardSection setting body target)
        (Run.guardSection setting' body' target)

/-- The root scope is open to runs, and sections may be entered. -/
structure Opens (A : Accord) (setting setting' : Setting) : Prop where
  sections (name : String) :
    Option.Rel (Section.Like A.offsets) (setting.sections.find? (·.name == name))
      (setting'.sections.find? (·.name == name))
  active {s s' : State} : A.states s s' → s'.active = s.active
  mark {s s' : State} (active : Option String) :
    A.states s s' → A.states { s with active } { s' with active }
  root {s s' : State} : A.states s s' → A.hosts s.store rootScope

theorem rel_find?
    {offsets : Nat → Nat → Prop} {sections sections' : List Section}
    (h : List.Forall₂ (Section.Like offsets) sections sections') (name : String) :
    Option.Rel (Section.Like offsets) (sections.find? (·.name == name))
      (sections'.find? (·.name == name)) := by
  induction h with
  | nil => exact .none
  | cons hlike _ ih =>
    rw [List.find?_cons, List.find?_cons, ← hlike.name]
    split
    · exact .some hlike
    · exact ih

theorem Opens.alike_thenIdle
    {α α' : Type} {results : Store → α → α' → Prop} {run : Run α} {run' : Run α'}
    (hopens : A.Opens setting setting') (h : A.Alike results start run run') :
    A.Alike results start (Run.thenIdle run) (Run.thenIdle run') := by
  intro state state' hgrows hstates
  have hends := h state state' hgrows hstates
  unfold Run.thenIdle
  generalize run state = result at hends ⊢
  generalize run' state' = result' at hends ⊢
  cases hends with
  | ok hmore hstates hvalues => exact .ok hmore (hopens.mark none hstates) hvalues
  | error hmore hstates hhalts => exact .error hmore (hopens.mark none hstates) hhalts

namespace Laws

variable (hlaws : A.Laws setting setting')

include hlaws

/-! ## Bodies -/

theorem alike_resultOf {flow flow' : Flow} (hflows : A.flows start flow flow') :
    A.Alike A.values start (Run.resultOf flow) (Run.resultOf flow') := by
  cases hflows with
  | next => exact hlaws.alike_plain .nil
  | returned hvalues => exact alike_pure fun _ hgrows => hlaws.values_mono hgrows hvalues
  | broke hcorrespond => exact alike_failAt hcorrespond _
  | continued hcorrespond => exact alike_failAt hcorrespond _

theorem alike_callBody
    {callees callees' : Callees} {offset offset' : Nat} {closure closure' : Closure}
    {args args' : List Value}
    (hcalled : Callees.Alike A callees callees') (hcorrespond : A.offsets offset offset')
    (hclosures : A.values start (.closure closure) (.closure closure'))
    (hvalues : List.Forall₂ (A.values start) args args') :
    A.Alike A.values start (Run.callBody setting callees offset closure args)
      (Run.callBody setting' callees' offset' closure' args') := by
  obtain ⟨⟨o, name, params, body⟩, scope⟩ := closure
  obtain ⟨⟨o', name', params', body'⟩, scope'⟩ := closure'
  obtain ⟨hfunctions, hsameScope⟩ := hclosures.1.closure_inv
  obtain rfl : scope' = scope := hsameScope
  cases hfunctions with | mk _ hbodies
  unfold Run.callBody
  simp only [← hvalues.length_eq]
  split
  · refine hlaws.alike_newScope_bind (hlaws.scope_of_closure hclosures.2)
      fun _ _ hgrows hhosts => ?_
    have hbound := Bindings.like_zip (hlaws.values_mono_all hgrows hvalues) params
    refine (hlaws.alike_defineAll hhosts.2 hbound).bind fun _ _ _ hmore _ => ?_
    refine (alike_executeBody hlaws hcalled hbodies (hlaws.hosts_mono hmore hhosts)).bind
      fun _ _ _ _ hflows => ?_
    exact hlaws.alike_resultOf hflows
  · exact alike_failAt hcorrespond _

theorem alike_evaluateBody
    {callees callees' : Callees} {part part' : Section}
    (hcalled : Callees.Alike A callees callees') (hlike : Section.Like A.offsets part part')
    (hhosts : A.hosts start rootScope) :
    A.Alike A.values start (Run.evaluateBody setting callees part)
      (Run.evaluateBody setting' callees' part') := by
  obtain ⟨o, name, body⟩ := part
  obtain ⟨o', name', body'⟩ := part'
  cases hlike.body with
  | expr hlikes => exact alike_evaluate hlaws hcalled hlikes hhosts
  | block hlikes =>
    exact (alike_executeBlock hlaws hcalled hlikes hhosts.1).bind fun _ _ _ _ hflows =>
      hlaws.alike_resultOf hflows

/-! ## Calls -/

theorem alike_callees (henters : A.Enters setting setting') (depth : Nat) :
    Callees.Alike A (.within setting depth) (.within setting' depth) := by
  induction depth with
  | zero =>
    refine ⟨fun hcorrespond _ _ => ?_, fun hallowed => ?_⟩
    · exact alike_failAt hcorrespond _
    · exact henters (fun _ _ _ hlike _ => alike_failAt hlike.offset _) hallowed
  | succ depth ih =>
    refine ⟨fun hcorrespond hclosures hvalues => ?_, fun hallowed => ?_⟩
    · exact hlaws.alike_callBody ih hcorrespond hclosures hvalues
    · exact henters (fun _ _ _ hlike hhosts => hlaws.alike_evaluateBody ih hlike hhosts) hallowed

/-! ## Sections -/

theorem alike_guardSection
    {body body' : Section → Run Value}
    (hopens : A.Opens setting setting')
    (hbodies : ∀ store part part', Section.Like A.offsets part part' → A.hosts store rootScope →
      A.Alike A.values store (body part) (body' part'))
    (name : String) :
    A.Alike A.values start (Run.guardSection setting body name)
      (Run.guardSection setting' body' name) := by
  unfold Run.guardSection
  have hfound := hopens.sections name
  generalize setting.sections.find? (·.name == name) = part at hfound ⊢
  generalize setting'.sections.find? (·.name == name) = part' at hfound ⊢
  cases hfound with
  | none => exact alike_fail _
  | @some part part' hlike =>
    refine alike_get_bind fun state state' _ hstates => ?_
    rw [hopens.active hstates]
    cases state.active with
    | some running => exact alike_fail _
    | none =>
      have hmarked : A.Alike done state.store
          (modify fun state => { state with active := some name })
          (modify fun state => { state with active := some name }) :=
        alike_modify (fun _ => .refl _) fun _ _ _ hstates => hopens.mark _ hstates
      refine hmarked.bind fun _ _ _ _ _ => ?_
      refine (hlaws.record (.enter name) hlike.offset).bind fun store _ _ _ _ => ?_
      have hhosted : A.Alike A.values store (body part) (body' part') := fun s s' _ hstates =>
        hbodies s.store part part' hlike (hopens.root hstates) s s' (.refl _) hstates
      refine (hopens.alike_thenIdle hhosted).bind fun _ _ _ _ hvalues => ?_
      refine (hlaws.record (.leave name hvalues) hlike.offset).bind fun _ _ _ hmore _ => ?_
      exact alike_pure fun _ hlater => hlaws.values_mono (hmore.trans hlater) hvalues

theorem enters_of_opens (hopens : A.Opens setting setting') : A.Enters setting setting' :=
  fun hbodies _ => hlaws.alike_guardSection hopens hbodies _

theorem alike_enterSection (hopens : A.Opens setting setting') (depth : Nat) (name : String) :
    A.Alike A.values start (Run.enterSection setting depth name)
      (Run.enterSection setting' depth name) := by
  cases depth with
  | zero =>
    exact hlaws.alike_guardSection hopens (fun _ _ _ hlike _ => alike_failAt hlike.offset _) name
  | succ depth =>
    have hcalled := hlaws.alike_callees (hlaws.enters_of_opens hopens) depth
    exact hlaws.alike_guardSection hopens
      (fun _ _ _ hlike hhosts => hlaws.alike_evaluateBody hcalled hlike hhosts) name

/-! ## Loading and input -/

theorem alike_loadItems
    {items items' : List Item}
    (hlikes : List.Forall₂ (Item.Like A.offsets) items items') (hhosts : A.hosts start rootScope)
    (seen : List String) :
    A.Alike done start (Run.loadItems setting seen items)
      (Run.loadItems setting' seen items') := by
  induction hlikes generalizing start seen with
  | nil => exact alike_pure fun _ _ => trivial
  | cons hfirst _ ih =>
    cases hfirst with
    | labelled hlike =>
      rw [Run.loadItems, Run.loadItems, ← hlike.name]
      split
      · exact alike_failAt hlike.offset _
      · exact ih hhosts _
    | function hlike =>
      refine (hlaws.alike_makeFunction hlike hhosts).bind fun _ _ _ hgrows _ => ?_
      exact ih (hlaws.hosts_mono hgrows hhosts) seen

theorem alike_readInput (hhosts : A.hosts start rootScope) (text : String) :
    A.Alike done start (Run.readInput text) (Run.readInput text) := by
  have hlines : List.Forall₂ (A.values start) ((Run.inputLines text).map .string)
      ((Run.inputLines text).map .string) :=
    hlaws.values_all_plain fun value hmem => by
      obtain ⟨line, -, rfl⟩ := List.mem_map.mp hmem
      exact .string line
  refine (hlaws.alike_define hhosts.2 (hlaws.values_plain (.string text)) _).bind
    fun _ _ _ hgrows _ => ?_
  refine (hlaws.alike_newArray (hlaws.values_mono_all hgrows hlines)).bind
    fun _ _ _ hmore hvalues => ?_
  exact hlaws.alike_define (hlaws.defines_mono (hgrows.trans hmore) hhosts.2) hvalues _

end Laws

end Accord

end PuzzleLang
