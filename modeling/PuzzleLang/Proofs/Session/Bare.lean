import PuzzleLang.Proofs.Run.Bare

/-!
# Scripts that have been read make sense

A script can be loaded and its sections can be evaluated by way of its bare trees.  Then nothing
says beforehand that only expressions are evaluated and only statements executed, that assignments
have a target and that the signs between two parts are operators.  For a script that has been read
all this holds.  Its bare trees are well shaped, and whatever is done where a bare tree makes no
sense, a session goes on as if nothing were: these cases never come up.
-/

namespace PuzzleLang

namespace Bare

open Run

variable (defences : Defences) (tokenAt : Nat → Token) (setting : Setting)

/-- Executes the body of a function with its parameters bound to the arguments. -/
def callBody (callees : Callees) (offset : Nat) (closure : Closure) (args : List Value) :
    Run Value := do
  let f := closure.function
  if args.length = f.params.length then
    let scope ← newScope closure.scope
    defineAll scope (f.params.zip args)
    resultOf (← executeBody defences setting callees (f.body.bare tokenAt) scope)
  else failAt offset (.functionArity f.displayName f.params.length args.length)

/-- Evaluates the body of a section: a block in a scope of its own, any other node in the root
scope. -/
def evaluateBody (callees : Callees) : Bare → Run Value
  | .block inner => do resultOf (← executeBlock defences setting callees inner rootScope)
  | node => node.evaluate defences setting callees rootScope

mutual

/-- Calls a function of the script, where calls may be nested `depth` deep. -/
def callFunction : (depth : Nat) → (offset : Nat) → Closure → (args : List Value) → Run Value
  | 0, offset, _, _ => failAt offset .recursionLimit
  | depth + 1, offset, closure, args =>
    callBody defences tokenAt setting ⟨callFunction depth, enterSection depth⟩ offset closure args

/-- Evaluates a section by its name, where calls may be nested `depth` deep. -/
def enterSection : (depth : Nat) → (name : String) → Run Value
  | 0, name => guardSection setting (fun part => failAt part.offset .recursionLimit) name
  | depth + 1, name =>
    guardSection setting (fun part =>
      evaluateBody defences setting ⟨callFunction depth, enterSection depth⟩
        (part.body.bare tokenAt)) name

end

/-- What evaluation is handed where calls may be nested `depth` deep. -/
abbrev callees (depth : Nat) : Callees :=
  ⟨callFunction defences tokenAt setting depth, enterSection defences tokenAt setting depth⟩

/-- Loads nodes, where `seen` are the names of the sections before them: what is no section is
executed in the root scope. -/
def loadNodes (seen : List String) : List Bare → Run Unit
  | [] => return ()
  | .part token name _ :: nodes =>
    if seen.contains name then failAt token.offset (.duplicateSection name)
    else loadNodes (name :: seen) nodes
  | node :: nodes => do
    let _ ← node.execute defences setting (callees defences tokenAt setting setting.limits.calls)
      rootScope
    loadNodes seen nodes

/-- Loads a script by way of its bare trees. -/
def load (program : Program) (level : Int) (files : Files) (limits : Limits) :
    Except Halt Unit × Session :=
  let setting := Setting.ofProgram program level files limits
  Session.perform ⟨setting, .initial⟩
    (loadNodes defences tokenAt setting [] (program.bare tokenAt))

/-- Evaluates a section by way of its bare tree. -/
def evaluateSection (session : Session) (name : String) : Except Halt Value × Session :=
  session.perform (enterSection defences tokenAt session.setting session.setting.limits.calls name)

end Bare

/-! ## Calls and sections -/

namespace Policy

variable {P : Policy} {tokenAt : Nat → Token} {defences : Defences} {setting : Setting}
  {callees callees' : Callees}

theorem same_callBody
    {closure : Closure} {args : List Value}
    (hmirrors : P.Mirrors tokenAt setting callees callees') (hfits : P.Fits (.closure closure))
    (hfitsAll : ∀ arg ∈ args, P.Fits arg) (offset : Nat) :
    P.Same (Run.callBody setting callees offset closure args)
      (Bare.callBody defences tokenAt setting callees' offset closure args) := by
  cases hfits with | @closure f scope hadmits
  have hadmitsBody := hadmits.child List.mem_cons_self
  have hbound : ∀ pair ∈ f.params.zip args, P.Fits pair.2 := by
    intro pair hmem
    exact hfitsAll pair.2 (List.of_mem_zip hmem).2
  unfold Run.callBody Bare.callBody
  dsimp only
  split
  · refine (Same.refl _).bind (meets_newScope scope) fun inner _ => ?_
    refine (Same.refl _).bind (meets_defineAll hbound inner) fun _ _ => ?_
    exact (same_executeBody hmirrors f.body inner hadmitsBody).bind
      (meets_executeBody hmirrors.laws hmirrors.welcomes f.body inner hadmitsBody)
      fun _ _ => .refl _
  · exact .refl _

theorem mirrors_within
    (hlaws : P.Laws setting) (hspells : ∀ node, P.admits node → node.SpelledBy tokenAt)
    (defences : Defences) (depth : Nat) :
    P.Mirrors tokenAt setting (.within setting depth)
      (Bare.callees defences tokenAt setting depth) := by
  refine ⟨fun {node} => hspells node, hlaws, welcomes_within hlaws depth, ?_⟩
  induction depth with
  | zero =>
    intro offset closure args _ _
    exact .refl _
  | succ depth ih =>
    intro offset closure args hfits hfitsAll
    have hmirrors : P.Mirrors tokenAt setting (.within setting depth)
        (Bare.callees defences tokenAt setting depth) :=
      ⟨fun {node} => hspells node, hlaws, welcomes_within hlaws depth, ih⟩
    exact same_callBody hmirrors hfits hfitsAll offset

theorem same_evaluateBody
    {part : Section}
    (hmirrors : P.Mirrors tokenAt setting callees callees') (hadmits : P.Admits (.part part)) :
    P.Same (Run.evaluateBody setting callees part)
      (Bare.evaluateBody defences setting callees' (part.body.bare tokenAt)) := by
  obtain ⟨offset, name, body⟩ := part
  have hadmitsBody : P.Admits body.node := hadmits.child List.mem_cons_self
  cases body with
  | block block =>
    exact (same_executeBlock hmirrors block rootScope hadmitsBody).bind
      (meets_executeBlock hmirrors.laws hmirrors.welcomes block rootScope hadmitsBody)
      fun _ _ => .refl _
  | expr e =>
    have hevaluated : P.Same (evaluate setting callees e rootScope)
        ((e.bare tokenAt).evaluate defences setting callees' rootScope) :=
      same_evaluate hmirrors e rootScope hadmitsBody
    cases e with
    | function f =>
      obtain ⟨_, _, _, _⟩ := f
      exact hevaluated
    | _ => exact hevaluated

theorem Same.thenIdle {α : Type} {run run' : Run α} (hsame : P.Same run run') :
    P.Same (Run.thenIdle run) (Run.thenIdle run') := by
  intro state hholds
  rw [Run.thenIdle, Run.thenIdle, hsame state hholds]

theorem same_guardSection
    {body body' : Section → Run Value}
    (hlaws : P.Laws setting) (hadmits : ∀ part ∈ setting.sections, P.Admits (.part part))
    (hsame : ∀ part ∈ setting.sections, P.Same (body part) (body' part))
    (hmeets : ∀ part ∈ setting.sections, P.Meets P.halts P.Fits (body part)) (name : String) :
    P.Same (Run.guardSection setting body name) (Run.guardSection setting body' name) := by
  unfold Run.guardSection
  cases hfound : setting.sections.find? (·.name == name) with
  | none => exact .refl _
  | some part =>
    have hpart : part ∈ setting.sections := List.mem_of_find?_eq_some hfound
    have hblames := hlaws.blames (hadmits part hpart).self
    refine same_get_bind fun state _ => ?_
    cases state.active with
    | some running => exact .refl _
    | none =>
      refine (Same.refl _).bind (meets_modify fun _ hholds => hholds) fun _ _ => ?_
      refine (Same.refl _).bind (meets_record hblames 1 (.enter name)) fun _ _ => ?_
      exact (hsame part hpart).thenIdle.bind (hmeets part hpart).thenIdle fun _ _ => .refl _

theorem same_enterSection
    (hlaws : P.Laws setting) (hspells : ∀ node, P.admits node → node.SpelledBy tokenAt)
    (hadmits : ∀ part ∈ setting.sections, P.Admits (.part part)) (defences : Defences) (depth : Nat)
    (name : String) :
    P.Same (Run.enterSection setting depth name)
      (Bare.enterSection defences tokenAt setting depth name) := by
  cases depth with
  | zero => exact .refl _
  | succ depth =>
    have hmirrors := mirrors_within hlaws hspells defences depth
    refine same_guardSection hlaws hadmits ?_ ?_ name
    · intro part hpart
      exact same_evaluateBody hmirrors (hadmits part hpart)
    · intro part hpart
      exact meets_evaluateBody hlaws hmirrors.welcomes (hadmits part hpart)

/-! ## Loading -/

theorem same_loadNodes
    {items : List Item}
    (hlaws : P.Laws setting) (hspells : ∀ node, P.admits node → node.SpelledBy tokenAt)
    (hadmits : ∀ item ∈ items, P.Admits item.node) (defences : Defences) (seen : List String) :
    P.Same (Run.loadItems setting seen items)
      (Bare.loadNodes defences tokenAt setting seen (items.map (Item.bare tokenAt))) := by
  induction items generalizing seen with
  | nil => exact .refl _
  | cons item items ih =>
    obtain ⟨hfirst, hmore⟩ := List.forall_mem_cons.mp hadmits
    cases item with
    | labelled part =>
      have hplace : (tokenAt part.offset).offset = part.offset := (hspells _ hfirst.self).offset
      rw [Run.loadItems, List.map_cons, Item.bare, Section.bare, Bare.loadNodes, hplace]
      split
      · exact .refl _
      · exact ih hmore (part.name :: seen)
    | function f =>
      have hexecuted : (Bare.expr (tokenAt f.offset) (f.bare tokenAt)).execute defences setting
          (Bare.callees defences tokenAt setting setting.limits.calls) rootScope =
          (do
            let _ ← Run.makeFunction setting f rootScope
            return .next) := by
        obtain ⟨offset, name, params, body⟩ := f
        rfl
      rw [Run.loadItems, List.map_cons, Item.bare, Bare.loadNodes, hexecuted, bind_assoc]
      refine (Same.refl _).bind (meets_makeFunction hlaws hfirst rootScope) fun _ _ => ?_
      rw [pure_bind]
      exact ih hmore seen
      rintro _ _ _ ⟨⟩

/-! ## Sessions -/

/-- The policy that nodes have their own tokens. -/
def spelling (tokenAt : Nat → Token) : Policy where
  admits := Node.SpelledBy tokenAt
  halts _ := True

theorem spelling_laws (tokenAt : Nat → Token) (setting : Setting) :
    (spelling tokenAt).Laws setting where
  blames _ _ _ := trivial
  exhausted _ := trivial
  waiting _ := trivial
  stray _ _ _ _ := trivial

end Policy

/-- The bare trees of a script that has been read are well shaped: an assignment has a name or a
subscript on its left, any other node with two parts is an operation or a subscript, one with one
part is a negation, a block or a condition follows an `else`, and only sections and functions stand
at the top.  Whatever is done where a bare tree makes no sense, loading the script and evaluating
its sections by way of its bare trees is the same as without them. -/
theorem Program.bare_needs_no_defences
    {source : List Char} {program : Program} (hparsed : Program.parse source = .ok program) :
    let tokenAt := tokenOf (Lexed.ofSource source).tokens
    (∀ top ∈ program.bare tokenAt, top.IsTop ∧ ∀ node, top.Contains node → node.WellShaped) ∧
      ∀ (defences : Defences) (level : Int) (files : Files) (limits : Limits),
        Bare.load defences tokenAt program level files limits =
            Session.load program level files limits ∧
          ∀ requests name,
            let session := (Session.load program level files limits).2.after requests
            Bare.evaluateSection defences tokenAt session name = session.evaluate name := by
  intro tokenAt
  have hspelled : ∀ node, program.Contains node → node.SpelledBy tokenAt := fun _ hcontains =>
    Program.spelledBy_of_contains hparsed hcontains
  refine ⟨?_, ?_⟩
  · intro top htop
    exact ⟨Program.isTop_of_mem_bare htop, fun _ => Program.wellShaped_of_contains hspelled htop⟩
  · intro defences level files limits
    have hlaws := Policy.spelling_laws tokenAt (Setting.ofProgram program level files limits)
    constructor
    · have hadmits : ∀ item ∈ program.items, (Policy.spelling tokenAt).Admits item.node := by
        intro item hitem inner hcontains
        exact hspelled inner ((Program.contains_item hitem).trans hcontains)
      have hsame := Policy.same_loadNodes hlaws (fun _ => id) hadmits defences [] State.initial
        Policy.every_initial
      rw [Bare.load, Session.load, Session.perform, Session.perform, hsame]
      rfl
    · intro requests name session
      have hserves : (Policy.spelling tokenAt).Serves session :=
        (Policy.serves_load hlaws hspelled).after requests
      have hsame := Policy.same_enterSection hserves.laws (fun _ => id) (fun _ => hserves.admits)
        defences session.setting.limits.calls name session.state hserves.holds
      rw [Bare.evaluateSection, Session.evaluate, Session.perform, Session.perform, hsame]

set_option maxRecDepth 10000 in
/-- A script that assigns to a subscript in parentheses. -/
theorem Program.bare_of_chained_target :
    ∃ program, Program.parse "part1: \x7b (a[1])[-2] = b = 1 \x7d".toList = .ok program ∧
      let tokenAt := tokenOf (Lexed.ofSource "part1: \x7b (a[1])[-2] = b = 1 \x7d".toList).tokens
      (∀ top ∈ program.bare tokenAt, top.IsTop ∧ ∀ node, top.Contains node → node.WellShaped) ∧
        ∀ (defences : Defences) (level : Int) (files : Files) (limits : Limits),
          Bare.load defences tokenAt program level files limits =
              Session.load program level files limits ∧
            ∀ requests name,
              let session := (Session.load program level files limits).2.after requests
              Bare.evaluateSection defences tokenAt session name = session.evaluate name := by
  have hparsed : Program.parse "part1: \x7b (a[1])[-2] = b = 1 \x7d".toList =
      .ok ⟨[.labelled ⟨0, "part1", .block ⟨7, [
        .expr 9 (.store 20 15 (.subscript 11 (.ident 10 "a") (.number 12 1))
          (.negate 16 (.number 17 2)) (.assign 24 22 "b" (.number 26 1)))]⟩⟩],
        "part1: \x7b (a[1])[-2] = b = 1 \x7d".toList⟩ := by
    cbv
  exact ⟨_, hparsed, Program.bare_needs_no_defences hparsed⟩

end PuzzleLang
