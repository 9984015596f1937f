import PuzzleLang.Proofs.Policy.Session
import PuzzleLang.Proofs.Run.Traceable
import PuzzleLang.Proofs.Store.Circular

/-!
# Tracing only observes

A host that asks for more to be traced sees the same as one that asks for less, and a trace of a
lower level is the trace of a higher one without the entries above the lower level.  What is needed
for it is that no value is traced that contains itself, since it has no text, and that no file is
read that depends on the trace.
-/

namespace PuzzleLang

/-! ## Levels of entries -/

theorem Entry.level_bounds (entry : Entry) : 1 ≤ entry.level ∧ entry.level ≤ 3 := by
  cases entry <;> simp [level]

theorem State.trace_thin_of_le {level : Int} (hle : 3 ≤ level) (state : State) :
    (state.thin level).trace = state.trace := by
  apply Array.filter_eq_self.mpr
  intro entry _
  have hbound := entry.level_bounds.2
  exact decide_eq_true (Int.le_trans hbound hle)

theorem State.trace_thin_of_lt {level : Int} (hlt : level < 1) (state : State) :
    (state.thin level).trace = #[] := by
  apply Array.filter_eq_empty_iff.mpr
  intro entry _
  have hbound := entry.level_bounds.1
  have habove : ¬ entry.level ≤ level := by omega
  simpa using habove

/-! ## Files other than the trace -/

namespace FileTree

theorem lookup_putPart
    {name part : String}
    (hother : part ≠ name) (tree : FileTree) (parts : List (String × FileTree)) :
    (putPart name tree parts).lookup part = parts.lookup part := by
  have hnotNamed : (part == name) = false := beq_eq_false_iff_ne.mpr hother
  induction parts with
  | nil => rw [putPart, List.lookup_cons, hnotNamed]
  | cons entry parts ih =>
    obtain ⟨name', tree'⟩ := entry
    rw [putPart]
    split
    · rename_i hsame
      obtain rfl := beq_iff_eq.mp hsame
      rw [List.lookup_cons, List.lookup_cons, hnotNamed]
    · rw [List.lookup_cons, List.lookup_cons, ih]

/-- A path on which a name does not occur leads to the same place, whatever has that name in the
working folder. -/
theorem walk_putPart
    {name : String} {way : List String}
    (habsent : name ∉ way) (tree : FileTree) (parts : List (String × FileTree))
    (above : List FileTree) :
    walk (above ++ [folder (putPart name tree parts)]) way =
      walk (above ++ [folder parts]) way := by
  induction way generalizing above with
  | nil =>
    cases above with
    | nil => rfl
    | cons place above => cases place <;> rfl
  | cons part way ih =>
    obtain ⟨hother, habsent⟩ := not_or.mp (List.mem_cons.not.mp habsent)
    cases above with
    | nil =>
      rw [List.nil_append, List.nil_append, walk, walk, lookup_putPart (Ne.symm hother)]
      split
      · exact ih habsent []
      · split
        · rfl
        · cases parts.lookup part with
          | none => rfl
          | some inner => exact ih habsent [inner]
    | cons place above =>
      cases place with
      | file content => rfl
      | folder inner =>
        rw [List.cons_append, List.cons_append, walk, walk]
        split
        · exact ih habsent (folder inner :: above)
        · split
          · exact ih habsent above
          · cases inner.lookup part with
            | none => rfl
            | some next => exact ih habsent (next :: folder inner :: above)

/-- A working folder in which the trace is kept gives the same answers as one without it, if the
name of the trace is no part of the path. -/
theorem ignores_of_not_mem
    {path : String}
    (habsent : traceFile ∉ pathParts path) (parts : List (String × FileTree)) (earlier : Nat) :
    (folder parts).files.Ignores earlier path := by
  have hfound (tree : FileTree) :
      (folder (putPart traceFile tree parts)).find path = (folder parts).find path := by
    unfold find
    split
    · rfl
    · split
      · rfl
      · rfl
      · exact walk_putPart habsent tree parts []
  have hanswered (trace : Option String) :
      (folder parts).files.ask earlier path trace = (folder parts).find path := by
    cases trace with
    | none => rfl
    | some text => exact hfound (file text.toUTF8)
  intro trace trace'
  rw [hanswered, hanswered]

end FileTree

/-! ## Scripts at a lower level -/

theorem Run.thins_loadItems
    {setting : Setting} {level : Int}
    (hle : level ≤ setting.level) (items : List Item) (seen : List String) (state : State) :
    Thins level (loadItems setting seen items) (loadItems (setting.atLevel level) seen items)
      state := by
  induction items generalizing seen state with
  | nil => rfl
  | cons item items ih =>
    cases item with
    | labelled part =>
      rw [loadItems, loadItems]
      split
      · rfl
      · exact ih _ state
    | function f =>
      rw [loadItems, loadItems]
      exact Thins.bind (thins_makeFunction hle f rootScope) fun _ state' _ => ih seen state'

namespace Session

/-- The session as it is if it has been started at a lower level. -/
def lowered (session : Session) (level : Int) : Session :=
  ⟨session.setting.atLevel level, session.state.thin level⟩

theorem perform_lowered
    {α : Type} {session : Session} {level : Int} {run run' : Run α}
    (hthins : Run.Thins level run run' session.state) :
    (session.lowered level).perform run' =
      ((session.perform run).1, (session.perform run).2.lowered level) := by
  have hsame : run' (session.lowered level).state = Run.thinned level (run session.state) := hthins
  unfold perform
  rw [hsame]
  cases run session.state <;> rfl

theorem load_lowered
    {level most : Int} (hle : level ≤ most) (program : Program) (files : Files) (limits : Limits) :
    load program level files limits =
      ((load program most files limits).1, (load program most files limits).2.lowered level) := by
  let start : Session := ⟨.ofProgram program most files limits, .initial⟩
  have hinitial : State.initial.thin level = State.initial := by simp [State.thin, State.initial]
  have hthins : Run.Thins level (Run.loadItems start.setting [] program.items)
      (Run.loadItems (start.setting.atLevel level) [] program.items) start.state :=
    Run.thins_loadItems hle program.items [] .initial
  have hperformed := perform_lowered hthins
  rw [lowered, hinitial] at hperformed
  exact hperformed

end Session

/-! ## Calls at a lower level -/

theorem Region.whole_oversees (setting : Setting) :
    Region.whole.Oversees setting where
  laws := whole_laws
  callees := by
    have hlaws := whole_laws.accord setting
    exact hlaws.alike_callees (hlaws.enters_of_opens (whole_opens setting))
  entered name trace hkept _ :=
    ⟨⟨hkept.closed, hkept.intact⟩, (whole_opens setting).root ⟨rfl, hkept⟩⟩

namespace Session

/-- Evaluating a section never traces a value that contains itself, and never reads a file that
depends on the trace. -/
structure Discreet (session : Session) (name : String) : Prop where
  told {part : Activity} {offset : Nat} {event : Event} {state : State} :
    Relation.ReflTransGen (Activity.Performs session.setting)
        ⟨session.setting.limits.calls, .enter name, session.state⟩ part →
      part.Traces session.setting offset event state → event.level ≤ session.setting.level →
      ∀ value ∈ event.values, ¬ state.store.Circular value
  ignores {part : Activity} {offset : Nat} {path : String} {state : State} :
    Relation.ReflTransGen (Activity.Performs session.setting)
        ⟨session.setting.limits.calls, .enter name, session.state⟩ part →
      part.CallsNative session.setting offset .read [.string path] state →
      session.setting.files.Ignores state.asked path

/-- All sections that a host evaluates when it makes calls are evaluated discreetly. -/
def DiscreetFor (session : Session) : List Request → Prop
  | [] => True
  | request :: requests =>
    (∀ name, request = .evaluate name → session.Discreet name) ∧
      (session.handle request).2.DiscreetFor requests

variable {session : Session} {level : Int}

theorem Discreet.traceable
    {name : String}
    (hdiscreet : session.Discreet name) (hwellFormed : session.state.store.WellFormed) :
    Activity.Traceable session.setting
      ⟨session.setting.limits.calls, .enter name, session.state⟩ := by
  have hoversees := Region.whole_oversees session.setting
  have hcovers : Region.whole.Covers
      ⟨session.setting.limits.calls, .enter name, session.state⟩ :=
    ⟨Region.kept_whole.mpr hwellFormed, trivial⟩
  refine ⟨fun {part offset event state} hchain htraces => ?_, hdiscreet.ignores⟩
  rintro ⟨htraced, value, hmem, huntold⟩
  have hpartCovers := Activity.covers_of_reflTransGen hoversees hchain hcovers
  obtain ⟨hkept, hallowed⟩ :=
    htraces.covers hoversees (fun hkept => ⟨hkept.closed, hkept.intact⟩) hpartCovers
  have hknows : state.store.Knows value := (hallowed value hmem).2
  have hnotCircular := hdiscreet.told hchain htraces htraced value hmem
  exact (Region.kept_whole.mp hkept).render?_ne_none hknows hnotCircular huntold

theorem handle_lowered
    {request : Request}
    (hle : level ≤ session.setting.level) (hwellFormed : session.state.store.WellFormed)
    (hdiscreet : ∀ name, request = .evaluate name → session.Discreet name) :
    (session.lowered level).handle request =
      ((session.handle request).1, (session.handle request).2.lowered level) := by
  cases request with
  | readInput text =>
    have hthins : Run.Thins level (Run.readInput text) (Run.readInput text) session.state := rfl
    rw [handle, handle, readInput, perform_lowered hthins]
    rfl
  | evaluate name =>
    have htraceable := (hdiscreet name rfl).traceable hwellFormed
    exact perform_lowered (htraceable.thins_enter hle)

theorem setting_handle (session : Session) (request : Request) :
    (session.handle request).2.setting = session.setting := by
  cases request with
  | readInput text => rw [handle, readInput, setting_perform]
  | evaluate name => rw [handle, evaluate, setting_perform]

theorem wellFormed_handle (hwellFormed : session.state.store.WellFormed) (request : Request) :
    (session.handle request).2.state.store.WellFormed := by
  have hkept := Region.kept_whole.mpr hwellFormed
  cases request with
  | readInput text =>
    exact Region.kept_whole.mp (kept_readInput Region.whole_laws Region.whole_opens hkept text)
  | evaluate name =>
    exact Region.kept_whole.mp (kept_evaluate Region.whole_laws Region.whole_opens hkept name)

/-- Whatever calls a host makes at a lower level, it sees the same, and its session ends up the same
but for the trace. -/
theorem record_lowered
    {requests : List Request}
    (hle : level ≤ session.setting.level) (hwellFormed : session.state.store.WellFormed)
    (hdiscreet : session.DiscreetFor requests) :
    (session.lowered level).record Session.observe requests =
        session.record Session.observe requests ∧
      (session.lowered level).after requests = (session.after requests).lowered level := by
  induction requests generalizing session with
  | nil => exact ⟨rfl, rfl⟩
  | cons request requests ih =>
    obtain ⟨hfirst, hmore⟩ := hdiscreet
    have hhandled := handle_lowered hle hwellFormed hfirst
    rw [← session.setting_handle request] at hle
    obtain ⟨hseen, hended⟩ := ih hle (wellFormed_handle hwellFormed request) hmore
    rw [record, record, after, after, hhandled, hseen, hended]
    exact ⟨rfl, rfl⟩

end Session

/-- The state after a host has loaded a script and made calls. -/
def Program.stateAfter (program : Program) (level : Int) (files : Files) (limits : Limits)
    (requests : List Request) : State :=
  ((Session.load program level files limits).2.after requests).state

/-- Tracing only observes.  If a host loads a script at two levels and makes the same calls, and at
the higher level no value is traced that contains itself and no file is read that depends on the
trace, then it sees the same outcomes, lines of faults and output, and the sessions end up with the
same store, the root scope included.  The trace of the lower level is the trace of the higher one
without the entries above the lower level: from the third level on nothing is left out, and below
the first nothing is traced. -/
theorem tracing_only_observes
    {program : Program} {files : Files} {limits : Limits} {level most : Int}
    {requests : List Request}
    (hle : level ≤ most)
    (hdiscreet : (Session.load program most files limits).2.DiscreetFor requests) :
    program.record Session.observe level files limits requests =
        program.record Session.observe most files limits requests ∧
      (program.stateAfter level files limits requests).store =
        (program.stateAfter most files limits requests).store ∧
      (program.stateAfter level files limits requests).trace =
        (program.stateAfter most files limits requests).trace.filter (·.level ≤ level) ∧
      (3 ≤ level → (program.stateAfter level files limits requests).trace =
        (program.stateAfter most files limits requests).trace) ∧
      (level < 1 → (program.stateAfter level files limits requests).trace = #[]) := by
  have hloaded := Session.load_lowered hle program files limits
  have hkept := Session.kept_load Region.whole_laws Region.whole_opens Region.kept_whole_initial
    program most files limits
  have hatMost : (Session.load program most files limits).2.setting.level = most := by
    rw [Session.load, Session.setting_perform]
    rfl
  obtain ⟨hseen, hended⟩ := Session.record_lowered (Int.le_trans hle (Int.le_of_eq hatMost.symm))
    (Region.kept_whole.mp hkept) hdiscreet
  have hthinned : program.stateAfter level files limits requests =
      (program.stateAfter most files limits requests).thin level := by
    rw [Program.stateAfter, hloaded, hended]
    rfl
  refine ⟨?_, ?_⟩
  · rw [Program.record, Program.record, hloaded, hseen]
    rfl
  · rw [hthinned]
    exact ⟨rfl, rfl, fun hle => State.trace_thin_of_le hle _,
      fun hlt => State.trace_thin_of_lt hlt _⟩

/-- The text of a script with a function and a section that reads a file. -/
def readingText : List Char :=
  "fn f() \x7b return 1 \x7d\na: read('data.txt')".toList

/-- The body of the section. -/
def Expr.reading : Expr :=
  .call 23 (.ident 23 "read") [.string 29 "data.txt"]

/-- The script of that text. -/
def Program.reading : Program where
  items := [
    .function ⟨0, some "f", [], ⟨7, [.returns 9 (some (.number 16 1))]⟩⟩,
    .labelled ⟨20, "a", .expr .reading⟩]
  source := readingText

/-- A working folder with the file. -/
def FileTree.withData : FileTree :=
  .folder [("data.txt", .file "7".toUTF8)]

/-- The session of that script, with everything traced, after an input has been read. -/
def Session.reading : Session :=
  (Session.load .reading 3 FileTree.withData.files .standard).2.readInput "1"

/-- The state in which the body of the section is evaluated. -/
def State.reading : State :=
  { Session.reading.state with
    active := some "a"
    trace := Session.reading.state.trace.push (.enter "a") }

set_option maxRecDepth 10000 in
theorem evaluateAll_reading :
    evaluateAll Session.reading.setting (.within Session.reading.setting 2499)
        Expr.reading.operands rootScope .reading =
      .ok [.native .read, .string "data.txt"] .reading := by
  with_unfolding_all rfl

set_option maxRecDepth 10000 in
theorem evaluate_reading :
    evaluate Session.reading.setting (.within Session.reading.setting 2499) .reading rootScope
        .reading =
      .ok (.string "7") { State.reading with
        asked := 1
        trace := State.reading.trace.push (.call "read" ["'data.txt'"]) } := by
  with_unfolding_all rfl

/-- The section is entered in one way only. -/
theorem Activity.Enters.of_reading
    {part : Section} {trace : Array Entry}
    (henters : Enters Session.reading.setting "a" part Session.reading.state trace) :
    part = ⟨20, "a", .expr .reading⟩ ∧
      { Session.reading.state with active := some "a", trace } = State.reading := by
  obtain ⟨hfound, -, htraced⟩ := henters
  obtain rfl : ⟨20, "a", .expr .reading⟩ = part := Option.some.inj hfound
  have hentered : Run.trace Session.reading.setting 20 (.enter "a")
      { Session.reading.state with active := some "a" } = .ok () .reading := rfl
  rw [hentered] at htraced
  exact ⟨rfl, (EStateM.Result.ok.inj htraced).2.symm⟩

/-- Apart from the body of the section, the name of the function and the path are evaluated. -/
theorem Activity.performs_reading
    {part : Activity}
    (hchain : Relation.ReflTransGen (Performs Session.reading.setting)
      ⟨2500, .enter "a", Session.reading.state⟩ part) :
    part = ⟨2500, .enter "a", Session.reading.state⟩ ∨
      part = ⟨2499, .expr .reading rootScope, .reading⟩ ∨
      ∃ e ∈ Expr.reading.operands, ∃ state, part = ⟨2499, .expr e rootScope, state⟩ := by
  induction hchain with
  | refl => exact .inl rfl
  | tail _ hperforms ih =>
    rcases ih with rfl | rfl | ⟨e, hmem, state, rfl⟩
    · cases hperforms with | entered henters
      obtain ⟨rfl, hentered⟩ := henters.of_reading
      rw [hentered]
      exact .inr (.inl rfl)
    · cases hperforms with
      | operand hoperands hran =>
        have hmem : _ ∈ Expr.reading.operands :=
          hoperands ▸ List.mem_append_right _ List.mem_cons_self
        exact .inr (.inr ⟨_, hmem, _, rfl⟩)
      | callee hran htraced => cases evaluateAll_reading.symm.trans hran
    · have hnone : e.operands = [] := by
        rcases List.mem_pair.mp hmem with rfl | rfl <;> rfl
      cases hperforms with
      | operand hoperands hran =>
        rw [hnone] at hoperands
        cases List.append_ne_nil_of_right_ne_nil _ (List.cons_ne_nil _ _) hoperands.symm
      | callee hran htraced => cases hnone

theorem Session.discreet_reading : Session.reading.Discreet "a" where
  told {part offset event state} hchain htraces _ := by
    change Relation.ReflTransGen _ ⟨2500, .enter "a", Session.reading.state⟩ part at hchain
    have htexts : ∀ value ∈ event.values, ∃ text, value = .string text := by
      rcases Activity.performs_reading hchain with rfl | rfl | ⟨e, hmem, state, rfl⟩
      · cases htraces with | leave henters hran
        obtain ⟨rfl, hentered⟩ := henters.of_reading
        rw [hentered] at hran
        cases evaluate_reading.symm.trans hran
        intro value hmem
        exact ⟨_, List.mem_singleton.mp hmem⟩
      · cases htraces with | call hran
        cases evaluateAll_reading.symm.trans hran
        intro value hmem
        exact ⟨_, List.mem_singleton.mp hmem⟩
      · rcases List.mem_pair.mp hmem with rfl | rfl <;> cases htraces
    intro value hmem
    obtain ⟨text, rfl⟩ := htexts value hmem
    exact Store.not_circular_of_string text
  ignores {part offset path state} hchain hcalls := by
    change Relation.ReflTransGen _ ⟨2500, .enter "a", Session.reading.state⟩ part at hchain
    rcases Activity.performs_reading hchain with rfl | rfl | ⟨e, hmem, state, rfl⟩
    · cases hcalls
    · cases hcalls with | call hran htraced
      cases evaluateAll_reading.symm.trans hran
      exact FileTree.ignores_of_not_mem (by decide +kernel) _ _
    · rcases List.mem_pair.mp hmem with rfl | rfl <;> cases hcalls

set_option maxRecDepth 10000 in
/-- The first level leaves out that the function is defined and that the file is read. -/
theorem tracing_only_observes_read :
    Program.parse readingText = .ok .reading ∧
      (Session.load .reading 3 FileTree.withData.files .standard).2.DiscreetFor
        [.readInput "1", .evaluate "a"] ∧
      Program.reading.record Session.observe 1 FileTree.withData.files .standard
          [.readInput "1", .evaluate "a"] =
        Program.reading.record Session.observe 3 FileTree.withData.files .standard
          [.readInput "1", .evaluate "a"] ∧
      (Program.reading.stateAfter 3 FileTree.withData.files .standard
          [.readInput "1", .evaluate "a"]).trace =
        #[.defineFunction "f" [], .enter "a", .call "read" ["'data.txt'"], .leave "a" "'7'"] ∧
      (Program.reading.stateAfter 1 FileTree.withData.files .standard
          [.readInput "1", .evaluate "a"]).trace =
        #[.enter "a", .leave "a" "'7'"] := by
  have hparsed : Program.parse readingText = .ok .reading := by cbv
  have hdiscreet : (Session.load .reading 3 FileTree.withData.files .standard).2.DiscreetFor
      [.readInput "1", .evaluate "a"] := by
    refine ⟨?_, ?_, trivial⟩
    · rintro name ⟨⟩
    · rintro name ⟨⟩
      exact Session.discreet_reading
  have hall : (Program.reading.stateAfter 3 FileTree.withData.files .standard
      [.readInput "1", .evaluate "a"]).trace =
      #[.defineFunction "f" [], .enter "a", .call "read" ["'data.txt'"], .leave "a" "'7'"] := by
    with_unfolding_all rfl
  obtain ⟨hseen, -, hthinned, -⟩ := tracing_only_observes (by decide : (1 : Int) ≤ 3) hdiscreet
  rw [hall] at hthinned
  exact ⟨hparsed, hdiscreet, hseen, hall, hthinned⟩

end PuzzleLang
