import PuzzleLang.Proofs.Policy.Session
import PuzzleLang.Proofs.Value.Counting

/-!
# Loops over values end

A script without functions of its own and without loops that have no end never gives up: each of its
sections gives a value or has a fault, however few rounds such loops may take and however few calls
may be nested.  The reason is that every range a session can hold reaches its end, and that a loop
runs over what its value held when it started.
-/

namespace PuzzleLang

/-- The policy of scripts whose runs give a value or have a fault. -/
def Program.endingPolicy (program : Program) : Policy where
  admits := program.Contains
  halts halt := ∃ fault, halt = .fault fault

section

variable {program : Program} {files : Files}

theorem Program.endingPolicy_laws
    {setting : Setting}
    (hnoForever : ∀ offset body, ¬ program.Contains (.statement (.forever offset body)))
    (hanswered : ∀ earlier path trace, setting.files.ask earlier path trace ≠ .unknown) :
    program.endingPolicy.Laws setting where
  blames _ _ _ := ⟨_, rfl⟩
  exhausted hcontains := absurd hcontains (hnoForever _ _)
  waiting hunknown := absurd hunknown (hanswered _ _ _)
  stray _ _ _ _ := ⟨_, rfl⟩

theorem Program.endingPolicy_serves
    (hnoForever : ∀ offset body, ¬ program.Contains (.statement (.forever offset body)))
    (hanswered : ∀ earlier path trace, files.ask earlier path trace ≠ .unknown) (level : Int)
    (limits : Limits) (requests : List Request) :
    program.endingPolicy.Serves
      ((Session.load program level files limits).2.after requests) := by
  have hlaws : program.endingPolicy.Laws (.ofProgram program level files limits) :=
    Program.endingPolicy_laws hnoForever hanswered
  have hloaded : program.endingPolicy.Serves (Session.load program level files limits).2 :=
    Policy.serves_load hlaws fun _ hcontains => hcontains
  exact hloaded.after requests

/-- Without functions of the script there is nothing that could be called with calls nested. -/
theorem Program.endingPolicy_welcomes
    (hnoFunction : ∀ f, ¬ program.Contains (.expr (.function f))) (callees : Callees) :
    program.endingPolicy.Welcomes callees := by
  intro offset closure args _ hfits _
  cases hfits with | closure hadmits
  exact absurd hadmits.self (hnoFunction _)

/-- A loop over a value that reaches its end is a loop over a list fixed when it starts. -/
theorem Run.forEach_eq_forPairs
    {P : Policy} {iteration : Iteration} (hfits : P.IterationFits iteration) :
    ∃ pairs, ∀ limits body, forEach limits body iteration = forPairs body pairs := by
  have hafter := hfits.after_eq
  cases hfits with
  | @elements pairs => exact ⟨pairs, fun _ _ => rfl⟩
  | @numbers range hreaches =>
    obtain ⟨count, hcount⟩ := hreaches.exists_endsAfter
    have hlists := hcount.lists_iff.mpr rfl
    refine ⟨(Range.numbersFrom range.step count range.current).map fun n =>
      (.number n, .number n), fun limits body => ?_⟩
    rw [forEach_eq_rounds, forPairs_eq_rounds, hafter, Iteration.pairs,
      hlists.take_eq (limits.distance_le_over range)]

/-- A script without functions of its own and without loops that have no end gives a value or has a
fault, after any calls of its host and within any limits; in particular if those loops may take no
round at all.  It calls nothing from outside its tree on the way, so that the same holds whatever
such calls would do.  Every loop over a value that its sessions hold is a loop over a list that is
fixed when the loop starts, whatever its body does. -/
theorem loops_over_values_end
    (hnoFunction : ∀ f, ¬ program.Contains (.expr (.function f)))
    (hnoForever : ∀ offset body, ¬ program.Contains (.statement (.forever offset body)))
    (hanswered : ∀ earlier path trace, files.ask earlier path trace ≠ .unknown) (level : Int)
    (limits : Limits) (requests : List Request) (name : String) :
    let session := (Session.load program level files limits).2.after requests
    ((∃ value, (session.evaluate name).1 = .ok value) ∨
        ∃ fault, (session.evaluate name).1 = .error (.fault fault)) ∧
      (∀ (callees : Callees), ∀ part ∈ session.setting.sections,
        (∃ value state, Run.evaluateBody session.setting callees part session.state =
          .ok value state) ∨
        ∃ fault state, Run.evaluateBody session.setting callees part session.state =
          .error (.fault fault) state) ∧
      ∀ place cell value iteration, session.state.store.at? place = some cell →
        value ∈ cell.values → session.state.store.iteration value = .ok iteration →
          ∃ pairs, ∀ limits body,
            Run.forEach limits body iteration = Run.forPairs body pairs := by
  intro session
  have hserves : program.endingPolicy.Serves session :=
    Program.endingPolicy_serves hnoForever hanswered level limits requests
  refine ⟨?_, ?_, ?_⟩
  · cases houtcome : (session.evaluate name).1 with
    | ok value => exact .inl ⟨value, rfl⟩
    | error halt =>
      right
      rcases hserves.halts_or_unknown houtcome with ⟨fault, rfl⟩ | rfl
      · exact ⟨fault, rfl⟩
      · exact ⟨_, rfl⟩
  · intro callees part hpart
    have hends := Policy.meets_evaluateBody hserves.laws
      (Program.endingPolicy_welcomes hnoFunction callees) (hserves.admits hpart) session.state
      hserves.holds
    generalize Run.evaluateBody _ _ _ _ = result at hends ⊢
    cases hends with
    | ok => exact .inl ⟨_, _, rfl⟩
    | error _ hhalted =>
      obtain ⟨fault, rfl⟩ := hhalted
      exact .inr ⟨fault, _, rfl⟩
  · intro place cell value iteration hfound hheld hiterates
    have hfits : program.endingPolicy.Fits value := hserves.holds place cell value hfound hheld
    exact Run.forEach_eq_forPairs (Policy.iterationFits_of_iteration hserves.holds hfits hiterates)

end

/-- A script with two loops that change what they run over: the first makes an array grow while a
range counts down, the second writes to the array while it runs over it. -/
def Program.growing : Program where
  items := [.labelled ⟨0, "part", .block ⟨6, [
    .var 8 "a" (.array 16 []),
    .forEach 20 "n" none (.call 35 (.ident 29 "rangei") [.number 36 3, .number 39 1])
      ⟨42, [.expr 44 (.assign 46 44 "a"
        (.call 52 (.ident 48 "push") [.ident 53 "a", .ident 56 "n"]))]⟩,
    .forEach 60 "x" (some "i") (.ident 72 "a")
      ⟨74, [.expr 76 (.store 82 77 (.ident 76 "a") (.ident 78 "i") (.number 84 7))]⟩,
    .returns 90 (some (.subscript 98 (.ident 97 "a") (.number 99 2)))]⟩⟩]
  source := []

/-- The script gives a value where loops without an end may take no round. -/
theorem loops_over_values_end_growing :
    (∀ f, ¬ Program.growing.Contains (.expr (.function f))) ∧
      (∀ offset body, ¬ Program.growing.Contains (.statement (.forever offset body))) ∧
      let session := (Session.load .growing 0 ⟨fun _ _ _ => .missing⟩ ⟨1, 0⟩).2.after
        [.readInput "1", .evaluate "part"]
      (session.evaluate "part").1.toOption.bind Value.operand? = some 7 ∧
        ((∃ value, (session.evaluate "part").1 = .ok value) ∨
          ∃ fault, (session.evaluate "part").1 = .error (.fault fault)) := by
  have hnoFunction : ∀ f, ¬ Program.growing.Contains (.expr (.function f)) := by
    intro f
    simp [Program.contains_iff, Node.contains_iff, Program.growing, Item.node, Node.children,
      SectionBody.node, Stmt.children, Expr.children]
  have hnoForever : ∀ offset body,
      ¬ Program.growing.Contains (.statement (.forever offset body)) := by
    intro offset body
    simp [Program.contains_iff, Node.contains_iff, Program.growing, Item.node, Node.children,
      SectionBody.node, Stmt.children, Expr.children]
  have hanswered (earlier : Nat) (path : String) (trace : Option String) :
      (Files.mk fun _ _ _ => .missing).ask earlier path trace ≠ .unknown := by
    intro hunknown
    cases hunknown
  refine ⟨hnoFunction, hnoForever, by decide +kernel, ?_⟩
  exact (loops_over_values_end hnoFunction hnoForever hanswered 0 ⟨1, 0⟩
    [.readInput "1", .evaluate "part"] "part").1

end PuzzleLang
