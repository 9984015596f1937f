import PuzzleLang.Proofs.Policy.Session

/-!
# Which faults a script can have

Every fault of the evaluation of a section can be put down to a node of the script: to a node that
does something that cannot be done, or to a jump that leaves the body of a function or of a section.
-/

namespace PuzzleLang

/-- A fault can be put down to a node of the script. -/
inductive Program.Attributes (program : Program) : Fault → Prop
  | node {node : Node} {cause : Cause} :
    program.Contains node → cause.Ordinary → Attributes program ⟨cause, some node.offset⟩
  | stray {jump : Stmt} {fault : Fault} :
    program.HasStray jump → jump.strayFault? = some fault → Attributes program fault

namespace Program

variable {program : Program} {fault : Fault}

/-- The policy of a script: it runs its own nodes, and its faults can be put down to them. -/
def policy (program : Program) : Policy where
  admits := program.Contains
  halts halt := ∀ fault, halt = .fault fault → program.Attributes fault

theorem policy_laws (program : Program) (setting : Setting) :
    program.policy.Laws setting where
  blames hcontains cause hordinary := by
    rintro fault ⟨⟩
    exact .node hcontains hordinary
  exhausted _ := by
    rintro fault ⟨⟩
  waiting _ := by
    rintro fault ⟨⟩
  stray {node body jump fault} hcontains hbody hexposes hfault := by
    rintro found ⟨⟩
    exact .stray ⟨node, body, hcontains, hbody, hexposes⟩ hfault

theorem serves_after
    (program : Program) (level : Int) (files : Files) (limits : Limits) (requests : List Request) :
    program.policy.Serves ((Session.load program level files limits).2.after requests) := by
  have hloaded : program.policy.Serves (Session.load program level files limits).2 :=
    Policy.serves_load (program.policy_laws _) fun _ hcontains => hcontains
  exact hloaded.after requests

end Program

end PuzzleLang
