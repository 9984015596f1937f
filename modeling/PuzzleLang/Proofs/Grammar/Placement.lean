import PuzzleLang.Proofs.Grammar.Soundness
import PuzzleLang.Proofs.Tree.Node

/-!
# Nodes stand at tokens

Every node of a script that has been read has the offset of a token of its text, so what is put down
to a node is put down to a token.  This is seen from the derivation of the script: each of its steps
gives the new node the offset of a token that it takes up.
-/

namespace PuzzleLang

/-- The outermost nodes of a phrase. -/
def Phrase.nodes : Phrase → List Node
  | .expr _ e => [.expr e]
  | .exprs es => es.map .expr
  | .entries pairs => pairs.map fun entry => .expr entry.2
  | .params _ => []
  | .function f => [.expr (.function f)]
  | .block inner => [.statement (.block inner)]
  | .statements inner => inner.map .statement
  | .statement inner => [.statement inner]
  | .conditional inner => [.statement (.conditional inner)]
  | .arms inner => inner.flatMap fun arm => [.expr arm.pattern, .statement (.block arm.body)]
  | .labelled part => [.part part]
  | .items parts => parts.map Item.node

/-- The token of a node is in a list. -/
def MarkedIn (ts : List Token) (node : Node) : Prop :=
  ∃ t ∈ ts, t.Marks node

/-- The tokens of some nodes and of all those inside them are in a list. -/
def StandIn (ts : List Token) (nodes : List Node) : Prop :=
  ∀ inner, Node.InsideAny nodes inner → MarkedIn ts inner

variable {ts ts' : List Token} {node : Node} {nodes nodes' : List Node}

theorem markedIn_iff :
    MarkedIn ts node ↔
      ∃ t ∈ ts, t.offset = node.offset ∧ ∀ kind, node.sign? = some kind → t.kind = kind := by
  unfold MarkedIn
  refine exists_congr fun t => and_congr_right fun _ => ?_
  constructor
  · intro hmarks
    exact ⟨hmarks.offset, fun _ => hmarks.sign⟩
  · rintro ⟨hoffset, hsign⟩
    exact ⟨hoffset, fun hsigned => hsign _ hsigned⟩

theorem MarkedIn.mem (h : MarkedIn ts node) : node.offset ∈ ts.map Token.offset := by
  obtain ⟨t, hmem, hmarks⟩ := h
  exact List.mem_map.mpr ⟨t, hmem, hmarks.offset⟩

theorem MarkedIn.mono (h : MarkedIn ts node) (hsubset : ts ⊆ ts') : MarkedIn ts' node := by
  obtain ⟨t, hmem, hmarks⟩ := h
  exact ⟨t, hsubset hmem, hmarks⟩

theorem markedIn_iff_of_unsigned (hunsigned : node.sign? = none) :
    MarkedIn ts node ↔ node.offset ∈ ts.map Token.offset := by
  constructor
  · exact MarkedIn.mem
  · intro hmem
    obtain ⟨t, hmem, hoffset⟩ := List.mem_map.mp hmem
    refine ⟨t, hmem, hoffset, ?_⟩
    intro kind hsign
    rw [hunsigned] at hsign
    cases hsign

theorem markedIn_of_signed
    {t : Token} {kind : TokenKind}
    (hmem : t ∈ ts) (hoffset : t.offset = node.offset) (hsigned : node.sign? = some kind)
    (hkind : t.kind = kind) :
    MarkedIn ts node := by
  refine ⟨t, hmem, hoffset, ?_⟩
  intro kind' hsign
  rw [hsigned] at hsign
  rw [hkind, Option.some.inj hsign]

theorem StandIn.mono (h : StandIn ts nodes) (hsubset : ts ⊆ ts') : StandIn ts' nodes := by
  intro inner hinside
  exact (h inner hinside).mono hsubset

@[simp] theorem standIn_nil : StandIn ts [] := by
  intro inner hinside
  exact absurd hinside (Node.not_insideAny_nil inner)

@[simp] theorem standIn_cons :
    StandIn ts (node :: nodes) ↔
      (MarkedIn ts node ∧ StandIn ts node.children) ∧ StandIn ts nodes := by
  have hcontains (inner : Node) :
      node.Contains inner ↔ inner = node ∨ Node.InsideAny node.children inner :=
    Node.contains_iff
  simp only [StandIn, Node.insideAny_cons, hcontains, or_imp, forall_and, forall_eq]

@[simp] theorem standIn_append :
    StandIn ts (nodes ++ nodes') ↔ StandIn ts nodes ∧ StandIn ts nodes' := by
  induction nodes with
  | nil => simp
  | cons node nodes ih => simp only [List.cons_append, standIn_cons, ih, and_assoc]

theorem firstOffset_mem {offset : Nat} (h : offset ∈ ts.map Token.offset) :
    firstOffset ts ∈ ts.map Token.offset := by
  cases ts with
  | nil => cases h
  | cons first more => exact List.mem_cons_self

theorem Derives.standIn {phrase : Phrase} (hderives : Derives phrase ts) :
    StandIn ts phrase.nodes := by
  induction hderives with
  | functionExpr | conditionalStatement | blockStatement | looser => assumption
  -- The target of an assignment stays a node of it.
  | @assign ts ts' offset name value sign _ hsign _ ihTarget ihValue =>
    have hown : MarkedIn (ts ++ sign :: ts') (.expr (.assign sign.offset offset name value)) :=
      markedIn_of_signed (by simp) rfl rfl hsign
    have hinside : StandIn (ts ++ sign :: ts') ([.expr (.ident offset name)] ++ [.expr value]) :=
      standIn_append.mpr ⟨ihTarget.mono (List.subset_append_left _ _), ihValue.mono (by simp)⟩
    exact standIn_cons.mpr ⟨⟨hown, hinside⟩, standIn_nil⟩
  | @store ts ts' offset container key value sign _ hsign _ ihTarget ihValue =>
    have hown : MarkedIn (ts ++ sign :: ts')
        (.expr (.store sign.offset offset container key value)) :=
      markedIn_of_signed (by simp) rfl rfl hsign
    have hinside : StandIn (ts ++ sign :: ts')
        ([.expr (.subscript offset container key)] ++ [.expr value]) :=
      standIn_append.mpr ⟨ihTarget.mono (List.subset_append_left _ _), ihValue.mono (by simp)⟩
    exact standIn_cons.mpr ⟨⟨hown, hinside⟩, standIn_nil⟩
  | @binary ts ts' op left right sign _ hsign _ ihLeft ihRight =>
    have hown : MarkedIn (ts ++ sign :: ts') (.expr (.binary sign.offset op left right)) :=
      markedIn_of_signed (by simp) rfl rfl hsign
    have hinside : StandIn (ts ++ sign :: ts') ([.expr left] ++ [.expr right]) :=
      standIn_append.mpr ⟨ihLeft.mono (List.subset_append_left _ _), ihRight.mono (by simp)⟩
    exact standIn_cons.mpr ⟨⟨hown, hinside⟩, standIn_nil⟩
  | @subscript ts ts' container key opening closing _ hsign _ _ ihContainer ihKey =>
    have hbefore : ts ⊆ ts ++ opening :: ts' ++ [closing] := by simp
    have hbetween : ts' ⊆ ts ++ opening :: ts' ++ [closing] := by
      intro t hmem
      simp [hmem]
    have hown : MarkedIn (ts ++ opening :: ts' ++ [closing])
        (.expr (.subscript opening.offset container key)) :=
      markedIn_of_signed (by simp) rfl rfl hsign
    have hinside : StandIn (ts ++ opening :: ts' ++ [closing]) ([.expr container] ++ [.expr key]) :=
      standIn_append.mpr ⟨ihContainer.mono hbefore, ihKey.mono hbetween⟩
    exact standIn_cons.mpr ⟨⟨hown, hinside⟩, standIn_nil⟩
  | @negate operand sign ts hsign _ ih =>
    have hown : MarkedIn (sign :: ts) (.expr (.negate sign.offset operand)) :=
      markedIn_of_signed List.mem_cons_self rfl rfl hsign
    exact standIn_cons.mpr ⟨⟨hown, ih.mono (List.subset_cons_self _ _)⟩, standIn_nil⟩
  | @call ts ts' callee args opening closing _ _ _ _ ihCallee ihArgs =>
    have hbefore : ts ⊆ ts ++ opening :: ts' ++ [closing] := by simp
    have hbetween : ts' ⊆ ts ++ opening :: ts' ++ [closing] := by
      intro t hmem
      simp [hmem]
    have hfirst : firstOffset ts ∈ ts.map Token.offset :=
      firstOffset_mem (standIn_cons.mp ihCallee).1.1.mem
    have hown : MarkedIn (ts ++ opening :: ts' ++ [closing])
        (.expr (.call (firstOffset ts) callee args)) :=
      (markedIn_iff_of_unsigned rfl).mpr (List.map_subset _ hbefore hfirst)
    have hinside : StandIn (ts ++ opening :: ts' ++ [closing]) ([.expr callee] ++ args.map .expr) :=
      standIn_append.mpr ⟨ihCallee.mono hbefore, ihArgs.mono hbetween⟩
    exact standIn_cons.mpr ⟨⟨hown, hinside⟩, standIn_nil⟩
  | @exprStatement e ts _ _ ih =>
    have hfirst : firstOffset ts ∈ ts.map Token.offset :=
      firstOffset_mem (standIn_cons.mp ih).1.1.mem
    exact standIn_cons.mpr ⟨⟨(markedIn_iff_of_unsigned rfl).mpr hfirst, ih⟩, standIn_nil⟩
  | string | number | nil | ident | noExprs | noEntries | noParams | lastParam | consParam
  | noStatements | bareReturn | continues | breaks | noArms | noItems =>
    simp [Phrase.nodes, markedIn_iff, Node.sign?, Expr.sign?, Node.offset, Expr.offset, Stmt.offset,
      Node.children, Expr.children, Stmt.children]
  | _ =>
    -- A new node has the offset of a token that the step adds, or there is none; what is inside it
    -- stands in the tokens of the parts, which are all kept.
    simp [Phrase.nodes, markedIn_iff, Node.sign?, Expr.sign?, Node.offset, Expr.offset, Stmt.offset,
      Node.children, Expr.children, Stmt.children, Alternative.children, Item.node,
      SectionBody.node] at *
    grind [StandIn.mono, MarkedIn.mono]

/-- Every node of a script that has been read has its token in the text. -/
theorem Program.markedIn_of_contains
    {source : List Char} {program : Program}
    (hparsed : Program.parse source = .ok program) (hcontains : program.Contains node) :
    MarkedIn (Lexed.ofSource source).tokens node := by
  obtain ⟨_, _, hderives⟩ := exists_eof_of_parse hparsed
  exact hderives.standIn node (Program.contains_iff.mp hcontains)

/-- Every node of a script that has been read has the offset of a token of its text. -/
theorem Program.exists_token_of_contains
    {source : List Char} {program : Program}
    (hparsed : Program.parse source = .ok program) (hcontains : program.Contains node) :
    ∃ t ∈ (Lexed.ofSource source).tokens, t.offset = node.offset :=
  List.mem_map.mp (Program.markedIn_of_contains hparsed hcontains).mem

end PuzzleLang
