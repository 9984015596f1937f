import PuzzleLang.Proofs.Grammar.Placement
import PuzzleLang.Proofs.Token.Segmentation
import Mathlib.Data.List.Nodup

/-!
# Bare trees

A bare tree has nodes of one kind only: a section, a statement or an expression may stand wherever a
node stands.  A node keeps its token and its parts.  What a node with two parts does is said by the
kind of its token and by nothing else, be it an operation, a subscript or an assignment, and
anything may stand on the left of an assignment.

Every script has a bare tree, once it is known which token stands at an offset.
-/

namespace PuzzleLang

mutual

/-- A node with its token and its parts.  A function literal comes with the function that is its
value. -/
inductive Bare
  | string (token : Token) (value : String)
  | number (token : Token) (value : Nat)
  | nil (token : Token)
  | ident (token : Token) (name : String)
  | array (token : Token) (items : List Bare)
  | map (token : Token) (entries : List (String × Bare))
  | unary (token : Token) (operand : Bare)
  | binary (token : Token) (left right : Bare)
  | call (token : Token) (callee : Bare) (args : List Bare)
  | function (token : Token) (function : Function) (body : BareBlock)
  /-- An expression as a statement. -/
  | expr (token : Token) (expr : Bare)
  | var (token : Token) (name : String) (value : Bare)
  | block (block : BareBlock)
  | loop (token : Token) (item index : Option String) (iterable : Option Bare) (body : BareBlock)
  | conditional (token : Token) (condition : Bare) (thenBlock : BareBlock)
    (otherwise : Option Bare)
  | select (token : Token) (subject : Bare) (arms : List BareArm)
  | returns (token : Token) (value : Option Bare)
  | breaks (token : Token)
  | continues (token : Token)
  | part (token : Token) (name : String) (body : Bare)

/-- Nodes in braces. -/
structure BareBlock where
  token : Token
  statements : List Bare

/-- A pattern with what is done for a subject that matches it. -/
structure BareArm where
  pattern : Bare
  body : BareBlock

end

namespace Bare

/-- The token of a node. -/
def token : Bare → Token
  | string token _ | number token _ | nil token | ident token _ | array token _ | map token _
  | unary token _ | binary token _ _ | call token _ _ | function token _ _ | expr token _
  | var token _ _ | loop token _ _ _ _ | conditional token _ _ _ | select token _ _
  | returns token _ | breaks token | continues token | part token _ _ => token
  | block inner => inner.token

/-- The nodes directly inside a node. -/
def children : Bare → List Bare
  | string _ _ | number _ _ | nil _ | ident _ _ | breaks _ | continues _ => []
  | array _ items => items
  | map _ entries => entries.map Prod.snd
  | unary _ operand => [operand]
  | binary _ left right => [left, right]
  | call _ callee args => callee :: args
  | function _ _ body => [block body]
  | expr _ value | var _ _ value => [value]
  | block inner => inner.statements
  | loop _ _ _ iterable body => iterable.toList ++ [block body]
  | conditional _ condition thenBlock otherwise =>
    condition :: block thenBlock :: otherwise.toList
  | select _ subject arms => subject :: arms.flatMap fun arm => [arm.pattern, block arm.body]
  | returns _ value => value.toList
  | part _ _ body => [body]

/-- A node is another one or lies inside it. -/
def Contains : Bare → Bare → Prop :=
  Relation.ReflTransGen fun node child => child ∈ node.children

/-- A node that can be assigned to: a name or a subscript. -/
def IsTarget : Bare → Prop
  | ident _ _ => True
  | binary token _ _ => token.kind = .leftBracket
  | _ => False

/-- A node that can follow an `else`: a block or another condition. -/
def IsAlternative : Bare → Prop
  | block _ | conditional _ _ _ _ => True
  | _ => False

/-- A node that can stand at the top of a script: a section or the definition of a function. -/
def IsTop : Bare → Prop
  | part _ _ _ | expr _ (function _ _ _) => True
  | _ => False

/-- A node is well shaped, its parts aside.  One with two parts is an assignment to something that
can be assigned to, a subscript, or an operation; one with one part is a negation. -/
def WellShaped : Bare → Prop
  | binary token left _ =>
    (token.kind = .assign → left.IsTarget) ∧
      (token.kind ≠ .assign → token.kind = .leftBracket ∨ ∃ op : Operator, token.kind = op.kind)
  | unary token _ => token.kind = .minus
  | conditional _ _ _ otherwise => ∀ node, otherwise = some node → node.IsAlternative
  | _ => True

end Bare

/-! ## The bare tree of a script -/

section

variable (tokenAt : Nat → Token)

mutual

/-- The bare tree of an expression. -/
def Expr.bare : Expr → Bare
  | .string offset value => .string (tokenAt offset) value
  | .number offset value => .number (tokenAt offset) value
  | .nil offset => .nil (tokenAt offset)
  | .ident offset name => .ident (tokenAt offset) name
  | .array offset items => .array (tokenAt offset) (Expr.bareAll items)
  | .map offset entries => .map (tokenAt offset) (Expr.bareEntries entries)
  | .negate offset operand => .unary (tokenAt offset) operand.bare
  | .binary offset _ left right => .binary (tokenAt offset) left.bare right.bare
  | .subscript offset container key => .binary (tokenAt offset) container.bare key.bare
  | .assign offset targetOffset name value =>
    .binary (tokenAt offset) (.ident (tokenAt targetOffset) name) value.bare
  | .store offset targetOffset container key value =>
    .binary (tokenAt offset) (.binary (tokenAt targetOffset) container.bare key.bare) value.bare
  | .call offset callee args => .call (tokenAt offset) callee.bare (Expr.bareAll args)
  | .function f => f.bare

/-- The bare trees of expressions. -/
def Expr.bareAll : List Expr → List Bare
  | [] => []
  | item :: items => item.bare :: Expr.bareAll items

/-- The bare trees of the entries of a map. -/
def Expr.bareEntries : List (String × Expr) → List (String × Bare)
  | [] => []
  | (key, value) :: entries => (key, value.bare) :: Expr.bareEntries entries

/-- The bare tree of a function literal. -/
def Function.bare : Function → Bare
  | ⟨offset, name, params, body⟩ =>
    .function (tokenAt offset) ⟨offset, name, params, body⟩ body.bare

/-- The bare tree of a block. -/
def Block.bare : Block → BareBlock
  | ⟨offset, statements⟩ => ⟨tokenAt offset, Stmt.bareAll statements⟩

/-- The bare trees of statements. -/
def Stmt.bareAll : List Stmt → List Bare
  | [] => []
  | first :: more => first.bare :: Stmt.bareAll more

/-- The bare tree of a statement. -/
def Stmt.bare : Stmt → Bare
  | .expr offset value => .expr (tokenAt offset) value.bare
  | .var offset name value => .var (tokenAt offset) name value.bare
  | .block inner => .block inner.bare
  | .forever offset body => .loop (tokenAt offset) none none none body.bare
  | .forEach offset item index iterable body =>
    .loop (tokenAt offset) (some item) index (some iterable.bare) body.bare
  | .conditional inner => inner.bare
  | .select offset subject arms => .select (tokenAt offset) subject.bare (Arm.bareAll arms)
  | .returns offset none => .returns (tokenAt offset) none
  | .returns offset (some value) => .returns (tokenAt offset) (some value.bare)
  | .breaks offset => .breaks (tokenAt offset)
  | .continues offset => .continues (tokenAt offset)

/-- The bare tree of a condition with its blocks. -/
def Conditional.bare : Conditional → Bare
  | ⟨offset, condition, thenBlock, otherwise⟩ =>
    .conditional (tokenAt offset) condition.bare thenBlock.bare otherwise.bare

/-- The bare tree of what is done when a condition does not hold, if anything is. -/
def Alternative.bare : Alternative → Option Bare
  | .nothing => none
  | .block inner => some (.block inner.bare)
  | .conditional inner => some inner.bare

/-- The bare trees of the arms of a selection. -/
def Arm.bareAll : List Arm → List BareArm
  | [] => []
  | ⟨pattern, body⟩ :: arms => ⟨pattern.bare, body.bare⟩ :: Arm.bareAll arms

end

/-- The bare tree of what a section evaluates. -/
def SectionBody.bare : SectionBody → Bare
  | .block inner => .block (inner.bare tokenAt)
  | .expr inner => inner.bare tokenAt

/-- The bare tree of a section. -/
def Section.bare (part : Section) : Bare :=
  .part (tokenAt part.offset) part.name (part.body.bare tokenAt)

/-- The bare tree of a top-level part.  The definition of a function is a statement. -/
def Item.bare : Item → Bare
  | .labelled part => part.bare tokenAt
  | .function f => .expr (tokenAt f.offset) (f.bare tokenAt)

/-- The bare trees of a script. -/
def Program.bare (program : Program) : List Bare :=
  program.items.map (Item.bare tokenAt)

/-- The bare tree of a node. -/
def Node.bare : Node → Bare
  | .part inner => inner.bare tokenAt
  | .statement inner => inner.bare tokenAt
  | .expr inner => inner.bare tokenAt

end

/-! ## Parts -/

section

variable {tokenAt : Nat → Token}

theorem Expr.bareAll_eq_map (items : List Expr) :
    Expr.bareAll tokenAt items = items.map (Expr.bare tokenAt) := by
  induction items with
  | nil => rfl
  | cons item items ih => rw [Expr.bareAll, ih, List.map_cons]

theorem Expr.bareEntries_eq_map (entries : List (String × Expr)) :
    Expr.bareEntries tokenAt entries =
      entries.map fun entry => (entry.1, entry.2.bare tokenAt) := by
  induction entries with
  | nil => rfl
  | cons entry entries ih => rw [Expr.bareEntries, ih, List.map_cons]

theorem Stmt.bareAll_eq_map (statements : List Stmt) :
    Stmt.bareAll tokenAt statements = statements.map (Stmt.bare tokenAt) := by
  induction statements with
  | nil => rfl
  | cons first more ih => rw [Stmt.bareAll, ih, List.map_cons]

theorem Arm.bareAll_eq_map (arms : List Arm) :
    Arm.bareAll tokenAt arms =
      arms.map fun arm => ⟨arm.pattern.bare tokenAt, arm.body.bare tokenAt⟩ := by
  induction arms with
  | nil => rfl
  | cons arm arms ih =>
    obtain ⟨pattern, body⟩ := arm
    rw [Arm.bareAll, ih, List.map_cons]

theorem Node.children_bare (node : Node) :
    (node.bare tokenAt).children = node.children.map (Node.bare tokenAt) := by
  cases node with
  | part inner =>
    obtain ⟨offset, name, body⟩ := inner
    cases body <;> rfl
  | expr inner =>
    cases inner with
    | array offset items | call offset callee items =>
      simp [Node.bare, Expr.bare, Bare.children, Node.children, Expr.children,
        Expr.bareAll_eq_map, Function.comp_def]
    | map offset entries =>
      simp [Node.bare, Expr.bare, Bare.children, Node.children, Expr.children,
        Expr.bareEntries_eq_map, Function.comp_def]
    | function f =>
      obtain ⟨offset, name, params, body⟩ := f
      rfl
    | _ => rfl
  | statement inner =>
    cases inner with
    | block inner =>
      obtain ⟨offset, statements⟩ := inner
      simp [Node.bare, Stmt.bare, Block.bare, Bare.children, Node.children, Stmt.children,
        Stmt.bareAll_eq_map, Function.comp_def]
    | conditional inner =>
      obtain ⟨offset, condition, thenBlock, otherwise⟩ := inner
      cases otherwise <;> rfl
    | select offset subject arms =>
      simp [Node.bare, Stmt.bare, Bare.children, Node.children, Stmt.children,
        Arm.bareAll_eq_map, List.flatMap_map, List.map_flatMap]
    | returns offset value => cases value <;> rfl
    | _ => rfl

/-- What lies inside the bare tree of a node is the bare tree of a node inside it. -/
theorem Bare.Contains.exists_node
    {node : Node} {inner : Bare} (hcontains : (node.bare tokenAt).Contains inner) :
    ∃ node', node.Contains node' ∧ inner = node'.bare tokenAt := by
  induction hcontains with
  | refl => exact ⟨node, .refl node, rfl⟩
  | @tail middle inner _ hmem ih =>
    obtain ⟨node', hinside, rfl⟩ := ih
    rw [Node.children_bare] at hmem
    obtain ⟨child, hchild, rfl⟩ := List.mem_map.mp hmem
    exact ⟨child, hinside.trans (.of_child hchild (.refl child)), rfl⟩

end

/-! ## Nodes and their tokens -/

/-- The token at the offset of a node is that of the node. -/
def Node.SpelledBy (tokenAt : Nat → Token) (node : Node) : Prop :=
  (tokenAt node.offset).Marks node

section

variable {tokenAt : Nat → Token}

theorem Operator.kind_ne_assign (op : Operator) : op.kind ≠ .assign := by
  cases op <;> decide

/-- The bare tree of a node whose tokens are its own is well shaped. -/
theorem Node.wellShaped_bare
    {node : Node} (hspelled : ∀ inner, node.Contains inner → inner.SpelledBy tokenAt) :
    (node.bare tokenAt).WellShaped := by
  have hown := hspelled node (.refl node)
  cases node with
  | part inner => exact trivial
  | expr inner =>
    cases inner with
    | negate offset operand => exact hown.sign rfl
    | binary offset op left right =>
      have hkind : (tokenAt offset).kind = op.kind := hown.sign rfl
      refine ⟨fun hassign => ?_, fun _ => .inr ⟨op, hkind⟩⟩
      exact absurd (hkind.symm.trans hassign) op.kind_ne_assign
    | subscript offset container key =>
      have hkind : (tokenAt offset).kind = .leftBracket := hown.sign rfl
      refine ⟨fun hassign => ?_, fun _ => .inl hkind⟩
      rw [hkind] at hassign
      cases hassign
    | assign offset targetOffset name value =>
      have hkind : (tokenAt offset).kind = .assign := hown.sign rfl
      exact ⟨fun _ => trivial, fun hother => absurd hkind hother⟩
    | store offset targetOffset container key value =>
      have hkind : (tokenAt offset).kind = .assign := hown.sign rfl
      have htarget := hspelled (.expr (.subscript targetOffset container key))
        (.of_child List.mem_cons_self (.refl _))
      exact ⟨fun _ => htarget.sign rfl, fun hother => absurd hkind hother⟩
    | function f =>
      obtain ⟨offset, name, params, body⟩ := f
      exact trivial
    | _ => exact trivial
  | statement inner =>
    cases inner with
    | conditional inner =>
      obtain ⟨offset, condition, thenBlock, otherwise⟩ := inner
      intro node hotherwise
      cases otherwise with
      | nothing => cases hotherwise
      | block inner =>
        obtain rfl := Option.some.inj hotherwise
        exact trivial
      | conditional inner =>
        obtain ⟨_, _, _, _⟩ := inner
        obtain rfl := Option.some.inj hotherwise
        exact trivial
    | returns offset value => cases value <;> exact trivial
    | _ => exact trivial

/-- Every node in the bare trees of a script whose tokens are its own is well shaped. -/
theorem Program.wellShaped_of_contains
    {program : Program} {top inner : Bare}
    (hspelled : ∀ node, program.Contains node → node.SpelledBy tokenAt)
    (htop : top ∈ program.bare tokenAt) (hcontains : top.Contains inner) :
    inner.WellShaped := by
  have hinNode {node : Node} (hnode : program.Contains node)
      (hcontains : (node.bare tokenAt).Contains inner) : inner.WellShaped := by
    obtain ⟨node', hinside, rfl⟩ := hcontains.exists_node
    exact Node.wellShaped_bare fun _ hdeeper => hspelled _ ((hnode.trans hinside).trans hdeeper)
  obtain ⟨item, hitem, rfl⟩ := List.mem_map.mp htop
  cases item with
  | labelled part => exact hinNode (Program.contains_item hitem) hcontains
  | function f =>
    rcases Relation.ReflTransGen.cases_head hcontains with rfl | ⟨child, hchild, hinside⟩
    · exact trivial
    · obtain rfl : child = (Node.expr (.function f)).bare tokenAt := by
        simpa [Item.bare, Bare.children, Node.bare, Expr.bare] using hchild
      exact hinNode (Program.contains_item hitem) hinside

theorem Program.isTop_of_mem_bare
    {program : Program} {top : Bare} (hmem : top ∈ program.bare tokenAt) :
    top.IsTop := by
  obtain ⟨item, _, rfl⟩ := List.mem_map.mp hmem
  cases item with
  | labelled part => exact trivial
  | function f =>
    obtain ⟨offset, name, params, body⟩ := f
    exact trivial

end

/-! ## Scripts that have been read -/

/-- The token of a list that has an offset. -/
def tokenOf (tokens : List Token) (offset : Nat) : Token :=
  (tokens.find? (·.offset == offset)).getD ⟨.eof, "", offset⟩

theorem Token.offset_lt_stop
    {t : Token} {cs : List Char} (hquotes : t.quotes ≤ t.offset) (hlongest : t.IsLongest cs) :
    t.offset < t.stop := by
  obtain ⟨_, hlexeme, _⟩ := hlongest
  have hnonempty : 0 < t.terminal.written.length := List.length_pos_iff.mpr hlexeme.ne_nil
  have hinside : t.quotes < t.terminal.written.length := by
    by_cases hstring : t.kind = .string
    · have hwritten : t.terminal.written = '\'' :: t.text.toList ++ ['\''] := if_pos hstring
      rw [Token.quotes, if_pos hstring, hwritten]
      simp
    · rwa [Token.quotes, if_neg hstring]
  rw [Token.stop, Token.offset_eq hquotes]
  omega

/-- No two tokens of a script have the same offset. -/
theorem IsSegmentation.offset_injective
    {source : List Char} {tokens : List Token} {t t' : Token}
    (h : IsSegmentation source tokens) (hmem : t ∈ tokens) (hmem' : t' ∈ tokens)
    (hsame : t.offset = t'.offset) :
    t = t' := by
  have hascending : tokens.Pairwise fun t t' => t.offset < t'.offset := by
    refine h.ordered.imp_of_mem fun {first second} hfirst hsecond hle => ?_
    have hbefore : first.offset < first.stop :=
      Token.offset_lt_stop (h.quotes first hfirst) (h.longest first hfirst)
    have hafter : second.start ≤ second.offset := Nat.sub_le _ _
    omega
  have hdistinct : (tokens.map Token.offset).Nodup :=
    (List.pairwise_map.mpr hascending).imp Nat.ne_of_lt
  exact List.inj_on_of_nodup_map hdistinct hmem hmem' hsame

/-- In a script that has been read, the token at the offset of a node is that of the node. -/
theorem Program.spelledBy_of_contains
    {source : List Char} {program : Program} {node : Node}
    (hparsed : Program.parse source = .ok program) (hcontains : program.Contains node) :
    node.SpelledBy (tokenOf (Lexed.ofSource source).tokens) := by
  obtain ⟨last, hlexed, _⟩ := Program.exists_eof_of_parse hparsed
  have hending : (Lexed.ofSource source).ending = .eof last := by rw [hlexed]
  have hsegmentation : IsSegmentation source (Lexed.ofSource source).tokens :=
    isSegmentation_iff.mpr (segmentsFrom_of_ofCursor rfl (Nat.zero_le _) hending).1
  obtain ⟨t, hmem, hmarks⟩ := Program.markedIn_of_contains hparsed hcontains
  have hfound : tokenOf (Lexed.ofSource source).tokens node.offset = t := by
    cases hisFound : (Lexed.ofSource source).tokens.find? (·.offset == node.offset) with
    | none =>
      have habsent := List.find?_eq_none.mp hisFound t hmem
      exact absurd (beq_iff_eq.mpr hmarks.offset) habsent
    | some t' =>
      have hoffset : t'.offset = node.offset := by simpa using List.find?_some hisFound
      have hsame : t' = t := hsegmentation.offset_injective
        (List.mem_of_find?_eq_some hisFound) hmem (hoffset.trans hmarks.offset.symm)
      rw [tokenOf, hisFound, Option.getD_some, hsame]
  rw [Node.SpelledBy, hfound]
  exact hmarks

end PuzzleLang
