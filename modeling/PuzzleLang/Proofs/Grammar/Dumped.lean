import PuzzleLang.Bindings
import PuzzleLang.Proofs.Grammar.Placement
import PuzzleLang.Proofs.Tree.Undump

/-!
# Dumps of scripts that have been read

Nothing but offsets is lost in the dump of a script that has been read, since no function in it can
have the name that is shown for functions without one.  With lines, the dump of every node stands in
it with the line of the token of the node.  A value in a dump stands for the outermost nodes that it
has; the fields of a node stand for its children.
-/

namespace PuzzleLang

theorem Token.text_ne_anonymous
    {t : Token} (hname : t.kind = .identifier) (hvalid : t.terminal.isValid = true) :
    t.text ≠ Function.anonymous := by
  rintro hsame
  rw [Token.terminal, hname, hsame] at hvalid
  cases hvalid

/-- No name that has been read is the one shown for functions without a name. -/
theorem Derives.named_nodes
    {phrase : Phrase} {ts : List Token}
    (hderives : Derives phrase ts) (hvalid : ∀ t ∈ ts, t.terminal.isValid = true) :
    Named phrase.nodes := by
  induction hderives with
  | string | number | nil | ident | noExprs | noEntries | noParams | lastParam | consParam
  | noStatements | bareReturn | continues | breaks | noArms | noItems =>
    simp [Phrase.nodes, Node.children, Expr.children, Stmt.children]
  | _ =>
    -- The nodes inside a new node are those of the parts, and a name that it has is a token's.
    simp [Phrase.nodes, Node.children, Expr.children, Stmt.children, Alternative.children,
      Item.node, SectionBody.node] at *
    grind [Token.text_ne_anonymous]

/-! ## What stands in a dump -/

namespace Json

/-- The values directly inside a value. -/
def parts : Json → List Json
  | array items => items
  | object fields => fields.map Prod.snd
  | _ => []

/-- A value is another one or stands inside it. -/
def Contains : Json → Json → Prop :=
  Relation.ReflTransGen fun json inner => inner ∈ json.parts

/-- The line of a node. -/
def line? : Json → Option Json
  | object fields => Bindings.get? fields "line"
  | _ => none

theorem Contains.of_part
    {json part inner : Json} (hpart : part ∈ json.parts) (h : part.Contains inner) :
    json.Contains inner :=
  Relation.ReflTransGen.head hpart h

end Json

/-- The dump of a node. -/
def Node.dump (line? : Nat → Option Nat) : Node → Json
  | .part inner => Dump.item line? (.labelled inner)
  | .statement inner => Dump.statement line? inner
  | .expr inner => Dump.expr line? inner

namespace Dump

section

variable (line? : Nat → Option Nat)

theorem exprs_eq_map (items : List Expr) : exprs line? items = items.map (expr line?) := by
  induction items with
  | nil => rfl
  | cons item items ih => rw [exprs, ih, List.map_cons]

theorem entries_eq_map (pairs : List (String × Expr)) :
    entries line? pairs = pairs.map fun entry => .array [.string entry.1, expr line? entry.2] := by
  induction pairs with
  | nil => rfl
  | cons entry more ih => rw [entries, ih, List.map_cons]

theorem statements_eq_map (body : List Stmt) :
    statements line? body = body.map (statement line?) := by
  induction body with
  | nil => rfl
  | cons first more ih => rw [statements, ih, List.map_cons]

/-- The dump of an arm. -/
def arm (arm : Arm) : Json :=
  .object [("type", .string "MatchCase"), ("pattern", expr line? arm.pattern),
    ("body", block line? arm.body)]

theorem arms_eq_map (cases : List Arm) : arms line? cases = cases.map (arm line?) := by
  induction cases with
  | nil => rfl
  | cons first more ih =>
    obtain ⟨pattern, body⟩ := first
    rw [arms, ih, List.map_cons]
    rfl

mutual

/-- The nodes that a value in a dump stands for, from left to right. -/
inductive Shows : Json → List Node → Prop
  | null : Shows .null []
  | number (value : Int) : Shows (.number value) []
  | string (value : String) : Shows (.string value) []
  | array {items : List Json} {nodes : List Node} :
    ShowsAll items nodes → Shows (.array items) nodes
  | node (node : Node) : Shows (node.dump line?) [node]
  | arm (arm : Arm) : Shows (Dump.arm line? arm) [.expr arm.pattern, .statement (.block arm.body)]

/-- The nodes that the values of a list stand for, from left to right. -/
inductive ShowsAll : List Json → List Node → Prop
  | nil : ShowsAll [] []
  | cons {value : Json} {values : List Json} {nodes nodes' : List Node} :
    Shows value nodes → ShowsAll values nodes' → ShowsAll (value :: values) (nodes ++ nodes')

end

variable {line?}

theorem showsAll_flatMap
    {α : Type} {dump : α → Json} {nodes : α → List Node}
    (hshown : ∀ x, Shows line? (dump x) (nodes x)) (xs : List α) :
    ShowsAll line? (xs.map dump) (xs.flatMap nodes) := by
  induction xs with
  | nil => exact .nil
  | cons x xs ih => exact .cons (hshown x) ih

theorem showsAll_map
    {α : Type} {dump : α → Json} {node : α → Node}
    (hshown : ∀ x, Shows line? (dump x) [node x]) (xs : List α) :
    ShowsAll line? (xs.map dump) (xs.map node) := by
  have h := showsAll_flatMap hshown xs
  rwa [← List.map_eq_flatMap] at h

theorem ShowsAll.single {value : Json} {nodes : List Node} (hshown : Shows line? value nodes) :
    ShowsAll line? [value] nodes := by
  have h := ShowsAll.cons hshown .nil
  rwa [List.append_nil] at h

theorem shows_params (params : List String) : Shows line? (.array (params.map Json.string)) [] := by
  have hall : ShowsAll line? (params.map Json.string) [] := by
    induction params with
    | nil => exact .nil
    | cons param params ih => exact .cons (.string param) ih
  exact .array hall

theorem shows_exprs (items : List Expr) :
    Shows line? (.array (exprs line? items)) (items.map .expr) := by
  rw [exprs_eq_map]
  exact .array (showsAll_map (fun item => .node (.expr item)) items)

theorem shows_entries (pairs : List (String × Expr)) :
    Shows line? (.array (entries line? pairs)) (pairs.map fun entry => .expr entry.2) := by
  rw [entries_eq_map]
  exact .array (showsAll_map
    (fun entry => .array (.cons (.string entry.1) (.cons (.node (.expr entry.2)) .nil))) pairs)

theorem shows_statements (body : List Stmt) :
    Shows line? (.array (statements line? body)) (body.map .statement) := by
  rw [statements_eq_map]
  exact .array (showsAll_map (fun first => .node (.statement first)) body)

theorem shows_arms (cases : List Arm) :
    Shows line? (.array (arms line? cases))
      (cases.flatMap fun arm => [.expr arm.pattern, .statement (.block arm.body)]) := by
  rw [arms_eq_map]
  exact .array (showsAll_flatMap .arm cases)

theorem shows_optional (name : Option String) : Shows line? (optional name) [] := by
  cases name with
  | none => exact .null
  | some name => exact .string name

theorem shows_alternative (otherwise : Alternative) :
    Shows line? (alternative line? otherwise) otherwise.children := by
  cases otherwise with
  | nothing => exact .null
  | block inner => exact .node (.statement (.block inner))
  | conditional inner => exact .node (.statement (.conditional inner))

/-- The fields of the dump of a node stand for its children. -/
theorem showsAll_children (line? : Nat → Option Nat) (node : Node) :
    ∃ type fields, node.dump line? = Dump.node line? type node.offset fields ∧
      ShowsAll line? (fields.map Prod.snd) node.children := by
  cases node with
  | part inner =>
    obtain ⟨offset, name, body⟩ := inner
    cases body with
    | block body =>
      exact ⟨_, _, rfl, .cons (.string name) (.cons (.node (.statement (.block body))) .nil)⟩
    | expr body => exact ⟨_, _, rfl, .cons (.string name) (.cons (.node (.expr body)) .nil)⟩
  | expr e =>
    cases e with
    | string offset value => exact ⟨_, _, rfl, .cons (.string value) .nil⟩
    | number offset value => exact ⟨_, _, rfl, .cons (.number value) .nil⟩
    | nil offset => exact ⟨_, [], rfl, .nil⟩
    | ident offset name => exact ⟨_, _, rfl, .cons (.string name) .nil⟩
    | array offset items => exact ⟨_, _, rfl, .single (shows_exprs items)⟩
    | map offset pairs => exact ⟨_, _, rfl, .single (shows_entries pairs)⟩
    | negate offset operand =>
      exact ⟨_, _, rfl, .cons (.string _) (.cons (.node (.expr operand)) .nil)⟩
    | binary offset op left right =>
      exact ⟨_, _, rfl,
        .cons (.string _) (.cons (.node (.expr left)) (.cons (.node (.expr right)) .nil))⟩
    | subscript offset container key =>
      exact ⟨_, _, rfl,
        .cons (.string _) (.cons (.node (.expr container)) (.cons (.node (.expr key)) .nil))⟩
    | assign offset targetOffset name value =>
      exact ⟨_, _, rfl, .cons (.string _)
        (.cons (.node (.expr (.ident targetOffset name))) (.cons (.node (.expr value)) .nil))⟩
    | store offset targetOffset container key value =>
      exact ⟨_, _, rfl, .cons (.string _)
        (.cons (.node (.expr (.subscript targetOffset container key)))
          (.cons (.node (.expr value)) .nil))⟩
    | call offset callee args =>
      exact ⟨_, _, rfl, .cons (.node (.expr callee)) (.single (shows_exprs args))⟩
    | function f =>
      obtain ⟨offset, name, params, body⟩ := f
      exact ⟨_, _, rfl, .cons (.string _)
        (.cons (shows_params params) (.cons (.node (.statement (.block body))) .nil))⟩
  | statement s =>
    cases s with
    | expr offset value => exact ⟨_, _, rfl, .cons (.node (.expr value)) .nil⟩
    | var offset name value =>
      exact ⟨_, _, rfl, .cons (.string name) (.cons (.node (.expr value)) .nil)⟩
    | block inner =>
      obtain ⟨offset, body⟩ := inner
      exact ⟨_, _, rfl, .single (shows_statements body)⟩
    | forever offset body =>
      exact ⟨_, _, rfl, .cons .null (.cons .null (.cons .null
        (.cons (.node (.statement (.block body))) .nil)))⟩
    | forEach offset item index iterable body =>
      exact ⟨_, _, rfl, .cons (.string item) (.cons (shows_optional index)
        (.cons (.node (.expr iterable)) (.cons (.node (.statement (.block body))) .nil)))⟩
    | conditional inner =>
      obtain ⟨offset, condition, thenBlock, otherwise⟩ := inner
      exact ⟨_, _, rfl, .cons (.node (.expr condition))
        (.cons (.node (.statement (.block thenBlock))) (.single (shows_alternative otherwise)))⟩
    | select offset subject cases =>
      exact ⟨_, _, rfl, .cons (.node (.expr subject)) (.single (shows_arms cases))⟩
    | returns offset value =>
      cases value with
      | none => exact ⟨_, _, rfl, .cons .null .nil⟩
      | some value => exact ⟨_, _, rfl, .cons (.node (.expr value)) .nil⟩
    | breaks offset => exact ⟨_, [], rfl, .nil⟩
    | continues offset => exact ⟨_, [], rfl, .nil⟩

/-! ## Nodes and their dumps -/

mutual

theorem Shows.contains : ∀ {value : Json} {nodes : List Node}, Shows line? value nodes →
    ∀ node ∈ nodes, value.Contains (node.dump line?)
  | _, _, .null, _, hmem | _, _, .number _, _, hmem | _, _, .string _, _, hmem => by cases hmem
  | _, _, .array hall, node, hmem => by
    obtain ⟨item, hitem, hcontains⟩ := hall.contains node hmem
    exact .of_part hitem hcontains
  | _, _, .node _, node, hmem => by
    cases List.mem_singleton.mp hmem
    exact .refl
  | _, _, .arm inner, node, hmem => by
    obtain rfl | rfl : node = .expr inner.pattern ∨ node = .statement (.block inner.body) := by
      simpa using hmem
    · exact .of_part (List.mem_cons_of_mem _ List.mem_cons_self) .refl
    · exact .of_part (List.mem_cons_of_mem _ (List.mem_cons_of_mem _ List.mem_cons_self)) .refl

theorem ShowsAll.contains : ∀ {values : List Json} {nodes : List Node},
    ShowsAll line? values nodes →
    ∀ node ∈ nodes, ∃ value ∈ values, value.Contains (node.dump line?)
  | _, _, .nil, _, hmem => by cases hmem
  | _, _, .cons hfirst hmore, node, hmem => by
    rcases List.mem_append.mp hmem with hmem | hmem
    · exact ⟨_, List.mem_cons_self, hfirst.contains node hmem⟩
    · obtain ⟨value, hvalue, hcontains⟩ := hmore.contains node hmem
      exact ⟨value, List.mem_cons_of_mem _ hvalue, hcontains⟩

end

theorem ShowsAll.exists_of_mem
    {values : List Json} {nodes : List Node} {value : Json}
    (hall : ShowsAll line? values nodes) (hmem : value ∈ values) :
    ∃ nodes', Shows line? value nodes' ∧ nodes' ⊆ nodes := by
  induction values generalizing nodes with
  | nil => cases hmem
  | cons first values ih =>
    cases hall with
    | cons hfirst hmore =>
      rcases List.mem_cons.mp hmem with rfl | hmem
      · exact ⟨_, hfirst, List.subset_append_left _ _⟩
      · obtain ⟨nodes', hnodes, hsubset⟩ := ih hmore hmem
        exact ⟨nodes', hnodes, List.subset_append_of_subset_right _ hsubset⟩

theorem mem_parts_node
    {type : String} {offset : Nat} {fields : List (String × Json)} {value : Json} :
    value ∈ (Dump.node line? type offset fields).parts ↔
      value = .string type ∨ (∃ line, line? offset = some line ∧ value = .number line) ∨
        value ∈ fields.map Prod.snd := by
  cases hline : line? offset <;> simp [Dump.node, hline, Json.parts]

theorem exists_shows_of_mem_parts
    {node : Node} {value : Json} (hmem : value ∈ (node.dump line?).parts) :
    ∃ nodes, Shows line? value nodes ∧ nodes ⊆ node.children := by
  obtain ⟨type, fields, hdump, hall⟩ := showsAll_children line? node
  rw [hdump] at hmem
  rcases mem_parts_node.mp hmem with rfl | ⟨line, _, rfl⟩ | hmem
  · exact ⟨[], .string type, List.nil_subset _⟩
  · exact ⟨[], .number line, List.nil_subset _⟩
  · exact hall.exists_of_mem hmem

/-- The dump of a node has the dumps of all nodes inside it. -/
theorem contains_dump {node inner : Node} (h : node.Contains inner) :
    (node.dump line?).Contains (inner.dump line?) := by
  induction h using Relation.ReflTransGen.head_induction_on with
  | refl => exact .refl
  | @head node child hchild _ ih =>
    obtain ⟨type, fields, hdump, hall⟩ := showsAll_children line? node
    obtain ⟨value, hvalue, hcontains⟩ := hall.contains child hchild
    have hpart : value ∈ (node.dump line?).parts := by
      rw [hdump]
      exact mem_parts_node.mpr (.inr (.inr hvalue))
    exact Json.Contains.of_part hpart (Relation.ReflTransGen.trans hcontains ih)

theorem Shows.exists_of_mem_parts
    {value inner : Json} {nodes : List Node}
    (hshown : Shows line? value nodes) (hpart : inner ∈ value.parts) :
    ∃ nodes', Shows line? inner nodes' ∧ ∀ node ∈ nodes', Node.InsideAny nodes node := by
  cases hshown with
  | null | number | string => cases hpart
  | array hall =>
    obtain ⟨nodes', hshown, hsubset⟩ := hall.exists_of_mem hpart
    exact ⟨nodes', hshown, fun node hmem => ⟨node, hsubset hmem, .refl node⟩⟩
  | node outer =>
    obtain ⟨nodes', hshown, hsubset⟩ := exists_shows_of_mem_parts hpart
    refine ⟨nodes', hshown, fun node hmem => ⟨outer, List.mem_singleton_self _, ?_⟩⟩
    exact .of_child (hsubset hmem) (.refl node)
  | arm inner =>
    have hsingle (node : Node) : ∀ node' ∈ [node], Node.InsideAny [node] node' :=
      fun node' hmem => ⟨node', hmem, .refl node'⟩
    simp only [Dump.arm, Json.parts, List.map_cons, List.map_nil, List.mem_cons, List.not_mem_nil,
      or_false] at hpart
    rcases hpart with rfl | rfl | rfl
    · exact ⟨[], .string _, fun _ hmem => by cases hmem⟩
    · refine ⟨_, .node (.expr inner.pattern), fun node hmem => ⟨node, ?_, .refl node⟩⟩
      cases List.mem_singleton.mp hmem
      exact List.mem_cons_self
    · refine ⟨_, .node (.statement (.block inner.body)), fun node hmem => ⟨node, ?_, .refl node⟩⟩
      cases List.mem_singleton.mp hmem
      exact List.mem_cons_of_mem _ List.mem_cons_self

/-- A value inside a dump stands for nodes inside those that the dump stands for. -/
theorem Shows.exists_of_contains
    {value inner : Json} {nodes : List Node}
    (hshown : Shows line? value nodes) (hcontains : value.Contains inner) :
    ∃ nodes', Shows line? inner nodes' ∧ ∀ node ∈ nodes', Node.InsideAny nodes node := by
  induction hcontains with
  | refl => exact ⟨nodes, hshown, fun node hmem => ⟨node, hmem, .refl node⟩⟩
  | tail _ hpart ih =>
    obtain ⟨middle, hmiddle, hinside⟩ := ih
    obtain ⟨nodes', hinner, hinside'⟩ := hmiddle.exists_of_mem_parts hpart
    refine ⟨nodes', hinner, fun node hmem => ?_⟩
    obtain ⟨outer, houter, hdeeper⟩ := hinside' node hmem
    obtain ⟨top, htop, hwithin⟩ := hinside outer houter
    exact ⟨top, htop, hwithin.trans hdeeper⟩

theorem line?_dump {node : Node} {line : Nat} (hline : line? node.offset = some line) :
    (node.dump line?).line? = some (.number line) := by
  obtain ⟨type, fields, hdump, -⟩ := showsAll_children line? node
  rw [hdump, Dump.node, hline]
  rfl

/-- Only nodes have lines. -/
theorem Shows.eq_dump_of_line
    {value : Json} {nodes : List Node}
    (hshown : Shows line? value nodes) (hhasLine : value.line? ≠ none) :
    ∃ node, nodes = [node] ∧ value = node.dump line? := by
  cases hshown with
  | node node => exact ⟨node, rfl, rfl⟩
  | null | number | string | array | arm => exact absurd rfl hhasLine

end

end Dump

/-! ## Scripts that have been read -/

/-- The node under which a part of a script is shown.  A function definition is shown as a
statement. -/
def Item.shown : Item → Node
  | labelled part => .part part
  | function f => .statement (.expr f.offset (.function f))

namespace Program

/-- A node is shown in the dump of a script. -/
def Shows (program : Program) (node : Node) : Prop :=
  Node.InsideAny (program.items.map Item.shown) node

variable {source : List Char} {program : Program}

theorem source_of_parse (hparsed : Program.parse source = .ok program) :
    program.source = source := by
  obtain ⟨items, _, hprogram⟩ := Parse.bind_eq_ok_iff.mp hparsed
  cases hprogram
  rfl

theorem named_of_parse (hparsed : Program.parse source = .ok program) :
    Named (program.items.map Item.node) := by
  obtain ⟨_, _, hderives⟩ := exists_eof_of_parse hparsed
  exact hderives.named_nodes (isValid_of_mem_tokens _)

theorem markedIn_of_shows
    {node : Node} (hparsed : Program.parse source = .ok program) (hshown : program.Shows node) :
    MarkedIn (Lexed.ofSource source).tokens node := by
  obtain ⟨top, htop, hcontains⟩ := hshown
  obtain ⟨item, hitem, rfl⟩ := List.mem_map.mp htop
  cases item with
  | labelled part => exact markedIn_of_contains hparsed ⟨_, hitem, hcontains⟩
  | function f =>
    rcases Node.contains_iff.mp hcontains with rfl | hinside
    · have hown := markedIn_of_contains hparsed (contains_item hitem)
      exact (markedIn_iff_of_unsigned rfl).mpr hown.mem
    · obtain ⟨child, hchild, hdeeper⟩ := hinside
      cases List.mem_singleton.mp hchild
      exact markedIn_of_contains hparsed ⟨_, hitem, hdeeper⟩

theorem dump_shown (line? : Nat → Option Nat) (item : Item) :
    item.shown.dump line? = Dump.item line? item := by
  cases item <;> rfl

/-- The lines of the offsets of a script. -/
def lines (program : Program) (offset : Nat) : Option Nat :=
  some (lineAt program.source offset)

theorem contains_dump_of_shows {node : Node} (hshown : program.Shows node) :
    program.dump.Contains (node.dump program.lines) := by
  obtain ⟨top, htop, hcontains⟩ := hshown
  obtain ⟨item, hitem, rfl⟩ := List.mem_map.mp htop
  have hinBody : item.shown.dump program.lines ∈ program.items.map (Dump.item program.lines) := by
    rw [dump_shown]
    exact List.mem_map_of_mem hitem
  exact .of_part (List.mem_cons_of_mem _ List.mem_cons_self)
    (.of_part hinBody (Dump.contains_dump hcontains))

theorem exists_shows_of_line
    {json : Json} (hcontains : program.dump.Contains json) (hhasLine : json.line? ≠ none) :
    ∃ node, program.Shows node ∧ json = node.dump program.lines := by
  rcases Relation.ReflTransGen.cases_head hcontains with rfl | ⟨part, hpart, hinside⟩
  · exact absurd rfl hhasLine
  · have hbody : Dump.Shows program.lines (.array (program.items.map (Dump.item program.lines)))
        (program.items.map Item.shown) := by
      refine .array (Dump.showsAll_map (fun item => ?_) program.items)
      rw [← dump_shown]
      exact .node item.shown
    obtain ⟨nodes, hshown⟩ : ∃ nodes, Dump.Shows program.lines part nodes ∧
        nodes ⊆ program.items.map Item.shown := by
      rcases List.mem_cons.mp hpart with rfl | hpart
      · exact ⟨[], .string _, List.nil_subset _⟩
      · cases List.mem_singleton.mp hpart
        exact ⟨_, hbody, List.Subset.refl _⟩
    obtain ⟨nodes', hinner, hwithin⟩ := hshown.1.exists_of_contains hinside
    obtain ⟨node, rfl, hdump⟩ := hinner.eq_dump_of_line hhasLine
    obtain ⟨top, htop, hdeeper⟩ := hwithin node (List.mem_singleton_self _)
    exact ⟨node, ⟨top, hshown.2 htop, hdeeper⟩, hdump⟩

/-- A script can be read back from its dump, with or without lines, up to the offsets of its nodes;
so two scripts whose dumps are equal without their lines are equal up to offsets.  Each node has the
line of its token, and nothing else in the dump has a line. -/
theorem dump_laws (hparsed : Program.parse source = .ok program) :
    Undump.items program.dumpParts = some (Erase.items program.items) ∧
    Undump.program program.dump = some (Erase.items program.items) ∧
    (∀ source' program', Program.parse source' = .ok program' →
      program.dumpParts = program'.dumpParts ∨ program.dump.unlined = program'.dump.unlined →
        Erase.items program.items = Erase.items program'.items) ∧
    (∀ node, program.Shows node →
      program.dump.Contains (node.dump program.lines) ∧
        ∃ t ∈ (Lexed.ofSource source).tokens, t.Marks node ∧
          (node.dump program.lines).line? = some (.number (lineAt source t.offset))) ∧
    ∀ json, program.dump.Contains json → json.line? ≠ none →
      ∃ node, program.Shows node ∧ json = node.dump program.lines := by
  have hdecoded := undump_dump (named_of_parse hparsed)
  have hdecodedParts := undump_dumpParts (named_of_parse hparsed)
  refine ⟨hdecodedParts, hdecoded, fun source' program' hparsed' hsame => ?_, fun node hshown => ?_,
    fun json => exists_shows_of_line⟩
  · have hdecoded' := undump_dump (named_of_parse hparsed')
    have hdecodedParts' := undump_dumpParts (named_of_parse hparsed')
    apply Option.some.inj
    rcases hsame with hsame | hsame
    · rw [← hdecodedParts, hsame, hdecodedParts']
    · rw [← hdecoded, ← undump_unlined, hsame, undump_unlined, hdecoded']
  · obtain ⟨t, htoken, hmarks⟩ := markedIn_of_shows hparsed hshown
    refine ⟨contains_dump_of_shows hshown, t, htoken, hmarks, Dump.line?_dump ?_⟩
    rw [lines, source_of_parse hparsed, hmarks.offset]

set_option maxRecDepth 10000 in
theorem dump_laws_of_store :
    ∃ program, Program.parse "p:\n  a[1] = -2".toList = .ok program ∧
      Undump.program program.dump = some [.labelled ⟨0, "p",
        .expr (.store 0 0 (.ident 0 "a") (.number 0 1) (.negate 0 (.number 0 2)))⟩] ∧
      program.dump.Contains ((Node.expr (.number 13 2)).dump program.lines) := by
  have hparsed : Program.parse "p:\n  a[1] = -2".toList = .ok ⟨[.labelled ⟨0, "p",
      .expr (.store 10 6 (.ident 5 "a") (.number 7 1) (.negate 12 (.number 13 2)))⟩],
      "p:\n  a[1] = -2".toList⟩ := by
    cbv
  obtain ⟨-, hdecoded, -, hshown, -⟩ := dump_laws hparsed
  refine ⟨_, hparsed, hdecoded, (hshown (.expr (.number 13 2)) ?_).1⟩
  refine ⟨_, List.mem_cons_self, .of_child List.mem_cons_self (.of_child
    (List.mem_cons_of_mem _ List.mem_cons_self) (.of_child List.mem_cons_self (.refl _)))⟩

end Program

end PuzzleLang
