import PuzzleLang.Proofs.Bindings
import PuzzleLang.Proofs.Run.Thinning
import PuzzleLang.Proofs.Store.Place

/-!
# Selection

A selection runs the first arm whose pattern matches its subject.  Patterns are literals, and arrays
of names and literals.  A literal matches what it equals; where the two cannot be compared, it does
not match.  An array matches the beginning of an array, and its names are bound to the items at
their places.  Trying a pattern of this kind changes nothing, so that the body of an arm starts from
the state in which the subject was given, in a new scope with the names of the pattern.
-/

namespace PuzzleLang

/-! ## Patterns -/

/-- The value that a literal stands for: a text, nil, or a number with any minus signs in front. -/
def Expr.literal? : Expr → Option Value
  | .string _ value => some (.string value)
  | .number _ value => some (.number value)
  | .nil _ => some .nil
  | .negate _ operand =>
    match operand.literal? with
    | some (.number value) => some (.number (-value))
    | _ => none
  | _ => none

/-- An item of an array pattern. -/
inductive PatternItem
  | name (name : String)
  | literal (value : Value)

/-- A pattern. -/
inductive Pattern
  | scalar (value : Value)
  | array (items : List PatternItem)

/-- The item of an array pattern that an expression is. -/
def Expr.patternItem? : Expr → Option PatternItem
  | .ident _ name => some (.name name)
  | e => e.literal?.map .literal

/-- The pattern that an expression is. -/
def Expr.pattern? : Expr → Option Pattern
  | .array _ items => (items.mapM Expr.patternItem?).map .array
  | e => e.literal?.map .scalar

/-- The operator `==` gives one for a literal and a value. -/
def Value.Equals (store : Store) (literal value : Value) : Prop :=
  Operator.equal.apply store literal value = .ok (.number 1)

/-- A subject matches a pattern: it equals a literal, or it is an array with at least as many items,
which equal the literals at their places. -/
def Pattern.Matches (store : Store) (subject : Value) : Pattern → Prop
  | .scalar literal => literal.Equals store subject
  | .array items => ∃ id, subject = .array id ∧ items.length ≤ (store.items id).size ∧
    ∀ (index : Nat) literal element, items[index]? = some (.literal literal) →
      (store.items id)[index]? = some element → literal.Equals store element

/-- A subject matches the pattern of an arm. -/
def Arm.Matches (store : Store) (subject : Value) (arm : Arm) : Prop :=
  ∃ pattern, arm.pattern.pattern? = some pattern ∧ pattern.Matches store subject

/-- The last place at which a name stands among the items of a pattern. -/
def LastPlace (items : List PatternItem) (name : String) (index : Nat) : Prop :=
  items[index]? = some (.name name) ∧ .name name ∉ items.drop (index + 1)

/-- Bindings of exactly the names of a pattern: each is bound to the item of the subject at its last
place. -/
def Pattern.Binds (store : Store) (subject : Value) (bindings : Bindings Value) : Pattern → Prop
  | .scalar _ => bindings = []
  | .array items => ∃ id, subject = .array id ∧ ∀ name value, bindings.get? name = some value ↔
    ∃ index, LastPlace items name index ∧ (store.items id)[index]? = some value

/-! ## Literals -/

section

variable {setting : Setting} {callees : Callees} {scope : ScopeId} {state : State}

theorem Expr.notName_of_literal? {e : Expr} {value : Value} (hliteral : e.literal? = some value) :
    ∀ offset name, e ≠ .ident offset name := by
  rintro offset name rfl
  cases hliteral

theorem Expr.patternItem?_cases
    {e : Expr} {item : PatternItem} (hitem : e.patternItem? = some item) :
    (∃ offset name, e = .ident offset name ∧ item = .name name) ∨
      ∃ value, e.literal? = some value ∧ item = .literal value := by
  unfold Expr.patternItem? at hitem
  split at hitem
  case h_1 offset name => exact .inl ⟨offset, name, rfl, (Option.some.inj hitem).symm⟩
  case h_2 =>
    obtain ⟨value, hliteral, hitem⟩ := Option.map_eq_some_iff.mp hitem
    exact .inr ⟨value, hliteral, hitem.symm⟩

/-- A literal has its value, and evaluating it changes nothing. -/
theorem evaluate_of_literal?
    (setting : Setting) (callees : Callees) (scope : ScopeId) (state : State) :
    ∀ {e : Expr} {value : Value}, e.literal? = some value →
      evaluate setting callees e scope state = .ok value state
  | .string _ _, _, hliteral => by
    obtain rfl := Option.some.inj hliteral
    rfl
  | .number _ _, _, hliteral => by
    obtain rfl := Option.some.inj hliteral
    rfl
  | .nil _, _, hliteral => by
    obtain rfl := Option.some.inj hliteral
    rfl
  | .negate offset operand, value, hliteral => by
    rw [Expr.literal?] at hliteral
    split at hliteral
    case h_2 => cases hliteral
    case h_1 number hnumber =>
      obtain rfl := Option.some.inj hliteral
      have hran := evaluate_of_literal? setting callees scope state hnumber
      rw [evaluate, Run.bind_of_ok hran]
      rfl

/-- A value matches just if `==` gives one for it. -/
theorem matchesValue_iff (store : Store) (value expected : Value) :
    Run.matchesValue value expected = true ↔ expected.Equals store value := by
  have happly : Operator.equal.apply store expected value =
      (expected.equals value).map Value.ofBool := rfl
  rw [Value.Equals, happly, Run.matchesValue]
  cases expected.equals value with
  | error cause => simp [Except.map]
  | ok same => cases same <;> simp [Except.map, Value.ofBool]

/-- The comparison of a text with a text pattern is the general one. -/
theorem matchText_eq_matchValue (text : String) (subject : Value) :
    Run.matchText text subject = Run.matchValue subject (.string text) := by
  unfold Run.matchText Run.matchValue Run.matchesValue
  cases subject with
  | string value =>
    have hsame : (text == value) = (value == text) := BEq.comm
    simp only [Value.equals, hsame]
  | _ => rfl

/-! ## The items of an array pattern -/

/-- The items of an array from an index on equal the literals of a pattern. -/
def LiteralsFit (store : Store) (id : ArrayId) (index : Nat) (items : List PatternItem) : Prop :=
  ∀ (place : Nat) literal element, items[place]? = some (.literal literal) →
    (store.items id)[index + place]? = some element → literal.Equals store element

/-- Binds the names of a pattern to the items of an array from an index on. -/
def bindItems (elements : Array Value) :
    List PatternItem → (index : Nat) → (made : Bindings Value) → Bindings Value
  | [], _, made => made
  | .name name :: items, index, made =>
    bindItems elements items (index + 1) (made.put name (elements.getD index .nil))
  | .literal _ :: items, index, made => bindItems elements items (index + 1) made

section

variable {store : Store} {id : ArrayId} {items : List PatternItem} {index : Nat}

theorem literalsFit_nil : LiteralsFit store id index [] := by
  intro place literal element hliteral
  cases hliteral

theorem literalsFit_name_iff {name : String} :
    LiteralsFit store id index (.name name :: items) ↔ LiteralsFit store id (index + 1) items := by
  constructor
  · intro hfits place literal element hliteral helement
    have hshifted : index + 1 + place = index + (place + 1) := by omega
    rw [hshifted] at helement
    exact hfits (place + 1) literal element hliteral helement
  · intro hfits place literal element hliteral helement
    cases place with
    | zero => cases hliteral
    | succ place =>
      have hshifted : index + (place + 1) = index + 1 + place := by omega
      rw [hshifted] at helement
      exact hfits place literal element hliteral helement

theorem literalsFit_literal_iff {literal : Value} (hinside : index < (store.items id).size) :
    LiteralsFit store id index (.literal literal :: items) ↔
      literal.Equals store ((store.items id).getD index .nil) ∧
        LiteralsFit store id (index + 1) items := by
  have hhere : (store.items id)[index]? = some ((store.items id).getD index .nil) := by
    simp [Array.getElem?_eq_getElem hinside]
  constructor
  · intro hfits
    refine ⟨hfits 0 literal _ rfl hhere, ?_⟩
    intro place expected element hliteral helement
    have hshifted : index + 1 + place = index + (place + 1) := by omega
    rw [hshifted] at helement
    exact hfits (place + 1) expected element hliteral helement
  · rintro ⟨hequal, hfits⟩ place expected element hliteral helement
    cases place with
    | zero =>
      obtain rfl : literal = expected := by
        rw [List.getElem?_cons_zero] at hliteral
        exact PatternItem.literal.inj (Option.some.inj hliteral)
      rw [Nat.add_zero, hhere] at helement
      exact Option.some.inj helement ▸ hequal
    | succ place =>
      have hshifted : index + (place + 1) = index + 1 + place := by omega
      rw [hshifted] at helement
      exact hfits place expected element hliteral helement

end

/-- Trying the items of an array pattern changes nothing.  They match if the literals fit, and bind
the names then. -/
theorem matchItems_of_pattern
    {id : ArrayId} {items : List Expr} {parts : List PatternItem} {index : Nat}
    (hpatterns : items.mapM Expr.patternItem? = some parts)
    (hinside : index + items.length ≤ (state.store.items id).size) (made : Bindings Value) :
    ∃ result, matchItems setting callees scope id items index made state = .ok result state ∧
      ∀ bindings, result = some bindings ↔ LiteralsFit state.store id index parts ∧
        bindings = bindItems (state.store.items id) parts index made := by
  induction items generalizing index made parts with
  | nil =>
    obtain rfl : parts = [] := (Option.some.inj hpatterns).symm
    refine ⟨some made, rfl, ?_⟩
    intro bindings
    rw [Option.some_inj, eq_comm, bindItems]
    exact (and_iff_right literalsFit_nil).symm
  | cons item items ih =>
    rw [List.mapM_cons] at hpatterns
    obtain ⟨part, hpart, hrest⟩ := Option.bind_eq_some_iff.mp hpatterns
    obtain ⟨later, hlater, hparts⟩ := Option.bind_eq_some_iff.mp hrest
    obtain rfl : part :: later = parts := Option.some.inj hparts
    rw [List.length_cons] at hinside
    have hinsideLater : index + 1 + items.length ≤ (state.store.items id).size := by omega
    rcases Expr.patternItem?_cases hpart with ⟨offset, name, rfl, rfl⟩ | ⟨literal, hliteral, rfl⟩
    · simp only [literalsFit_name_iff]
      exact ih hlater hinsideLater _
    · have hhere : index < (state.store.items id).size := by omega
      have hread : Run.itemAt id index state =
          .ok ((state.store.items id).getD index .nil) state := rfl
      have hran := evaluate_of_literal? setting callees scope state hliteral
      rw [Accord.matchItems_cons (Expr.notName_of_literal? hliteral), Run.bind_of_ok hread,
        Run.bind_of_ok hran]
      simp only [literalsFit_literal_iff hhere]
      by_cases hequal : literal.Equals state.store ((state.store.items id).getD index .nil)
      · rw [if_pos ((matchesValue_iff _ _ _).mpr hequal)]
        simp only [hequal, true_and]
        exact ih hlater hinsideLater made
      · rw [if_neg ((matchesValue_iff _ _ _).not.mpr hequal)]
        refine ⟨none, rfl, ?_⟩
        intro bindings
        simp only [hequal, false_and, reduceCtorEq]

/-! ## The names of an array pattern -/

section

variable {elements : Array Value} {items : List PatternItem} {name : String}

theorem lastPlace_zero_iff {item : PatternItem} :
    LastPlace (item :: items) name 0 ↔ item = .name name ∧ .name name ∉ items := by
  simp [LastPlace]

theorem lastPlace_succ_iff {item : PatternItem} {place : Nat} :
    LastPlace (item :: items) name (place + 1) ↔ LastPlace items name place := by
  simp [LastPlace]

/-- A name has the item at its last place, and one that does not occur keeps its value. -/
theorem get?_bindItems_iff (value : Value) (index : Nat) (made : Bindings Value) :
    (bindItems elements items index made).get? name = some value ↔
      (∃ place, LastPlace items name place ∧ elements.getD (index + place) .nil = value) ∨
        .name name ∉ items ∧ made.get? name = some value := by
  induction items generalizing index made with
  | nil => simp [bindItems, LastPlace]
  | cons item items ih =>
    have hsplit : (∃ place, LastPlace (item :: items) name place ∧
          elements.getD (index + place) .nil = value) ↔
        (item = .name name ∧ .name name ∉ items) ∧ elements.getD index .nil = value ∨
          ∃ place, LastPlace items name place ∧ elements.getD (index + 1 + place) .nil = value := by
      rw [← Nat.or_exists_add_one, lastPlace_zero_iff]
      refine or_congr Iff.rfl (exists_congr fun place => ?_)
      rw [lastPlace_succ_iff, Nat.add_right_comm, Nat.add_assoc]
    rw [hsplit, List.mem_cons]
    cases item with
    | literal literal =>
      rw [bindItems, ih]
      simp
    | name bound =>
      rw [bindItems, ih]
      by_cases hsame : bound = name
      · obtain rfl := hsame
        rw [Bindings.get?_put_self]
        by_cases hlater : PatternItem.name bound ∈ items
        · simp [hlater]
        · simp [hlater, or_comm]
      · have hother : PatternItem.name bound ≠ .name name := fun hequal =>
          hsame (PatternItem.name.inj hequal)
        rw [Bindings.get?_put_of_ne hsame]
        simp [hother, hother.symm]

theorem nodup_names_bindItems (index : Nat) {made : Bindings Value} (hnodup : made.names.Nodup) :
    (bindItems elements items index made).names.Nodup := by
  induction items generalizing index made with
  | nil => exact hnodup
  | cons item items ih =>
    cases item with
    | literal literal => exact ih (index + 1) hnodup
    | name bound => exact ih (index + 1) (Bindings.nodup_names_put hnodup bound _)

end

/-! ## Patterns and arms -/

/-- The bindings that a pattern makes of a subject that matches it. -/
def Pattern.bindings (store : Store) : Value → Pattern → Bindings Value
  | .array id, .array items => bindItems (store.items id) items 0 []
  | _, _ => []

theorem Pattern.matches_array_iff
    {store : Store} {id : ArrayId} {items : List PatternItem}
    (hlong : items.length ≤ (store.items id).size) :
    (Pattern.array items).Matches store (.array id) ↔ LiteralsFit store id 0 items := by
  unfold Pattern.Matches LiteralsFit
  simp only [Nat.zero_add]
  constructor
  · rintro ⟨id', harray, _, hfits⟩
    obtain rfl : id = id' := Value.array.inj harray
    exact hfits
  · intro hfits
    exact ⟨id, rfl, hlong, hfits⟩

theorem Pattern.nodup_names_bindings (store : Store) (subject : Value) (pattern : Pattern) :
    (pattern.bindings store subject).names.Nodup := by
  unfold Pattern.bindings
  split
  · exact nodup_names_bindItems 0 List.nodup_nil
  · exact List.nodup_nil

theorem Pattern.binds_bindings
    {store : Store} {subject : Value} {pattern : Pattern} (hmatch : pattern.Matches store subject) :
    pattern.Binds store subject (pattern.bindings store subject) := by
  cases pattern with
  | scalar literal => simp only [Pattern.Binds, Pattern.bindings]
  | array items =>
    obtain ⟨id, rfl, hlong, hfits⟩ := hmatch
    refine ⟨id, rfl, ?_⟩
    intro name value
    rw [Pattern.bindings, get?_bindItems_iff]
    have hnone : ¬ (.name name ∉ items ∧ Bindings.get? [] name = some value) := by
      rintro ⟨_, ⟨⟩⟩
    rw [or_iff_left hnone]
    refine exists_congr fun place => and_congr_right fun hlast => ?_
    have hinside : place < (store.items id).size := by
      obtain ⟨hbound, _⟩ := List.getElem?_eq_some_iff.mp hlast.1
      omega
    rw [Nat.zero_add, Array.getD_eq_getD_getElem?, Array.getElem?_eq_getElem hinside,
      Option.getD_some, Option.some_inj]

theorem matchValue_eq_some_iff
    {store : Store} {subject literal : Value} {bindings : Bindings Value} :
    Run.matchValue subject literal = some bindings ↔
      (Pattern.scalar literal).Matches store subject ∧
        bindings = (Pattern.scalar literal).bindings store subject := by
  have hnoNames : (Pattern.scalar literal).bindings store subject = [] := by
    simp only [Pattern.bindings]
  rw [hnoNames, Pattern.Matches, ← matchesValue_iff, Run.matchValue]
  split
  case isTrue hsame => simp [hsame, eq_comm]
  case isFalse hother => simp [hother]

theorem length_of_mapM_patternItem?
    {items : List Expr} {parts : List PatternItem}
    (hparts : items.mapM Expr.patternItem? = some parts) :
    parts.length = items.length := by
  induction items generalizing parts with
  | nil =>
    obtain rfl : parts = [] := (Option.some.inj hparts).symm
    rfl
  | cons item items ih =>
    rw [List.mapM_cons] at hparts
    obtain ⟨part, _, hrest⟩ := Option.bind_eq_some_iff.mp hparts
    obtain ⟨later, hlater, hisParts⟩ := Option.bind_eq_some_iff.mp hrest
    obtain rfl : part :: later = parts := Option.some.inj hisParts
    rw [List.length_cons, List.length_cons, ih hlater]

theorem arrayOfSize_eq_none
    {size : Nat} {subject : Value}
    (hshort : ¬ ∃ id, subject = .array id ∧ size ≤ (state.store.items id).size) :
    Run.arrayOfSize size subject state = .ok none state := by
  by_cases harray : ∃ id, subject = .array id
  · obtain ⟨id, rfl⟩ := harray
    have hless : (state.store.items id).size < size := by
      by_contra hlong
      exact hshort ⟨id, rfl, Nat.not_lt.mp hlong⟩
    rw [Run.arrayOfSize, Run.bind_of_ok (Run.get_of_state state), if_pos hless]
    rfl
  · unfold Run.arrayOfSize
    split
    · exact absurd ⟨_, rfl⟩ harray
    · rfl

theorem arrayOfSize_eq_some
    {size : Nat} {id : ArrayId} (hlong : size ≤ (state.store.items id).size) :
    Run.arrayOfSize size (.array id) state = .ok (some id) state := by
  rw [Run.arrayOfSize, Run.bind_of_ok (Run.get_of_state state), if_neg (Nat.not_lt.mpr hlong)]
  rfl

/-- Trying a pattern changes nothing, and it makes its bindings if it matches. -/
theorem matchPattern_of_pattern
    {e : Expr} {pattern : Pattern} {subject : Value} (hpattern : e.pattern? = some pattern) :
    ∃ result, matchPattern setting callees e subject scope state = .ok result state ∧
      ∀ bindings, result = some bindings ↔ pattern.Matches state.store subject ∧
        bindings = pattern.bindings state.store subject := by
  unfold Expr.pattern? at hpattern
  split at hpattern
  case h_1 offset items =>
    obtain ⟨parts, hparts, rfl⟩ := Option.map_eq_some_iff.mp hpattern
    have hsameLength := length_of_mapM_patternItem? hparts
    by_cases hfound : ∃ id, subject = .array id ∧ items.length ≤ (state.store.items id).size
    · obtain ⟨id, rfl, hlong⟩ := hfound
      have hinside : 0 + items.length ≤ (state.store.items id).size := by omega
      obtain ⟨result, hran, hresult⟩ := matchItems_of_pattern hparts hinside []
      refine ⟨result, ?_, ?_⟩
      · rw [matchPattern, Run.bind_of_ok (arrayOfSize_eq_some hlong)]
        exact hran
      · intro bindings
        rw [hresult, Pattern.bindings, Pattern.matches_array_iff (hsameLength ▸ hlong)]
    · refine ⟨none, ?_, ?_⟩
      · rw [matchPattern, Run.bind_of_ok (arrayOfSize_eq_none hfound)]
        rfl
      · intro bindings
        constructor
        · rintro ⟨⟩
        · rintro ⟨⟨id, harray, hlong, _⟩, _⟩
          exact absurd ⟨id, harray, hsameLength ▸ hlong⟩ hfound
  case h_2 hnotArray =>
    obtain ⟨literal, hliteral, rfl⟩ := Option.map_eq_some_iff.mp hpattern
    refine ⟨Run.matchValue subject literal, ?_, fun _ => matchValue_eq_some_iff⟩
    by_cases htext : ∃ offset text, e = .string offset text
    · obtain ⟨offset, text, rfl⟩ := htext
      obtain rfl := Option.some.inj hliteral
      rw [← matchText_eq_matchValue]
      rfl
    · have hran := evaluate_of_literal? setting callees scope state hliteral
      have hgeneral : matchPattern setting callees e subject scope = (do
          return Run.matchValue subject (← evaluate setting callees e scope)) := by
        unfold matchPattern
        split
        · exact absurd ⟨_, _, rfl⟩ htext
        · exact absurd rfl (hnotArray _ _)
        · rfl
      rw [hgeneral, Run.bind_of_ok hran]
      rfl

/-! ## Selection -/

/-- The body of an arm starts: its scope is new, stands inside that of the selection, and binds
exactly the names of the pattern.  All else is as it was given, the trace apart. -/
structure ArmStart (scope : ScopeId) (subject : Value) (pattern : Pattern) (given : State)
    (inner : ScopeId) (ready : State) : Prop where
  fresh : given.store.scope? inner = none
  bound : ∃ bindings, ready.store.scope? inner = some ⟨some scope, bindings⟩ ∧
    pattern.Binds given.store subject bindings
  others : ∀ id, id ≠ inner → ready.store.scope? id = given.store.scope? id
  arrays : ready.store.arrays = given.store.arrays
  maps : ready.store.maps = given.store.maps
  output : ready.output = given.output
  active : ready.active = given.active
  asked : ready.asked = given.asked

theorem recordSelect_of_told
    {subject : Value} {offset : Nat}
    (htold : ¬ (Event.select subject offset).Untold setting state.store) :
    ∃ trace, Run.recordSelect setting subject offset state = .ok () { state with trace } := by
  by_cases htraced : (Event.select subject offset).level ≤ setting.level
  · have htoldAll : ∀ value ∈ (Event.select subject offset).values,
        state.store.render? value ≠ none := by
      intro value hmem huntold
      exact htold ⟨htraced, value, hmem, huntold⟩
    obtain ⟨made, _, hmade⟩ := Run.entry_of_told htoldAll setting.lineOf
    exact ⟨_, Run.trace_of_made htraced (hmade setting state rfl rfl) offset⟩
  · exact ⟨_, Run.trace_of_untraced htraced offset⟩

theorem Store.scope?_defineAll_newScope
    (store : Store) (parent : Option ScopeId) (pairs : List (String × Value)) (id : ScopeId) :
    ((store.newScope parent).2.defineAll (store.newScope parent).1 pairs).scope? id =
      if id = (store.newScope parent).1 then some ⟨parent, Bindings.putAll [] pairs⟩
      else store.scope? id := by
  obtain ⟨index⟩ := id
  simp only [Store.newScope, Store.defineAll, Store.scope?, Array.getElem?_modify,
    Array.getElem?_push, ScopeId.mk.injEq]
  by_cases hnew : index = store.scopes.size
  · simp [hnew]
  · simp [hnew, Ne.symm hnew]

/-- The scope of an arm is made after the others and gets the bindings of the pattern. -/
theorem exists_armStart
    {subject : Value} {pattern : Pattern} {arm : Arm}
    (hmatch : pattern.Matches state.store subject)
    (htold : ¬ (Event.select subject arm.pattern.offset).Untold setting state.store) :
    ∃ inner ready, ArmStart scope subject pattern state inner ready ∧
      Run.takeArm setting callees scope subject arm (pattern.bindings state.store subject) state =
        executeBody setting callees arm.body inner ready := by
  obtain ⟨trace, hrecorded⟩ := recordSelect_of_told htold
  have hput : Bindings.putAll [] (pattern.bindings state.store subject) =
      pattern.bindings state.store subject :=
    Bindings.putAll_of_nodup (pattern.nodup_names_bindings state.store subject)
  have hscopes := Store.scope?_defineAll_newScope state.store (some scope)
    (pattern.bindings state.store subject)
  rw [hput] at hscopes
  refine ⟨(state.store.newScope (some scope)).1, { state with
    store := (state.store.newScope (some scope)).2.defineAll (state.store.newScope (some scope)).1
      (pattern.bindings state.store subject)
    trace }, ?_, ?_⟩
  · exact {
      fresh := Array.getElem?_size
      bound := ⟨_, (hscopes _).trans (if_pos rfl), pattern.binds_bindings hmatch⟩
      others := fun id hother => (hscopes id).trans (if_neg hother)
      arrays := rfl
      maps := rfl
      output := rfl
      active := rfl
      asked := rfl }
  · rw [Run.takeArm, Run.bind_of_ok hrecorded]
    rfl

theorem executeArms_of_misses
    {subject : Value} {before arms : List Arm}
    (hpatterns : ∀ arm ∈ before, arm.pattern.pattern? ≠ none)
    (hmisses : ∀ arm ∈ before, ¬ arm.Matches state.store subject) :
    executeArms setting callees (before ++ arms) subject scope state =
      executeArms setting callees arms subject scope state := by
  induction before with
  | nil => rfl
  | cons arm before ih =>
    obtain ⟨hpattern, hpatterns⟩ := List.forall_mem_cons.mp hpatterns
    obtain ⟨hmissesArm, hmisses⟩ := List.forall_mem_cons.mp hmisses
    obtain ⟨pattern, hpattern⟩ := Option.ne_none_iff_exists'.mp hpattern
    obtain ⟨result, htried, hresult⟩ := matchPattern_of_pattern hpattern
    have hnone : result = none := by
      by_contra hsome'
      obtain ⟨bindings, hsome⟩ := Option.ne_none_iff_exists'.mp hsome'
      exact hmissesArm ⟨pattern, hpattern, ((hresult bindings).mp hsome).1⟩
    rw [List.cons_append, executeArms_cons, Run.bind_of_ok htried, hnone]
    exact ih hpatterns hmisses

theorem executeArms_of_match
    {subject : Value} {arm : Arm} {pattern : Pattern}
    (hpattern : arm.pattern.pattern? = some pattern) (hmatch : pattern.Matches state.store subject)
    (arms : List Arm) :
    executeArms setting callees (arm :: arms) subject scope state =
      Run.takeArm setting callees scope subject arm (pattern.bindings state.store subject)
        state := by
  obtain ⟨result, htried, hresult⟩ := matchPattern_of_pattern hpattern
  have hsome := (hresult _).mpr ⟨hmatch, rfl⟩
  rw [executeArms_cons, Run.bind_of_ok htried, hsome]

/-- A selection runs the body of the first arm that matches, in a scope that binds exactly the names
of its pattern, and nothing if no arm matches.  The choice is traced before; if a traced subject has
no text, the selection halts there. -/
theorem select_runs_first_match
    {subject : Value} {e : Expr} {arms : List Arm} {given : State}
    (hevaluated : evaluate setting callees e scope state = .ok subject given)
    (hpatterns : ∀ arm ∈ arms, arm.pattern.pattern? ≠ none) (offset : Nat) :
    ((∀ arm ∈ arms, ¬ arm.Matches given.store subject) →
        execute setting callees (.select offset e arms) scope state = .ok .next given) ∧
      (∀ before arm later pattern, arms = before ++ arm :: later →
        (∀ other ∈ before, ¬ other.Matches given.store subject) →
        arm.pattern.pattern? = some pattern → pattern.Matches given.store subject →
        ((Event.select subject arm.pattern.offset).Untold setting given.store →
            (execute setting callees (.select offset e arms) scope).Halts state
              (.fault ⟨.recursionLimit, some arm.pattern.offset⟩)) ∧
          (¬ (Event.select subject arm.pattern.offset).Untold setting given.store →
            ∃ inner ready, ArmStart scope subject pattern given inner ready ∧
              execute setting callees (.select offset e arms) scope state =
                executeBody setting callees arm.body inner ready)) ∧
      ∀ text, Run.matchText text subject = Run.matchValue subject (.string text) := by
  have hselects : execute setting callees (.select offset e arms) scope state =
      executeArms setting callees arms subject scope given := by
    rw [execute, Run.bind_of_ok hevaluated]
  refine ⟨?_, ?_, fun text => matchText_eq_matchValue text subject⟩
  · intro hmisses
    have hpassed : executeArms setting callees (arms ++ []) subject scope given =
        executeArms setting callees [] subject scope given :=
      executeArms_of_misses hpatterns hmisses
    rw [List.append_nil] at hpassed
    rw [hselects, hpassed]
    rfl
  · rintro before arm later pattern rfl hmisses hpattern hmatch
    have hpassed : ∀ other ∈ before, other.pattern.pattern? ≠ none := fun other hmem =>
      hpatterns other (List.mem_append_left _ hmem)
    rw [executeArms_of_misses hpassed hmisses, executeArms_of_match hpattern hmatch] at hselects
    constructor
    · intro huntold
      have hhalted : (Run.recordSelect setting subject arm.pattern.offset).Halts given
          (.fault ⟨.recursionLimit, some arm.pattern.offset⟩) :=
        Run.halts_trace_iff.mpr ⟨huntold, rfl⟩
      rw [Run.Halts, hselects]
      exact hhalted.bind
    · intro htold
      rw [hselects]
      exact exists_armStart hmatch htold

end

/-- The arms of a selection: a text, an array that begins in another way, and an array that names
its first and its third item alike. -/
def Arm.choices : List Arm :=
  [⟨.string 20 "a", ⟨24, []⟩⟩,
    ⟨.array 30 [.number 31 1, .string 34 "b"], ⟨39, []⟩⟩,
    ⟨.array 45 [.ident 46 "x", .string 49 "a", .ident 54 "x"],
      ⟨57, [.returns 59 (some (.ident 66 "x"))]⟩⟩]

/-- The state in which an array of a number, a text and a number has been made. -/
def State.withTriple : State :=
  { State.initial with
    store := (Store.initial.newArray #[.number 1, .string "a", .number 3]).2 }

/-- Of these arms the last one is chosen for the array, and its name has the third item. -/
theorem choices_bind_last_place :
    let setting := Setting.ofProgram ⟨[], []⟩ 0 ⟨fun _ _ _ => .missing⟩ .standard
    let callees : Callees := ⟨fun _ _ _ => pure .nil, fun _ => pure .nil⟩
    let triple := Expr.array 6 [.number 7 1, .string 10 "a", .number 15 3]
    ∃ inner ready, (ready.store.own inner).get? "x" = some (.number 3) ∧
      execute setting callees (.select 0 triple Arm.choices) rootScope State.initial =
        executeBody setting callees ⟨57, [.returns 59 (some (.ident 66 "x"))]⟩ inner ready := by
  intro setting callees triple
  have hevaluated : evaluate setting callees triple rootScope State.initial =
      .ok (.array ⟨0⟩) State.withTriple := rfl
  have hpatterns : ∀ arm ∈ Arm.choices, arm.pattern.pattern? ≠ none := by
    simp [Arm.choices, Expr.pattern?, Expr.patternItem?, Expr.literal?]
  have hmisses : ∀ other ∈ Arm.choices.take 2,
      ¬ other.Matches State.withTriple.store (.array ⟨0⟩) := by
    intro other hmem
    have hcases : other ∈ [_, _] := hmem
    rcases List.mem_pair.mp hcases with rfl | rfl
    · rintro ⟨pattern, ⟨⟩, ⟨⟩⟩
    · rintro ⟨pattern, ⟨⟩, id, ⟨⟩, hlong, hfits⟩
      have hequal := hfits 1 (.string "b") (.string "a") rfl rfl
      exact absurd hequal (by rintro ⟨⟩)
  have hmatch : (Pattern.array [.name "x", .literal (.string "a"), .name "x"]).Matches
      State.withTriple.store (.array ⟨0⟩) := by
    have hfits : LiteralsFit State.withTriple.store ⟨0⟩ 1 [.literal (.string "a"), .name "x"] :=
      (literalsFit_literal_iff (by decide)).mpr ⟨rfl, literalsFit_name_iff.mpr literalsFit_nil⟩
    exact (Pattern.matches_array_iff (by decide)).mpr (literalsFit_name_iff.mpr hfits)
  have htold : ¬ (Event.select (.array ⟨0⟩) 45).Untold setting State.withTriple.store := by
    rintro ⟨htraced, _⟩
    exact absurd htraced (by decide)
  obtain ⟨inner, ready, hstart, hran⟩ :=
    ((select_runs_first_match hevaluated hpatterns 0).2.1 (Arm.choices.take 2) _ [] _ rfl hmisses
      rfl hmatch).2 htold
  refine ⟨inner, ready, ?_, hran⟩
  obtain ⟨bindings, hbound, id, ⟨⟩, hbinds⟩ := hstart.bound
  rw [Store.own, hbound]
  exact (hbinds "x" (.number 3)).mpr ⟨2, ⟨rfl, List.not_mem_nil⟩, rfl⟩

end PuzzleLang
