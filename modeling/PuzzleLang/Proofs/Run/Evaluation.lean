import PuzzleLang.Proofs.Run.Native
import PuzzleLang.Proofs.Run.Rounds

/-!
# Evaluation in accord

Trees that are alike are evaluated in accord: what holds for the single steps of a run holds for
expressions, patterns, loops and statements.  A block needs less than a statement, since it makes a
scope of its own: it may be run where names may be looked up but not bound.
-/

namespace PuzzleLang

theorem Expr.Like.ident_or {offsets : Nat → Nat → Prop} {e e' : Expr} (h : Expr.Like offsets e e') :
    (∃ o o' name, e = .ident o name ∧ e' = .ident o' name) ∨
      (∀ o name, e ≠ .ident o name) ∧ ∀ o name, e' ≠ .ident o name := by
  cases h with
  | @ident o o' name _ => exact .inl ⟨o, o', name, rfl, rfl⟩
  | _ => exact .inr ⟨nofun, nofun⟩

theorem Expr.LikeAll.length
    {offsets : Nat → Nat → Prop} {items items' : List Expr}
    (h : Expr.LikeAll offsets items items') :
    items'.length = items.length := by
  induction items generalizing items' with
  | nil =>
    cases h
    rfl
  | cons item items ih =>
    cases h with | cons _ hmore
    rw [List.length_cons, List.length_cons, ih hmore]

/-- What is handed in to two evaluations is in accord. -/
structure Callees.Alike (A : Accord) (callees callees' : Callees) : Prop where
  call {store : Store} {offset offset' : Nat} {closure closure' : Closure}
      {args args' : List Value} :
    A.offsets offset offset' → A.values store (.closure closure) (.closure closure') →
      List.Forall₂ (A.values store) args args' →
      A.Alike A.values store (callees.call offset closure args)
        (callees'.call offset' closure' args')
  enter {store : Store} {name target : String} :
    A.allowed store (.native (.evaluate name target)) →
      A.Alike A.values store (callees.enter target) (callees'.enter target)

namespace Accord

variable {A : Accord} {setting setting' : Setting} {callees callees' : Callees} {start : Store}

/-- The bindings that two patterns make, if they match. -/
def matched (A : Accord) (store : Store) :
    Option (Bindings Value) → Option (Bindings Value) → Prop :=
  Option.Rel (List.Forall₂ (A.bindings store))

/-- Elements with their indices or keys that correspond. -/
def elements (A : Accord) (store : Store) (pair pair' : Value × Value) : Prop :=
  A.values store pair.1 pair'.1 ∧ A.values store pair.2 pair'.2

/-- Two loops run over the same, up to what corresponds. -/
inductive iterations (A : Accord) (store : Store) : Iteration → Iteration → Prop
  | elements {pairs pairs' : List (Value × Value)} :
    List.Forall₂ (A.elements store) pairs pairs' →
      iterations A store (.elements pairs) (.elements pairs')
  | numbers (range : Range) : iterations A store (.numbers range) (.numbers range)

namespace Laws

variable (hlaws : A.Laws setting setting')

include hlaws

/-! ## Calls and functions -/

theorem alike_callValue
    {offset offset' : Nat} {callee callee' : Value} {args args' : List Value}
    (hcalled : Callees.Alike A callees callees') (hcorrespond : A.offsets offset offset')
    (hfunctions : A.values start callee callee')
    (hvalues : List.Forall₂ (A.values start) args args') :
    A.Alike A.values start (Run.callValue setting callees offset callee args)
      (Run.callValue setting' callees' offset' callee' args') := by
  refine (hlaws.record (.call hfunctions hvalues) hcorrespond).bind fun store _ _ hgrows _ => ?_
  obtain ⟨hlike, hallowed⟩ := hlaws.values_mono hgrows hfunctions
  have hvalues := hlaws.values_mono_all hgrows hvalues
  cases hlike with
  | closure hlike => exact hcalled.call hcorrespond ⟨.closure hlike, hallowed⟩ hvalues
  | same =>
    cases callee with
    | native native =>
      refine Alike.relocate (hlaws.alike_call (fun name target hhost => ?_) hvalues) hcorrespond
      rw [hhost] at hallowed
      exact hcalled.enter hallowed
    | closure closure => rename_i hnotClosure; exact absurd rfl (hnotClosure closure)
    | nil | number | string | array | map | range => exact alike_failAt hcorrespond _

theorem alike_makeFunction
    {f f' : Function} {scope : ScopeId}
    (hlike : Function.Like A.offsets f f') (hhosts : A.hosts start scope) :
    A.Alike A.values start (Run.makeFunction setting f scope)
      (Run.makeFunction setting' f' scope) := by
  have hvalues {store : Store} (hgrows : start.Grows store) :
      A.values store (.closure ⟨f, scope⟩) (.closure ⟨f', scope⟩) :=
    ⟨.closure hlike, hlaws.closure (hlaws.reads_mono hgrows hhosts.1)⟩
  cases hlike with | @mk o o' name params body body' hcorrespond _
  cases name with
  | none => exact alike_pure fun _ hgrows => hvalues hgrows
  | some name =>
    refine (hlaws.alike_define hhosts.2 (hvalues (.refl _)) name).bind fun _ _ _ hgrows _ => ?_
    refine (hlaws.record (.defineFunction name params) hcorrespond).bind fun _ _ _ hmore _ => ?_
    exact alike_pure fun _ hlater => hvalues ((hgrows.trans hmore).trans hlater)

/-! ## Loops -/

theorem elements_zipIdx
    {store : Store} {items items' : List Value}
    (h : List.Forall₂ (A.values store) items items') (index : Nat) :
    List.Forall₂ (A.elements store)
      ((items.zipIdx index).map fun pair => (pair.1, .number pair.2))
      ((items'.zipIdx index).map fun pair => (pair.1, .number pair.2)) := by
  induction h generalizing index with
  | nil => exact .nil
  | cons hfirst _ ih => exact .cons ⟨hfirst, hlaws.values_plain (.number _)⟩ (ih (index + 1))

theorem elements_entries
    {store : Store} {entries entries' : Bindings Value}
    (h : List.Forall₂ (A.bindings store) entries entries') :
    List.Forall₂ (A.elements store)
      (entries.map fun entry => (entry.2, .string entry.1))
      (entries'.map fun entry => (entry.2, .string entry.1)) := by
  rw [List.forall₂_map_left_iff, List.forall₂_map_right_iff]
  refine h.imp fun entry entry' hsame => ⟨hsame.2, ?_⟩
  rw [hsame.1]
  exact hlaws.values_plain (.string _)

theorem like_iteration
    {s s' : State} {value value' : Value}
    (hstates : A.states s s') (hvalues : A.values s.store value value') :
    ExceptLike (A.iterations s.store) (s.store.iteration value) (s'.store.iteration value') := by
  obtain ⟨hlike, hallowed⟩ := hvalues
  cases hlike with
  | closure => exact .error _
  | same =>
    cases value with
    | array id => exact .ok (.elements (hlaws.elements_zipIdx (hlaws.items hstates hallowed) 0))
    | map id => exact .ok (.elements (hlaws.elements_entries (hlaws.entries hstates hallowed)))
    | range range => exact .ok (.numbers range)
    | nil | number | string | native | closure => exact .error _

theorem elements_mono
    {store store' : Store} {pairs pairs' : List (Value × Value)}
    (hgrows : store.Grows store') (h : List.Forall₂ (A.elements store) pairs pairs') :
    List.Forall₂ (A.elements store') pairs pairs' :=
  h.imp fun _ _ hsame => ⟨hlaws.values_mono hgrows hsame.1, hlaws.values_mono hgrows hsame.2⟩

theorem iterations_mono
    {store store' : Store} {iteration iteration' : Iteration}
    (hgrows : store.Grows store') (h : A.iterations store iteration iteration') :
    A.iterations store' iteration iteration' := by
  cases h with
  | elements hpairs => exact .elements (hlaws.elements_mono hgrows hpairs)
  | numbers range => exact .numbers range

theorem alike_rounds
    {α : Type} {R : Store → α → α → Prop} {body body' : α → Run Flow} {after after' : Run Flow}
    {items items' : List α}
    (hmono : ∀ {store store' item item'}, store.Grows store' → R store item item' →
      R store' item item')
    (hbody : ∀ store item item', start.Grows store → R store item item' →
      A.Alike A.flows store (body item) (body' item'))
    (hafter : A.Alike A.flows start after after') (hitems : List.Forall₂ (R start) items items') :
    A.Alike A.flows start (Run.rounds body after items) (Run.rounds body' after' items') := by
  induction items generalizing start items' with
  | nil =>
    cases hitems
    exact hafter
  | cons item items ih =>
    cases hitems with | @cons _ item' _ items' hfirst hmore
    rw [Run.rounds, Run.rounds]
    refine (hbody start item item' (.refl _) hfirst).bind fun store _ _ hgrows hflows => ?_
    have hlater : A.Alike A.flows store (Run.rounds body after items)
        (Run.rounds body' after' items') :=
      ih (fun _ _ _ hmore => hbody _ _ _ (hgrows.trans hmore)) (hafter.mono hgrows)
        (hmore.imp fun _ _ => hmono hgrows)
    cases hflows with
    | next | continued => exact hlater
    | broke => exact alike_pure fun _ _ => .next
    | returned hvalues =>
      exact alike_pure fun _ hmore => .returned (hlaws.values_mono hmore hvalues)

theorem alike_forever {body body' : Run Flow} (hbody : A.Alike A.flows start body body') :
    A.Alike A.flows start (Run.forever body setting.limits.rounds)
      (Run.forever body' setting'.limits.rounds) := by
  rw [hlaws.limits, Run.forever_eq_rounds, Run.forever_eq_rounds]
  exact hlaws.alike_rounds (R := fun _ => Eq) (fun _ heq => heq)
    (fun _ _ _ hgrows _ => hbody.mono hgrows) (alike_throw .exhausted)
    (List.forall₂_same.mpr fun _ _ => rfl)

theorem elements_pairs
    {store : Store} {iteration iteration' : Iteration}
    (h : A.iterations store iteration iteration') (limits : Limits) :
    List.Forall₂ (A.elements store) (iteration.pairs limits) (iteration'.pairs limits) := by
  cases h with
  | elements hpairs => exact hpairs
  | numbers range =>
    refine List.forall₂_same.mpr fun pair hpair => ?_
    obtain ⟨n, -, rfl⟩ := List.mem_map.mp hpair
    exact ⟨hlaws.values_plain (.number n), hlaws.values_plain (.number n)⟩

omit hlaws in
theorem alike_after
    {iteration iteration' : Iteration}
    (h : A.iterations start iteration iteration') (limits : Limits) :
    A.Alike A.flows start (iteration.after limits) (iteration'.after limits) := by
  have hsame : iteration'.after limits = iteration.after limits := by
    cases h <;> rfl
  rw [hsame]
  obtain hafter | hafter := iteration.after_eq_or limits
  · rw [hafter]
    exact alike_pure fun _ _ => .next
  · rw [hafter]
    exact alike_throw .exhausted

theorem alike_forEach
    {body body' : Value → Value → Run Flow} {iteration iteration' : Iteration}
    (hbody : ∀ store item item' key key', start.Grows store → A.values store item item' →
      A.values store key key' → A.Alike A.flows store (body item key) (body' item' key'))
    (h : A.iterations start iteration iteration') :
    A.Alike A.flows start (Run.forEach setting.limits body iteration)
      (Run.forEach setting'.limits body' iteration') := by
  rw [hlaws.limits, Run.forEach_eq_rounds, Run.forEach_eq_rounds]
  refine hlaws.alike_rounds (fun hgrows hpair => ?_) (fun _ pair pair' hgrows hpair => ?_)
    (alike_after h _) (hlaws.elements_pairs h _)
  · exact ⟨hlaws.values_mono hgrows hpair.1, hlaws.values_mono hgrows hpair.2⟩
  · exact hbody _ _ _ _ _ hgrows hpair.1 hpair.2

theorem alike_bindLoop
    {scope : ScopeId} {item : String} {index : Option String} {value value' key key' : Value}
    (hdefines : A.defines start scope) (hvalues : A.values start value value')
    (hkeys : A.values start key key') :
    A.Alike done start (Run.bindLoop scope item index value key)
      (Run.bindLoop scope item index value' key') := by
  refine (hlaws.alike_define hdefines hvalues item).bind fun _ _ _ hgrows _ => ?_
  cases index with
  | none => exact alike_pure fun _ _ => trivial
  | some index =>
    exact hlaws.alike_define (hlaws.defines_mono hgrows hdefines)
      (hlaws.values_mono hgrows hkeys) index

theorem alike_negate
    {value value' : Value} {offset offset' : Nat}
    (hcorrespond : A.offsets offset offset') (hvalues : A.values start value value') :
    A.Alike A.values start (Run.liftAt offset value.negate) (Run.liftAt offset' value'.negate) := by
  refine alike_liftAt hcorrespond fun _ _ => .of_eq hvalues.1.negate fun result hnegated => ?_
  unfold Value.negate at hnegated
  split at hnegated <;> cases hnegated
  exact hlaws.values_plain (.number _)

end Laws

/-! ## Expressions -/

mutual

theorem alike_evaluate
    (hlaws : A.Laws setting setting') (hcalled : Callees.Alike A callees callees') :
    ∀ {e e' : Expr}, Expr.Like A.offsets e e' → ∀ {start : Store} {scope : ScopeId},
      A.hosts start scope →
        A.Alike A.values start (evaluate setting callees e scope)
          (evaluate setting' callees' e' scope)
  | _, _, .string _, _, _, _ => hlaws.alike_plain (.string _)
  | _, _, .number _, _, _, _ => hlaws.alike_plain (.number _)
  | _, _, .nil _, _, _, _ => hlaws.alike_plain .nil
  | _, _, .ident ho, _, _, hhosts => hlaws.alike_lookup ho hhosts.1 _
  | _, _, .array _ hitems, _, _, hhosts =>
    (alike_evaluateAll hlaws hcalled hitems hhosts).bind fun _ _ _ _ hvalues =>
      hlaws.alike_newArray hvalues
  | _, _, .map _ hentries, _, _, hhosts =>
    (alike_evaluateEntries hlaws hcalled hentries hhosts).bind fun _ _ _ _ hvalues =>
      hlaws.alike_newMap hvalues
  | _, _, .negate ho hoperand, _, _, hhosts => by
    rw [evaluate, evaluate]
    refine (alike_evaluate hlaws hcalled hoperand hhosts).bind fun _ _ _ _ hvalues => ?_
    exact hlaws.alike_negate ho hvalues
  | _, _, .binary ho hleft hright, _, _, hhosts => by
    rw [evaluate, evaluate]
    refine (alike_evaluate hlaws hcalled hleft hhosts).bind fun _ _ _ hgrows hvalues => ?_
    refine (alike_evaluate hlaws hcalled hright (hlaws.hosts_mono hgrows hhosts)).bind
      fun _ _ _ hmore hvalues' => ?_
    refine alike_get_bind fun _ _ hlater hstates => ?_
    exact hlaws.alike_apply ho hstates (hlaws.values_mono (hmore.trans hlater) hvalues)
      (hlaws.values_mono hlater hvalues') _
  | _, _, .subscript ho hcontainer hkey, _, _, hhosts => by
    rw [evaluate, evaluate]
    refine (alike_evaluate hlaws hcalled hcontainer hhosts).bind fun _ _ _ hgrows hcontainers => ?_
    refine (alike_evaluate hlaws hcalled hkey (hlaws.hosts_mono hgrows hhosts)).bind
      fun _ _ _ hmore hkeys => ?_
    exact hlaws.alike_load ho (hlaws.values_mono hmore hcontainers) hkeys
  | _, _, .assign _ _ hvalue, _, _, hhosts => by
    rw [evaluate, evaluate]
    refine (alike_evaluate hlaws hcalled hvalue hhosts).bind fun _ _ _ hgrows hvalues => ?_
    refine (hlaws.alike_assign (hlaws.reads_mono hgrows hhosts.1) hvalues _).bind
      fun _ _ _ hmore _ => ?_
    exact alike_pure fun _ hlater => hlaws.values_mono (hmore.trans hlater) hvalues
  | _, _, .store ho _ hcontainer hkey hvalue, _, _, hhosts => by
    rw [evaluate, evaluate]
    refine (alike_evaluate hlaws hcalled hvalue hhosts).bind fun _ _ _ hgrows hvalues => ?_
    refine (alike_evaluate hlaws hcalled hcontainer (hlaws.hosts_mono hgrows hhosts)).bind
      fun _ _ _ hmore hcontainers => ?_
    refine (alike_evaluate hlaws hcalled hkey (hlaws.hosts_mono (hgrows.trans hmore) hhosts)).bind
      fun _ _ _ hlater hkeys => ?_
    have hvalues := hlaws.values_mono (hmore.trans hlater) hvalues
    refine (hlaws.alike_save ho (hlaws.values_mono hlater hcontainers) hkeys hvalues).bind
      fun _ _ _ hlast _ => ?_
    exact alike_pure fun _ hrest => hlaws.values_mono (hlast.trans hrest) hvalues
  | _, _, .call ho hcallee hargs, _, _, hhosts => by
    rw [evaluate, evaluate]
    refine (alike_evaluate hlaws hcalled hcallee hhosts).bind fun _ _ _ hgrows hfunctions => ?_
    refine (alike_evaluateAll hlaws hcalled hargs (hlaws.hosts_mono hgrows hhosts)).bind
      fun _ _ _ hmore hvalues => ?_
    exact hlaws.alike_callValue hcalled ho (hlaws.values_mono hmore hfunctions) hvalues
  | _, _, .function hf, _, _, hhosts => hlaws.alike_makeFunction hf hhosts

theorem alike_evaluateAll
    (hlaws : A.Laws setting setting') (hcalled : Callees.Alike A callees callees') :
    ∀ {items items' : List Expr}, Expr.LikeAll A.offsets items items' →
      ∀ {start : Store} {scope : ScopeId}, A.hosts start scope →
        A.Alike (fun store => List.Forall₂ (A.values store)) start
          (evaluateAll setting callees items scope) (evaluateAll setting' callees' items' scope)
  | _, _, .nil, _, _, _ => alike_pure fun _ _ => .nil
  | _, _, .cons hitem hitems, _, _, hhosts => by
    rw [evaluateAll, evaluateAll]
    refine (alike_evaluate hlaws hcalled hitem hhosts).bind fun _ _ _ hgrows hvalue => ?_
    refine (alike_evaluateAll hlaws hcalled hitems (hlaws.hosts_mono hgrows hhosts)).bind
      fun _ _ _ hmore hvalues => ?_
    exact alike_pure fun _ hlater =>
      .cons (hlaws.values_mono (hmore.trans hlater) hvalue) (hlaws.values_mono_all hlater hvalues)

theorem alike_evaluateEntries
    (hlaws : A.Laws setting setting') (hcalled : Callees.Alike A callees callees') :
    ∀ {entries entries' : List (String × Expr)}, Expr.LikeEntries A.offsets entries entries' →
      ∀ {start : Store} {scope : ScopeId}, A.hosts start scope →
        A.Alike (fun store => List.Forall₂ (A.bindings store)) start
          (evaluateEntries setting callees entries scope)
          (evaluateEntries setting' callees' entries' scope)
  | _, _, .nil, _, _, _ => alike_pure fun _ _ => .nil
  | _, _, .cons hitem hentries, _, _, hhosts => by
    rw [evaluateEntries, evaluateEntries]
    refine (alike_evaluate hlaws hcalled hitem hhosts).bind fun _ _ _ hgrows hvalue => ?_
    refine (alike_evaluateEntries hlaws hcalled hentries (hlaws.hosts_mono hgrows hhosts)).bind
      fun _ _ _ hmore hvalues => ?_
    exact alike_pure fun _ hlater =>
      .cons ⟨rfl, hlaws.values_mono (hmore.trans hlater) hvalue⟩
        (hlaws.bindings_mono hlater hvalues)

end

/-! ## Patterns -/

theorem like_matchesValue
    {offsets : Nat → Nat → Prop} {value value' expected expected' : Value}
    (hvalues : Value.Like offsets value value')
    (hexpectations : Value.Like offsets expected expected') :
    Run.matchesValue value' expected' = Run.matchesValue value expected := by
  unfold Run.matchesValue
  rw [hexpectations.equals hvalues]

theorem matched_same
    {store : Store} {found found' : Option (Bindings Value)}
    (hsame : found' = found) (h : ∀ bindings, found = some bindings → bindings = []) :
    A.matched store found found' := by
  rw [hsame]
  cases found with
  | none => exact .none
  | some bindings =>
    rw [h bindings rfl]
    exact .some .nil

theorem matched_matchText
    {store : Store} {subject subject' : Value}
    (hsubjects : A.values store subject subject') (text : String) :
    A.matched store (Run.matchText text subject) (Run.matchText text subject') := by
  have hsame : Run.matchText text subject' = Run.matchText text subject := by
    cases hsubjects.1 <;> rfl
  refine matched_same hsame fun bindings hfound => ?_
  unfold Run.matchText at hfound
  repeat' split at hfound
  all_goals cases hfound
  rfl

theorem matched_matchValue
    {store : Store} {subject subject' expected expected' : Value}
    (hsubjects : A.values store subject subject')
    (hexpectations : A.values store expected expected') :
    A.matched store (Run.matchValue subject expected) (Run.matchValue subject' expected') := by
  unfold Run.matchValue
  rw [like_matchesValue hsubjects.1 hexpectations.1]
  split
  · exact .some .nil
  · exact .none

theorem matchItems_cons
    {scope : ScopeId} {id : ArrayId} {item : Expr}
    (hnotName : ∀ offset name, item ≠ .ident offset name) (items : List Expr) (index : Nat)
    (made : Bindings Value) :
    matchItems setting callees scope id (item :: items) index made = (do
      let value ← Run.itemAt id index
      let expected ← evaluate setting callees item scope
      if Run.matchesValue value expected then
        matchItems setting callees scope id items (index + 1) made
      else return none) := by
  rw [matchItems]
  exact hnotName

namespace Laws

variable (hlaws : A.Laws setting setting')

include hlaws

theorem matched_mono
    {store store' : Store} {found found' : Option (Bindings Value)}
    (hgrows : store.Grows store') (h : A.matched store found found') :
    A.matched store' found found' := by
  cases h with
  | none => exact .none
  | some hbindings => exact .some (hlaws.bindings_mono hgrows hbindings)

theorem alike_arrayOfSize
    {subject subject' : Value} (hsubjects : A.values start subject subject') (size : Nat) :
    A.Alike (fun store => Option.Rel fun id id' => id' = id ∧ A.allowed store (.array id)) start
      (Run.arrayOfSize size subject) (Run.arrayOfSize size subject') := by
  obtain ⟨hlike, hallowed⟩ := hsubjects
  cases hlike with
  | closure => exact alike_pure fun _ _ => .none
  | same =>
    cases subject with
    | array id =>
      refine alike_get_bind fun state state' hgrows hstates => alike_pure fun store hmore => ?_
      have hallowed := hlaws.allowed_mono hgrows hallowed
      have hsizes : (state'.store.items id).size = (state.store.items id).size := by
        simpa using (hlaws.items hstates hallowed).length_eq.symm
      rw [hsizes]
      split
      · exact .none
      · exact .some ⟨rfl, hlaws.allowed_mono hmore hallowed⟩
    | nil | number | string | map | range | native | closure => exact alike_pure fun _ _ => .none

theorem alike_itemAt {id : ArrayId} (hallowed : A.allowed start (.array id)) (index : Nat) :
    A.Alike A.values start (Run.itemAt id index) (Run.itemAt id index) := by
  refine alike_get_bind fun state state' hgrows hstates => alike_pure fun store hmore => ?_
  have hitems := hlaws.items hstates (hlaws.allowed_mono hgrows hallowed)
  exact hlaws.values_mono hmore (values_getD hitems (hlaws.values_plain .nil) index)

theorem alike_matchItems
    {scope : ScopeId} {id : ArrayId} {items items' : List Expr} {made made' : Bindings Value}
    (hcalled : Callees.Alike A callees callees') (hhosts : A.hosts start scope)
    (hallowed : A.allowed start (.array id)) (hlikes : Expr.LikeAll A.offsets items items')
    (index : Nat) (hbindings : List.Forall₂ (A.bindings start) made made') :
    A.Alike A.matched start (matchItems setting callees scope id items index made)
      (matchItems setting' callees' scope id items' index made') := by
  induction items generalizing start items' index made made' with
  | nil =>
    cases hlikes
    exact alike_pure fun _ hgrows => .some (hlaws.bindings_mono hgrows hbindings)
  | cons item items ih =>
    cases hlikes with | @cons _ item' _ items' hlike hlikes
    rcases hlike.ident_or with ⟨o, o', name, rfl, rfl⟩ | ⟨hnotName, hnotName'⟩
    · refine (hlaws.alike_itemAt hallowed index).bind fun store _ _ hgrows hvalues => ?_
      exact ih (hlaws.hosts_mono hgrows hhosts) (hlaws.allowed_mono hgrows hallowed) hlikes _
        (Bindings.Like.put (hlaws.bindings_mono hgrows hbindings) hvalues)
    · rw [matchItems_cons hnotName, matchItems_cons hnotName']
      refine (hlaws.alike_itemAt hallowed index).bind fun store value value' hgrows hvalues => ?_
      refine (alike_evaluate hlaws hcalled hlike (hlaws.hosts_mono hgrows hhosts)).bind
        fun store expected expected' hmore hexpectations => ?_
      have hgrows := hgrows.trans hmore
      rw [like_matchesValue hvalues.1 hexpectations.1]
      split
      · exact ih (hlaws.hosts_mono hgrows hhosts) (hlaws.allowed_mono hgrows hallowed) hlikes _
          (hlaws.bindings_mono hgrows hbindings)
      · exact alike_pure fun _ _ => .none

theorem alike_matchPattern
    {pattern pattern' : Expr} {subject subject' : Value} {scope : ScopeId}
    (hcalled : Callees.Alike A callees callees') (hhosts : A.hosts start scope)
    (hlike : Expr.Like A.offsets pattern pattern') (hsubjects : A.values start subject subject') :
    A.Alike A.matched start (matchPattern setting callees pattern subject scope)
      (matchPattern setting' callees' pattern' subject' scope) := by
  have hbyValue : A.Alike A.matched start
      (do return Run.matchValue subject (← evaluate setting callees pattern scope))
      (do return Run.matchValue subject' (← evaluate setting' callees' pattern' scope)) := by
    refine (alike_evaluate hlaws hcalled hlike hhosts).bind fun _ _ _ hgrows hexpectations => ?_
    exact alike_pure fun _ hmore => hlaws.matched_mono hmore
      (matched_matchValue (hlaws.values_mono hgrows hsubjects) hexpectations)
  cases hlike with
  | @string _ _ text =>
    exact alike_pure fun _ hgrows => matched_matchText (hlaws.values_mono hgrows hsubjects) text
  | @array _ _ items items' _ hlikes =>
    simp only [matchPattern, hlikes.length]
    refine (hlaws.alike_arrayOfSize hsubjects _).bind fun store found found' hgrows hsame => ?_
    cases hsame with
    | none => exact alike_pure fun _ _ => .none
    | some hsame =>
      obtain ⟨rfl, hallowed⟩ := hsame
      exact hlaws.alike_matchItems hcalled (hlaws.hosts_mono hgrows hhosts) hallowed hlikes 0 .nil
  | number | nil | ident | map | negate | binary | subscript | assign | store | call | function =>
    exact hbyValue

/-! ## Statements -/

theorem alike_recordSelect
    {subject subject' : Value} {offset offset' : Nat}
    (hcorrespond : A.offsets offset offset') (hsubjects : A.values start subject subject') :
    A.Alike done start (Run.recordSelect setting subject offset)
      (Run.recordSelect setting' subject' offset') :=
  hlaws.record (.select hsubjects hcorrespond) hcorrespond

theorem alike_newScope_bind
    {α α' : Type} {results : Store → α → α' → Prop} {parent : ScopeId} {next : ScopeId → Run α}
    {next' : ScopeId → Run α'}
    (hreads : A.reads start parent)
    (h : ∀ store scope, start.Grows store → A.hosts store scope →
      A.Alike results store (next scope) (next' scope)) :
    A.Alike results start (Run.newScope parent >>= next) (Run.newScope parent >>= next') := by
  refine (hlaws.alike_newScope hreads).bind fun store scope scope' hgrows hsame => ?_
  obtain ⟨rfl, hhosts⟩ := hsame
  exact h store _ hgrows hhosts

end Laws

mutual

theorem alike_execute
    (hlaws : A.Laws setting setting') (hcalled : Callees.Alike A callees callees') :
    ∀ {statement statement' : Stmt}, Stmt.Like A.offsets statement statement' →
      ∀ {start : Store} {scope : ScopeId}, A.hosts start scope →
        A.Alike A.flows start (execute setting callees statement scope)
          (execute setting' callees' statement' scope)
  | _, _, .expr _ hvalue, _, _, hhosts =>
    (alike_evaluate hlaws hcalled hvalue hhosts).bind fun _ _ _ _ _ => alike_pure fun _ _ => .next
  | _, _, .var ho hvalue, _, _, hhosts => by
    rw [execute, execute]
    refine (alike_evaluate hlaws hcalled hvalue hhosts).bind fun _ _ _ hgrows hvalues => ?_
    refine (hlaws.alike_define (hlaws.defines_mono hgrows hhosts.2) hvalues _).bind
      fun _ _ _ hmore _ => ?_
    refine (hlaws.record (.define _ (hlaws.values_mono hmore hvalues)) ho).bind fun _ _ _ _ _ => ?_
    exact alike_pure fun _ _ => .next
  | _, _, .block hbody, _, _, hhosts => alike_executeBlock hlaws hcalled hbody hhosts.1
  | _, _, .forever _ hbody, _, _, hhosts => by
    rw [execute, execute]
    refine hlaws.alike_newScope_bind hhosts.1 fun _ _ _ hinner => ?_
    exact hlaws.alike_forever (alike_executeBlock hlaws hcalled hbody hinner.1)
  | _, _, .forEach ho hiterable hbody, _, _, hhosts => by
    rw [execute, execute]
    refine (alike_evaluate hlaws hcalled hiterable hhosts).bind fun _ _ _ hgrows hvalues => ?_
    refine alike_get_bind fun _ _ hmore hstates => ?_
    have hiterated := hlaws.like_iteration hstates (hlaws.values_mono hmore hvalues)
    refine (alike_liftAt hiterable.offset fun _ hlater => hiterated.imp fun _ _ =>
      hlaws.iterations_mono hlater).bind fun _ _ _ hlater hiterations => ?_
    have hgrows := (hgrows.trans hmore).trans hlater
    refine hlaws.alike_newScope_bind (hlaws.reads_mono hgrows hhosts.1) fun _ _ hlast hinner => ?_
    refine hlaws.alike_forEach (fun _ _ _ _ _ hrest hitems hkeys => ?_)
      (hlaws.iterations_mono hlast hiterations)
    have hinner := hlaws.hosts_mono hrest hinner
    refine (hlaws.alike_bindLoop hinner.2 hitems hkeys).bind fun _ _ _ hbound _ => ?_
    exact alike_executeBlock hlaws hcalled hbody (hlaws.reads_mono hbound hinner.1)
  | _, _, .conditional hinner, _, _, hhosts => alike_executeConditional hlaws hcalled hinner hhosts
  | _, _, .select _ hsubject harms, _, _, hhosts => by
    rw [execute, execute]
    refine (alike_evaluate hlaws hcalled hsubject hhosts).bind fun _ _ _ hgrows hsubjects => ?_
    exact alike_executeArms hlaws hcalled harms (hlaws.hosts_mono hgrows hhosts) hsubjects
  | _, _, .returnsNil _, _, _, _ => alike_pure fun _ _ => .returned (hlaws.values_plain .nil)
  | _, _, .returns _ hvalue, _, _, hhosts =>
    (alike_evaluate hlaws hcalled hvalue hhosts).bind fun _ _ _ _ hvalues =>
      alike_pure fun _ hmore => .returned (hlaws.values_mono hmore hvalues)
  | _, _, .breaks ho, _, _, _ => alike_pure fun _ _ => .broke ho
  | _, _, .continues ho, _, _, _ => alike_pure fun _ _ => .continued ho

theorem alike_executeAll
    (hlaws : A.Laws setting setting') (hcalled : Callees.Alike A callees callees') :
    ∀ {statements statements' : List Stmt}, Stmt.LikeAll A.offsets statements statements' →
      ∀ {start : Store} {scope : ScopeId}, A.hosts start scope →
        A.Alike A.flows start (executeAll setting callees statements scope)
          (executeAll setting' callees' statements' scope)
  | _, _, .nil, _, _, _ => alike_pure fun _ _ => .next
  | _, _, .cons hfirst hmore, _, _, hhosts => by
    rw [executeAll, executeAll]
    refine (alike_execute hlaws hcalled hfirst hhosts).bind fun _ _ _ hgrows hflows => ?_
    cases hflows with
    | next => exact alike_executeAll hlaws hcalled hmore (hlaws.hosts_mono hgrows hhosts)
    | returned hvalues =>
      exact alike_pure fun _ hlater => .returned (hlaws.values_mono hlater hvalues)
    | broke ho => exact alike_pure fun _ _ => .broke ho
    | continued ho => exact alike_pure fun _ _ => .continued ho

theorem alike_executeBody
    (hlaws : A.Laws setting setting') (hcalled : Callees.Alike A callees callees') :
    ∀ {body body' : Block}, Block.Like A.offsets body body' →
      ∀ {start : Store} {scope : ScopeId}, A.hosts start scope →
        A.Alike A.flows start (executeBody setting callees body scope)
          (executeBody setting' callees' body' scope)
  | _, _, .mk _ hstatements, _, _, hhosts => alike_executeAll hlaws hcalled hstatements hhosts

theorem alike_executeBlock
    (hlaws : A.Laws setting setting') (hcalled : Callees.Alike A callees callees') :
    ∀ {body body' : Block}, Block.Like A.offsets body body' →
      ∀ {start : Store} {scope : ScopeId}, A.reads start scope →
        A.Alike A.flows start (executeBlock setting callees body scope)
          (executeBlock setting' callees' body' scope)
  | _, _, .mk _ hstatements, _, _, hreads =>
    hlaws.alike_newScope_bind hreads fun _ _ _ hinner =>
      alike_executeAll hlaws hcalled hstatements hinner

theorem alike_executeConditional
    (hlaws : A.Laws setting setting') (hcalled : Callees.Alike A callees callees') :
    ∀ {inner inner' : Conditional}, Conditional.Like A.offsets inner inner' →
      ∀ {start : Store} {scope : ScopeId}, A.hosts start scope →
        A.Alike A.flows start (executeConditional setting callees inner scope)
          (executeConditional setting' callees' inner' scope)
  | _, _, .mk ho hcondition hthenBlock hotherwise, _, _, hhosts => by
    rw [executeConditional, executeConditional]
    refine (alike_evaluate hlaws hcalled hcondition hhosts).bind fun _ _ _ hgrows hvalues => ?_
    refine (hlaws.record (.condition hvalues) ho).bind fun _ _ _ hmore _ => ?_
    have hhosts := hlaws.hosts_mono (hgrows.trans hmore) hhosts
    rw [hvalues.1.isTruthy]
    split
    · exact alike_executeBlock hlaws hcalled hthenBlock hhosts.1
    · exact alike_executeAlternative hlaws hcalled hotherwise hhosts

theorem alike_executeAlternative
    (hlaws : A.Laws setting setting') (hcalled : Callees.Alike A callees callees') :
    ∀ {otherwise otherwise' : Alternative}, Alternative.Like A.offsets otherwise otherwise' →
      ∀ {start : Store} {scope : ScopeId}, A.hosts start scope →
        A.Alike A.flows start (executeAlternative setting callees otherwise scope)
          (executeAlternative setting' callees' otherwise' scope)
  | _, _, .nothing, _, _, _ => alike_pure fun _ _ => .next
  | _, _, .block hbody, _, _, hhosts => alike_executeBlock hlaws hcalled hbody hhosts.1
  | _, _, .conditional hinner, _, _, hhosts => alike_executeConditional hlaws hcalled hinner hhosts

theorem alike_executeArms
    (hlaws : A.Laws setting setting') (hcalled : Callees.Alike A callees callees') :
    ∀ {arms arms' : List Arm}, Arm.LikeAll A.offsets arms arms' →
      ∀ {start : Store} {scope : ScopeId} {subject subject' : Value}, A.hosts start scope →
        A.values start subject subject' →
        A.Alike A.flows start (executeArms setting callees arms subject scope)
          (executeArms setting' callees' arms' subject' scope)
  | _, _, .nil, _, _, _, _, _, _ => alike_pure fun _ _ => .next
  | _, _, .cons hpattern hbody harms, _, _, _, _, hhosts, hsubjects => by
    rw [executeArms, executeArms]
    refine (hlaws.alike_matchPattern hcalled hhosts hpattern hsubjects).bind
      fun _ found found' hgrows hmatched => ?_
    have hhosts := hlaws.hosts_mono hgrows hhosts
    have hsubjects := hlaws.values_mono hgrows hsubjects
    cases hmatched with
    | none => exact alike_executeArms hlaws hcalled harms hhosts hsubjects
    | some hbindings =>
      refine (hlaws.alike_recordSelect hpattern.offset hsubjects).bind fun _ _ _ hmore _ => ?_
      refine hlaws.alike_newScope_bind (hlaws.reads_mono hmore hhosts.1) fun _ _ hlater hinner => ?_
      refine (hlaws.alike_defineAll hinner.2
        (hlaws.bindings_mono (hmore.trans hlater) hbindings)).bind fun _ _ _ hbound _ => ?_
      exact alike_executeBody hlaws hcalled hbody (hlaws.hosts_mono hbound hinner)

end

end Accord

end PuzzleLang
