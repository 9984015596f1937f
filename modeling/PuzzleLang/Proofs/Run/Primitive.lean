import PuzzleLang.Proofs.Run.Accord

/-!
# Steps in accord

The steps that evaluation is made of are in accord, as far as the laws of an accord go: names,
arrays and maps, texts, subscripts, operators and native functions.
-/

namespace PuzzleLang

/-- Two operations have given results that correspond, or have failed for the same cause. -/
inductive ExceptLike {α α' : Type} (results : α → α' → Prop) :
    Except Cause α → Except Cause α' → Prop
  | ok {value : α} {value' : α'} :
    results value value' → ExceptLike results (.ok value) (.ok value')
  | error (cause : Cause) : ExceptLike results (.error cause) (.error cause)

theorem ExceptLike.of_eq
    {α : Type} {results : α → α → Prop} {result result' : Except Cause α}
    (hsame : result' = result) (h : ∀ value, result = .ok value → results value value) :
    ExceptLike results result result' := by
  rw [hsame]
  cases result with
  | ok value => exact .ok (h value rfl)
  | error cause => exact .error cause

theorem ExceptLike.bind
    {α α' β β' : Type} {results : α → α' → Prop} {results' : β → β' → Prop}
    {result : Except Cause α} {result' : Except Cause α'} {next : α → Except Cause β}
    {next' : α' → Except Cause β'}
    (h : ExceptLike results result result')
    (h' : ∀ value value', results value value' → ExceptLike results' (next value) (next' value')) :
    ExceptLike results' (result >>= next) (result' >>= next') := by
  cases h with
  | ok hvalues => exact h' _ _ hvalues
  | error cause => exact .error cause

theorem ExceptLike.imp
    {α α' : Type} {results results' : α → α' → Prop} {result : Except Cause α}
    {result' : Except Cause α'}
    (h : ExceptLike results result result')
    (h' : ∀ value value', results value value' → results' value value') :
    ExceptLike results' result result' := by
  cases h with
  | ok hvalues => exact .ok (h' _ _ hvalues)
  | error cause => exact .error cause

theorem Store.defineAll_nil (store : Store) (id : ScopeId) : store.defineAll id [] = store := by
  have hscopes : store.scopes.modify id.index
      (fun scope => { scope with bindings := scope.bindings.putAll [] }) = store.scopes := by
    apply Array.toList_inj.mp
    rw [Array.toList_modify]
    exact List.modify_id _ _
  rw [defineAll, hscopes]

theorem Store.defineAll_cons
    (store : Store) (id : ScopeId) (pair : String × Value) (pairs : List (String × Value)) :
    store.defineAll id (pair :: pairs) = (store.define id pair.1 pair.2).defineAll id pairs := by
  have hscopes : store.scopes.modify id.index
        (fun scope => { scope with bindings := scope.bindings.putAll (pair :: pairs) }) =
      (store.scopes.modify id.index
        fun scope => { scope with bindings := scope.bindings.put pair.1 pair.2 }).modify id.index
        fun scope => { scope with bindings := scope.bindings.putAll pairs } := by
    apply Array.toList_inj.mp
    rw [Array.toList_modify, Array.toList_modify, Array.toList_modify, List.modify_modify_eq]
    rfl
  rw [defineAll, hscopes]
  rfl

/-! ## Operators give plain values -/

namespace Operator

theorem apply_add (store : Store) (a b : Value) :
    add.apply store a b =
      if a.type = .string ∨ b.type = .string then concatenate store a b
      else add.arithmetic a b := by
  cases a <;> cases b <;> rfl

theorem isPlain_of_onNumbers
    {op : Operator} {x y : Int} {value : Value} (h : op.onNumbers x y = .ok value) :
    value.IsPlain := by
  unfold onNumbers at h
  split at h
  all_goals try split at h
  all_goals cases h
  all_goals exact .number _

theorem isPlain_of_arithmetic
    {op : Operator} {a b value : Value} (h : op.arithmetic a b = .ok value) :
    value.IsPlain := by
  unfold arithmetic at h
  split at h
  · exact isPlain_of_onNumbers h
  · cases h

theorem isPlain_of_concatenate
    {store : Store} {a b value : Value} (h : concatenate store a b = .ok value) :
    value.IsPlain := by
  unfold concatenate at h
  split at h <;> cases h
  exact .string _

theorem isPlain_of_apply
    {op : Operator} {store : Store} {a b value : Value} (h : op.apply store a b = .ok value) :
    value.IsPlain := by
  unfold apply at h
  split at h
  · exact isPlain_of_concatenate h
  · exact isPlain_of_concatenate h
  · cases hequality : a.equals b <;> rw [hequality] at h <;> cases h
    exact Value.isPlain_ofBool _
  · cases hequality : a.equals b <;> rw [hequality] at h <;> cases h
    exact Value.isPlain_ofBool _
  · exact isPlain_of_arithmetic h

end Operator

/-- The array or map of a slot. -/
def Slot.container : Slot → Value
  | item id _ => .array id
  | entry id _ => .map id

namespace Accord

variable {A : Accord} {setting setting' : Setting} {start store store' : Store}

theorem values_getD
    {items items' : Array Value} {fallback : Value}
    (h : List.Forall₂ (A.values store) items.toList items'.toList)
    (hplain : A.values store fallback fallback) (index : Nat) :
    A.values store (items.getD index fallback) (items'.getD index fallback) := by
  have hfound := forall₂_getElem? h index
  rw [Array.getElem?_toList, Array.getElem?_toList] at hfound
  rw [Array.getD_eq_getD_getElem?, Array.getD_eq_getD_getElem?]
  exact rel_getD hfound hplain

theorem alike_lift
    {α α' : Type} {results : Store → α → α' → Prop} {result : Except Cause α}
    {result' : Except Cause α'}
    (h : ∀ store, start.Grows store → ExceptLike (results store) result result') :
    A.Alike results start (Run.lift result) (Run.lift result') := by
  intro state state' hgrows hstates
  have hends := h state.store hgrows
  cases hends with
  | ok hvalues => exact .ok (.refl _) hstates hvalues
  | error cause => exact .error (.refl _) hstates (.fault .none)

theorem alike_liftAt
    {α α' : Type} {results : Store → α → α' → Prop} {result : Except Cause α}
    {result' : Except Cause α'} {offset offset' : Nat}
    (hcorrespond : A.offsets offset offset')
    (h : ∀ store, start.Grows store → ExceptLike (results store) result result') :
    A.Alike results start (Run.liftAt offset result) (Run.liftAt offset' result') := by
  intro state state' hgrows hstates
  have hends := h state.store hgrows
  cases hends with
  | ok hvalues => exact .ok (.refl _) hstates hvalues
  | error cause => exact .error (.refl _) hstates (.fault (.some hcorrespond))

namespace Laws

variable (hlaws : A.Laws setting setting')

include hlaws

theorem values_mono
    {value value' : Value} (hgrows : store.Grows store') (h : A.values store value value') :
    A.values store' value value' :=
  ⟨h.1, hlaws.allowed_mono hgrows h.2⟩

theorem values_mono_all
    {values values' : List Value}
    (hgrows : store.Grows store') (h : List.Forall₂ (A.values store) values values') :
    List.Forall₂ (A.values store') values values' :=
  h.imp fun _ _ => hlaws.values_mono hgrows

theorem bindings_mono
    {bindings bindings' : List (String × Value)}
    (hgrows : store.Grows store') (h : List.Forall₂ (A.bindings store) bindings bindings') :
    List.Forall₂ (A.bindings store') bindings bindings' :=
  h.imp fun _ _ hsame => ⟨hsame.1, hlaws.values_mono hgrows hsame.2⟩

theorem hosts_mono {id : ScopeId} (hgrows : store.Grows store') (h : A.hosts store id) :
    A.hosts store' id :=
  ⟨hlaws.reads_mono hgrows h.1, hlaws.defines_mono hgrows h.2⟩

theorem values_plain {value : Value} (hplain : value.IsPlain) : A.values store value value :=
  ⟨hplain.like, hlaws.plain hplain⟩

theorem alike_plain {value : Value} (hplain : value.IsPlain) :
    A.Alike A.values start (pure value) (pure value) :=
  alike_pure fun _ _ => hlaws.values_plain hplain

/-! ## Scopes -/

theorem alike_newScope {parent : ScopeId} (hreads : A.reads start parent) :
    A.Alike (fun store id id' => id' = id ∧ A.hosts store id) start (Run.newScope parent)
      (Run.newScope parent) := by
  intro state state' hgrows hstates
  obtain ⟨hafter, hhosts⟩ := hlaws.newScope hstates (hlaws.reads_mono hgrows hreads)
  have hsameId : (state'.store.newScope (some parent)).1 = (state.store.newScope (some parent)).1 :=
    congrArg ScopeId.mk (hlaws.sizes hstates).scopes
  exact .ok (state.store.grows_newScope _) hafter ⟨hsameId, hhosts⟩

theorem alike_define
    {id : ScopeId} {value value' : Value}
    (hdefines : A.defines start id) (hvalues : A.values start value value') (name : String) :
    A.Alike done start (Run.define id name value) (Run.define id name value') :=
  alike_modify (fun state => state.store.grows_define _ _ _) fun _ _ hgrows hstates =>
    hlaws.define hstates (hlaws.defines_mono hgrows hdefines) (hlaws.values_mono hgrows hvalues)

theorem states_defineAll
    {s s' : State} {id : ScopeId} {pairs pairs' : List (String × Value)}
    (hstates : A.states s s') (hdefines : A.defines s.store id)
    (hvalues : List.Forall₂ (A.bindings s.store) pairs pairs') :
    s.store.Grows (s.store.defineAll id pairs) ∧
      A.states { s with store := s.store.defineAll id pairs }
        { s' with store := s'.store.defineAll id pairs' } := by
  induction pairs generalizing s s' pairs' with
  | nil =>
    cases hvalues
    rw [Store.defineAll_nil, Store.defineAll_nil]
    exact ⟨.refl _, hstates⟩
  | cons pair pairs ih =>
    obtain ⟨name, value⟩ := pair
    cases hvalues with | @cons _ pair' _ pairs' hfirst hmore
    obtain ⟨name', value'⟩ := pair'
    obtain ⟨hsameName, hfirst⟩ := hfirst
    obtain rfl : name' = name := hsameName
    have hgrows := s.store.grows_define id name' value
    obtain ⟨hmore, hafter⟩ := ih (hlaws.define hstates hdefines hfirst)
      (hlaws.defines_mono hgrows hdefines) (hlaws.bindings_mono hgrows hmore)
    rw [Store.defineAll_cons, Store.defineAll_cons]
    exact ⟨hgrows.trans hmore, hafter⟩

theorem alike_defineAll
    {id : ScopeId} {pairs pairs' : List (String × Value)}
    (hdefines : A.defines start id) (hvalues : List.Forall₂ (A.bindings start) pairs pairs') :
    A.Alike done start (Run.defineAll id pairs) (Run.defineAll id pairs') := by
  intro state state' hgrows hstates
  obtain ⟨hmore, hafter⟩ := hlaws.states_defineAll hstates (hlaws.defines_mono hgrows hdefines)
    (hlaws.bindings_mono hgrows hvalues)
  exact .ok hmore hafter trivial

theorem alike_assign
    {id : ScopeId} {value value' : Value}
    (hreads : A.reads start id) (hvalues : A.values start value value') (name : String) :
    A.Alike done start (Run.assign id name value) (Run.assign id name value') :=
  alike_modify (fun state => state.store.grows_assign _ _ _) fun _ _ hgrows hstates =>
    hlaws.assign hstates (hlaws.reads_mono hgrows hreads) (hlaws.values_mono hgrows hvalues)

theorem alike_lookup
    {id : ScopeId} {offset offset' : Nat}
    (hcorrespond : A.offsets offset offset') (hreads : A.reads start id) (name : String) :
    A.Alike A.values start (Run.lookup offset id name) (Run.lookup offset' id name) := by
  refine alike_get_bind fun state state' hgrows hstates => ?_
  have hfound := hlaws.lookup name hstates (hlaws.reads_mono hgrows hreads)
  generalize state.store.lookup? id name = value at hfound ⊢
  generalize state'.store.lookup? id name = value' at hfound ⊢
  cases hfound with
  | none => exact alike_failAt hcorrespond _
  | some hvalues => exact alike_pure fun _ hmore => hlaws.values_mono hmore hvalues

/-! ## Arrays and maps -/

theorem alike_newArray
    {items items' : List Value} (hvalues : List.Forall₂ (A.values start) items items') :
    A.Alike A.values start (Run.newArray items) (Run.newArray items') := by
  intro state state' hgrows hstates
  obtain ⟨hafter, hallowed⟩ := hlaws.newArray hstates (hlaws.values_mono_all hgrows hvalues)
  have hsameId :
      (state'.store.newArray items'.toArray).1 = (state.store.newArray items.toArray).1 :=
    congrArg (fun size => Value.array ⟨size⟩) (hlaws.sizes hstates).arrays
  have hlike : Value.Like A.offsets (state.store.newArray items.toArray).1
      (state'.store.newArray items'.toArray).1 := by
    rw [hsameId]
    exact .same nofun
  exact .ok (state.store.grows_newArray _) hafter ⟨hlike, hallowed⟩

theorem alike_newMap
    {entries entries' : List (String × Value)}
    (hvalues : List.Forall₂ (A.bindings start) entries entries') :
    A.Alike A.values start (Run.newMap entries) (Run.newMap entries') := by
  intro state state' hgrows hstates
  obtain ⟨hafter, hallowed⟩ := hlaws.newMap hstates
    (Bindings.Like.putAll .nil (hlaws.bindings_mono hgrows hvalues))
  have hsameId : (state'.store.newMap (Bindings.putAll [] entries')).1 =
      (state.store.newMap (Bindings.putAll [] entries)).1 :=
    congrArg (fun size => Value.map ⟨size⟩) (hlaws.sizes hstates).maps
  have hlike : Value.Like A.offsets (state.store.newMap (Bindings.putAll [] entries)).1
      (state'.store.newMap (Bindings.putAll [] entries')).1 := by
    rw [hsameId]
    exact .same nofun
  exact .ok (state.store.grows_newMap _) hafter ⟨hlike, hallowed⟩

theorem index?_items
    {s s' : State} {id : ArrayId}
    (hstates : A.states s s') (hallowed : A.allowed s.store (.array id)) (index : Int) :
    ExceptLike (fun place place' => place' = place) (Store.index? index (s.store.items id).size)
      (Store.index? index (s'.store.items id).size) := by
  have hsizes : (s'.store.items id).size = (s.store.items id).size := by
    simpa using (hlaws.items hstates hallowed).length_eq.symm
  exact .of_eq (congrArg (Store.index? index) hsizes) fun _ _ => rfl

theorem like_load
    {s s' : State} {container container' key key' : Value}
    (hstates : A.states s s') (hcontainers : A.values s.store container container')
    (hkeys : Value.Like A.offsets key key') :
    ExceptLike (A.values s.store) (s.store.load container key)
      (s'.store.load container' key') := by
  obtain ⟨hlike, hallowed⟩ := hcontainers
  cases hlike with
  | closure =>
    simp only [Store.load, hkeys.type]
    exact .error _
  | same =>
    cases container with
    | array id =>
      cases hkeys with
      | closure => exact .error _
      | same =>
        cases key with
        | number index =>
          refine (hlaws.index?_items hstates hallowed index).bind fun place _ hsame => ?_
          rw [hsame]
          exact .ok (values_getD (hlaws.items hstates hallowed) (hlaws.values_plain .nil) place)
        | nil | string | array | map | range | native | closure => exact .error _
    | string text =>
      cases hkeys with
      | closure => exact .error _
      | same =>
        cases key with
        | number index =>
          have hplace : ExceptLike (fun place place' => place' = place)
              (Store.index? index text.length) (Store.index? index text.length) :=
            .of_eq rfl fun _ _ => rfl
          refine hplace.bind fun place _ hsame => ?_
          rw [hsame]
          exact .ok (hlaws.values_plain (.string _))
        | nil | string | array | map | range | native | closure => exact .error _
    | map id =>
      simp only [Store.load, hkeys.type, hkeys.mapKey?]
      cases key.mapKey? with
      | none => exact .error _
      | some name =>
        exact .ok (rel_getD (Bindings.Like.get? (hlaws.entries hstates hallowed) name)
          (hlaws.values_plain .nil))
    | nil | number | range | native | closure =>
      simp only [Store.load, hkeys.type]
      exact .error _

theorem alike_load
    {container container' key key' : Value} {offset offset' : Nat}
    (hcorrespond : A.offsets offset offset') (hcontainers : A.values start container container')
    (hkeys : A.values start key key') :
    A.Alike A.values start (Run.load offset container key) (Run.load offset' container' key') := by
  refine alike_get_bind fun state state' hgrows hstates => ?_
  have hloaded := hlaws.like_load hstates (hlaws.values_mono hgrows hcontainers) hkeys.1
  exact alike_liftAt hcorrespond fun _ hmore => hloaded.imp fun _ _ => hlaws.values_mono hmore

theorem like_slot
    {s s' : State} {container container' key key' : Value}
    (hstates : A.states s s') (hcontainers : A.values s.store container container')
    (hkeys : Value.Like A.offsets key key') :
    ExceptLike (fun slot slot' => slot' = slot ∧ A.allowed s.store slot.container)
      (s.store.slot container key) (s'.store.slot container' key') := by
  obtain ⟨hlike, hallowed⟩ := hcontainers
  cases hlike with
  | closure =>
    simp only [Store.slot, hkeys.type]
    exact .error _
  | same =>
    cases container with
    | array id =>
      cases hkeys with
      | closure => exact .error _
      | same =>
        cases key with
        | number index =>
          refine (hlaws.index?_items hstates hallowed index).bind fun place _ hsame => ?_
          rw [hsame]
          exact .ok ⟨rfl, hallowed⟩
        | nil | string | array | map | range | native | closure => exact .error _
    | map id =>
      simp only [Store.slot, hkeys.type, hkeys.mapKey?]
      cases key.mapKey? with
      | none => exact .error _
      | some name => exact .ok ⟨rfl, hallowed⟩
    | nil | number | string | range | native | closure =>
      simp only [Store.slot, hkeys.type]
      exact .error _

theorem states_write
    {s s' : State} {slot : Slot} {value value' : Value}
    (hstates : A.states s s') (hallowed : A.allowed s.store slot.container)
    (hvalues : A.values s.store value value') :
    A.states { s with store := s.store.write slot value }
      { s' with store := s'.store.write slot value' } := by
  cases slot with
  | item id index => exact hlaws.setItem hstates hallowed hvalues
  | entry id key => exact hlaws.setEntry hstates hallowed hvalues

theorem alike_save
    {container container' key key' value value' : Value} {offset offset' : Nat}
    (hcorrespond : A.offsets offset offset') (hcontainers : A.values start container container')
    (hkeys : A.values start key key') (hvalues : A.values start value value') :
    A.Alike done start (Run.save offset container key value)
      (Run.save offset' container' key' value') := by
  refine alike_get_bind fun state state' hgrows hstates => ?_
  have hfound := hlaws.like_slot hstates (hlaws.values_mono hgrows hcontainers) hkeys.1
  have hslots : A.Alike (fun store slot slot' => slot' = slot ∧ A.allowed store slot.container)
      state.store (Run.liftAt offset (state.store.slot container key))
      (Run.liftAt offset' (state'.store.slot container' key')) :=
    alike_liftAt hcorrespond fun _ hmore => hfound.imp fun _ _ hsame =>
      ⟨hsame.1, hlaws.allowed_mono hmore hsame.2⟩
  refine hslots.bind fun store slot slot' hmore hsame => ?_
  obtain ⟨rfl, hallowed⟩ := hsame
  exact alike_modify (fun state => state.store.grows_write _ _) fun _ _ hlater hstates =>
    hlaws.states_write hstates (hlaws.allowed_mono hlater hallowed)
      (hlaws.values_mono ((hgrows.trans hmore).trans hlater) hvalues)

/-! ## Texts -/

theorem alike_write (text : String) : A.Alike done start (Run.write text) (Run.write text) :=
  alike_modify (fun _ => .refl _) fun _ _ _ hstates => hlaws.output hstates

theorem alike_text {value value' : Value} (hvalues : A.values start value value') :
    A.Alike (fun _ text text' => text' = text) start (Run.text value) (Run.text value') := by
  refine alike_get_bind fun state state' hgrows hstates => ?_
  have hsame : state'.store.text? value' = state.store.text? value :=
    congrArg (Option.map Datum.text) (hlaws.view hstates (hlaws.values_mono hgrows hvalues))
  rw [hsame]
  cases state.store.text? value with
  | none => exact alike_fail _
  | some text => exact alike_pure fun _ _ => rfl

theorem alike_mapM_text
    {values values' : List Value} (h : List.Forall₂ (A.values start) values values') :
    A.Alike (fun _ texts texts' => texts' = texts) start (values.mapM Run.text)
      (values'.mapM Run.text) := by
  induction values generalizing start values' with
  | nil =>
    cases h
    exact alike_pure fun _ _ => rfl
  | cons value values ih =>
    cases h with | @cons _ value' _ values' hfirst hmore
    rw [List.mapM_cons, List.mapM_cons]
    refine (hlaws.alike_text hfirst).bind fun store text text' hgrows hsame => ?_
    refine (ih (hlaws.values_mono_all hgrows hmore)).bind fun store texts texts' _ hsameMore => ?_
    exact alike_pure fun _ _ => by rw [hsame, hsameMore]

/-! ## Operators -/

theorem apply_same
    {s s' : State} {a a' b b' : Value}
    (hstates : A.states s s') (hleft : A.values s.store a a') (hright : A.values s.store b b')
    (op : Operator) :
    op.apply s'.store a' b' = op.apply s.store a b := by
  have htexts : Operator.concatenate s'.store a' b' = Operator.concatenate s.store a b := by
    simp only [Operator.concatenate, Store.text?, hlaws.view hstates hleft,
      hlaws.view hstates hright]
  have hnumbers : op.arithmetic a' b' = op.arithmetic a b := by
    simp only [Operator.arithmetic, hleft.1.operand?, hright.1.operand?, hleft.1.type,
      hright.1.type]
  cases op with
  | add =>
    rw [Operator.apply_add, Operator.apply_add, hleft.1.type, hright.1.type, htexts, hnumbers]
  | equal => exact congrArg (Except.map _) (hleft.1.equals hright.1)
  | notEqual => exact congrArg (Except.map _) (hleft.1.equals hright.1)
  | subtract | multiply | divide | modulo | less | lessEqual | greater | greaterEqual | both
  | either => exact hnumbers

theorem alike_apply
    {s s' : State} {a a' b b' : Value} {offset offset' : Nat}
    (hcorrespond : A.offsets offset offset') (hstates : A.states s s')
    (hleft : A.values s.store a a') (hright : A.values s.store b b') (op : Operator) :
    A.Alike A.values s.store (Run.liftAt offset (op.apply s.store a b))
      (Run.liftAt offset' (op.apply s'.store a' b')) :=
  alike_liftAt hcorrespond fun _ _ =>
    .of_eq (hlaws.apply_same hstates hleft hright op) fun _ happlied =>
      hlaws.values_plain (Operator.isPlain_of_apply happlied)

end Laws

end Accord

end PuzzleLang
