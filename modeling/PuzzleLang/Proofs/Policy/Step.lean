import PuzzleLang.Proofs.Policy.Basic

/-!
# Single steps under a policy

The steps of a run that are no evaluations themselves meet every policy that lets the faults they
can have be put down to the offset at hand: operators, reading and writing subscripts, tracing, and
calls of the standard functions.
-/

namespace PuzzleLang

/-! ## Operations that can be refused -/

/-- The operation gives a number or a text, or it is refused for an ordinary cause. -/
inductive GivesScalar : Except Cause Value → Prop
  | number (n : Int) : GivesScalar (.ok (.number n))
  | string (text : String) : GivesScalar (.ok (.string text))
  | error {cause : Cause} : cause.Ordinary → GivesScalar (.error cause)

namespace Operator

theorem givesScalar_onNumbers (op : Operator) (x y : Int) : GivesScalar (op.onNumbers x y) := by
  cases op with
  | divide | modulo =>
    unfold onNumbers
    dsimp only
    split
    · exact .error ⟨rfl, nofun, nofun⟩
    · exact .number _
  | _ => exact .number _

theorem givesScalar_arithmetic (op : Operator) (a b : Value) : GivesScalar (op.arithmetic a b) := by
  unfold arithmetic
  split
  · exact op.givesScalar_onNumbers _ _
  · exact .error ⟨rfl, nofun, nofun⟩

theorem givesScalar_concatenate (store : Store) (a b : Value) :
    GivesScalar (concatenate store a b) := by
  unfold concatenate
  split
  · exact .string _
  · exact .error ⟨rfl, nofun, nofun⟩

theorem givesScalar_equals (result : Bool → Bool) (a b : Value) :
    GivesScalar ((a.equals b).map fun same => .ofBool (result same)) := by
  unfold Value.equals
  split
  case h_6 => exact .error ⟨rfl, nofun, nofun⟩
  all_goals exact .number _

theorem givesScalar_apply (op : Operator) (store : Store) (a b : Value) :
    GivesScalar (op.apply store a b) := by
  unfold apply
  split
  · exact givesScalar_concatenate store _ _
  · exact givesScalar_concatenate store _ _
  · exact givesScalar_equals id a b
  · exact givesScalar_equals not a b
  · exact op.givesScalar_arithmetic a b

end Operator

theorem Value.givesScalar_negate (value : Value) : GivesScalar value.negate := by
  unfold negate
  split
  · exact .number _
  · exact .error ⟨rfl, nofun, nofun⟩

namespace Store

variable {store : Store} {container key : Value} {cause : Cause}

theorem ordinary_of_index?
    {α : Type} {result : Nat → α} {index : Int} {size : Nat}
    (h : (do let place ← index? index size; return result place) = Except.error cause) :
    cause.Ordinary := by
  unfold index? at h
  split at h
  · cases h
  · cases h
    exact ⟨rfl, nofun, nofun⟩

theorem exists_of_index?
    {α : Type} {result : Nat → α} {index : Int} {size : Nat} {value : α}
    (h : (do let place ← index? index size; return result place) = Except.ok value) :
    ∃ place, result place = value := by
  unfold index? at h
  split at h
  · cases h
    exact ⟨index.toNat, rfl⟩
  · cases h

theorem ordinary_of_load (h : store.load container key = .error cause) : cause.Ordinary := by
  unfold load at h
  split at h
  · exact ordinary_of_index? h
  · exact ordinary_of_index? h
  · split at h
    · cases h
    · cases h
      exact ⟨rfl, nofun, nofun⟩
  · cases h
    exact ⟨rfl, nofun, nofun⟩

theorem ordinary_of_slot (h : store.slot container key = .error cause) : cause.Ordinary := by
  unfold slot at h
  split at h
  · exact ordinary_of_index? h
  · split at h
    · cases h
    · cases h
      exact ⟨rfl, nofun, nofun⟩
  · cases h
    exact ⟨rfl, nofun, nofun⟩

theorem ordinary_of_iteration {value : Value} (h : store.iteration value = .error cause) :
    cause.Ordinary := by
  unfold iteration at h
  split at h
  case h_4 =>
    cases h
    exact ⟨rfl, nofun, nofun⟩
  all_goals cases h

end Store

theorem ordinary_of_check
    {native : Native} {args : List Value} {cause : Cause} (h : native.check args = .error cause) :
    cause.Ordinary := by
  unfold Native.check expectArguments at h
  split at h
  · split at h
    · split at h
      · cases h
        exact ⟨rfl, nofun, nofun⟩
      · cases h
    · cases h
      exact ⟨rfl, nofun, nofun⟩
  · cases h

theorem ordinary_of_length
    {store : Store} {args : List Value} {cause : Cause}
    (h : Native.length store args = .error cause) :
    cause.Ordinary := by
  unfold Native.length at h
  split at h
  · cases h
  · cases h
  · cases h
    exact ⟨rfl, nofun, nofun⟩
  · cases h
    exact ⟨rfl, nofun, nofun⟩

theorem ordinary_of_sliced
    {items : Array Value} {start stop : Int} {cause : Cause}
    (h : sliced items start stop = .error cause) :
    cause.Ordinary := by
  unfold sliced at h
  split at h
  · cases h
    exact ⟨rfl, nofun, nofun⟩
  · cases h

theorem ordinary_of_sorted
    {values : List Value} {cause : Cause} (h : sorted values = .error cause) :
    cause.Ordinary := by
  unfold sorted at h
  split at h
  · cases h
  · split at h
    · cases h
    · cases h
      exact ⟨rfl, nofun, nofun⟩

namespace Policy

variable {P : Policy} {setting : Setting} {halts : Halt → Prop} {offset : Nat}

/-! ## Subscripts and operators -/

theorem meets_scalar
    {result : Except Cause Value} (hblames : P.Blames offset) (hscalar : GivesScalar result) :
    P.Meets P.halts P.Fits (Run.liftAt offset result) := by
  cases hscalar with
  | number n => exact meets_pure (.number n)
  | string text => exact meets_pure (.string text)
  | error hordinary => exact meets_failAt hblames hordinary

theorem fits_of_load
    {store : Store} {container key value : Value}
    (hholds : store.Every P.Fits) (h : store.load container key = .ok value) :
    P.Fits value := by
  unfold Store.load at h
  split at h
  case h_1 id index =>
    obtain ⟨place, rfl⟩ := Store.exists_of_index? h
    exact hholds.getD_items .nil id place
  case h_2 text index =>
    obtain ⟨place, rfl⟩ := Store.exists_of_index? h
    exact .string _
  case h_3 _ id =>
    split at h
    case h_1 name _ =>
      cases h
      cases hfound : (store.entries id).get? name with
      | none => exact .nil
      | some value =>
        obtain ⟨entry, hentry, hsame⟩ := List.mem_map.mp (Store.mem_of_get? hfound)
        subst hsame
        exact hholds.entries hentry
    case h_2 => cases h
  case h_4 => cases h

theorem meets_load (hblames : P.Blames offset) (container key : Value) :
    P.Meets P.halts P.Fits (Run.load offset container key) := by
  apply meets_get_bind
  intro state hholds
  apply meets_liftAt hblames
  · intro value hloaded
    exact fits_of_load hholds hloaded
  · intro cause hrefused
    exact Store.ordinary_of_load hrefused

theorem meets_save
    {value : Value} (hblames : P.Blames offset) (hfits : P.Fits value) (container key : Value) :
    P.Meets P.halts (fun _ => True) (Run.save offset container key value) := by
  apply meets_get_bind
  intro state _
  have hslot : P.Meets P.halts (fun _ => True)
      (Run.liftAt offset (state.store.slot container key)) :=
    meets_liftAt hblames (fun _ _ => trivial) fun _ hrefused => Store.ordinary_of_slot hrefused
  apply hslot.bind
  intro slot _
  apply meets_modify
  intro state hholds
  exact hholds.write hfits slot

/-! ## Texts and tracing -/

theorem meets_render (h : halts (.fault ⟨.recursionLimit, none⟩)) (value : Value) :
    P.Meets halts (fun _ => True) (Run.render value) := by
  apply meets_get_bind
  intro state _
  cases state.store.render? value with
  | some text => exact meets_pure trivial
  | none => exact meets_throw h

theorem meets_text (h : halts (.fault ⟨.recursionLimit, none⟩)) (value : Value) :
    P.Meets halts (fun _ => True) (Run.text value) := by
  apply meets_get_bind
  intro state _
  cases state.store.text? value with
  | some text => exact meets_pure trivial
  | none => exact meets_throw h

theorem meets_mapM
    {run : Value → Run String}
    (h : ∀ value, P.Meets halts (fun _ => True) (run value)) (values : List Value) :
    P.Meets halts (fun _ => True) (values.mapM run) := by
  induction values with
  | nil => exact meets_pure trivial
  | cons value values ih =>
    rw [List.mapM_cons]
    exact (h value).bind fun _ _ => ih.bind fun _ _ => meets_pure trivial

theorem meets_entry (h : halts (.fault ⟨.recursionLimit, none⟩)) (event : Event) :
    P.Meets halts (fun _ => True) (event.entry setting) := by
  cases event with
  | enter | defineFunction => exact meets_pure trivial
  | leave | define | condition | select =>
    exact (meets_render h _).bind fun _ _ => meets_pure trivial
  | call => exact (meets_mapM (meets_render h) _).bind fun _ _ => meets_pure trivial

theorem Blames.recursionLimit (hblames : P.Blames offset) :
    P.halts (Halt.movedTo offset (.fault ⟨.recursionLimit, none⟩)) :=
  hblames .recursionLimit ⟨rfl, nofun, nofun⟩

theorem meets_record (hblames : P.Blames offset) (level : Int) (event : Event) :
    P.Meets P.halts (fun _ => True) (Run.record setting level offset (event.entry setting)) := by
  unfold Run.record
  split
  · have hentry : P.Meets P.halts (fun _ => True) (Run.relocate offset (event.entry setting)) :=
      (meets_entry hblames.recursionLimit event).relocate
    apply hentry.bind
    intro entry _
    apply meets_modify
    intro state hholds
    exact hholds
  · exact meets_pure trivial

/-! ## Native functions -/

theorem fits_of_sliced
    {items : Array Value} {start stop : Int} {values : List Value}
    (hfits : ∀ item ∈ items.toList, P.Fits item) (h : sliced items start stop = .ok values) :
    ∀ value ∈ values, P.Fits value := by
  unfold sliced at h
  split at h
  · cases h
  · cases h
    intro value hmem
    exact hfits value (List.mem_of_mem_take (List.mem_of_mem_drop hmem))

theorem fits_without
    {items : Array Value} (hfits : ∀ item ∈ items.toList, P.Fits item) (index : Int) :
    ∀ value ∈ without items index, P.Fits value := by
  intro value hmem
  unfold without at hmem
  split at hmem
  · exact hfits value hmem
  · exact hfits value (List.mem_of_mem_eraseIdx hmem)

theorem fits_of_sorted {values ordered : List Value} (h : sorted values = .ok ordered) :
    ∀ value ∈ ordered, P.Fits value := by
  unfold sorted at h
  intro value hmem
  split at h
  · cases h
    obtain ⟨n, -, rfl⟩ := List.mem_map.mp hmem
    exact .number n
  · split at h
    · cases h
      obtain ⟨text, -, rfl⟩ := List.mem_map.mp hmem
      exact .string text
    · cases h

theorem fits_of_length
    {store : Store} {args : List Value} {value : Value} (h : Native.length store args = .ok value) :
    P.Fits value := by
  unfold Native.length at h
  split at h
  · cases h
    exact .number _
  · cases h
    exact .number _
  · cases h
  · cases h

/-- The ways to halt of a run whose faults are to be moved to an offset. -/
abbrev haltsAt (P : Policy) (offset : Nat) (halt : Halt) : Prop :=
  P.halts (halt.movedTo offset)

theorem meets_lift_of_blames
    {α : Type} {results : α → Prop} {result : Except Cause α}
    (hblames : P.Blames offset) (hok : ∀ value, result = .ok value → results value)
    (herror : ∀ cause, result = .error cause → cause.Ordinary) :
    P.Meets (P.haltsAt offset) results (Run.lift result) :=
  meets_lift hok fun cause hrefused => hblames cause (herror cause hrefused)

theorem meets_line (hblames : P.Blames offset) (args : List Value) :
    P.Meets (P.haltsAt offset) (fun _ => True) (Native.line args) :=
  (meets_mapM (meets_text hblames.recursionLimit) args).bind fun _ _ => meets_pure trivial

theorem meets_write (text : String) : P.Meets halts (fun _ => True) (Run.write text) :=
  meets_modify fun _ hholds => hholds

theorem meets_readFile (hlaws : P.Laws setting) (hblames : P.Blames offset) (path : String) :
    P.Meets (P.haltsAt offset) P.Fits (Native.readFile setting path) := by
  apply meets_get_bind
  intro state hholds
  dsimp only
  generalize hreply : setting.files.ask _ _ _ = reply
  have hasked : P.Meets (P.haltsAt offset) (fun _ => True)
      (set { state with asked := state.asked + 1 } : Run Unit) :=
    fun _ _ => .ok hholds trivial
  apply hasked.bind
  intro _ _
  split
  · exact meets_throw (hlaws.waiting hreply)
  · cases reply.text with
    | ok text => exact meets_pure (.string text)
    | error fault => exact meets_throw (hblames _ ⟨rfl, nofun, nofun⟩)

/-- A standard function never asks the host to evaluate a section. -/
theorem meets_perform
    {native : Native} {args : List Value}
    (hlaws : P.Laws setting) (hblames : P.Blames offset) (hstandard : native ∈ Native.standard)
    (hfits : ∀ arg ∈ args, P.Fits arg) (enter : String → Run Value) :
    P.Meets (P.haltsAt offset) P.Fits (native.perform setting enter args) := by
  unfold Native.perform
  split
  case h_1 | h_2 =>
    exact (meets_line hblames args).bind fun _ _ => (meets_write _).bind fun _ _ => meets_pure .nil
  case h_3 text =>
    split
    · exact meets_pure (.number _)
    · exact meets_pure .nil
  case h_4 text separator =>
    apply meets_newArray
    intro item hmem
    obtain ⟨part, -, rfl⟩ := List.mem_map.mp hmem
    exact .string part
  case h_5 =>
    apply meets_get_bind
    intro state _
    exact meets_lift_of_blames hblames (fun _ => fits_of_length) fun _ => ordinary_of_length
  case h_6 id value =>
    apply meets_get_bind
    intro state hholds
    apply meets_newArray
    intro item hmem
    rcases List.mem_append.mp hmem with hold | hnew
    · exact hholds.items hold
    · rw [List.mem_singleton.mp hnew]
      exact hfits value (List.mem_cons_of_mem _ List.mem_cons_self)
  case h_7 id start stop =>
    apply meets_get_bind
    intro state hholds
    have hpart : P.Meets (P.haltsAt offset) (fun values => ∀ value ∈ values, P.Fits value)
        (Run.lift (sliced (state.store.items id) start stop)) :=
      meets_lift_of_blames hblames (fun _ => fits_of_sliced fun _ => hholds.items)
        fun _ => ordinary_of_sliced
    exact hpart.bind fun _ hfit => meets_newArray hfit
  case h_8 id index =>
    apply meets_get_bind
    intro state hholds
    exact meets_newArray (fits_without (fun _ => hholds.items) index)
  case h_9 start stop => exact meets_pure (.range (Range.upTo_endsAfter start stop).reaches)
  case h_10 start stop => exact meets_pure (.range (Range.through_endsAfter start stop).reaches)
  case h_11 id =>
    apply meets_get_bind
    intro state hholds
    have hordered : P.Meets (P.haltsAt offset) (fun values => ∀ value ∈ values, P.Fits value)
        (Run.lift (sorted (state.store.items id).toList)) :=
      meets_lift_of_blames hblames (fun _ => fits_of_sorted) fun _ => ordinary_of_sorted
    exact hordered.bind fun _ hfit => meets_newArray hfit
  case h_12 text => exact meets_pure (.string _)
  case h_13 path => exact meets_readFile hlaws hblames path
  case h_14 name target => simp [Native.standard] at hstandard
  case h_15 => exact meets_pure .nil

theorem meets_call
    {native : Native} {args : List Value}
    (hlaws : P.Laws setting) (hblames : P.Blames offset) (hstandard : native ∈ Native.standard)
    (hfits : ∀ arg ∈ args, P.Fits arg) (enter : String → Run Value) :
    P.Meets (P.haltsAt offset) P.Fits (native.call setting enter args) := by
  have hcheck : P.Meets (P.haltsAt offset) (fun _ => True) (Run.lift (native.check args)) :=
    meets_lift_of_blames hblames (fun _ _ => trivial) fun _ => ordinary_of_check
  exact hcheck.bind fun _ _ => meets_perform hlaws hblames hstandard hfits enter

end Policy

end PuzzleLang
