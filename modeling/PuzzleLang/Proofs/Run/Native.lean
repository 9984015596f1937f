import PuzzleLang.Proofs.Run.Primitive

/-!
# Native functions in accord

The check of the arguments of a native function depends on their number and types only, and
arguments that pass it have the form that the function expects.  So two calls of a native function
with arguments that correspond are in accord; of the functions of the host this is assumed.
-/

namespace PuzzleLang

/-! ## Arguments that pass a check -/

/-- An argument is of the type that a tag names. -/
def FitsTag (tag : String) (arg : Value) : Prop :=
  tag = "any" ∨ arg.type.name = tag

theorem forall₂_fitsTag_of_firstMisfit
    {index : Nat} {tags : List String} {args : List Value}
    (hsameLength : args.length = tags.length) (h : firstMisfit index tags args = none) :
    List.Forall₂ FitsTag tags args := by
  induction tags generalizing index args with
  | nil =>
    rw [List.eq_nil_of_length_eq_zero hsameLength]
    exact .nil
  | cons tag tags ih =>
    cases args with
    | nil => cases hsameLength
    | cons arg args =>
      rw [firstMisfit] at h
      split at h
      case isTrue hfits =>
        have hfirst : FitsTag tag arg := by simpa [FitsTag] using hfits
        exact .cons hfirst (ih (Nat.succ.inj hsameLength) h)
      case isFalse => cases h

theorem forall₂_fitsTag_of_expectArguments
    {name : String} {tags : List String} {args : List Value}
    (h : expectArguments name tags args = .ok ()) :
    List.Forall₂ FitsTag tags args := by
  unfold expectArguments at h
  split at h
  case isTrue hsameLength =>
    split at h
    case h_1 => cases h
    case h_2 hnone => exact forall₂_fitsTag_of_firstMisfit hsameLength hnone
  case isFalse => cases h

theorem fitsTag_of_check
    {native : Native} {tags : List String} {args : List Value}
    (hsignature : native.signature? = some tags) (h : native.check args = .ok ()) :
    List.Forall₂ FitsTag tags args := by
  rw [Native.check, hsignature] at h
  exact forall₂_fitsTag_of_expectArguments h

section Like

variable {offsets : Nat → Nat → Prop} {value value' : Value} {values values' : List Value}

theorem Value.Like.string_of_fits
    (hlike : Value.Like offsets value value') (hfits : FitsTag "string" value) :
    ∃ text, value = .string text ∧ value' = .string text := by
  cases hlike with
  | same => cases value <;> simp [FitsTag, Value.type, ValueType.name] at hfits ⊢
  | closure => simp [FitsTag, Value.type, ValueType.name] at hfits

theorem Value.Like.number_of_fits
    (hlike : Value.Like offsets value value') (hfits : FitsTag "number" value) :
    ∃ n, value = .number n ∧ value' = .number n := by
  cases hlike with
  | same => cases value <;> simp [FitsTag, Value.type, ValueType.name] at hfits ⊢
  | closure => simp [FitsTag, Value.type, ValueType.name] at hfits

theorem Value.Like.array_of_fits
    (hlike : Value.Like offsets value value') (hfits : FitsTag "array" value) :
    ∃ id, value = .array id ∧ value' = .array id := by
  cases hlike with
  | same => cases value <;> simp [FitsTag, Value.type, ValueType.name] at hfits ⊢
  | closure => simp [FitsTag, Value.type, ValueType.name] at hfits

theorem firstMisfit_same
    (h : List.Forall₂ (Value.Like offsets) values values') (index : Nat) (tags : List String) :
    firstMisfit index tags values' = firstMisfit index tags values := by
  induction h generalizing index tags with
  | nil => rfl
  | cons hfirst _ ih =>
    cases tags with
    | nil => rfl
    | cons tag tags => rw [firstMisfit, firstMisfit, hfirst.type, ih]

theorem check_same (h : List.Forall₂ (Value.Like offsets) values values') (native : Native) :
    native.check values' = native.check values := by
  unfold Native.check expectArguments
  simp only [firstMisfit_same h, h.length_eq]

theorem numbersOf?_same (h : List.Forall₂ (Value.Like offsets) values values') :
    numbersOf? values' = numbersOf? values := by
  unfold numbersOf?
  induction h with
  | nil => rfl
  | cons hfirst _ ih =>
    rw [List.mapM_cons, List.mapM_cons, ih]
    cases hfirst <;> rfl

theorem textsOf?_same (h : List.Forall₂ (Value.Like offsets) values values') :
    textsOf? values' = textsOf? values := by
  unfold textsOf?
  induction h with
  | nil => rfl
  | cons hfirst _ ih =>
    rw [List.mapM_cons, List.mapM_cons, ih]
    cases hfirst <;> rfl

theorem typeNames_same (h : List.Forall₂ (Value.Like offsets) values values') :
    typeNames values' = typeNames values := by
  have htypes : values'.map (·.type.name) = values.map (·.type.name) := by
    induction h with
    | nil => rfl
    | cons hfirst _ ih => rw [List.map_cons, List.map_cons, hfirst.type, ih]
  rw [typeNames, htypes, typeNames]

theorem sorted_same (h : List.Forall₂ (Value.Like offsets) values values') :
    sorted values' = sorted values := by
  unfold sorted
  rw [numbersOf?_same h, textsOf?_same h, typeNames_same h]

end Like

theorem isPlain_of_sorted
    {values sortedValues : List Value} (h : sorted values = .ok sortedValues) :
    ∀ value ∈ sortedValues, value.IsPlain := by
  unfold sorted at h
  intro value hmem
  split at h
  · cases h
    obtain ⟨n, -, rfl⟩ := List.mem_map.mp hmem
    exact .number n
  · split at h
    · cases h
      obtain ⟨text, -, rfl⟩ := List.mem_map.mp hmem
      exact .string text
    · cases h

/-! ## Calls -/

namespace Accord

variable {A : Accord} {setting setting' : Setting} {start store : Store}

theorem likes_of_values
    {values values' : List Value} (h : List.Forall₂ (A.values store) values values') :
    List.Forall₂ (Value.Like A.offsets) values values' :=
  h.imp fun _ _ hsame => hsame.1

theorem like_sliced
    {items items' : Array Value}
    (h : List.Forall₂ (A.values store) items.toList items'.toList) (first last : Int) :
    ExceptLike (List.Forall₂ (A.values store)) (sliced items first last)
      (sliced items' first last) := by
  have hsizes : items'.size = items.size := by simpa using h.length_eq.symm
  unfold sliced
  rw [hsizes]
  split
  · exact .error _
  · exact .ok (List.forall₂_drop _ (List.forall₂_take _ h))

theorem values_without
    {items items' : Array Value}
    (h : List.Forall₂ (A.values store) items.toList items'.toList) (index : Int) :
    List.Forall₂ (A.values store) (without items index) (without items' index) := by
  unfold without
  split
  · exact h
  · rw [List.eraseIdx_eq_take_drop_succ, List.eraseIdx_eq_take_drop_succ]
    exact List.rel_append (List.forall₂_take _ h) (List.forall₂_drop _ h)

theorem args_string
    {args args' : List Value}
    (hfits : List.Forall₂ FitsTag ["string"] args)
    (hvalues : List.Forall₂ (A.values store) args args') :
    ∃ text, args = [.string text] ∧ args' = [.string text] := by
  obtain _ | ⟨hfits, _ | _⟩ := hfits
  obtain _ | ⟨hfirst, _ | _⟩ := hvalues
  obtain ⟨text, rfl, rfl⟩ := hfirst.1.string_of_fits hfits
  exact ⟨text, rfl, rfl⟩

theorem args_number_number
    {args args' : List Value}
    (hfits : List.Forall₂ FitsTag ["number", "number"] args)
    (hvalues : List.Forall₂ (A.values store) args args') :
    ∃ a b, args = [.number a, .number b] ∧ args' = [.number a, .number b] := by
  obtain _ | ⟨hfits, _ | ⟨hfits', _ | _⟩⟩ := hfits
  obtain _ | ⟨hfirst, _ | ⟨hsecond, _ | _⟩⟩ := hvalues
  obtain ⟨a, rfl, rfl⟩ := hfirst.1.number_of_fits hfits
  obtain ⟨b, rfl, rfl⟩ := hsecond.1.number_of_fits hfits'
  exact ⟨a, b, rfl, rfl⟩

namespace Laws

variable (hlaws : A.Laws setting setting')

include hlaws

theorem values_all_plain {values : List Value} (hplain : ∀ value ∈ values, value.IsPlain) :
    List.Forall₂ (A.values store) values values :=
  List.forall₂_same.mpr fun value hmem => hlaws.values_plain (hplain value hmem)

theorem like_length
    {s s' : State} {args args' : List Value}
    (hstates : A.states s s') (hvalues : List.Forall₂ (A.values s.store) args args') :
    ExceptLike (A.values store) (Native.length s.store args) (Native.length s'.store args') := by
  cases hvalues with
  | nil => exact .error _
  | @cons arg arg' args args' hfirst hmore =>
    cases hmore with
    | cons _ hmore =>
      simp only [Native.length, List.length_cons, hmore.length_eq]
      exact .error _
    | nil =>
      obtain ⟨hlike, hallowed⟩ := hfirst
      cases hlike with
      | closure => exact .error _
      | same =>
        cases arg with
        | array id =>
          have hsizes : (s'.store.items id).size = (s.store.items id).size := by
            simpa using (hlaws.items hstates hallowed).length_eq.symm
          simp only [Native.length, hsizes]
          exact .ok (hlaws.values_plain (.number _))
        | string text => exact .ok (hlaws.values_plain (.number _))
        | nil | number | map | range | native | closure => exact .error _

theorem alike_line {args args' : List Value} (hvalues : List.Forall₂ (A.values start) args args') :
    A.Alike (fun _ text text' => text' = text) start (Native.line args) (Native.line args') := by
  refine (hlaws.alike_mapM_text hvalues).bind fun _ texts texts' _ hsame => ?_
  exact alike_pure fun _ _ => by rw [hsame]

theorem alike_print
    {args args' : List Value}
    (hvalues : List.Forall₂ (A.values start) args args') (ending : String → String) :
    A.Alike A.values start
      (do
        Run.write (ending (← Native.line args))
        return .nil)
      (do
        Run.write (ending (← Native.line args'))
        return .nil) := by
  refine (hlaws.alike_line hvalues).bind fun _ text text' _ hsame => ?_
  rw [hsame]
  exact (hlaws.alike_write _).bind fun _ _ _ _ _ => hlaws.alike_plain .nil

theorem alike_newArray_lift
    {result result' : Except Cause (List Value)}
    (h : ExceptLike (List.Forall₂ (A.values start)) result result') :
    A.Alike A.values start (Run.lift result >>= Run.newArray)
      (Run.lift result' >>= Run.newArray) := by
  have hlifted : A.Alike (fun store => List.Forall₂ (A.values store)) start (Run.lift result)
      (Run.lift result') :=
    alike_lift fun _ hgrows => h.imp fun _ _ => hlaws.values_mono_all hgrows
  exact hlifted.bind fun _ _ _ _ hvalues => hlaws.alike_newArray hvalues

theorem alike_perform
    {native : Native} {args args' : List Value} {enter enter' : String → Run Value}
    (hentered : ∀ name target, native = .evaluate name target →
      A.Alike A.values start (enter target) (enter' target))
    (hchecked : native.check args = .ok ()) (hvalues : List.Forall₂ (A.values start) args args') :
    A.Alike A.values start (native.perform setting enter args)
      (native.perform setting' enter' args') := by
  cases native with
  | print => exact hlaws.alike_print hvalues id
  | println => exact hlaws.alike_print hvalues (· ++ "\n")
  | len =>
    refine alike_get_bind fun state state' hgrows hstates => alike_lift fun store _ => ?_
    exact hlaws.like_length hstates (hlaws.values_mono_all hgrows hvalues)
  | evaluate name target => exact hentered name target rfl
  | num =>
    obtain ⟨text, rfl, rfl⟩ := args_string (fitsTag_of_check rfl hchecked) hvalues
    rw [Native.perform, Native.perform]
    cases readInteger? text with
    | some n => exact hlaws.alike_plain (.number n)
    | none => exact hlaws.alike_plain .nil
  | upper =>
    obtain ⟨text, rfl, rfl⟩ := args_string (fitsTag_of_check rfl hchecked) hvalues
    exact hlaws.alike_plain (.string _)
  | read =>
    obtain ⟨path, rfl, rfl⟩ := args_string (fitsTag_of_check rfl hchecked) hvalues
    exact hlaws.readFile path
  | range =>
    obtain ⟨a, b, rfl, rfl⟩ := args_number_number (fitsTag_of_check rfl hchecked) hvalues
    exact hlaws.alike_plain (.range _)
  | rangei =>
    obtain ⟨a, b, rfl, rfl⟩ := args_number_number (fitsTag_of_check rfl hchecked) hvalues
    exact hlaws.alike_plain (.range _)
  | split =>
    obtain _ | ⟨hfits, _ | ⟨hfits', _ | _⟩⟩ := fitsTag_of_check rfl hchecked
    obtain _ | ⟨hfirst, _ | ⟨hsecond, _ | _⟩⟩ := hvalues
    obtain ⟨text, rfl, rfl⟩ := hfirst.1.string_of_fits hfits
    obtain ⟨separator, rfl, rfl⟩ := hsecond.1.string_of_fits hfits'
    refine hlaws.alike_newArray (hlaws.values_all_plain fun value hmem => ?_)
    obtain ⟨part, -, rfl⟩ := List.mem_map.mp hmem
    exact .string part
  | push =>
    obtain _ | ⟨hfits, _ | ⟨-, _ | _⟩⟩ := fitsTag_of_check rfl hchecked
    obtain _ | ⟨hfirst, _ | ⟨hsecond, _ | _⟩⟩ := hvalues
    obtain ⟨id, rfl, rfl⟩ := hfirst.1.array_of_fits hfits
    refine alike_get_bind fun state state' hgrows hstates => hlaws.alike_newArray ?_
    have hitems := hlaws.items hstates (hlaws.allowed_mono hgrows hfirst.2)
    exact List.rel_append hitems (.cons (hlaws.values_mono hgrows hsecond) .nil)
  | slice =>
    obtain _ | ⟨hfits, _ | ⟨hfits', _ | ⟨hfits'', _ | _⟩⟩⟩ := fitsTag_of_check rfl hchecked
    obtain _ | ⟨hfirst, _ | ⟨hsecond, _ | ⟨hthird, _ | _⟩⟩⟩ := hvalues
    obtain ⟨id, rfl, rfl⟩ := hfirst.1.array_of_fits hfits
    obtain ⟨a, rfl, rfl⟩ := hsecond.1.number_of_fits hfits'
    obtain ⟨b, rfl, rfl⟩ := hthird.1.number_of_fits hfits''
    refine alike_get_bind fun state state' hgrows hstates => ?_
    have hitems := hlaws.items hstates (hlaws.allowed_mono hgrows hfirst.2)
    exact hlaws.alike_newArray_lift (like_sliced hitems a b)
  | delete =>
    obtain _ | ⟨hfits, _ | ⟨hfits', _ | _⟩⟩ := fitsTag_of_check rfl hchecked
    obtain _ | ⟨hfirst, _ | ⟨hsecond, _ | _⟩⟩ := hvalues
    obtain ⟨id, rfl, rfl⟩ := hfirst.1.array_of_fits hfits
    obtain ⟨index, rfl, rfl⟩ := hsecond.1.number_of_fits hfits'
    refine alike_get_bind fun state state' hgrows hstates => hlaws.alike_newArray ?_
    exact values_without (hlaws.items hstates (hlaws.allowed_mono hgrows hfirst.2)) index
  | sort =>
    obtain _ | ⟨hfits, _ | _⟩ := fitsTag_of_check rfl hchecked
    obtain _ | ⟨hfirst, _ | _⟩ := hvalues
    obtain ⟨id, rfl, rfl⟩ := hfirst.1.array_of_fits hfits
    refine alike_get_bind fun state state' hgrows hstates => ?_
    have hitems := hlaws.items hstates (hlaws.allowed_mono hgrows hfirst.2)
    exact hlaws.alike_newArray_lift (.of_eq (sorted_same (likes_of_values hitems)) fun _ h =>
      hlaws.values_all_plain (isPlain_of_sorted h))

theorem alike_call
    {native : Native} {args args' : List Value} {enter enter' : String → Run Value}
    (hentered : ∀ name target, native = .evaluate name target →
      A.Alike A.values start (enter target) (enter' target))
    (hvalues : List.Forall₂ (A.values start) args args') :
    A.Alike A.values start (native.call setting enter args)
      (native.call setting' enter' args') := by
  have hchecks := check_same (likes_of_values hvalues) native
  have hchecked : A.Alike (fun _ _ _ => native.check args = .ok ()) start
      (Run.lift (native.check args)) (Run.lift (native.check args')) :=
    alike_lift fun _ _ => .of_eq hchecks fun _ h => h
  refine hchecked.bind fun _ _ _ hgrows hpassed => ?_
  exact hlaws.alike_perform (fun name target hhost => (hentered name target hhost).mono hgrows)
    hpassed (hlaws.values_mono_all hgrows hvalues)

end Laws

end Accord

end PuzzleLang
