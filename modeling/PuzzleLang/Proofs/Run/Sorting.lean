import PuzzleLang.Proofs.Store.Same
import Mathlib.Data.List.Sort
import Mathlib.Data.Set.List
import Mathlib.Data.String.Basic

/-!
# Sorting

Arrays of numbers and arrays of texts can be sorted, and no others.  The order is antisymmetric, so
arrays with the same items in different orders have the same sorted items, and an array in ascending
order is left as it is.  The names of the types in an array that cannot be sorted are given in
ascending order as well, whatever the order of its items.
-/

namespace PuzzleLang

/-! ## The order of texts -/

/-- Of two texts the first is a proper beginning of the second, or has the smaller code point where
they first differ. -/
def Precedes (xs ys : List Char) : Prop :=
  (∃ c rest, ys = xs ++ c :: rest) ∨
    ∃ common a b left right, xs = common ++ a :: left ∧ ys = common ++ b :: right ∧
      a.toNat < b.toNat

theorem Precedes.cons {xs ys : List Char} (h : Precedes xs ys) (c : Char) :
    Precedes (c :: xs) (c :: ys) := by
  rcases h with ⟨next, rest, rfl⟩ | ⟨common, a, b, left, right, rfl, rfl, hless⟩
  · exact .inl ⟨next, rest, rfl⟩
  · exact .inr ⟨c :: common, a, b, left, right, rfl, rfl, hless⟩

theorem precedes_iff_lt {xs ys : List Char} : Precedes xs ys ↔ xs < ys := by
  constructor
  · rintro (⟨c, rest, rfl⟩ | ⟨common, a, b, left, right, rfl, rfl, hless⟩)
    · induction xs with
      | nil => exact List.nil_lt_cons c rest
      | cons x xs ih => exact List.cons_lt_cons_iff.mpr (.inr ⟨rfl, ih⟩)
    · induction common with
      | nil => exact List.cons_lt_cons_iff.mpr (.inl hless)
      | cons x common ih => exact List.cons_lt_cons_iff.mpr (.inr ⟨rfl, ih⟩)
  · intro hless
    induction hless with
    | nil => exact .inl ⟨_, _, rfl⟩
    | rel hless => exact .inr ⟨[], _, _, _, _, rfl, rfl, hless⟩
    | cons _ ih => exact ih.cons _

/-! ## The order of values -/

/-- One value does not come after another of the same kind: numbers are compared by size, texts by
their first difference. -/
inductive Value.AtMost : Value → Value → Prop
  | numbers {a b : Int} : a ≤ b → AtMost (.number a) (.number b)
  | same (text : String) : AtMost (.string text) (.string text)
  | texts {a b : String} : Precedes a.toList b.toList → AtMost (.string a) (.string b)

theorem Value.AtMost.antisymm {v w : Value} (h : v.AtMost w) (h' : w.AtMost v) : v = w := by
  cases h with
  | numbers hle =>
    cases h' with
    | numbers hle' => rw [Int.le_antisymm hle hle']
  | same => rfl
  | texts hprecedes =>
    cases h' with
    | same => rfl
    | texts hprecedes' =>
      exact absurd (precedes_iff_lt.mp hprecedes') (lt_asymm (precedes_iff_lt.mp hprecedes))

theorem Value.atMost_number {a b : Int} : (Value.number a).AtMost (.number b) ↔ a ≤ b := by
  constructor
  · rintro ⟨hle⟩
    exact hle
  · exact .numbers

theorem Value.atMost_string {a b : String} : (Value.string a).AtMost (.string b) ↔ a ≤ b := by
  rw [le_iff_lt_or_eq, String.lt_iff_toList_lt, ← precedes_iff_lt]
  constructor
  · rintro (_ | _ | hprecedes)
    · exact .inr rfl
    · exact .inl hprecedes
  · rintro (hprecedes | rfl)
    · exact .texts hprecedes
    · exact .same a

/-! ## The items of an array -/

/-- The items are all numbers, or all texts. -/
def Sortable (items : List Value) : Prop :=
  (∀ item ∈ items, ∃ number, item = .number number) ∨ ∀ item ∈ items, ∃ text, item = .string text

theorem Sortable.perm {items others : List Value} (h : Sortable items) (hperm : others.Perm items) :
    Sortable others :=
  h.imp (fun hall item hmem => hall item (hperm.mem_iff.mp hmem))
    fun hall item hmem => hall item (hperm.mem_iff.mp hmem)

section

variable {α : Type} {values : List Value}

theorem mapM_eq_some_iff_eq_map
    {pick : Value → Option α} {make : α → Value} {xs : List α}
    (hmade : ∀ value x, pick value = some x ↔ value = make x) :
    values.mapM pick = some xs ↔ values = xs.map make := by
  simp only [Store.mapM_eq_some_iff, hmade]
  rw [← List.forall₂_eq_eq_eq, List.forall₂_map_right_iff]

theorem exists_eq_map {make : α → Value} (hall : ∀ value ∈ values, ∃ x, value = make x) :
    ∃ xs : List α, values = xs.map make := by
  have hinRange : values ∈ Set.range (List.map make) := by
    rw [Set.range_list_map]
    exact fun value hmem => (hall value hmem).imp fun _ => Eq.symm
  exact hinRange.imp fun _ => Eq.symm

theorem numbersOf?_eq_some_iff {numbers : List Int} :
    numbersOf? values = some numbers ↔ values = numbers.map .number := by
  apply mapM_eq_some_iff_eq_map
  intro value x
  cases value <;> simp

theorem textsOf?_eq_some_iff {texts : List String} :
    textsOf? values = some texts ↔ values = texts.map .string := by
  apply mapM_eq_some_iff_eq_map
  intro value x
  cases value <;> simp

end

/-! ## Sorted items -/

/-- The items are those of an array in ascending order. -/
structure IsSorted (items ordered : List Value) : Prop where
  perm : ordered.Perm items
  ascending : ordered.Pairwise Value.AtMost

theorem IsSorted.eq_of_perm
    {items others ordered ordered' : List Value}
    (h : IsSorted items ordered) (h' : IsSorted others ordered') (hperm : others.Perm items) :
    ordered' = ordered :=
  (h'.perm.trans (hperm.trans h.perm.symm)).eq_of_pairwise (fun _ _ _ _ => Value.AtMost.antisymm)
    h'.ascending h.ascending

theorem isSorted_map_mergeSort
    {α : Type} {le : α → α → Bool} {make : α → Value}
    (htrans : ∀ a b c, le a b → le b c → le a c) (htotal : ∀ a b, le a b || le b a)
    (hatMost : ∀ {a b}, le a b → (make a).AtMost (make b)) (xs : List α) :
    IsSorted (xs.map make) ((xs.mergeSort le).map make) where
  perm := (List.mergeSort_perm xs le).map make
  ascending := List.pairwise_map.mpr ((List.pairwise_mergeSort htrans htotal xs).imp hatMost)

/-- Either the items can be sorted and are, or the fault names their types. -/
theorem sorted_cases (items : List Value) :
    (Sortable items ∧ ∃ ordered, sorted items = .ok ordered ∧ IsSorted items ordered) ∨
      ¬ Sortable items ∧ sorted items = .error (.cannotSort (typeNames items)) := by
  unfold sorted
  -- an array without items is found to hold numbers only
  split
  next numbers hnumbers =>
    obtain rfl := numbersOf?_eq_some_iff.mp hnumbers
    refine .inl ⟨.inl (by simp), _, rfl, isSorted_map_mergeSort ?_ ?_ ?_ numbers⟩
    · simpa using fun _ _ _ => Int.le_trans
    · simpa using Int.le_total
    · exact fun hle => Value.atMost_number.mpr (of_decide_eq_true hle)
  next hnoNumbers =>
    split
    next texts htexts =>
      obtain rfl := textsOf?_eq_some_iff.mp htexts
      refine .inl ⟨.inr (by simp), _, rfl, isSorted_map_mergeSort ?_ ?_ ?_ texts⟩
      · simpa using fun _ _ _ => String.le_trans
      · simpa using String.le_total
      · exact fun hle => Value.atMost_string.mpr (of_decide_eq_true hle)
    next hnoTexts =>
      refine .inr ⟨?_, rfl⟩
      rintro (hall | hall)
      · obtain ⟨numbers, hmap⟩ := exists_eq_map hall
        cases hnoNumbers.symm.trans (numbersOf?_eq_some_iff.mpr hmap)
      · obtain ⟨texts, hmap⟩ := exists_eq_map hall
        cases hnoTexts.symm.trans (textsOf?_eq_some_iff.mpr hmap)

/-! ## The names of types -/

theorem nodup_eraseDups (names : List String) : names.eraseDups.Nodup := by
  -- the names after the first are those that differ from it, so the length decreases
  induction hsize : names.length using Nat.strong_induction_on generalizing names with
  | _ size ih =>
    cases names with
    | nil => exact List.nodup_nil
    | cons name names =>
      rw [List.eraseDups_cons, List.nodup_cons, List.mem_eraseDups]
      constructor
      · simp
      · apply ih _ _ _ rfl
        rw [← hsize, List.length_cons]
        exact Nat.lt_succ_of_le (List.length_filter_le _ _)

theorem mem_typeNames {values : List Value} {name : String} :
    name ∈ typeNames values ↔ ∃ value ∈ values, value.type.name = name := by
  rw [typeNames, List.mem_mergeSort, List.mem_eraseDups, List.mem_map]

theorem typeNames_ascending (values : List Value) :
    (typeNames values).Pairwise fun a b => Precedes a.toList b.toList := by
  have hordered : (typeNames values).Pairwise (fun a b => decide (a ≤ b) = true) := by
    apply List.pairwise_mergeSort
    · simpa using fun _ _ _ => String.le_trans
    · simpa using String.le_total
  have hdistinct : (typeNames values).Nodup :=
    (List.mergeSort_perm _ _).nodup_iff.mpr (nodup_eraseDups _)
  apply (hordered.and hdistinct).imp
  rintro a b ⟨hle, hne⟩
  have hless : a < b := lt_of_le_of_ne (of_decide_eq_true hle) hne
  exact precedes_iff_lt.mpr (String.lt_iff_toList_lt.mp hless)

theorem typeNames_perm {values others : List Value} (hperm : others.Perm values) :
    typeNames others = typeNames values := by
  have hascending (values : List Value) : (typeNames values).Pairwise (· < ·) :=
    (typeNames_ascending values).imp precedes_iff_lt.mp
  apply (hascending others).eq_of_mem_iff (hascending values)
  intro name
  simp only [mem_typeNames, hperm.mem_iff]

/-! ## The native function -/

namespace Native

theorem call_sort_eq
    (setting : Setting) (enter : String → Run Value) (id : ArrayId) (state : State) :
    Native.sort.call setting enter [.array id] state =
      (Run.lift (sorted (state.store.items id).toList) >>= Run.newArray) state :=
  rfl

/-- An array can be sorted exactly if its items are all numbers or all texts.  Its sorted items are
put into a new array; they depend only on which items there are, and so does the fault of an array
that cannot be sorted. -/
theorem call_sort (items : List Value) :
    (Sortable items →
      ∃ ordered, IsSorted items ordered ∧
        (items.Pairwise Value.AtMost → ordered = items) ∧
        ∀ setting enter (state : State) id, (state.store.items id).toList.Perm items →
          Native.sort.call setting enter [.array id] state =
            .ok (.array ⟨state.store.arrays.size⟩)
              { state with store := (state.store.newArray ordered.toArray).2 }) ∧
    (¬ Sortable items →
      ∃ names, names.Pairwise (fun a b => Precedes a.toList b.toList) ∧
        (∀ name, name ∈ names ↔ ∃ item ∈ items, item.type.name = name) ∧
        (Cause.cannotSort names).stage = .run ∧
        (Cause.cannotSort names).message =
          "cannot sort an array of " ++ " and ".intercalate names ++ " values" ∧
        ∀ setting enter (state : State) id, (state.store.items id).toList.Perm items →
          Native.sort.call setting enter [.array id] state =
            .error (.fault ⟨.cannotSort names, none⟩) state) := by
  constructor
  · intro hsortable
    obtain ⟨-, ordered, -, hsorted⟩ | ⟨hnotSortable, -⟩ := sorted_cases items
    · refine ⟨ordered, hsorted, ?_, ?_⟩
      · exact fun hascending => IsSorted.eq_of_perm ⟨.refl items, hascending⟩ hsorted (.refl items)
      · intro setting enter state id hperm
        obtain ⟨-, found, hfound, hsorted'⟩ | ⟨hnotSortable, -⟩ :=
          sorted_cases (state.store.items id).toList
        · obtain rfl := hsorted.eq_of_perm hsorted' hperm
          rw [call_sort_eq, hfound]
          rfl
        · exact absurd (hsortable.perm hperm) hnotSortable
    · exact absurd hsortable hnotSortable
  · intro hnotSortable
    refine ⟨typeNames items, typeNames_ascending items, fun _ => mem_typeNames, rfl, rfl, ?_⟩
    intro setting enter state id hperm
    obtain ⟨hsortable, -⟩ | ⟨-, hfault⟩ := sorted_cases (state.store.items id).toList
    · exact absurd (hsortable.perm hperm.symm) hnotSortable
    · rw [call_sort_eq, hfault, typeNames_perm hperm]
      rfl

end Native

/-- A state with an array of numbers, an array of texts of which one begins with another, and an
array of values of several types. -/
def State.unsorted : State :=
  { State.initial with
    store.arrays := #[
      #[.number 10, .number (-2), .number 9],
      #[.string "b", .string "a", .string "ab"],
      #[.number 1, .nil, .array ⟨0⟩, .nil]] }

/-- The numbers and the texts are sorted, and the fault names each type once. -/
theorem Native.call_sort_unsorted :
    let setting := Setting.ofProgram ⟨[], []⟩ 0 ⟨fun _ _ _ => .missing⟩ .standard
    let enter : String → Run Value := fun _ => return .nil
    Native.sort.call setting enter [.array ⟨0⟩] .unsorted =
        .ok (.array ⟨3⟩) { State.unsorted with
          store := (State.unsorted.store.newArray #[.number (-2), .number 9, .number 10]).2 } ∧
      Native.sort.call setting enter [.array ⟨1⟩] .unsorted =
        .ok (.array ⟨3⟩) { State.unsorted with
          store := (State.unsorted.store.newArray #[.string "a", .string "ab", .string "b"]).2 } ∧
      Native.sort.call setting enter [.array ⟨2⟩] .unsorted =
        .error (.fault ⟨.cannotSort ["array", "nil", "number"], none⟩) .unsorted := by
  intro setting enter
  refine ⟨?_, ?_, ?_⟩
  · obtain ⟨ordered, -, hsame, hcalls⟩ :=
      (Native.call_sort ([-2, 9, 10].map .number)).1 (.inl (by simp))
    have hascending : ([-2, 9, 10] : List Int).Pairwise (· ≤ ·) := by decide
    obtain rfl := hsame (List.pairwise_map.mpr (hascending.imp Value.atMost_number.mpr))
    have hrotated : ([10] ++ [-2, 9] : List Int).Perm ([-2, 9] ++ [10]) := List.perm_append_comm
    exact hcalls setting enter .unsorted ⟨0⟩ (hrotated.map Value.number)
  · obtain ⟨ordered, -, hsame, hcalls⟩ :=
      (Native.call_sort (["a", "ab", "b"].map .string)).1 (.inr (by simp))
    have hascending : ["a", "ab", "b"].Pairwise (· ≤ ·) := by decide
    obtain rfl := hsame (List.pairwise_map.mpr (hascending.imp Value.atMost_string.mpr))
    have hrotated : (["b"] ++ ["a", "ab"]).Perm (["a", "ab"] ++ ["b"]) := List.perm_append_comm
    exact hcalls setting enter .unsorted ⟨1⟩ (hrotated.map Value.string)
  · have hnotSortable : ¬ Sortable [.number 1, .nil, .array ⟨0⟩, .nil] := by
      rintro (hall | hall)
      · simp at hall
      · simp at hall
    obtain ⟨names, hascending, hnames, -, -, hcalls⟩ := (Native.call_sort _).2 hnotSortable
    have hisNames : names = ["array", "nil", "number"] := by
      have hascending' : ["array", "nil", "number"].Pairwise (· < ·) := by decide
      apply (hascending.imp precedes_iff_lt.mp).eq_of_mem_iff hascending'
      intro name
      rw [hnames]
      simp only [Value.type, ValueType.name, List.mem_cons, List.not_mem_nil]
      grind
    rw [hcalls setting enter .unsorted ⟨2⟩ (.refl _), hisNames]

end PuzzleLang
