import PuzzleLang.Bindings
import Mathlib.Data.List.Nodup

/-!
# Binding names

Binding a name changes the value of that name only.  A name that is bound already keeps its place
among the others, and a new one comes last.
-/

namespace PuzzleLang

namespace Bindings

variable {α : Type} {bindings : Bindings α} {name wanted : String} {value : α}

/-! ## Values -/

theorem get?_put_self (bindings : Bindings α) (name : String) (value : α) :
    (bindings.put name value).get? name = some value := by
  induction bindings with
  | nil => simp [put, get?]
  | cons entry later ih =>
    obtain ⟨bound, old⟩ := entry
    rw [put]
    split
    · next hsame => rw [get?, if_pos hsame]
    · next hother => rw [get?, if_neg hother, ih]

theorem get?_put_of_ne (hne : name ≠ wanted) (bindings : Bindings α) (value : α) :
    (bindings.put name value).get? wanted = bindings.get? wanted := by
  induction bindings with
  | nil => simp [put, get?, hne]
  | cons entry later ih =>
    obtain ⟨bound, old⟩ := entry
    rw [put]
    split
    · next hsame =>
      obtain rfl : bound = name := beq_iff_eq.mp hsame
      rw [get?, get?, if_neg (by simpa using hne), if_neg (by simpa using hne)]
    · rw [get?, get?, ih]

theorem put_of_get? (hbound : bindings.get? name = some value) :
    bindings.put name value = bindings := by
  induction bindings with
  | nil => cases hbound
  | cons entry later ih =>
    obtain ⟨key, old⟩ := entry
    rw [get?] at hbound
    rw [put]
    split
    · next hsame =>
      rw [if_pos hsame] at hbound
      cases hbound
      rfl
    · next hother =>
      rw [if_neg hother] at hbound
      rw [ih hbound]

/-! ## Names -/

theorem binds_eq_false_iff : bindings.binds name = false ↔ bindings.get? name = none := by
  rw [binds, Option.isSome_eq_false_iff, Option.isNone_iff_eq_none]

theorem binds_iff_mem_names : bindings.binds name = true ↔ name ∈ bindings.names := by
  induction bindings with
  | nil => simp [binds, get?, names]
  | cons entry later ih =>
    obtain ⟨bound, old⟩ := entry
    by_cases hsame : bound = name
    · simp [binds, get?, names, hsame]
    · have hmore : (get? later name).isSome = true ↔ name ∈ later.map Prod.fst := ih
      simp [binds, get?, names, hsame, Ne.symm hsame, hmore]

theorem names_put_of_binds (hbound : bindings.binds name = true) :
    (bindings.put name value).names = bindings.names := by
  induction bindings with
  | nil => cases hbound
  | cons entry later ih =>
    obtain ⟨key, old⟩ := entry
    rw [put]
    split
    · rfl
    case isFalse hother =>
      have hboundLater : binds later name = true := by
        simpa [binds, get?, hother] using hbound
      exact congrArg (key :: ·) (ih hboundLater)

theorem names_prefix_put (bindings : Bindings α) (name : String) (value : α) :
    bindings.names <+: (bindings.put name value).names := by
  induction bindings with
  | nil => exact List.nil_prefix
  | cons entry later ih =>
    obtain ⟨key, old⟩ := entry
    rw [put]
    split
    · exact List.prefix_rfl
    · exact (List.prefix_cons_inj key).mpr ih

theorem put_of_notMem_names (hnew : name ∉ bindings.names) (value : α) :
    bindings.put name value = bindings ++ [(name, value)] := by
  induction bindings with
  | nil => rfl
  | cons binding later ih =>
    obtain ⟨first, bound⟩ := binding
    simp only [names, List.map_cons, List.mem_cons, not_or] at hnew
    have hdifferent : (first == name) = false := by simpa using Ne.symm hnew.1
    rw [put, hdifferent, ih hnew.2]
    rfl

/-- A name that is bound already keeps its place, and a new one comes last. -/
theorem names_put (bindings : Bindings α) (name : String) (value : α) :
    (bindings.put name value).names =
      if bindings.binds name then bindings.names else bindings.names ++ [name] := by
  split
  case isTrue hbound => exact names_put_of_binds hbound
  case isFalse hunbound =>
    rw [put_of_notMem_names (binds_iff_mem_names.not.mp hunbound), names, List.map_append]
    rfl

theorem nodup_names_put (hnodup : bindings.names.Nodup) (name : String) (value : α) :
    (bindings.put name value).names.Nodup := by
  rw [names_put]
  split
  case isTrue => exact hnodup
  case isFalse hunbound =>
    have hnew : name ∉ bindings.names := binds_iff_mem_names.not.mp hunbound
    exact List.nodup_append_comm.mp (List.nodup_cons.mpr ⟨hnew, hnodup⟩)

theorem putAll_of_nodup
    {pairs : List (String × α)} (hnodup : ((bindings ++ pairs).map Prod.fst).Nodup) :
    bindings.putAll pairs = bindings ++ pairs := by
  induction pairs generalizing bindings with
  | nil => rw [List.append_nil, putAll, List.foldl_nil]
  | cons pair pairs ih =>
    obtain ⟨name, value⟩ := pair
    have hnew : name ∉ bindings.names := by
      rw [List.map_append, List.map_cons] at hnodup
      exact fun hbound => (List.nodup_append.mp hnodup).2.2 name hbound name List.mem_cons_self rfl
    have hlater : ((bindings ++ [(name, value)] ++ pairs).map Prod.fst).Nodup := by
      rwa [List.append_assoc, List.singleton_append]
    rw [putAll, List.foldl_cons, put_of_notMem_names hnew, ← putAll, ih hlater, List.append_assoc,
      List.singleton_append]

end Bindings

end PuzzleLang
