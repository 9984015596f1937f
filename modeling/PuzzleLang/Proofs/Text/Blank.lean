import PuzzleLang.Text.Blank
import Mathlib.Data.List.Basic
import Mathlib.Data.List.TakeWhile

/-!
# Stripping

Stripping leaves what stands between the white space at the two ends of a text.  This part is the
only one that neither starts nor ends with white space and has nothing but white space around it.
-/

namespace PuzzleLang

/-- A list of characters neither starts nor ends with white space. -/
structure IsTrimmed (cs : List Char) : Prop where
  first : ∀ c ∈ cs.head?, isBlank c = false
  last : ∀ c ∈ cs.getLast?, isBlank c = false

/-- What a list of characters is without the white space around it. -/
def IsStripped (cs core : List Char) : Prop :=
  IsTrimmed core ∧ ∃ before after, cs = before ++ core ++ after ∧
    (∀ c ∈ before, isBlank c = true) ∧ ∀ c ∈ after, isBlank c = true

variable {cs core : List Char}

theorem isTrimmed_nil : IsTrimmed [] where
  first _ h := by cases h
  last _ h := by cases h

/-! ## Both ends -/

theorem dropWhile_isBlank_append
    {before : List Char}
    (hblank : ∀ c ∈ before, isBlank c = true) (hfirst : ∀ c ∈ cs.head?, isBlank c = false) :
    (before ++ cs).dropWhile isBlank = cs := by
  rw [List.dropWhile_append_of_pos hblank]
  cases cs with
  | nil => rfl
  | cons c cs => exact List.dropWhile_cons_of_neg (by simp [hfirst c rfl])

theorem stripEnd_append
    {after : List Char}
    (hblank : ∀ c ∈ after, isBlank c = true) (hlast : ∀ c ∈ cs.getLast?, isBlank c = false) :
    stripEnd (cs ++ after) = cs := by
  have hreversed : (after.reverse ++ cs.reverse).dropWhile isBlank = cs.reverse :=
    dropWhile_isBlank_append (by simpa using hblank) (by simpa using hlast)
  rw [stripEnd, List.reverse_append, hreversed, List.reverse_reverse]

theorem exists_dropWhile_isBlank (cs : List Char) :
    ∃ before, cs = before ++ cs.dropWhile isBlank ∧ (∀ c ∈ before, isBlank c = true) ∧
      ∀ c ∈ (cs.dropWhile isBlank).head?, isBlank c = false := by
  refine ⟨cs.takeWhile isBlank, List.takeWhile_append_dropWhile.symm, ?_, ?_⟩
  · exact List.all_eq_true.mp List.all_takeWhile
  · intro c hfirst
    have hstops := List.head?_dropWhile_not isBlank cs
    rw [Option.mem_def.mp hfirst] at hstops
    simpa using hstops

theorem exists_stripEnd (cs : List Char) :
    ∃ after, cs = stripEnd cs ++ after ∧ (∀ c ∈ after, isBlank c = true) ∧
      ∀ c ∈ (stripEnd cs).getLast?, isBlank c = false := by
  obtain ⟨before, hsplit, hblank, hfirst⟩ := exists_dropWhile_isBlank cs.reverse
  refine ⟨before.reverse, ?_, by simpa using hblank, ?_⟩
  · rw [stripEnd, ← List.reverse_append, ← hsplit, List.reverse_reverse]
  · rwa [stripEnd, List.getLast?_reverse]

/-! ## Stripping -/

theorem isStripped_strip (cs : List Char) : IsStripped cs (strip cs) := by
  obtain ⟨before, hsplit, hblankBefore, hfirst⟩ := exists_dropWhile_isBlank cs
  obtain ⟨after, hsplit', hblankAfter, hlast⟩ := exists_stripEnd (cs.dropWhile isBlank)
  refine ⟨⟨?_, hlast⟩, before, after, ?_, hblankBefore, hblankAfter⟩
  · intro c hisFirst
    apply hfirst
    rw [hsplit']
    exact List.mem_head?_append_of_mem_head? hisFirst
  · rw [strip, List.append_assoc, ← hsplit', ← hsplit]

/-- Stripping leaves the only part of this kind. -/
theorem isStripped_iff : IsStripped cs core ↔ core = strip cs := by
  constructor
  · rintro ⟨⟨hfirst, hlast⟩, before, after, rfl, hblankBefore, hblankAfter⟩
    rw [strip]
    by_cases hempty : core = []
    · have hallBlank : ∀ c ∈ before ++ core ++ after, isBlank c = true := by
        simpa [hempty, or_imp, forall_and] using ⟨hblankBefore, hblankAfter⟩
      rw [List.dropWhile_eq_nil_iff.mpr hallBlank, hempty]
      rfl
    · have hfirstAfter : ∀ c ∈ (core ++ after).head?, isBlank c = false := by
        rwa [List.head?_append_of_ne_nil _ hempty]
      rw [List.append_assoc, dropWhile_isBlank_append hblankBefore hfirstAfter,
        stripEnd_append hblankAfter hlast]
  · rintro rfl
    exact isStripped_strip cs

theorem IsTrimmed.strip_eq (h : IsTrimmed cs) : strip cs = cs := by
  refine (isStripped_iff.mp ⟨h, [], [], ?_, ?_, ?_⟩).symm
  · rw [List.nil_append, List.append_nil]
  · exact fun _ h => by cases h
  · exact fun _ h => by cases h

theorem mem_of_mem_strip {c : Char} (h : c ∈ strip cs) : c ∈ cs := by
  obtain ⟨-, before, after, hsplit, -⟩ := isStripped_strip cs
  rw [hsplit]
  exact List.mem_append_left _ (List.mem_append_right _ h)

theorem strip_eq_nil_iff : strip cs = [] ↔ ∀ c ∈ cs, isBlank c = true := by
  constructor
  · intro hempty
    obtain ⟨-, before, after, hsplit, hblankBefore, hblankAfter⟩ := isStripped_strip cs
    rw [hsplit, hempty, List.append_nil]
    intro c hmem
    exact (List.mem_append.mp hmem).elim (hblankBefore c) (hblankAfter c)
  · intro hblank
    refine (isStripped_iff.mp ⟨isTrimmed_nil, cs, [], ?_, hblank, ?_⟩).symm
    · rw [List.append_nil, List.append_nil]
    · exact fun _ h => by cases h

end PuzzleLang
