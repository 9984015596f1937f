import PuzzleLang.Proofs.Text.Blank
import PuzzleLang.Proofs.Text.Split
import PuzzleLang.Session
import Mathlib.Data.List.Induction

/-!
# Lines

Cutting a text at its line feeds gives the only list of lines that make up the text when they are
joined again.  The lines of an input are cut out of the stripped text and then stripped themselves.
A line feed is white space, so the first and the last of them still have the characters at the ends
of the stripped text; hence nothing is left to strip when the lines are joined, and they are cut
again as before.
-/

namespace PuzzleLang

variable {cs first last : List Char} {pieces : List (List Char)}

/-! ## Cutting at line feeds -/

theorem FirstAt.notMem
    {piece : List Char} {c : Char} (h : FirstAt [c] (piece ++ [c]) piece.length) :
    c ∉ piece := by
  intro hmem
  obtain ⟨before, after, rfl⟩ := List.append_of_mem hmem
  apply h.2 before.length (by simp)
  simp

theorem Pieces.intercalate_eq {separator : List Char} (h : Pieces separator cs pieces) :
    separator.intercalate pieces = cs := by
  induction h with
  | last => exact List.intercalate_singleton
  | cut _ hlater ih => rw [List.intercalate_cons_of_ne_nil hlater.ne_nil, ih]

theorem Pieces.notMem
    {piece : List Char} {c : Char} (h : Pieces [c] cs pieces) (hmem : piece ∈ pieces) :
    c ∉ piece := by
  induction h with
  | last habsent =>
    obtain rfl := List.mem_singleton.mp hmem
    intro hinside
    obtain ⟨before, after, rfl⟩ := List.append_of_mem hinside
    exact habsent ⟨before, after, by simp⟩
  | cut hfirst _ ih =>
    rcases List.mem_cons.mp hmem with rfl | hlater
    · exact hfirst.notMem
    · exact ih hlater

theorem splitLines_eq_splitOn (cs : List Char) : splitLines cs = cs.splitOn '\n' := by
  have hcut : Pieces ['\n'] cs (splitLines cs) := pieces_splitOn '\n' [] cs
  conv_rhs => rw [← hcut.intercalate_eq]
  exact (List.splitOn_intercalate '\n' (fun _ hmem => hcut.notMem hmem) hcut.ne_nil).symm

theorem length_splitLines (cs : List Char) : (splitLines cs).length = 1 + cs.count '\n' := by
  rw [splitLines_eq_splitOn]
  induction cs with
  | nil => rfl
  | cons c cs ih =>
    rw [List.splitOn_cons_eq_if_modifyHead, List.count_cons]
    split
    · rw [List.length_cons, ih]
      omega
    · rw [List.length_modifyHead, ih]
      omega

/-! ## The ends of joined lines -/

theorem head?_intercalate
    (hnonempty : first ≠ []) (separator : List Char) (pieces : List (List Char)) :
    (separator.intercalate (first :: pieces)).head? = first.head? := by
  cases pieces with
  | nil => rw [List.intercalate_singleton]
  | cons next pieces =>
    rw [List.intercalate_cons_cons, List.append_assoc, List.head?_append_of_ne_nil _ hnonempty]

theorem intercalate_concat (hnonempty : pieces ≠ []) (separator last : List Char) :
    separator.intercalate (pieces ++ [last]) =
      separator.intercalate pieces ++ separator ++ last := by
  induction pieces with
  | nil => exact absurd rfl hnonempty
  | cons piece pieces ih =>
    by_cases honly : pieces = []
    · rw [honly, List.intercalate_singleton, List.singleton_append, List.intercalate_cons_cons,
        List.intercalate_singleton]
    · rw [List.cons_append, List.intercalate_cons_of_ne_nil (by simp), ih honly,
        List.intercalate_cons_of_ne_nil honly]
      simp only [List.append_assoc]

theorem getLast?_intercalate
    (hnonempty : last ≠ []) (separator : List Char) (pieces : List (List Char)) :
    (separator.intercalate (pieces ++ [last])).getLast? = last.getLast? := by
  by_cases honly : pieces = []
  · rw [honly, List.nil_append, List.intercalate_singleton]
  · rw [intercalate_concat honly, List.getLast?_append_of_ne_nil _ hnonempty]

/-- Lines that are not empty at the two ends can be joined without white space at the ends. -/
theorem isTrimmed_intercalate
    (htrimmed : ∀ piece ∈ pieces, IsTrimmed piece)
    (hends : ∀ piece, piece ∈ pieces.head? ∨ piece ∈ pieces.getLast? → piece ≠ []) :
    IsTrimmed (['\n'].intercalate pieces) := by
  constructor
  · cases pieces with
    | nil => exact isTrimmed_nil.first
    | cons first more =>
      rw [head?_intercalate (hends first (.inl rfl))]
      exact (htrimmed first List.mem_cons_self).first
  · rcases List.eq_nil_or_concat' pieces with rfl | ⟨more, last, rfl⟩
    · exact isTrimmed_nil.last
    · rw [getLast?_intercalate (hends last (.inr (by simp)))]
      exact (htrimmed last (by simp)).last

theorem isBlank_feed : isBlank '\n' = true := by
  decide

/-- A text that does not start with white space does not start with an empty line either. -/
theorem IsTrimmed.exists_not_blank_of_head?
    {piece : List Char}
    (htrimmed : IsTrimmed (['\n'].intercalate pieces)) (hnonempty : ['\n'].intercalate pieces ≠ [])
    (hfirst : piece ∈ pieces.head?) :
    ∃ c ∈ piece, isBlank c = false := by
  cases pieces with
  | nil => cases hfirst
  | cons first more =>
    obtain rfl : first = piece := Option.some.inj hfirst
    cases first with
    | cons c cs => exact ⟨c, List.mem_cons_self, htrimmed.first c (by simp)⟩
    | nil =>
      cases more with
      | nil => exact absurd List.intercalate_singleton hnonempty
      | cons next more => cases isBlank_feed.symm.trans (htrimmed.first '\n' (by simp))

theorem IsTrimmed.exists_not_blank_of_getLast?
    {piece : List Char}
    (htrimmed : IsTrimmed (['\n'].intercalate pieces)) (hnonempty : ['\n'].intercalate pieces ≠ [])
    (hlast : piece ∈ pieces.getLast?) :
    ∃ c ∈ piece, isBlank c = false := by
  rcases List.eq_nil_or_concat' pieces with rfl | ⟨more, last, rfl⟩
  · cases hlast
  · obtain rfl : last = piece := by simpa using hlast
    rcases List.eq_nil_or_concat' last with rfl | ⟨cs, c, rfl⟩
    · by_cases honly : more = []
      · rw [honly] at hnonempty
        exact absurd List.intercalate_singleton hnonempty
      · have hendsInFeed : '\n' ∈ (['\n'].intercalate (more ++ [[]])).getLast? := by
          rw [intercalate_concat honly]
          simp
        cases isBlank_feed.symm.trans (htrimmed.last '\n' hendsInFeed)
    · refine ⟨c, by simp, htrimmed.last c ?_⟩
      rw [getLast?_intercalate (by simp)]
      simp

/-! ## The lines of an input -/

/-- The lines of the stripped text, each of them stripped. -/
def strippedLines (cs : List Char) : List (List Char) :=
  (splitLines (strip cs)).map strip

theorem strippedLines_ne_nil (cs : List Char) : strippedLines cs ≠ [] := by
  rw [strippedLines, splitLines_eq_splitOn]
  exact List.map_eq_nil_iff.not.mpr (List.splitOn_ne_nil _ _)

theorem strippedLines_of_strip_eq_nil (hempty : strip cs = []) : strippedLines cs = [[]] := by
  rw [strippedLines, hempty, splitLines_eq_splitOn]
  rfl

theorem isTrimmed_of_mem_strippedLines {line : List Char} (hmem : line ∈ strippedLines cs) :
    IsTrimmed line := by
  obtain ⟨piece, -, rfl⟩ := List.mem_map.mp hmem
  exact (isStripped_strip piece).1

theorem feed_notMem_of_mem_strippedLines {line : List Char} (hmem : line ∈ strippedLines cs) :
    '\n' ∉ line := by
  obtain ⟨piece, hpiece, rfl⟩ := List.mem_map.mp hmem
  have hcut : Pieces ['\n'] (strip cs) (splitLines (strip cs)) := pieces_splitOn '\n' [] _
  exact fun hinside => hcut.notMem hpiece (mem_of_mem_strip hinside)

theorem ne_nil_of_end_strippedLines
    {line : List Char}
    (hnonempty : strip cs ≠ [])
    (hend : line ∈ (strippedLines cs).head? ∨ line ∈ (strippedLines cs).getLast?) :
    line ≠ [] := by
  have hjoined : ['\n'].intercalate (splitLines (strip cs)) = strip cs :=
    (pieces_splitOn '\n' [] (strip cs)).intercalate_eq
  have htrimmed := (isStripped_strip cs).1
  rw [← hjoined] at htrimmed hnonempty
  -- stripping leaves something of a line that is not all white space
  have hfromPiece : ∃ piece, strip piece = line ∧ ∃ c ∈ piece, isBlank c = false := by
    rw [strippedLines, List.head?_map, List.getLast?_map] at hend
    rcases hend with hfirst | hlast
    · obtain ⟨piece, hpiece, hline⟩ := Option.map_eq_some_iff.mp hfirst
      exact ⟨piece, hline, htrimmed.exists_not_blank_of_head? hnonempty hpiece⟩
    · obtain ⟨piece, hpiece, hline⟩ := Option.map_eq_some_iff.mp hlast
      exact ⟨piece, hline, htrimmed.exists_not_blank_of_getLast? hnonempty hpiece⟩
  obtain ⟨piece, rfl, c, hmem, hnoBlank⟩ := hfromPiece
  intro hempty
  cases hnoBlank.symm.trans (strip_eq_nil_iff.mp hempty c hmem)

/-- Joining the lines and cutting them again gives the same lines. -/
theorem strippedLines_intercalate (cs : List Char) :
    strippedLines (['\n'].intercalate (strippedLines cs)) = strippedLines cs := by
  have htrimmed : IsTrimmed (['\n'].intercalate (strippedLines cs)) := by
    by_cases hempty : strip cs = []
    · rw [strippedLines_of_strip_eq_nil hempty, List.intercalate_singleton]
      exact isTrimmed_nil
    · exact isTrimmed_intercalate (fun _ => isTrimmed_of_mem_strippedLines)
        fun _ => ne_nil_of_end_strippedLines hempty
  have hcutAgain : splitLines (['\n'].intercalate (strippedLines cs)) = strippedLines cs := by
    rw [splitLines_eq_splitOn]
    exact List.splitOn_intercalate '\n' (fun _ => feed_notMem_of_mem_strippedLines)
      (strippedLines_ne_nil cs)
  rw [strippedLines, htrimmed.strip_eq, hcutAgain]
  exact (List.map_congr_left fun _ hmem => (isTrimmed_of_mem_strippedLines hmem).strip_eq).trans
    (List.map_id _)

namespace Run

theorem map_toList_inputLines (text : String) :
    (inputLines text).map String.toList = strippedLines text.toList := by
  rw [inputLines, List.map_map]
  simp [Function.comp_def, strippedLines]

theorem inputLines_intercalate (text : String) :
    inputLines ("\n".intercalate (inputLines text)) = inputLines text := by
  apply List.map_injective_iff.mpr (fun _ _ => String.toList_injective)
  rw [map_toList_inputLines, String.toList_intercalate, map_toList_inputLines]
  exact strippedLines_intercalate _

end Run

end PuzzleLang
