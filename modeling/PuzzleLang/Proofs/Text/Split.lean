import PuzzleLang.Run.Native
import Mathlib.Data.List.Infix

/-!
# Splitting and joining

Splitting a text gives pieces that make up the text again when they are joined with the separator.
Many lists of pieces do that; splitting gives the one whose cuts are leftmost, so that after each
piece but the last the separator is met for the first time, and the last piece does not have it.
-/

namespace PuzzleLang

/-- A list of characters starts with a separator at an offset, and at none before it. -/
def FirstAt (separator cs : List Char) (offset : Nat) : Prop :=
  separator <+: cs.drop offset ∧ ∀ earlier < offset, ¬ separator <+: cs.drop earlier

instance  (separator cs : List Char) (offset : Nat) : Decidable (FirstAt separator cs offset) :=
  inferInstanceAs (Decidable (_ ∧ ∀ earlier < offset, _))

/-- The pieces of a text between the leftmost occurrences of a separator. -/
structure IsSplit (text separator : String) (pieces : List String) : Prop where
  nonempty : pieces ≠ []
  joined : separator.intercalate pieces = text
  inner : ∀ piece ∈ pieces.dropLast,
    FirstAt separator.toList (piece ++ separator).toList piece.length
  last : ∀ piece ∈ pieces.getLast?, ¬ separator.toList <:+: piece.toList

/-- The pieces of a list of characters, cut after cut. -/
inductive Pieces (separator : List Char) : List Char → List (List Char) → Prop
  | last {cs : List Char} : ¬ separator <:+: cs → Pieces separator cs [cs]
  | cut {piece rest : List Char} {pieces : List (List Char)} :
    FirstAt separator (piece ++ separator) piece.length → Pieces separator rest pieces →
      Pieces separator (piece ++ separator ++ rest) (piece :: pieces)

variable {first : Char} {more separator cs piece rest : List Char} {pieces : List (List Char)}

/-! ## The first occurrence -/

theorem FirstAt.unique
    {offset offset' : Nat} (h : FirstAt separator cs offset) (h' : FirstAt separator cs offset') :
    offset = offset' := by
  rcases Nat.lt_trichotomy offset offset' with hless | hsame | hmore
  · exact absurd h.1 (h'.2 offset hless)
  · exact hsame
  · exact absurd h'.1 (h.2 offset' hmore)

/-- Whether a separator is met before the end of the piece that it follows does not depend on what
comes after it. -/
theorem prefix_drop_append_iff {offset : Nat} (hinside : offset ≤ piece.length) :
    separator <+: (piece ++ separator ++ rest).drop offset ↔
      separator <+: (piece ++ separator).drop offset := by
  have hwithin : offset ≤ (piece ++ separator).length := by
    rw [List.length_append]
    omega
  rw [List.drop_append_of_le_length hwithin]
  refine ⟨fun h => ?_, fun h => h.trans (List.prefix_append _ _)⟩
  refine List.prefix_of_prefix_length_le h (List.prefix_append _ rest) ?_
  rw [List.length_drop, List.length_append]
  omega

theorem firstAt_append_iff :
    FirstAt separator (piece ++ separator ++ rest) piece.length ↔
      FirstAt separator (piece ++ separator) piece.length := by
  refine and_congr (prefix_drop_append_iff le_rfl) (forall₂_congr fun earlier hbefore => ?_)
  exact not_congr (prefix_drop_append_iff hbefore.le)

/-! ## Cutting once -/

theorem afterSeparator?_eq_some_iff :
    afterSeparator? separator cs = some rest ↔ cs = separator ++ rest := by
  induction separator generalizing cs with
  | nil => simp [afterSeparator?]
  | cons s separator ih =>
    cases cs with
    | nil => simp [afterSeparator?]
    | cons c cs =>
      rw [afterSeparator?, List.cons_append, List.cons.injEq]
      split
      · next hsame => simp [ih, (beq_iff_eq.mp hsame).symm]
      · next hother =>
        have hdifferent : c ≠ s := fun h => hother (beq_iff_eq.mpr h.symm)
        simp [hdifferent]

theorem afterSeparator?_eq_none_iff : afterSeparator? separator cs = none ↔ ¬ separator <+: cs := by
  rw [Option.eq_none_iff_forall_ne_some]
  simp only [ne_eq, afterSeparator?_eq_some_iff, List.IsPrefix, not_exists]
  exact forall_congr' fun rest => not_congr eq_comm

/-- A cut is made at the first occurrence of the separator. -/
theorem cut?_eq_some {seen : List Char} (h : cut? first more seen cs = some (piece, rest)) :
    ∃ before, piece = seen.reverse ++ before ∧ cs = before ++ first :: more ++ rest ∧
      FirstAt (first :: more) cs before.length := by
  induction cs generalizing seen with
  | nil => cases h
  | cons c cs ih =>
    rw [cut?] at h
    split at h
    · next after hfound =>
      cases h
      have htext := afterSeparator?_eq_some_iff.mp hfound
      refine ⟨[], by simp, htext, ⟨rest, htext.symm⟩, fun earlier hless => ?_⟩
      exact absurd hless earlier.not_lt_zero
    · next hnotHere =>
      obtain ⟨before, rfl, rfl, hfirst⟩ := ih h
      refine ⟨c :: before, by simp, rfl, hfirst.1, fun earlier hless => ?_⟩
      cases earlier with
      | zero => exact afterSeparator?_eq_none_iff.mp hnotHere
      | succ earlier => exact hfirst.2 earlier (Nat.lt_of_succ_lt_succ hless)

theorem cut?_eq_none {seen : List Char} (h : cut? first more seen cs = none) :
    ¬ first :: more <:+: cs := by
  induction cs generalizing seen with
  | nil => exact fun hinside => by cases List.infix_nil.mp hinside
  | cons c cs ih =>
    rw [cut?] at h
    split at h
    · cases h
    · next hnotHere =>
      rw [List.infix_cons_iff, not_or]
      exact ⟨afterSeparator?_eq_none_iff.mp hnotHere, ih h⟩

/-! ## Cutting again and again -/

theorem pieces_splitOn (first : Char) (more cs : List Char) :
    Pieces (first :: more) cs (splitOn first more cs) := by
  induction cs using splitOn.induct first more with
  | case1 cs hnoCut =>
    rw [splitOn]
    split
    · exact .last (cut?_eq_none hnoCut)
    · next hfound => cases hfound.symm.trans hnoCut
  | case2 cs piece rest hfound _ ih =>
    rw [splitOn]
    split
    · next hnoCut => cases hnoCut.symm.trans hfound
    · next piece' rest' hfound' =>
      cases hfound.symm.trans hfound'
      obtain ⟨before, rfl, rfl, hfirst⟩ := cut?_eq_some hfound
      exact .cut (firstAt_append_iff.mp hfirst) ih

theorem Pieces.unique
    {pieces' : List (List Char)}
    (h : Pieces separator cs pieces) (h' : Pieces separator cs pieces') :
    pieces = pieces' := by
  induction h generalizing pieces' with
  | last habsent =>
    cases h' with
    | last => rfl
    | cut => exact absurd (List.infix_append _ _ _) habsent
  | @cut piece rest pieces hfirst _ ih =>
    generalize htext : piece ++ separator ++ rest = text at h'
    cases h' with
    | last habsent => exact absurd ⟨piece, rest, htext⟩ habsent
    | @cut piece' rest' pieces' hfirst' hlater =>
      -- both first cuts are made at the first occurrence in the same text
      have hsameLength : piece.length = piece'.length := by
        have hhere : FirstAt separator (piece ++ separator ++ rest) piece.length :=
          firstAt_append_iff.mpr hfirst
        rw [htext] at hhere
        exact hhere.unique (firstAt_append_iff.mpr hfirst')
      rw [List.append_assoc, List.append_assoc] at htext
      obtain ⟨rfl, hsameRest⟩ := List.append_inj htext hsameLength
      obtain rfl := List.append_cancel_left hsameRest
      rw [ih hlater]

/-! ## Texts -/

theorem Pieces.ne_nil (h : Pieces separator cs pieces) : pieces ≠ [] := by
  cases h <;> exact List.cons_ne_nil _ _

theorem isSplit_of_pieces {separator : String} (h : Pieces separator.toList cs pieces) :
    IsSplit (String.ofList cs) separator (pieces.map String.ofList) := by
  induction h with
  | @last cs habsent =>
    refine ⟨by simp, by simp, by simp, fun piece hlast => ?_⟩
    obtain rfl : String.ofList cs = piece := Option.some.inj hlast
    rwa [String.toList_ofList]
  | @cut piece rest pieces hfirst hlater ih =>
    have hmore : pieces.map String.ofList ≠ [] := ih.nonempty
    refine ⟨List.cons_ne_nil _ _, ?_, ?_, ?_⟩
    · rw [List.map_cons, String.intercalate_cons_of_ne_nil hmore, ih.joined, String.ofList_append,
        String.ofList_append, String.ofList_toList]
    · rw [List.map_cons, List.dropLast_cons_of_ne_nil hmore, List.forall_mem_cons]
      refine ⟨?_, ih.inner⟩
      rwa [String.toList_append, String.toList_ofList, String.length_ofList]
    · obtain ⟨next, after, hcons⟩ := List.exists_cons_of_ne_nil hmore
      rw [List.map_cons, hcons, List.getLast?_cons_cons, ← hcons]
      exact ih.last

theorem IsSplit.pieces_toList
    {text separator : String} {pieces : List String} (h : IsSplit text separator pieces) :
    Pieces separator.toList text.toList (pieces.map String.toList) := by
  obtain ⟨hnonempty, rfl, hinner, hlast⟩ := h
  induction pieces with
  | nil => exact absurd rfl hnonempty
  | cons piece pieces ih =>
    by_cases hmore : pieces = []
    · subst hmore
      simpa using Pieces.last (hlast piece rfl)
    · obtain ⟨next, after, hcons⟩ := List.exists_cons_of_ne_nil hmore
      rw [List.dropLast_cons_of_ne_nil hmore, List.forall_mem_cons] at hinner
      rw [hcons, List.getLast?_cons_cons, ← hcons] at hlast
      have hfirst := hinner.1
      rw [String.toList_append, ← String.length_toList] at hfirst
      have hcut := Pieces.cut hfirst (ih hmore hinner.2 hlast)
      rwa [String.intercalate_cons_of_ne_nil hmore, String.toList_append, String.toList_append]

/-- The conditions on the pieces of a text hold of those that splitting gives, and of no others. -/
theorem isSplit_iff {text separator : String} (hnonempty : separator ≠ "") (pieces : List String) :
    IsSplit text separator pieces ↔ pieces = splitText text separator := by
  obtain ⟨first, more, hseparator⟩ : ∃ first more, separator.toList = first :: more :=
    List.exists_cons_of_ne_nil fun h => hnonempty (String.toList_eq_nil_iff.mp h)
  have hsplit : Pieces separator.toList text.toList (splitOn first more text.toList) := by
    rw [hseparator]
    exact pieces_splitOn first more text.toList
  have htext : splitText text separator = (splitOn first more text.toList).map String.ofList := by
    rw [splitText, hseparator]
  rw [htext]
  constructor
  · intro h
    rw [← h.pieces_toList.unique hsplit, List.map_map]
    simp [Function.comp_def]
  · rintro rfl
    simpa using isSplit_of_pieces hsplit

-- an occurrence that overlaps the one before it is not cut at
example : IsSplit "aaab" "aa" ["", "ab"] ∧ ¬ FirstAt "aa".toList "aaa".toList 1 :=
  ⟨⟨by decide, by decide, by decide, by decide⟩, by decide⟩

/-- Splitting a text makes an array of its pieces. -/
theorem Native.call_split
    (setting : Setting) (enter : String → Run Value) (state : State) (text separator : String) :
    ∃ pieces : List String,
      Native.split.call setting enter [.string text, .string separator] state =
        .ok (.array ⟨state.store.arrays.size⟩)
          { state with
            store := { state.store with
              arrays := state.store.arrays.push (pieces.map .string).toArray } } ∧
      (separator ≠ "" →
        ∀ pieces', IsSplit text separator pieces' ↔ pieces' = pieces) ∧
      (separator = "" → pieces = text.toList.map String.singleton) := by
  refine ⟨splitText text separator, rfl, isSplit_iff, ?_⟩
  rintro rfl
  rfl

end PuzzleLang
