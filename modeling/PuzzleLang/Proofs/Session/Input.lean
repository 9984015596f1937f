import PuzzleLang.Proofs.Session.WellFormed
import PuzzleLang.Proofs.Store.Shadowing
import PuzzleLang.Proofs.Text.Lines

/-!
# Inputs

Reading an input binds two names of the root scope: one to the text as it is, the other to a new
array of its lines.  The lines have no white space at their ends, and the lines that are read from
the joined lines are the same again.
-/

namespace PuzzleLang

/-- The lines of an input are the pieces of the stripped text between its line feeds, each of them
stripped. -/
structure IsInputLines (text : String) (lines : List String) : Prop where
  pieces : ∃ core pieces, IsStripped text.toList core ∧ ['\n'].intercalate pieces = core ∧
    List.Forall₂ (fun piece line => IsStripped piece (String.toList line)) pieces lines ∧
    lines.length = 1 + core.count '\n'
  trimmed : ∀ line ∈ lines, IsTrimmed line.toList
  feedless : ∀ line ∈ lines, '\n' ∉ line.toList
  ends : ∀ line, line ∈ lines.head? ∨ line ∈ lines.getLast? →
    (line = "" ↔ ∀ c ∈ text.toList, isBlank c = true)

namespace Run

variable {line text : String}

theorem toList_mem_strippedLines (hmem : line ∈ inputLines text) :
    line.toList ∈ strippedLines text.toList := by
  rw [← map_toList_inputLines]
  exact List.mem_map_of_mem hmem

theorem eq_empty_iff_of_end_inputLines
    (hend : line ∈ (inputLines text).head? ∨ line ∈ (inputLines text).getLast?) :
    line = "" ↔ ∀ c ∈ text.toList, isBlank c = true := by
  have hend' : line.toList ∈ (strippedLines text.toList).head? ∨
      line.toList ∈ (strippedLines text.toList).getLast? := by
    rw [← map_toList_inputLines, List.head?_map, List.getLast?_map]
    exact hend.imp (Option.mem_map_of_mem _) (Option.mem_map_of_mem _)
  rw [← strip_eq_nil_iff, ← String.toList_eq_nil_iff]
  constructor
  · intro hempty
    by_contra hnonempty
    exact ne_nil_of_end_strippedLines hnonempty hend' hempty
  · intro hempty
    rw [strippedLines_of_strip_eq_nil hempty] at hend'
    exact hend'.elim (fun hfirst => (Option.some.inj hfirst).symm)
      fun hlast => (Option.some.inj hlast).symm

theorem isInputLines_inputLines (text : String) :
    IsInputLines text (inputLines text) where
  pieces := by
    refine ⟨strip text.toList, splitLines (strip text.toList), isStripped_strip _, ?_, ?_, ?_⟩
    · exact (pieces_splitOn '\n' [] (strip text.toList)).intercalate_eq
    · rw [inputLines, List.forall₂_map_right_iff]
      exact List.forall₂_same.mpr fun piece _ => by
        rw [String.toList_ofList]
        exact isStripped_strip piece
    · rw [inputLines, List.length_map, length_splitLines]
  trimmed _ hmem := isTrimmed_of_mem_strippedLines (toList_mem_strippedLines hmem)
  feedless _ hmem := feed_notMem_of_mem_strippedLines (toList_mem_strippedLines hmem)
  ends _ := eq_empty_iff_of_end_inputLines

end Run

namespace Session

/-- The root scope binds `input` to a text and `lines` to an array of lines. -/
structure HasInput (session : Session) (text : String) (lines : List String) : Prop where
  input : (session.state.store.own rootScope).get? "input" = some (.string text)
  lines : ∃ id, (session.state.store.own rootScope).get? "lines" = some (.array id) ∧
    session.state.store.items id = (lines.map Value.string).toArray

variable {session : Session}

theorem own_readInput (hhas : session.state.store.Has (.scope rootScope)) (text : String) :
    (session.readInput text).state.store.own rootScope =
      ((session.state.store.own rootScope).put "input" (.string text)).put "lines"
        (.array ⟨session.state.store.arrays.size⟩) := by
  let bound := session.state.store.define rootScope "input" (.string text)
  let made := (bound.newArray ((Run.inputLines text).map Value.string).toArray).2
  have hhasAfter : made.Has (.scope rootScope) := by
    rw [Store.has_scope] at hhas ⊢
    rwa [show made.scopes.size = session.state.store.scopes.size from Array.size_modify]
  have hstore : (session.readInput text).state.store =
      made.define rootScope "lines" (.array ⟨session.state.store.arrays.size⟩) := rfl
  have hownMade : made.own rootScope = bound.own rootScope := rfl
  rw [hstore, Store.own_define hhasAfter, if_pos rfl, hownMade, Store.own_define hhas, if_pos rfl]

theorem hasInput_readInput (hhas : session.state.store.Has (.scope rootScope)) (text : String) :
    (session.readInput text).HasInput text (Run.inputLines text) := by
  have hown := own_readInput hhas text
  constructor
  · rw [hown, Bindings.get?_put_of_ne (by decide), Bindings.get?_put_self]
  · refine ⟨⟨session.state.store.arrays.size⟩, ?_, ?_⟩
    · rw [hown, Bindings.get?_put_self]
    · have harrays : (session.readInput text).state.store.arrays =
          session.state.store.arrays.push ((Run.inputLines text).map Value.string).toArray := rfl
      rw [Store.items, harrays, Array.getD_eq_getD_getElem?, Array.getElem?_push_size]
      rfl

theorem get?_readInput_of_ne
    {name : String}
    (hhas : session.state.store.Has (.scope rootScope)) (hnotInput : name ≠ "input")
    (hnotLines : name ≠ "lines") (text : String) :
    ((session.readInput text).state.store.own rootScope).get? name =
      (session.state.store.own rootScope).get? name := by
  rw [own_readInput hhas, Bindings.get?_put_of_ne hnotLines.symm,
    Bindings.get?_put_of_ne hnotInput.symm]

/-- An input is bound as it is, and its lines in a new array; no other name of the root scope is
bound anew, and the joined lines are read as the same lines in every session. -/
theorem readInput_normalises
    {byHand : Value → Prop} (hreachable : Session.Reachable byHand session) (text : String) :
    ∃ lines, (session.readInput text).HasInput text lines ∧
      IsInputLines text lines ∧
      (∀ other, Session.Reachable byHand other →
        (other.readInput ("\n".intercalate lines)).HasInput ("\n".intercalate lines) lines) ∧
      ∀ name, name ≠ "input" → name ≠ "lines" →
        ((session.readInput text).state.store.own rootScope).get? name =
          (session.state.store.own rootScope).get? name := by
  have hhas := hreachable.wellFormed.root
  refine ⟨Run.inputLines text, hasInput_readInput hhas text, Run.isInputLines_inputLines text,
    ?_, ?_⟩
  · intro other hreachableOther
    have hagain := hasInput_readInput hreachableOther.wellFormed.root
      ("\n".intercalate (Run.inputLines text))
    rwa [Run.inputLines_intercalate] at hagain
  · exact fun name hnotInput hnotLines => get?_readInput_of_ne hhas hnotInput hnotLines text

/-- A session of a script that binds one function. -/
def cutting : Session :=
  (load ⟨[.function ⟨0, some "f", [], ⟨7, []⟩⟩], "fn f() \x7b\x7d".toList⟩ 0
    ⟨fun _ _ _ => .missing⟩ .standard).2

/-- A text with carriage returns, a blank line in the middle, and a vertical tab and an ideographic
space that are stripped but part no lines. -/
def cutText : String :=
  " \r\na b \r\n\t\r\n\u3000c\x0bd\u3000\n\x0b"

/-- That text has three lines, the one in the middle is empty, and the function stays bound. -/
theorem readInput_normalises_carriage_returns :
    Session.Reachable (fun _ => True) cutting ∧
      (cutting.readInput cutText).HasInput cutText ["a b", "", "c\x0bd"] ∧
      IsInputLines cutText ["a b", "", "c\x0bd"] ∧
      (cutting.readInput "a b\n\nc\x0bd").HasInput "a b\n\nc\x0bd" ["a b", "", "c\x0bd"] ∧
      ((cutting.readInput cutText).state.store.own rootScope).get? "f" =
        (cutting.state.store.own rootScope).get? "f" := by
  have hreachable : Session.Reachable (fun _ => True) cutting := .load _ 0 _ _ rfl
  obtain ⟨lines, hbound, hlines, hagain, hothers⟩ := readInput_normalises hreachable cutText
  have hisLines : lines = ["a b", "", "c\x0bd"] := by
    obtain ⟨id, hid, hitems⟩ := hbound.lines
    obtain rfl : ⟨0⟩ = id := by
      have hfirst : ((cutting.readInput cutText).state.store.own rootScope).get? "lines" =
        some (.array ⟨0⟩) := by with_unfolding_all rfl
      exact Value.array.inj (Option.some.inj (hfirst.symm.trans hid))
    have hcomputed : (cutting.readInput cutText).state.store.items ⟨0⟩ =
        (["a b", "", "c\x0bd"].map Value.string).toArray := by with_unfolding_all rfl
    have hsame := congrArg Array.toList (hitems.symm.trans hcomputed)
    exact List.map_injective_iff.mpr (fun _ _ => Value.string.inj) hsame
  subst hisLines
  exact ⟨hreachable, hbound, hlines, hagain _ hreachable, hothers "f" (by decide) (by decide)⟩

end Session

end PuzzleLang
