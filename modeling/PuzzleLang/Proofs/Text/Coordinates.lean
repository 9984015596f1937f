import PuzzleLang.Proofs.Position
import PuzzleLang.Proofs.Text.Lines

/-!
# Lines and columns

The line and the column of an offset are where it lies when the text is cut into its lines: as many
lines lie before it as its line number says, and the column counts on from there.  A line feed lies
at the end of its line, and so does the offset after the last character at the end of the last line.
Hence an offset can be had back from its line and its column.
-/

namespace PuzzleLang

variable {source piece rest : List Char} {offset : Nat}

/-- Where the line with this index starts, after the lines before it with their line feeds. -/
def startOfLine (lines : List (List Char)) (index : Nat) : Nat :=
  (lines.take index).foldr (fun line start => line.length + 1 + start) 0

/-! ## The line of an offset -/

theorem lineAt_of_notMem (hnoFeed : '\n' ∉ source.take offset) : lineAt source offset = 1 := by
  rw [lineAt_eq_count, List.count_eq_zero_of_not_mem hnoFeed]

theorem lineStart_of_notMem (hnoFeed : '\n' ∉ source.take offset) :
    lineStart source offset = 0 := by
  have hall : ∀ c ∈ (source.take offset).reverse, (c != '\n') = true := by
    intro c hmember
    rw [bne_iff_ne]
    rintro rfl
    exact hnoFeed (List.mem_reverse.mp hmember)
  rw [lineStart, List.takeWhile_eq_self_iff.mpr hall, List.length_reverse, Nat.sub_self]

theorem take_after_line (piece rest : List Char) (offset : Nat) :
    (piece ++ ['\n'] ++ rest).take (piece.length + 1 + offset) =
      piece ++ ['\n'] ++ rest.take offset := by
  have hlength : (piece ++ ['\n']).length = piece.length + 1 := by
    rw [List.length_append, List.length_singleton]
  rw [← hlength, List.take_length_add_append]

theorem lineAt_after_line (hnoFeed : '\n' ∉ piece) (rest : List Char) (offset : Nat) :
    lineAt (piece ++ ['\n'] ++ rest) (piece.length + 1 + offset) = lineAt rest offset + 1 := by
  rw [lineAt_eq_count, lineAt_eq_count, take_after_line, List.count_append, List.count_append,
    List.count_eq_zero_of_not_mem hnoFeed, List.count_singleton_self]
  omega

theorem takeWhile_append_stop
    {p : Char → Bool} {c : Char} (hstops : p c = false) (xs ys : List Char) :
    (xs ++ c :: ys).takeWhile p = xs.takeWhile p := by
  induction xs with
  | nil => rw [List.nil_append, List.takeWhile_cons, hstops]; rfl
  | cons x xs ih => rw [List.cons_append, List.takeWhile_cons, List.takeWhile_cons, ih]

theorem lineStart_after_line (piece rest : List Char) (offset : Nat) :
    lineStart (piece ++ ['\n'] ++ rest) (piece.length + 1 + offset) =
      piece.length + 1 + lineStart rest offset := by
  let run := (rest.take offset).reverse.takeWhile (· != '\n')
  have hsameRun : (piece ++ ['\n'] ++ rest.take offset).reverse.takeWhile (· != '\n') = run := by
    rw [List.append_assoc, List.reverse_append, List.reverse_append, List.append_assoc]
    exact takeWhile_append_stop rfl _ _
  have hle : run.length ≤ (rest.take offset).reverse.length := (List.takeWhile_sublist _).length_le
  rw [List.length_reverse] at hle
  rw [lineStart, lineStart, take_after_line]
  change _ - (List.takeWhile _ _).length = _ + ((rest.take offset).length - run.length)
  rw [hsameRun, List.length_append, List.length_append, List.length_singleton]
  omega

/-! ## The lines of a text -/

/-- An offset lies on the line with this index, which starts at `start`. -/
structure LiesOn (lines : List (List Char)) (offset index start : Nat) : Prop where
  isStart : start = startOfLine lines index
  le : start ≤ offset
  onLine : ∃ line, lines[index]? = some line ∧ offset ≤ start + line.length

theorem LiesOn.cons
    {lines : List (List Char)} {index start : Nat}
    (h : LiesOn lines offset index start) (line : List Char) :
    LiesOn (line :: lines) (line.length + 1 + offset) (index + 1) (line.length + 1 + start) := by
  obtain ⟨hstart, hle, own, hown, hwithin⟩ := h
  refine ⟨?_, by omega, own, by rwa [List.getElem?_cons_succ], by omega⟩
  rw [hstart, startOfLine, startOfLine, List.take_succ_cons, List.foldr_cons]

theorem liesOn_zero {line : List Char} (hle : offset ≤ line.length) (lines : List (List Char)) :
    LiesOn (line :: lines) offset 0 0 :=
  ⟨rfl, Nat.zero_le _, line, rfl, by omega⟩

theorem Pieces.liesOn
    {pieces : List (List Char)} (h : Pieces ['\n'] source pieces) (hle : offset ≤ source.length) :
    LiesOn pieces offset (lineAt source offset - 1) (lineStart source offset) := by
  induction h generalizing offset with
  | @last cs habsent =>
    have hnoFeed : '\n' ∉ cs.take offset := fun hinside =>
      Pieces.notMem (.last habsent) (List.mem_singleton_self cs) (List.mem_of_mem_take hinside)
    rw [lineAt_of_notMem hnoFeed, lineStart_of_notMem hnoFeed]
    exact liesOn_zero hle []
  | @cut piece rest pieces hfirst _ ih =>
    by_cases honFirst : offset ≤ piece.length
    · have hnoFeed : '\n' ∉ (piece ++ ['\n'] ++ rest).take offset := by
        rw [List.append_assoc, List.take_append_of_le_length honFirst]
        exact fun hinside => hfirst.notMem (List.mem_of_mem_take hinside)
      rw [lineAt_of_notMem hnoFeed, lineStart_of_notMem hnoFeed]
      exact liesOn_zero honFirst pieces
    · obtain ⟨later, rfl⟩ : ∃ later, offset = piece.length + 1 + later :=
        ⟨offset - (piece.length + 1), by omega⟩
      have hle' : later ≤ rest.length := by
        rw [List.length_append, List.length_append, List.length_singleton] at hle
        omega
      have hindex : lineAt rest later + 1 - 1 = lineAt rest later - 1 + 1 := by
        have := lineAt_pos rest later
        omega
      rw [lineAt_after_line hfirst.notMem, lineStart_after_line, hindex]
      exact (ih hle').cons piece

theorem liesOn_splitLines (hle : offset ≤ source.length) :
    LiesOn (splitLines source) offset (lineAt source offset - 1) (lineStart source offset) :=
  (pieces_splitOn '\n' [] source).liesOn hle

/-! ## Lines and columns -/

theorem lineAndColumn_natCast (source : List Char) (offset : Nat) :
    lineAndColumn source offset =
      (lineAt source offset, (offset : Int) - lineStart source offset + 1) := by
  rw [lineAt, lineAndColumn_eq, Int.toNat_natCast]

/-- A line and a column, both counted from one, are those of an offset in a text that consists of
these lines. -/
structure AreOf (lines : List (List Char)) (offset : Nat) (line : Nat) (column : Int) : Prop where
  line_pos : 1 ≤ line
  line_le : line ≤ lines.length
  column_pos : 1 ≤ column
  column_le : ∃ own, lines[line - 1]? = some own ∧ column - 1 ≤ own.length
  offset_eq : (offset : Int) = startOfLine lines (line - 1) + (column - 1)

theorem areOf_lineAndColumn (hle : offset ≤ source.length) :
    AreOf (splitLines source) offset (lineAndColumn source offset).1
      (lineAndColumn source offset).2 := by
  obtain ⟨hstart, hnotBefore, own, hown, hwithin⟩ := liesOn_splitLines hle
  rw [lineAndColumn_natCast]
  dsimp only
  refine ⟨lineAt_pos source offset, ?_, by omega, ⟨own, hown, by omega⟩, by omega⟩
  rw [length_splitLines]
  exact lineAt_le source offset

/-- Later offsets lie on later lines, or on the same line in later columns. -/
theorem lineAndColumn_lt {offset' : Nat} (hlt : offset < offset') (hle : offset' ≤ source.length) :
    Prod.Lex (· < ·) (· < ·) (lineAndColumn source offset) (lineAndColumn source offset') := by
  have hfirst := (areOf_lineAndColumn (Nat.le_trans (Nat.le_of_lt hlt) hle)).offset_eq
  have hsecond := (areOf_lineAndColumn hle).offset_eq
  have hlines : (lineAndColumn source offset).1 ≤ (lineAndColumn source offset').1 :=
    lineAt_mono source (Nat.le_of_lt hlt)
  rw [Prod.lex_def]
  rcases Nat.lt_or_eq_of_le hlines with hless | hsame
  · exact .inl hless
  · rw [hsame] at hfirst
    exact .inr ⟨hsame, by omega⟩

theorem lineAndColumn_injective
    {offset' : Nat}
    (hle : offset ≤ source.length) (hle' : offset' ≤ source.length)
    (hsame : lineAndColumn source offset = lineAndColumn source offset') :
    offset = offset' := by
  have hfirst := (areOf_lineAndColumn hle).offset_eq
  have hsecond := (areOf_lineAndColumn hle').offset_eq
  rw [hsame] at hfirst
  exact Int.ofNat_inj.mp (hfirst.trans hsecond.symm)

end PuzzleLang
