import PuzzleLang.Proofs.Text.Coordinates
import PuzzleLang.Proofs.Token.Progress
import PuzzleLang.Token.Listing

/-!
# The listing of tokens

The tokens of a script are cut off from left to right, so none of them stands on an earlier line
than the one before it.  A listing goes through them and starts a new paragraph where the line
changes; hence it has one paragraph for each line that has a token, in the order of the lines.  The
header of a paragraph shows the text of its own line, which exists since every token stands in the
script.
-/

namespace PuzzleLang

variable {source : List Char} {ts : List Token} {t : Token} {line current : Nat}

namespace Listing

/-- The texts of the tokens on a line, one after the other. -/
def tokensOn (source : List Char) (ts : List Token) (line : Nat) : String :=
  String.join ((ts.filter fun t => lineAt source t.offset == line).map tokenText)

/-- What is listed for one line: a header with the text of the line, and the tokens on it. -/
def paragraph (source : List Char) (ts : List Token) (line : Nat) : String :=
  header (splitLines source) line ++ tokensOn source ts line

/-- The numbers of the lines that have a token and come after line `current`, in their order. -/
structure AreLines (source : List Char) (ts : List Token) (current : Nat) (numbers : List Nat) :
    Prop where
  increasing : numbers.Pairwise (· < ·)
  mem_iff : ∀ line, line ∈ numbers ↔ current < line ∧ ∃ t ∈ ts, lineAt source t.offset = line

/-! ## The tokens on a line -/

theorem tokensOn_cons_self (source : List Char) (t : Token) (ts : List Token) :
    tokensOn source (t :: ts) (lineAt source t.offset) =
      tokenText t ++ tokensOn source ts (lineAt source t.offset) := by
  rw [tokensOn, List.filter_cons_of_pos (by simp), List.map_cons, String.join_cons, tokensOn]

theorem tokensOn_cons_of_ne (hother : lineAt source t.offset ≠ line) (ts : List Token) :
    tokensOn source (t :: ts) line = tokensOn source ts line := by
  rw [tokensOn, List.filter_cons_of_neg (by simpa using hother), tokensOn]

theorem tokensOn_eq_empty (hothers : ∀ t ∈ ts, lineAt source t.offset ≠ line) :
    tokensOn source ts line = "" := by
  have hnone : (ts.filter fun t => lineAt source t.offset == line) = [] :=
    List.filter_eq_nil_iff.mpr fun t hmember => by simpa using hothers t hmember
  rw [tokensOn, hnone, List.map_nil, String.join_nil]

theorem paragraph_cons_of_ne (hother : lineAt source t.offset ≠ line) (ts : List Token) :
    paragraph source (t :: ts) line = paragraph source ts line := by
  rw [paragraph, tokensOn_cons_of_ne hother, paragraph]

/-- A token before all the lines of some paragraphs changes none of them. -/
theorem map_paragraph_cons
    {numbers : List Nat}
    (hbefore : ∀ line ∈ numbers, lineAt source t.offset < line) (ts : List Token) :
    numbers.map (fun line => "\n" ++ paragraph source (t :: ts) line) =
      numbers.map fun line => "\n" ++ paragraph source ts line :=
  List.map_congr_left fun line hmember => by
    rw [paragraph_cons_of_ne (Nat.ne_of_lt (hbefore line hmember))]

/-! ## Paragraphs -/

theorem AreLines.cons_same
    {numbers : List Nat} (h : AreLines source ts (lineAt source t.offset) numbers) :
    AreLines source (t :: ts) (lineAt source t.offset) numbers := by
  refine ⟨h.increasing, fun line => ?_⟩
  rw [h.mem_iff, List.exists_mem_cons_iff]
  refine and_congr_right fun hlater => ⟨.inr, fun hfound => hfound.resolve_left ?_⟩
  exact Nat.ne_of_lt hlater

theorem AreLines.cons_later
    {numbers : List Nat}
    (h : AreLines source ts (lineAt source t.offset) numbers)
    (hsorted : ∀ t' ∈ ts, lineAt source t.offset ≤ lineAt source t'.offset)
    (hlater : current < lineAt source t.offset) :
    AreLines source (t :: ts) current (lineAt source t.offset :: numbers) := by
  refine ⟨List.pairwise_cons.mpr
    ⟨fun line hmember => ((h.mem_iff line).mp hmember).1, h.increasing⟩, fun line => ?_⟩
  rw [List.mem_cons, h.mem_iff, List.exists_mem_cons_iff]
  constructor
  · rintro (rfl | ⟨hafter, hfound⟩)
    · exact ⟨hlater, .inl rfl⟩
    · exact ⟨Nat.lt_trans hlater hafter, .inr hfound⟩
  · rintro ⟨-, hline | ⟨t', hmember, hline⟩⟩
    · exact .inl hline.symm
    · have hle := hsorted t' hmember
      rw [hline] at hle
      rcases Nat.lt_or_eq_of_le hle with hafter | hsame
      · exact .inr ⟨hafter, t', hmember, hline⟩
      · exact .inl hsame.symm

/-- A listing goes on with the tokens on the current line and then with one paragraph for each later
line that has a token. -/
theorem list_eq_paragraphs
    (hstarted : 0 < current)
    (hsorted : ts.Pairwise fun t t' => lineAt source t.offset ≤ lineAt source t'.offset)
    (hnotBefore : ∀ t ∈ ts, current ≤ lineAt source t.offset) :
    ∃ numbers, AreLines source ts current numbers ∧
      list source (splitLines source) current ts = tokensOn source ts current ++
        String.join (numbers.map fun line => "\n" ++ paragraph source ts line) := by
  induction ts generalizing current with
  | nil => exact ⟨[], ⟨.nil, by simp⟩, rfl⟩
  | cons t ts ih =>
    have htail := List.pairwise_cons.mp hsorted
    obtain ⟨numbers, hlines, hlisted⟩ := ih (lineAt_pos source t.offset) htail.2 htail.1
    have hbefore : ∀ line ∈ numbers, lineAt source t.offset < line := fun line hmember =>
      ((hlines.mem_iff line).mp hmember).1
    have hunchanged := map_paragraph_cons hbefore ts
    rcases Nat.lt_or_eq_of_le (hnotBefore t List.mem_cons_self) with hlater | hsame
    · refine ⟨lineAt source t.offset :: numbers, hlines.cons_later htail.1 hlater, ?_⟩
      have hnone : tokensOn source (t :: ts) current = "" := by
        refine tokensOn_eq_empty fun t' hmember => ?_
        rcases List.mem_cons.mp hmember with rfl | hmember
        · exact Nat.ne_of_gt hlater
        · exact Nat.ne_of_gt (Nat.lt_of_lt_of_le hlater (htail.1 t' hmember))
      rw [list, if_neg (Nat.ne_of_gt hlater), if_pos hstarted, hlisted, hnone, List.map_cons,
        String.join_cons, hunchanged, paragraph, tokensOn_cons_self]
      simp only [String.append_assoc, String.empty_append]
    · subst hsame
      refine ⟨numbers, hlines.cons_same, ?_⟩
      rw [list, if_pos rfl, hlisted, tokensOn_cons_self, hunchanged]
      simp only [String.append_assoc, String.empty_append]

theorem intercalate_cons (separator first : String) (more : List String) :
    separator.intercalate (first :: more) =
      first ++ String.join (more.map fun text => separator ++ text) := by
  induction more generalizing first with
  | nil => rw [String.intercalate_singleton, List.map_nil, String.join_nil, String.append_empty]
  | cons next more ih =>
    rw [String.intercalate_cons_cons, ih, List.map_cons, String.join_cons]
    simp only [String.append_assoc]

/-- A listing of tokens from the start has one paragraph for each line that has a token. -/
theorem list_eq_intercalate
    (hnonempty : ts ≠ [])
    (hsorted : ts.Pairwise fun t t' => lineAt source t.offset ≤ lineAt source t'.offset) :
    ∃ numbers, AreLines source ts 0 numbers ∧
      list source (splitLines source) 0 ts =
        "\n".intercalate (numbers.map (paragraph source ts)) := by
  cases ts with
  | nil => exact absurd rfl hnonempty
  | cons t ts =>
    have htail := List.pairwise_cons.mp hsorted
    obtain ⟨numbers, hlines, hlisted⟩ :=
      list_eq_paragraphs (lineAt_pos source t.offset) htail.2 htail.1
    have hbefore : ∀ line ∈ numbers, lineAt source t.offset < line := fun line hmember =>
      ((hlines.mem_iff line).mp hmember).1
    have hfirst : lineAt source t.offset ≠ 0 := Nat.ne_of_gt (lineAt_pos source t.offset)
    refine ⟨lineAt source t.offset :: numbers,
      hlines.cons_later htail.1 (lineAt_pos source t.offset), ?_⟩
    rw [list, if_neg hfirst, if_neg (Nat.lt_irrefl 0), hlisted, List.map_cons, intercalate_cons,
      List.map_map, paragraph, tokensOn_cons_self]
    have hunchanged := map_paragraph_cons hbefore ts
    simp only [Function.comp_def, hunchanged, String.append_assoc, String.empty_append]

end Listing

/-! ## The tokens of a script -/

theorem Lexed.offset_le_of_tokens {last : Nat} (h : (Lexed.ofSource source).ending = .eof last) :
    last = source.length ∧ (∀ t ∈ (Lexed.ofSource source).tokens, t.offset ≤ source.length) ∧
      (Lexed.ofSource source).tokens.Pairwise fun t t' => t.offset ≤ t'.offset := by
  obtain ⟨hsegments, hlast⟩ := segmentsFrom_of_ofCursor rfl (Nat.zero_le _) h
  have hoffset_le_stop (t : Token) : t.offset ≤ t.stop := by
    have hquotes := t.quotes_le
    rw [Token.stop, Token.start]
    omega
  refine ⟨hlast, fun t hmember => ?_, hsegments.ordered.imp fun {t t'} hapart => ?_⟩
  · exact Nat.le_trans (hoffset_le_stop t) (hsegments.longest t hmember).stop_le
  · have hstart_le : t'.start ≤ t'.offset := Nat.sub_le _ _
    exact Nat.le_trans (hoffset_le_stop t) (Nat.le_trans hapart hstart_le)

/-- The tokens of a script, up to the `eof` token at its end, stand at offsets of the script that do
not decrease, and they are what is listed. -/
theorem listTokens_of_tokenize (h : tokenize source = .ok ts) :
    ts ≠ [] ∧ (∀ t ∈ ts, t.offset ≤ source.length) ∧
      (ts.Pairwise fun t t' => t.offset ≤ t'.offset) ∧
      listTokens source = (Listing.list source (splitLines source) 0 ts ++ "\n", none) := by
  simp only [tokenize] at h
  split at h
  · rename_i last hending
    obtain ⟨rfl, hinside, hsorted⟩ := Lexed.offset_le_of_tokens hending
    cases h
    refine ⟨List.append_ne_nil_of_right_ne_nil _ (List.cons_ne_nil _ _), ?_, ?_, ?_⟩
    · intro t hmember
      rcases List.mem_append.mp hmember with htoken | heof
      · exact hinside t htoken
      · rw [List.mem_singleton.mp heof]
    · refine List.pairwise_append.mpr ⟨hsorted, List.pairwise_singleton _ _, ?_⟩
      intro t htoken t' heof
      rw [List.mem_singleton.mp heof]
      exact hinside t htoken
    · simp only [listTokens]
      rw [hending]
  · cases h

theorem lineAt_le_of_callAfter
    {i j : Nat} {t' : Token}
    (hle : i ≤ j) (hfirst : callAfter source i = .ok t) (hsecond : callAfter source j = .ok t') :
    lineAt source t.offset ≤ lineAt source t'.offset := by
  rcases Nat.lt_or_eq_of_le hle with hlt | hsame
  · refine lineAt_mono source (Nat.le_trans (offset_between hfirst).2 ?_)
    exact Nat.le_trans (placeAfter_offset_le hlt) (offset_between hsecond).1
  · subst hsame
    cases hfirst.symm.trans hsecond
    exact Nat.le_refl _

/-- A header shows the text of its own line, if there is such a line. -/
theorem Listing.header_eq
    {lines : List (List Char)} {own : List Char} (h : lines[line - 1]? = some own) :
    header lines line = "line " ++ twoPlaces line ++ ": \"" ++ String.ofList own ++ "\"\n     " ++
      twoPlaces line ++ ": " := by
  rw [header, lineText, h, Option.getD_some]

/-- The line and the column of an offset are where it lies among the lines of the text; different
offsets have different ones, which grow with the offset.  The tokens of a script, also those after
faults, stand on lines that do not decrease.  The listing of a script whose tokens are all in order
has one paragraph for each line that has a token, in increasing order, whose header shows the text
of that line. -/
theorem lines_and_columns_locate (source : List Char) :
    (∀ offset : Nat, offset ≤ source.length →
      AreOf (splitLines source) offset (lineAndColumn source offset).1
        (lineAndColumn source offset).2 ∧
      (lineAndColumn source offset).1 - 1 = (source.take offset).count '\n') ∧
    (∀ offset offset' : Nat, offset < offset' → offset' ≤ source.length →
      Prod.Lex (· < ·) (· < ·) (lineAndColumn source offset) (lineAndColumn source offset')) ∧
    (∀ offset offset' : Nat, offset ≤ source.length → offset' ≤ source.length →
      lineAndColumn source offset = lineAndColumn source offset' → offset = offset') ∧
    (∀ i j t t', i ≤ j → callAfter source i = .ok t → callAfter source j = .ok t' →
      (lineAndColumn source t.offset).1 ≤ (lineAndColumn source t'.offset).1) ∧
    ∀ ts, tokenize source = .ok ts → ∃ numbers : List Nat,
      numbers.Pairwise (· < ·) ∧
      (∀ line, line ∈ numbers ↔ ∃ t ∈ ts, (lineAndColumn source t.offset).1 = line) ∧
      (∀ line ∈ numbers, ∃ own, (splitLines source)[line - 1]? = some own ∧
        Listing.header (splitLines source) line =
          "line " ++ Listing.twoPlaces line ++ ": \"" ++ String.ofList own ++ "\"\n     " ++
            Listing.twoPlaces line ++ ": ") ∧
      listTokens source =
        ("\n".intercalate (numbers.map (Listing.paragraph source ts)) ++ "\n", none) := by
  refine ⟨fun offset hle => ⟨areOf_lineAndColumn hle, ?_⟩, fun _ _ => lineAndColumn_lt,
    fun _ _ => lineAndColumn_injective, fun _ _ _ _ => lineAt_le_of_callAfter, ?_⟩
  · rw [lineAndColumn_eq, Int.toNat_natCast]
    rfl
  intro ts hcut
  obtain ⟨hnonempty, hinside, hsorted, hlisted⟩ := listTokens_of_tokenize hcut
  obtain ⟨numbers, hlines, hparagraphs⟩ :=
    Listing.list_eq_intercalate hnonempty (hsorted.imp (lineAt_mono source))
  have hmem_iff (line : Nat) :
      line ∈ numbers ↔ ∃ t ∈ ts, (lineAndColumn source t.offset).1 = line := by
    rw [hlines.mem_iff]
    refine ⟨And.right, fun hfound => ⟨?_, hfound⟩⟩
    obtain ⟨t, -, rfl⟩ := hfound
    exact lineAt_pos source t.offset
  refine ⟨numbers, hlines.increasing, hmem_iff, fun line hmember => ?_,
    by rw [hlisted, hparagraphs]⟩
  obtain ⟨t, htoken, rfl⟩ := (hmem_iff line).mp hmember
  obtain ⟨own, hown, -⟩ := (areOf_lineAndColumn (hinside t htoken)).column_le
  exact ⟨own, hown, Listing.header_eq hown⟩

set_option maxRecDepth 10000 in
/-- A quoted text over two lines stands on the line on which it starts, and an empty line before it
has no token. -/
theorem lines_and_columns_locate_quoted :
    tokenize "a\n\n'b\nc'".toList =
        .ok [⟨.identifier, "a", 0⟩, ⟨.string, "b\nc", 4⟩, ⟨.eof, "", 8⟩] ∧
      Prod.Lex (· < ·) (· < ·) (lineAndColumn "a\n\n'b\nc'".toList (5 : Nat))
        (lineAndColumn "a\n\n'b\nc'".toList (6 : Nat)) ∧
      ∃ numbers : List Nat, numbers.Pairwise (· < ·) ∧ 2 ∉ numbers ∧ 3 ∈ numbers ∧
        listTokens "a\n\n'b\nc'".toList =
          ("\n".intercalate (numbers.map (Listing.paragraph "a\n\n'b\nc'".toList
            [⟨.identifier, "a", 0⟩, ⟨.string, "b\nc", 4⟩, ⟨.eof, "", 8⟩])) ++ "\n", none) := by
  have hcut : tokenize "a\n\n'b\nc'".toList =
      .ok [⟨.identifier, "a", 0⟩, ⟨.string, "b\nc", 4⟩, ⟨.eof, "", 8⟩] := by
    cbv
  obtain ⟨-, hincrease, -, -, hlisting⟩ := lines_and_columns_locate "a\n\n'b\nc'".toList
  obtain ⟨numbers, hincreasing, hmem_iff, -, hlisted⟩ := hlisting _ hcut
  refine ⟨hcut, hincrease 5 6 (by decide) (by decide), numbers, hincreasing, ?_, ?_, hlisted⟩
  · rw [hmem_iff]
    decide
  · rw [hmem_iff]
    decide

end PuzzleLang
