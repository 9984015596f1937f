import PuzzleLang.Proofs.Grammar.Completeness
import PuzzleLang.Proofs.Grammar.Printed
import PuzzleLang.Proofs.Grammar.Soundness

/-!
# The canonical text of a script

The canonical text of a script that has been read can be read again, and gives the same script up to
offsets.  Every terminal of the print is valid, since its texts come from the tokens of the script;
so cutting the text gives back the print, which the grammar derives.
-/

namespace PuzzleLang

open Parse

/-! ## Validity of prints -/

theorem Print.all_fit (tier : Nat) (e : Expr) (printed : List Terminal) :
    (fit tier e printed).all Terminal.isValid = printed.all Terminal.isValid := by
  unfold fit
  split
  · simp [parenthesized, Terminal.ofKind, Terminal.isValid]
  · rfl

theorem Print.all_leading (printed : List Terminal) :
    (leading printed).all Terminal.isValid = printed.all Terminal.isValid := by
  unfold leading
  split
  · simp [parenthesized, Terminal.ofKind, Terminal.isValid]
  · rfl

theorem isValid_name
    {t : Token} (hname : t.kind = .identifier) (hvalid : t.terminal.isValid = true) :
    (Print.name t.text).isValid = true := by
  rwa [Token.terminal, hname] at hvalid

theorem isValid_key
    {t : Token} (hkey : t.kind ∈ [.identifier, .number]) (hvalid : t.terminal.isValid = true) :
    (Print.key t.text).isValid = true := by
  unfold Print.key
  by_cases hnumber' : isNumber t.text = true
  · rw [if_pos hnumber']
    exact hnumber'
  · rw [if_neg hnumber']
    rw [List.mem_cons, List.mem_singleton] at hkey
    rcases hkey with hname | hnumber
    · exact isValid_name hname hvalid
    · rw [Token.terminal, hnumber] at hvalid
      exact (hnumber' hvalid).elim

theorem isValid_ofKind (kind : TokenKind) :
    (Terminal.ofKind kind).isValid = (kind != .eof && kind != .number) := by
  cases kind <;> rfl

theorem all_separated
    {printed : List Terminal} {last : Bool} (hvalid : printed.all Terminal.isValid = true) :
    (if last then [] else Terminal.ofKind .comma :: printed).all Terminal.isValid = true := by
  cases last with
  | true => rfl
  | false => exact hvalid

/-- A print of valid tokens is valid. -/
theorem Derives.valid_print
    {phrase : Phrase} {ts : List Token}
    (h : Derives phrase ts) (hvalid : (ts.map Token.terminal).all Terminal.isValid = true) :
    phrase.print.all Terminal.isValid = true := by
  induction h with
  | assign _ _ _ htarget hvalue | store _ _ _ htarget hvalue =>
    simp only [List.map_append, List.map_cons, List.all_append, List.all_cons,
      Bool.and_eq_true] at hvalid
    have htarget := htarget hvalid.1
    have hvalue := hvalue hvalid.2.2
    rw [Phrase.print, Print.all_fit, Print.expr] at htarget
    rw [Phrase.print, Print.all_fit] at hvalue ⊢
    simpa [Print.expr, isValid_ofKind, hvalue] using htarget
  | consExpr _ _ _ hitem hmore =>
    simp only [List.map_append, List.map_cons, List.all_append, List.all_cons,
      Bool.and_eq_true] at hvalid
    have hitem := hitem hvalid.1
    rw [Phrase.print, Print.fit_one] at hitem
    rw [Phrase.print, Print.exprs, List.all_append, hitem]
    exact all_separated (hmore hvalid.2.2)
  | consEntry hkey _ _ _ _ hvalue hmore =>
    simp only [List.map_append, List.map_cons, List.all_append, List.all_cons,
      Bool.and_eq_true] at hvalid
    have hkey' := isValid_key hkey hvalid.1.1
    have hvalue := hvalue hvalid.1.2.2
    rw [Phrase.print, Print.fit_one] at hvalue
    rw [Phrase.print, Print.entries, List.all_append, List.all_cons, List.all_cons, hkey', hvalue]
    exact all_separated (hmore hvalid.2.2)
  | @consParam names _ _ ts hparam _ _ hmore =>
    simp only [List.map_cons, List.all_cons, Bool.and_eq_true] at hvalid
    have hparam' := isValid_name hparam hvalid.1
    have hmore := hmore hvalid.2.2
    cases names with
    | nil => simp [Phrase.print, Print.params, hparam']
    | cons name names =>
      rw [Phrase.print] at hmore
      simp [Phrase.print, Print.params, hparam', isValid_ofKind, hmore]
  | @binary _ _ op _ _ _ _ _ _ hleft hright =>
    simp only [List.map_append, List.map_cons, List.all_append, List.all_cons,
      Bool.and_eq_true] at hvalid
    have hleft := hleft hvalid.1
    have hright := hright hvalid.2.2
    have hsign : (Terminal.ofKind op.kind).isValid = true := by cases op <;> rfl
    rw [Phrase.print, Print.all_fit] at hleft hright
    simp [Phrase.print, Print.all_fit, Print.expr, hleft, hright, hsign]
  | string hkind =>
    simpa [Phrase.print, Print.all_fit, Print.expr, Token.terminal, hkind] using hvalid
  | number => exact Bool.and_eq_true .. ▸ ⟨isNumber_naturalText _, rfl⟩
  | _ =>
    simp_all [Phrase.print, Print.all_fit, Print.all_leading, Print.expr, Print.exprs,
      Print.entries, Print.params, Print.function, Print.block, Print.statements, Print.statement,
      Print.conditional, Print.alternative, Print.arms, Print.labelled, Print.items, isValid_name,
      isValid_key, isValid_ofKind, -List.all_eq_true]

/-! ## Terminals with spaces between them -/

theorem endsBefore_space (kind : TokenKind) (rest : List Char) : kind.EndsBefore (' ' :: rest) := by
  intro c hspace
  cases hspace
  cases kind <;> decide

theorem cutsInto_text {printed : List Terminal} (hvalid : printed.all Terminal.isValid = true) :
    CutsInto (Print.text printed) printed := by
  induction printed with
  | nil => exact cutsInto_nil
  | cons t printed ih =>
    rw [List.all_cons, Bool.and_eq_true] at hvalid
    have hlater := ih hvalid.2
    cases printed with
    | nil =>
      have hends : t.kind.EndsBefore [] := by simp [TokenKind.EndsBefore]
      exact .written hvalid.1 hends cutsInto_nil
    | cons next more =>
      exact .written hvalid.1 (endsBefore_space _ _) (.layout (by decide) hlater)

/-! ## Reading prints -/

/-- A text that is cut into the print of a script is read as that script, up to offsets. -/
theorem Program.parse_of_cutsInto
    {cs : List Char} {parts : List Item}
    (hseparated : Separated.items parts) (hcuts : CutsInto cs (Print.items parts)) :
    ∃ parts', Program.parse cs = .ok ⟨parts', cs⟩ ∧ Erase.items parts' = Erase.items parts := by
  obtain ⟨tokens, last, hlexed, hspelled⟩ := hcuts 0
  obtain ⟨parts', hderives, hsame⟩ := derives_items hseparated hspelled
  have hends : Visible (.eof last) [] := rfl
  refine ⟨parts', ?_, hsame⟩
  simp only [Program.parse, Lexed.parse, Lexed.ofSource, Cursor.start, hlexed, bind_eq_ok_iff]
  exact ⟨parts', ⟨(), visible_of_ends hends tokens, reads_of_derives hderives hends⟩, rfl⟩

/-- The canonical text of a script that has been read is read as the same script, up to offsets. -/
theorem Program.parse_print
    {source : List Char} {program : Program} (h : Program.parse source = .ok program) :
    ∃ program', Program.parse program.print = .ok program' ∧
      Erase.items program'.items = Erase.items program.items := by
  obtain ⟨offset, -, hderives⟩ := Program.exists_eof_of_parse h
  have hvalid :
      ((Lexed.ofSource source).tokens.map Token.terminal).all Terminal.isValid = true := by
    rw [List.all_map, List.all_eq_true]
    exact isValid_of_mem_tokens _
  obtain ⟨parts', hparsed, hsame⟩ :=
    Program.parse_of_cutsInto hderives.separated (cutsInto_text (hderives.valid_print hvalid))
  exact ⟨_, hparsed, hsame⟩

set_option maxRecDepth 10000 in
theorem Program.parse_print_map :
    ∃ program program',
      Program.parse "part1: \x7b if (a) \x7b \x7d (\x7bx: 007\x7d)['x'] \x7d".toList = .ok program ∧
      program.print = "part1 : \x7b if a \x7b \x7d ( \x7b x : 7 \x7d [ 'x' ] ) \x7d".toList ∧
      Program.parse program.print = .ok program' ∧
      Erase.items program'.items = Erase.items program.items := by
  have hparsed : Program.parse "part1: \x7b if (a) \x7b \x7d (\x7bx: 007\x7d)['x'] \x7d".toList =
      .ok ⟨[.labelled ⟨0, "part1", .block ⟨7, [
        .conditional ⟨9, .ident 13 "a", ⟨16, []⟩, .nothing⟩,
        .expr 20 (.subscript 30 (.map 21 [("x", .number 25 7)]) (.string 32 "x"))]⟩⟩],
        "part1: \x7b if (a) \x7b \x7d (\x7bx: 007\x7d)['x'] \x7d".toList⟩ := by
    cbv
  obtain ⟨program', hagain, hsame⟩ := Program.parse_print hparsed
  exact ⟨_, program', hparsed, by cbv, hagain, hsame⟩

end PuzzleLang
