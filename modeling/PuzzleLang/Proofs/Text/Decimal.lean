import PuzzleLang.Proofs.Grammar.Completeness
import PuzzleLang.Proofs.Text.Blank
import PuzzleLang.Proofs.Tree.Print
import PuzzleLang.Session
import Mathlib.Data.Nat.Digits.Defs

/-!
# Numbers as texts

A numeral is an optional sign and one or more digits.  A text is read as a number just if it is a
numeral, white space around it aside.  A number is written as a numeral for it, so that it is read
back from its text, and a number that is not negative is also read back where its text stands in a
script.
-/

namespace PuzzleLang

/-- The characters of a list of digits. -/
def digitChars (digits : List (Fin 10)) : List Char :=
  digits.map fun digit => digit.val.digitChar

/-- The number that digits denote in base ten, where the last digit counts the ones. -/
def digitsNumber (digits : List (Fin 10)) : Nat :=
  Nat.ofDigits 10 (digits.map Fin.val).reverse

/-- An optional sign and one or more digits, with the number that they denote. -/
inductive Numeral : List Char → Int → Prop
  | unsigned {digits : List (Fin 10)} :
    digits ≠ [] → Numeral (digitChars digits) (digitsNumber digits)
  | positive {digits : List (Fin 10)} :
    digits ≠ [] → Numeral ('+' :: digitChars digits) (digitsNumber digits)
  | negative {digits : List (Fin 10)} :
    digits ≠ [] → Numeral ('-' :: digitChars digits) (-digitsNumber digits)

/-! ## Digits -/

theorem isDigit_digitChar (digit : Fin 10) : isDigit digit.val.digitChar = true := by
  revert digit
  decide

theorem exists_digit_of_isDigit {c : Char} (h : isDigit c = true) :
    ∃ digit : Fin 10, digit.val.digitChar = c := by
  simp only [isDigit, Bool.and_eq_true, decide_eq_true_eq, Char.le_def, UInt32.le_iff_toNat_le] at h
  have hlower : 48 ≤ c.toNat := h.1
  have hupper : c.toNat ≤ 57 := h.2
  have hcodes : ∀ digit : Fin 10, digit.val.digitChar.toNat = 48 + digit.val := by decide
  refine ⟨⟨c.toNat - 48, by omega⟩, Char.toNat_inj.mp ?_⟩
  rw [hcodes]
  dsimp only
  omega

theorem exists_digits_of_all_isDigit {cs : List Char} (h : cs.all isDigit = true) :
    ∃ digits, digitChars digits = cs := by
  induction cs with
  | nil => exact ⟨[], rfl⟩
  | cons c cs ih =>
    rw [List.all_cons, Bool.and_eq_true] at h
    obtain ⟨digit, rfl⟩ := exists_digit_of_isDigit h.1
    obtain ⟨digits, rfl⟩ := ih h.2
    exact ⟨digit :: digits, rfl⟩

theorem all_isDigit_digitChars (digits : List (Fin 10)) :
    (digitChars digits).all isDigit = true := by
  rw [digitChars, List.all_map, List.all_eq_true]
  exact fun digit _ => isDigit_digitChar digit

theorem digitsValue_digitChars (digits : List (Fin 10)) :
    digitsValue (digitChars digits) = digitsNumber digits := by
  have hcodes : ∀ digit : Fin 10, digit.val.digitChar.toNat - '0'.toNat = digit.val := by decide
  rw [digitsValue_eq_placeValue, placeValue, digitChars, List.map_map, digitsNumber]
  exact congrArg (Nat.ofDigits 10 ·.reverse) (List.map_congr_left fun digit _ => hcodes digit)

/-! ## Reading -/

theorem naturalOf?_eq_some_iff {cs : List Char} {n : Nat} :
    naturalOf? cs = some n ↔
      ∃ digits, digits ≠ [] ∧ cs = digitChars digits ∧ n = digitsNumber digits := by
  unfold naturalOf?
  constructor
  · intro h
    split at h
    · cases h
    · next hrun =>
      rw [Bool.or_eq_true, not_or, Bool.not_eq_true', Bool.not_eq_false] at hrun
      obtain ⟨digits, rfl⟩ := exists_digits_of_all_isDigit hrun.2
      refine ⟨digits, ?_, rfl, ?_⟩
      · rintro rfl
        exact hrun.1 rfl
      · rw [← digitsValue_digitChars]
        exact (Option.some.inj h).symm
  · rintro ⟨digits, hnonempty, rfl, rfl⟩
    have hrun : ((digitChars digits).isEmpty || !(digitChars digits).all isDigit) = false := by
      rw [all_isDigit_digitChars, Bool.not_true, Bool.or_false, List.isEmpty_eq_false_iff]
      exact List.map_eq_nil_iff.not.mpr hnonempty
    rw [hrun, digitsValue_digitChars]
    rfl

theorem naturalOf?_cons_of_sign {c : Char} (hsign : isDigit c = false) (cs : List Char) :
    naturalOf? (c :: cs) = none := by
  simp [naturalOf?, hsign]

/-- The signed numbers are read from just the numerals. -/
theorem integerOf?_eq_some_iff {cs : List Char} {n : Int} :
    integerOf? cs = some n ↔ Numeral cs n := by
  constructor
  · intro h
    unfold integerOf? at h
    split at h
    all_goals
      obtain ⟨m, hnatural, rfl⟩ := Option.map_eq_some_iff.mp h
      obtain ⟨digits, hnonempty, rfl, rfl⟩ := naturalOf?_eq_some_iff.mp hnatural
    · exact .positive hnonempty
    · exact .negative hnonempty
    · exact .unsigned hnonempty
  · intro h
    cases h with
    | positive hnonempty | negative hnonempty =>
      exact Option.map_eq_some_iff.mpr
        ⟨_, naturalOf?_eq_some_iff.mpr ⟨_, hnonempty, rfl, rfl⟩, rfl⟩
    | @unsigned digits hnonempty =>
      have hnatural := naturalOf?_eq_some_iff.mpr ⟨digits, hnonempty, rfl, rfl⟩
      unfold integerOf?
      split
      · next hstarts =>
        rw [hstarts, naturalOf?_cons_of_sign (by decide)] at hnatural
        cases hnatural
      · next hstarts =>
        rw [hstarts, naturalOf?_cons_of_sign (by decide)] at hnatural
        cases hnatural
      · exact Option.map_eq_some_iff.mpr ⟨_, hnatural, rfl⟩

theorem readInteger?_eq_some_iff {text : String} {n : Int} :
    readInteger? text = some n ↔ ∃ core, IsStripped text.toList core ∧ Numeral core n := by
  rw [readInteger?, integerOf?_eq_some_iff]
  constructor
  · exact fun h => ⟨_, isStripped_strip _, h⟩
  · rintro ⟨core, hstripped, h⟩
    rwa [← isStripped_iff.mp hstripped]

/-! ## Writing -/

theorem isBlank_digitChar (digit : Fin 10) : isBlank digit.val.digitChar = false := by
  revert digit
  decide

theorem Numeral.isTrimmed {cs : List Char} {n : Int} (h : Numeral cs n) : IsTrimmed cs := by
  have hdigitsNoBlank (digits : List (Fin 10)) : ∀ c ∈ digitChars digits, isBlank c = false := by
    intro c hmem
    obtain ⟨digit, -, rfl⟩ := List.mem_map.mp hmem
    exact isBlank_digitChar digit
  have hnoBlank : ∀ c ∈ cs, isBlank c = false := by
    cases h with
    | @unsigned digits _ => exact hdigitsNoBlank digits
    | @positive digits _ | @negative digits _ =>
      exact List.forall_mem_cons.mpr ⟨by decide, hdigitsNoBlank digits⟩
  constructor
  · exact fun c hfirst => hnoBlank c (List.mem_of_mem_head? hfirst)
  · exact fun c hlast => hnoBlank c (List.mem_of_mem_getLast? hlast)

theorem exists_digits_naturalText (n : Nat) :
    ∃ digits, digits ≠ [] ∧ (naturalText n).toList = digitChars digits ∧
      n = digitsNumber digits := by
  have hrun : ((naturalText n).toList.isEmpty || !(naturalText n).toList.all isDigit) = false := by
    have hnumber := isNumber_naturalText n
    rw [PuzzleLang.isNumber, Bool.and_eq_true, Bool.not_eq_true'] at hnumber
    rw [hnumber.1, hnumber.2]
    rfl
  apply naturalOf?_eq_some_iff.mp
  rw [naturalOf?, hrun, digitsValue_naturalText]
  rfl

/-- A number is written as a numeral for it. -/
theorem numeral_integerText (n : Int) : Numeral (integerText n).toList n := by
  cases n with
  | ofNat n =>
    obtain ⟨digits, hnonempty, hchars, hnumber⟩ := exists_digits_naturalText n
    rw [integerText, hchars, hnumber]
    exact .unsigned hnonempty
  | negSucc n =>
    obtain ⟨digits, hnonempty, hchars, hnumber⟩ := exists_digits_naturalText (n + 1)
    have htext : (integerText (.negSucc n)).toList = '-' :: digitChars digits := by
      rw [integerText, String.toList_append, hchars]
      rfl
    have hvalue : Int.negSucc n = -(digitsNumber digits : Int) := by
      rw [← hnumber]
      rfl
    rw [htext, hvalue]
    exact .negative hnonempty

theorem Store.text?_number (store : Store) (n : Int) :
    store.text? (.number n) = some (integerText n) := by
  have hwritten : store.view? (.number n) = some (.number n) := by
    unfold view? viewWithin
    rfl
  rw [text?, hwritten]
  rfl

theorem tokenize_naturalText (n : Nat) :
    tokenize (naturalText n).toList =
      .ok [⟨.number, naturalText n, 0⟩, ⟨.eof, "", (naturalText n).length⟩] := by
  have halone : ∀ c ∈ ([] : List Char).head?, isDigit c = false := fun _ h => by cases h
  obtain ⟨c, cs, htext, hdigit, hfound⟩ := lexeme_number (isNumber_naturalText n) halone 0
  rw [List.append_nil] at htext
  have hends : Lexed.ofCursor ⟨[], 0 + (naturalText n).toList.length⟩ =
      ⟨[], .eof (naturalText n).length⟩ := by
    rw [ofCursor_eq, Nat.zero_add, String.length_toList]
    rfl
  have hlexed : Lexed.ofSource (naturalText n).toList =
      ⟨[⟨.number, naturalText n, 0⟩], .eof (naturalText n).length⟩ := by
    rw [Lexed.ofSource, Cursor.start, ofCursor_eq, htext,
      skipLayout_of_startsToken (startsToken_of_class (by decide) hdigit)]
    simp only [hfound, hends]
  rw [tokenize, hlexed]
  rfl

theorem derives_naturalText (n offset : Nat) :
    Derives (.expr 8 (.number offset n)) [⟨.number, naturalText n, offset⟩] := by
  have hderives := @Derives.number ⟨.number, naturalText n, offset⟩ rfl
  rwa [← digitsValue_eq_placeValue, digitsValue_naturalText] at hderives

/-! ## Main result -/

/-- A text is read as a number just if it is a numeral, white space around it aside; this is the
number that the digits denote in base ten.  Every other text is read as nil, and reading never
fails.  Every number is read back from its text, with any white space around it, and the text of a
number that is not negative is a single token, which the reader of scripts takes for the number. -/
theorem Native.call_num (setting : Setting) (enter : String → Run Value) (state : State) :
    (∀ text, ∃ value, Native.num.call setting enter [.string text] state = .ok value state ∧
      (value = .nil ∨ ∃ n, value = .number n) ∧
      ∀ n, value = .number n ↔ ∃ core, IsStripped text.toList core ∧ Numeral core n) ∧
    (∀ n : Int, ∃ written, state.store.text? (.number n) = some written ∧
      ∀ before after : String, (∀ c ∈ before.toList, isBlank c = true) →
        (∀ c ∈ after.toList, isBlank c = true) →
        Native.num.call setting enter [.string (before ++ written ++ after)] state =
          .ok (.number n) state) ∧
    ∀ n : Nat, ∃ written, state.store.text? (.number n) = some written ∧
      tokenize written.toList = .ok [⟨.number, written, 0⟩, ⟨.eof, "", written.length⟩] ∧
      (∀ ending offset rest, Parse.Visible ending rest →
        Parse.Gives (Parse.primary ending (⟨.number, written, offset⟩ :: rest))
          (.number offset n) rest) ∧
      Parse.Gives (Parse.expr (.eof written.length) 1 [⟨.number, written, 0⟩])
        (.number 0 n) [] := by
  have hreads (text : String) : Native.num.call setting enter [.string text] state =
      .ok (((readInteger? text).map Value.number).getD .nil) state := by
    have hperformed : Native.num.call setting enter [.string text] state =
        Native.num.perform setting enter [.string text] state := rfl
    rw [hperformed, perform]
    cases readInteger? text <;> rfl
  refine ⟨fun text => ⟨_, hreads text, ?_⟩, fun n => ⟨_, state.store.text?_number n, ?_⟩,
    fun n => ⟨_, state.store.text?_number n, tokenize_naturalText n, ?_, ?_⟩⟩
  · simp only [← readInteger?_eq_some_iff]
    cases readInteger? text with
    | none => exact ⟨.inl rfl, fun n => by constructor <;> rintro ⟨⟩⟩
    | some m => exact ⟨.inr ⟨m, rfl⟩, fun n => by constructor <;> rintro ⟨⟩ <;> rfl⟩
  · intro before after hblankBefore hblankAfter
    have hnumeral := numeral_integerText n
    have hstripped : IsStripped (before ++ integerText n ++ after).toList (integerText n).toList :=
      ⟨hnumeral.isTrimmed, before.toList, after.toList, by simp, hblankBefore, hblankAfter⟩
    rw [hreads, readInteger?_eq_some_iff.mpr ⟨_, hstripped, hnumeral⟩]
    rfl
  · intro ending offset rest hvisible
    exact Parse.reads_of_derives (derives_naturalText n offset) hvisible
  · have hderives := (derives_naturalText n 0).loosen (le_refl 1) (by decide)
    exact Parse.reads_of_derives hderives rfl (by decide)

/-- White space of several kinds is stripped, leading zeros do not count, and a blank after the sign
is not allowed. -/
theorem Native.call_num_of_signs :
    let setting := Setting.ofProgram ⟨[], []⟩ 0 ⟨fun _ _ _ => .missing⟩ .standard
    let enter : String → Run Value := fun _ => return .nil
    Native.num.call setting enter [.string "\t-007\x1c"] .initial = .ok (.number (-7)) .initial ∧
      Native.num.call setting enter [.string "+ 5"] .initial = .ok .nil .initial ∧
      Native.num.call setting enter [.string " -12\n"] .initial = .ok (.number (-12)) .initial ∧
      tokenize "12".toList = .ok [⟨.number, "12", 0⟩, ⟨.eof, "", 2⟩] := by
  intro setting enter
  obtain ⟨hreads, hback, hscript⟩ := Native.call_num setting enter .initial
  refine ⟨?_, ?_, ?_, ?_⟩
  · obtain ⟨value, hcalled, -, hnumber⟩ := hreads "\t-007\x1c"
    have hstripped : IsStripped "\t-007\x1c".toList "-007".toList :=
      isStripped_iff.mpr (by decide)
    have hseven : value = .number (-7) :=
      (hnumber (-7)).mpr ⟨_, hstripped, @Numeral.negative [0, 0, 7] (by decide)⟩
    rw [hcalled, hseven]
  · obtain ⟨value, hcalled, hnil | ⟨n, hnumber⟩, hnumbers⟩ := hreads "+ 5"
    · rw [hcalled, hnil]
    · obtain ⟨core, hstripped, hnumeral⟩ := (hnumbers n).mp hnumber
      have hrefused : integerOf? core = none := by
        rw [isStripped_iff.mp hstripped]
        decide
      rw [integerOf?_eq_some_iff.mpr hnumeral] at hrefused
      cases hrefused
  · obtain ⟨written, htext, hcalled⟩ := hback (-12)
    cases (State.initial.store.text?_number (-12)).symm.trans htext
    exact hcalled " " "\n" (List.all_eq_true.mp (by decide)) (List.all_eq_true.mp (by decide))
  · obtain ⟨written, htext, hcut, -⟩ := hscript 12
    cases (State.initial.store.text?_number 12).symm.trans htext
    exact hcut

end PuzzleLang
