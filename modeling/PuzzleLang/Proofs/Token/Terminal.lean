import PuzzleLang.Token.Lexer

/-!
# Terminals

A terminal is a token without its place: a kind and a text.  Every token of a script is a valid
terminal.  Conversely, a list of valid terminals can be written down so that cutting the text gives
the same terminals, as long as no terminal is followed by a character that would belong to it.
-/

namespace PuzzleLang

/-- Whether a list of characters is a letter or an underscore, and then letters, numerals and
underscores. -/
def isWord : List Char → Bool
  | [] => false
  | c :: cs => isNameStart c && cs.all isNamePart

/-- Whether a text is a name: a word that is not reserved. -/
def isName (text : String) : Bool :=
  isWord text.toList && TokenKind.ofWord text == .identifier

/-- Whether a text is a nonempty run of ASCII digits. -/
def isNumber (text : String) : Bool :=
  !text.toList.isEmpty && text.toList.all isDigit

/-- A token without its place. -/
structure Terminal where
  kind : TokenKind
  text : String
deriving DecidableEq, Repr

/-- The terminal of a token. -/
def Token.terminal (t : Token) : Terminal :=
  ⟨t.kind, t.text⟩

namespace Terminal

/-- The terminal of a kind whose text is always the same. -/
def ofKind (kind : TokenKind) : Terminal :=
  ⟨kind, kind.text⟩

/-- Whether a token of a script can have this kind and this text. -/
def isValid (t : Terminal) : Bool :=
  match t.kind with
  | .eof => false
  | .identifier => isName t.text
  | .string => !t.text.toList.contains '\''
  | .number => isNumber t.text
  | kind => t.text == kind.text

/-- The characters of a terminal in a script. -/
def written (t : Terminal) : List Char :=
  if t.kind = .string then '\'' :: t.text.toList ++ ['\''] else t.text.toList

end Terminal

/-- Whether a character right after a token of this kind would belong to it. -/
def TokenKind.absorbs (kind : TokenKind) (c : Char) : Bool :=
  match kind with
  | .number => isDigit c
  | .assign | .less | .greater => c == '='
  | .identifier => isNamePart c
  | kind => words.contains kind && isNamePart c

/-! ## The tokens of a script are valid -/

theorem TokenKind.ofWord_cases (word : String) :
    TokenKind.ofWord word = .identifier ∨
      TokenKind.ofWord word ∈ TokenKind.words ∧ (TokenKind.ofWord word).text = word := by
  unfold TokenKind.ofWord
  cases hfound : TokenKind.words.find? (·.text == word) with
  | none => exact .inl rfl
  | some kind =>
    refine .inr ⟨List.mem_of_find?_eq_some hfound, ?_⟩
    simpa using List.find?_some hfound

theorem isValid_ofWord
    {text : String} {c : Char} {cs : List Char}
    (hcharacters : text.toList = c :: cs) (hstart : isNameStart c = true)
    (hparts : cs.all isNamePart = true) :
    (Terminal.mk (.ofWord text) text).isValid = true := by
  rcases TokenKind.ofWord_cases text with hname | ⟨hword, hsame⟩
  · simp [Terminal.isValid, hname, isName, isWord, hcharacters, hstart, hparts]
  · have hvalid : ∀ kind ∈ TokenKind.words, (Terminal.mk kind kind.text).isValid = true := by decide
    have := hvalid _ hword
    rwa [hsame] at this

theorem isValid_of_sign?
    {cs sign : List Char} {kind : TokenKind} (h : sign? cs = some (sign, kind)) :
    (Terminal.mk kind (.ofList sign)).isValid = true := by
  have hvalid : ∀ entry ∈ signTable, (Terminal.mk entry.2 (.ofList entry.1)).isValid = true := by
    decide
  exact hvalid _ (List.mem_of_find?_eq_some h)

theorem isValid_of_lexeme
    {c : Char} {cs : List Char} {offset : Nat} {t : Token} {after : Cursor}
    (h : lexeme c cs offset = (.ok t, after)) :
    t.terminal.isValid = true := by
  unfold lexeme at h
  split at h
  · rename_i hstart
    cases h
    exact isValid_ofWord String.toList_ofList hstart List.all_takeWhile
  · split at h
    · rename_i hdigit
      cases h
      simp [Token.terminal, Terminal.isValid, isNumber, hdigit]
    · split at h
      · split at h
        · cases h
        · cases h
          have hnoQuote : '\'' ∉ cs.takeWhile (· != '\'') := by
            intro hquote
            have := List.all_eq_true.mp List.all_takeWhile _ hquote
            simp at this
          simpa [Token.terminal, Terminal.isValid] using hnoQuote
      · split at h
        · rename_i hfound
          cases h
          exact isValid_of_sign? hfound
        · cases h

theorem isValid_of_mem_tokens (place : Cursor) :
    ∀ t ∈ (Lexed.ofCursor place).tokens, t.terminal.isValid = true := by
  fun_induction Lexed.ofCursor place with
  | case1 => simp
  | case2 => simp
  | case3 place offset c cs hstart t after hfound hshorter later ih =>
    simp only [List.mem_cons, forall_eq_or_imp]
    exact ⟨isValid_of_lexeme hfound, ih⟩

/-! ## Cutting written terminals -/

theorem ofCursor_eq (place : Cursor) :
    Lexed.ofCursor place =
      match skipLayout false place.rest place.offset with
      | ⟨[], offset⟩ => ⟨[], .eof offset⟩
      | ⟨c :: cs, offset⟩ =>
        match lexeme c cs offset with
        | (.error fault, _) => ⟨[], .broken fault⟩
        | (.ok t, after) =>
          ⟨t :: (Lexed.ofCursor after).tokens, (Lexed.ofCursor after).ending⟩ := by
  rw [Lexed.ofCursor]
  split
  · rename_i hskipped
    rw [hskipped]
  · rename_i hskipped
    split
    · rename_i hfound
      simp only [hskipped, hfound]
    · rename_i hfound
      simp only [hskipped, hfound]

/-- The characters `rest` start with none that would belong to a token of this kind before them. -/
def TokenKind.EndsBefore (kind : TokenKind) (rest : List Char) : Prop :=
  ∀ c ∈ rest.head?, kind.absorbs c = false

theorem takeWhile_eq_of_head?
    {p : Char → Bool} {cs rest : List Char}
    (hall : cs.all p = true) (hstops : ∀ c ∈ rest.head?, p c = false) :
    (cs ++ rest).takeWhile p = cs ∧ (cs ++ rest).dropWhile p = rest := by
  rw [List.takeWhile_append_of_pos (List.all_eq_true.mp hall),
    List.dropWhile_append_of_pos (List.all_eq_true.mp hall)]
  cases rest with
  | nil => simp
  | cons c rest => simp [hstops c rfl]

theorem lexeme_word
    {text : String} {rest : List Char}
    (hword : isWord text.toList = true) (hstops : ∀ x ∈ rest.head?, isNamePart x = false)
    (offset : Nat) :
    ∃ c cs, text.toList ++ rest = c :: cs ∧ isNameStart c = true ∧
      lexeme c cs offset =
        (.ok ⟨.ofWord text, text, offset⟩, ⟨rest, offset + text.toList.length⟩) := by
  cases hcharacters : text.toList with
  | nil => simp [isWord, hcharacters] at hword
  | cons c cs =>
    simp only [isWord, hcharacters, Bool.and_eq_true] at hword
    obtain ⟨htaken, hdropped⟩ := takeWhile_eq_of_head? hword.2 hstops
    refine ⟨c, cs ++ rest, rfl, hword.1, ?_⟩
    rw [lexeme, if_pos hword.1]
    simp only [htaken, hdropped, ← hcharacters, String.ofList_toList]

theorem isNameStart_of_isDigit {c : Char} (h : isDigit c = true) : isNameStart c = false := by
  simp only [isDigit, Bool.and_eq_true, decide_eq_true_eq, Char.le_def, UInt32.le_iff_toNat_le] at h
  have hupper : c.toNat ≤ 57 := h.2
  have hnoLetter : isLetter c = false := by
    unfold isLetter letterRanges
    rw [CodeRanges.contains, if_pos (by omega)]
  have hnoUnderscore : c ≠ '_' := by
    rintro rfl
    revert hupper
    decide
  simp [isNameStart, hnoLetter, hnoUnderscore]

theorem lexeme_number
    {text : String} {rest : List Char}
    (hnumber : isNumber text = true) (hstops : ∀ x ∈ rest.head?, isDigit x = false) (offset : Nat) :
    ∃ c cs, text.toList ++ rest = c :: cs ∧ isDigit c = true ∧
      lexeme c cs offset = (.ok ⟨.number, text, offset⟩, ⟨rest, offset + text.toList.length⟩) := by
  cases hcharacters : text.toList with
  | nil => simp [isNumber, hcharacters] at hnumber
  | cons c cs =>
    have hdigits : isDigit c = true ∧ cs.all isDigit = true := by
      simpa [isNumber, hcharacters] using hnumber
    obtain ⟨htaken, hdropped⟩ := takeWhile_eq_of_head? hdigits.2 hstops
    refine ⟨c, cs ++ rest, rfl, hdigits.1, ?_⟩
    rw [lexeme, if_neg (by simp [isNameStart_of_isDigit hdigits.1]), if_pos hdigits.1]
    simp only [htaken, hdropped, ← hcharacters, String.ofList_toList]

theorem lexeme_quoted
    {text : String} (hnoQuote : '\'' ∉ text.toList) (rest : List Char) (offset : Nat) :
    lexeme '\'' (text.toList ++ '\'' :: rest) offset =
      (.ok ⟨.string, text, offset + 1⟩, ⟨rest, offset + 2 + text.toList.length⟩) := by
  have hall : text.toList.all (· != '\'') = true := by
    rw [List.all_eq_true]
    intro c hmember
    rw [bne_iff_ne]
    rintro rfl
    exact hnoQuote hmember
  have hstops : ∀ c ∈ ('\'' :: rest).head?, (c != '\'') = false := by simp
  obtain ⟨htaken, hdropped⟩ := takeWhile_eq_of_head? hall hstops
  rw [lexeme, if_neg (by decide), if_neg (by decide), if_pos (by decide)]
  simp only [htaken, hdropped, String.ofList_toList]

theorem sign?_text
    {kind : TokenKind} {rest : List Char}
    (hsign : kind ∈ TokenKind.signs) (hends : kind.EndsBefore rest) :
    sign? (kind.text.toList ++ rest) = some (kind.text.toList, kind) := by
  cases rest with
  | nil =>
    have halone : ∀ kind ∈ TokenKind.signs,
        sign? (kind.text.toList ++ []) = some (kind.text.toList, kind) := by decide
    exact halone kind hsign
  | cons c rest =>
    have habsorbs := hends c rfl
    cases kind with
    | assign | less | greater =>
      have hother : ('=' == c) = false := by
        rw [BEq.comm]
        exact habsorbs
      simp [sign?, signTable, TokenKind.text, List.isPrefixOf, hother]
    | _ => first | rfl | exact absurd hsign (by decide)

/-- Whether a character starts a token, so that it is neither layout nor the start of a comment. -/
def startsToken (c : Char) : Bool :=
  !isLayout c && c != '#'

theorem skipLayout_of_startsToken
    {c : Char} (h : startsToken c = true) (cs : List Char) (offset : Nat) :
    skipLayout false (c :: cs) offset = ⟨c :: cs, offset⟩ := by
  simp only [startsToken, Bool.and_eq_true, Bool.not_eq_true', bne_iff_ne] at h
  simp [skipLayout, h.1, h.2]

theorem startsToken_of_class
    {p : Char → Bool} {c : Char}
    (hothers : [' ', '\t', '\r', '\n', '#'].any p = false) (h : p c = true) :
    startsToken c = true := by
  by_cases hmember : c ∈ [' ', '\t', '\r', '\n', '#']
  · exact absurd h (List.any_eq_false.mp hothers c hmember)
  · simpa [startsToken, isLayout, not_or, and_assoc] using hmember

theorem lexeme_reserved
    {kind : TokenKind} {rest : List Char}
    (hreserved : kind ∈ TokenKind.words) (hends : kind.EndsBefore rest) (offset : Nat) :
    ∃ c cs, kind.text.toList ++ rest = c :: cs ∧ startsToken c = true ∧
      lexeme c cs offset =
        (.ok ⟨kind, kind.text, offset⟩, ⟨rest, offset + kind.text.toList.length⟩) := by
  have hwords : ∀ kind ∈ TokenKind.words,
      isWord kind.text.toList = true ∧ TokenKind.ofWord kind.text = kind := by decide
  have habsorbs : ∀ c, kind.absorbs c = isNamePart c := by
    intro c
    cases kind <;> first | rfl | exact absurd hreserved (by decide)
  have hstops : ∀ c ∈ rest.head?, isNamePart c = false := fun c hmember =>
    habsorbs c ▸ hends c hmember
  obtain ⟨hword, hsame⟩ := hwords kind hreserved
  obtain ⟨c, cs, hequation, hstart, hfound⟩ := lexeme_word hword hstops offset
  rw [hsame] at hfound
  exact ⟨c, cs, hequation, startsToken_of_class (by decide) hstart, hfound⟩

theorem lexeme_sign
    {kind : TokenKind} {rest : List Char}
    (hsign : kind ∈ TokenKind.signs) (hends : kind.EndsBefore rest) (offset : Nat) :
    ∃ c cs, kind.text.toList ++ rest = c :: cs ∧ startsToken c = true ∧
      lexeme c cs offset =
        (.ok ⟨kind, kind.text, offset⟩, ⟨rest, offset + kind.text.toList.length⟩) := by
  have hstarts : ∀ kind ∈ TokenKind.signs, kind.text.toList.head?.any (fun c =>
      startsToken c && !isNameStart c && !isDigit c && c != '\'') = true := by decide
  have hstart := hstarts kind hsign
  cases hcharacters : kind.text.toList with
  | nil => simp [hcharacters] at hstart
  | cons c cs =>
    simp only [hcharacters, List.head?_cons, Option.any_some, Bool.and_eq_true, Bool.not_eq_true',
      bne_iff_ne] at hstart
    obtain ⟨⟨⟨htoken, hnoName⟩, hnoDigit⟩, hnoQuote⟩ := hstart
    refine ⟨c, cs ++ rest, rfl, htoken, ?_⟩
    have hfound := sign?_text hsign hends
    rw [hcharacters, List.cons_append] at hfound
    rw [lexeme, if_neg (by simp [hnoName]), if_neg (by simp [hnoDigit]),
      if_neg (by simp [hnoQuote])]
    simp only [hfound, ← hcharacters, String.ofList_toList]
    simp [hcharacters]

/-- A valid terminal that is not followed by a character of its own is cut off as it was
written. -/
theorem lexeme_written
    {t : Terminal} {rest : List Char}
    (hvalid : t.isValid = true) (hends : t.kind.EndsBefore rest) (offset : Nat) :
    ∃ c cs token, t.written ++ rest = c :: cs ∧ startsToken c = true ∧ token.terminal = t ∧
      lexeme c cs offset = (.ok token, ⟨rest, offset + t.written.length⟩) := by
  obtain ⟨kind, text⟩ := t
  cases kind with
  | eof => cases hvalid
  | identifier =>
    have hname : isWord text.toList = true ∧ TokenKind.ofWord text = .identifier := by
      simpa [Terminal.isValid, isName] using hvalid
    obtain ⟨c, cs, hequation, hstart, hfound⟩ := lexeme_word hname.1 hends offset
    rw [hname.2] at hfound
    exact ⟨c, cs, _, hequation, startsToken_of_class (by decide) hstart, rfl, hfound⟩
  | string =>
    have hnoQuote : '\'' ∉ text.toList := by simpa [Terminal.isValid] using hvalid
    refine ⟨'\'', text.toList ++ '\'' :: rest, ⟨.string, text, offset + 1⟩,
      by simp [Terminal.written], by decide, rfl, ?_⟩
    rw [lexeme_quoted hnoQuote]
    simp [Terminal.written]
    omega
  | number =>
    obtain ⟨c, cs, hequation, hstart, hfound⟩ := lexeme_number hvalid hends offset
    exact ⟨c, cs, _, hequation, startsToken_of_class (by decide) hstart, rfl, hfound⟩
  | varWord | forWord | inWord | ifWord | elseWord | returnWord | continueWord | breakWord
  | matchWord | fnWord | nilWord =>
    have hsame := eq_of_beq hvalid
    dsimp only at hsame
    subst hsame
    obtain ⟨c, cs, hequation, hstart, hfound⟩ := lexeme_reserved (by decide) hends offset
    exact ⟨c, cs, _, hequation, hstart, rfl, hfound⟩
  | _ =>
    have hsame := eq_of_beq hvalid
    dsimp only at hsame
    subst hsame
    obtain ⟨c, cs, hequation, hstart, hfound⟩ := lexeme_sign (by decide) hends offset
    exact ⟨c, cs, _, hequation, hstart, rfl, hfound⟩

/-! ## Written lists of terminals -/

/-- Cutting the characters `cs`, wherever they stand, gives the terminals `ls` and nothing else. -/
def CutsInto (cs : List Char) (ls : List Terminal) : Prop :=
  ∀ offset, ∃ tokens last, Lexed.ofCursor ⟨cs, offset⟩ = ⟨tokens, .eof last⟩ ∧
    tokens.map Token.terminal = ls

theorem cutsInto_nil : CutsInto [] [] := by
  intro offset
  exact ⟨[], offset, ofCursor_eq _, rfl⟩

theorem CutsInto.layout
    {c : Char} {cs : List Char} {ls : List Terminal}
    (hlayout : isLayout c = true) (h : CutsInto cs ls) :
    CutsInto (c :: cs) ls := by
  intro offset
  obtain ⟨tokens, last, hequation, hterminals⟩ := h (offset + 1)
  refine ⟨tokens, last, ?_, hterminals⟩
  rw [← hequation, ofCursor_eq, ofCursor_eq ⟨cs, offset + 1⟩]
  simp [skipLayout, hlayout]

theorem CutsInto.written
    {t : Terminal} {cs : List Char} {ls : List Terminal}
    (hvalid : t.isValid = true) (hends : t.kind.EndsBefore cs) (h : CutsInto cs ls) :
    CutsInto (t.written ++ cs) (t :: ls) := by
  intro offset
  obtain ⟨c, cs', token, hequation, hstart, hterminal, hfound⟩ := lexeme_written hvalid hends offset
  obtain ⟨tokens, last, hlater, hterminals⟩ := h (offset + t.written.length)
  refine ⟨token :: tokens, last, ?_, by rw [List.map_cons, hterminal, hterminals]⟩
  rw [hequation, ofCursor_eq, skipLayout_of_startsToken hstart]
  simp only [hfound, hlater]

end PuzzleLang
