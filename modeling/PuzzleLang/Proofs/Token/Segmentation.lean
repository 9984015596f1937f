import PuzzleLang.Proofs.Token.Terminal

/-!
# Maximal munch

Cutting a script gives its segmentation by maximal munch: the extents of the tokens stand in order
with nothing but layout before, between and after them, and every token is the longest lexeme of its
class at the place where it starts.  There is at most one such list of tokens.

Of the tables of characters, the proofs use only that letters are alphanumeric and that neither
layout nor digits, quotes, number signs and the signs of the language start a name.
-/

namespace PuzzleLang

/-! ## Gaps -/

/-- Layout and comments.  A comment runs up to a line feed, or up to the end of the script if the
gap stands there. -/
inductive IsGap (atEnd : Prop) : List Char → Prop
  | nil : IsGap atEnd []
  | blank {c : Char} {cs : List Char} :
    isLayout c = true → IsGap atEnd cs → IsGap atEnd (c :: cs)
  | comment {words cs : List Char} :
    '\n' ∉ words → IsGap atEnd cs → IsGap atEnd ('#' :: words ++ '\n' :: cs)
  | lastComment {words : List Char} :
    atEnd → '\n' ∉ words → IsGap atEnd ('#' :: words)

theorem IsGap.comment_cons
    {atEnd : Prop} {c : Char} {cs : List Char} (hinside : c ≠ '\n') (h : IsGap atEnd ('#' :: cs)) :
    IsGap atEnd ('#' :: c :: cs) := by
  cases h with
  | blank hlayout _ => exact absurd hlayout (by decide)
  | @comment words later hnoFeed hgap =>
    have hnoFeed' : '\n' ∉ c :: words := by simpa using ⟨hinside.symm, hnoFeed⟩
    exact .comment hnoFeed' hgap
  | lastComment hend hnoFeed =>
    have hnoFeed' : '\n' ∉ c :: cs := by simpa using ⟨hinside.symm, hnoFeed⟩
    exact .lastComment hend hnoFeed'

/-- What is skipped is a gap.  In a comment that has started, it is the rest of a gap that starts
with a number sign. -/
theorem skipLayout_isGap
    {inComment : Bool} {cs : List Char} {offset : Nat} {after : Cursor}
    (h : skipLayout inComment cs offset = after) :
    ∃ gap, cs = gap ++ after.rest ∧ after.offset = offset + gap.length ∧
      IsGap (after.rest = []) (if inComment then '#' :: gap else gap) ∧
      ∀ c ∈ after.rest.head?, startsToken c = true := by
  induction cs generalizing inComment offset with
  | nil =>
    subst h
    refine ⟨[], rfl, rfl, ?_, by simp [skipLayout]⟩
    cases inComment with
    | false => exact .nil
    | true => exact .lastComment rfl (by simp)
  | cons c cs ih =>
    cases inComment with
    | true =>
      obtain ⟨gap, rfl, hoffset, hgap, hstarts⟩ := ih h
      refine ⟨c :: gap, rfl, by rw [hoffset, List.length_cons]; omega, ?_, hstarts⟩
      by_cases hfeed : c = '\n'
      · subst hfeed
        exact @IsGap.comment _ [] _ (by simp) hgap
      · have hstays : (c != '\n') = true := by simpa using hfeed
        rw [hstays] at hgap
        exact hgap.comment_cons hfeed
    | false =>
      simp only [skipLayout, Bool.false_eq_true, if_false] at h
      by_cases hlayout : isLayout c = true
      · rw [if_pos hlayout] at h
        obtain ⟨gap, rfl, hoffset, hgap, hstarts⟩ := ih h
        refine ⟨c :: gap, rfl, by rw [hoffset, List.length_cons]; omega, ?_, hstarts⟩
        exact .blank hlayout hgap
      · rw [if_neg hlayout] at h
        by_cases hsign : c = '#'
        · subst hsign
          obtain ⟨gap, rfl, hoffset, hgap, hstarts⟩ := ih h
          exact ⟨'#' :: gap, rfl, by rw [hoffset, List.length_cons]; omega, hgap, hstarts⟩
        · rw [if_neg (by simpa using hsign)] at h
          subst h
          refine ⟨[], rfl, rfl, .nil, ?_⟩
          simp [startsToken, hlayout, hsign]

theorem skipLayout_comment
    {words : List Char} (hnoFeed : '\n' ∉ words) (cs : List Char) (offset : Nat) :
    skipLayout true (words ++ cs) offset = skipLayout true cs (offset + words.length) := by
  induction words generalizing offset with
  | nil => rfl
  | cons c words ih =>
    rw [List.mem_cons, not_or] at hnoFeed
    have hstays : (c != '\n') = true := by simpa using Ne.symm hnoFeed.1
    rw [List.cons_append, skipLayout, if_pos rfl, hstays, ih hnoFeed.2, List.length_cons]
    congr 1
    omega

/-- A gap is skipped up to the token after it, or up to the end. -/
theorem skipLayout_of_isGap
    {gap rest : List Char}
    (h : IsGap (rest = []) gap) (hstarts : ∀ c ∈ rest.head?, startsToken c = true) (offset : Nat) :
    skipLayout false (gap ++ rest) offset = ⟨rest, offset + gap.length⟩ := by
  induction h generalizing offset with
  | nil =>
    cases rest with
    | nil => rfl
    | cons c rest => exact skipLayout_of_startsToken (hstarts c rfl) rest offset
  | @blank c cs hlayout _ ih =>
    rw [List.cons_append, skipLayout, if_neg (by decide), if_pos hlayout, ih, List.length_cons]
    congr 1
    omega
  | @comment words cs hnoFeed _ ih =>
    have hshape : '#' :: words ++ '\n' :: cs ++ rest = '#' :: (words ++ '\n' :: (cs ++ rest)) := by
      simp
    have hlength : ('#' :: words ++ '\n' :: cs).length = words.length + cs.length + 2 := by
      simp
      omega
    rw [hshape, skipLayout, if_neg (by decide), if_neg (by decide), if_pos (by decide),
      skipLayout_comment hnoFeed, skipLayout, if_pos rfl]
    refine (ih _).trans ?_
    rw [hlength]
    congr 1
    omega
  | @lastComment words hend hnoFeed =>
    subst hend
    rw [List.append_nil, skipLayout, if_neg (by decide), if_neg (by decide), if_pos (by decide)]
    have hskipped := skipLayout_comment hnoFeed [] (offset + 1)
    rw [List.append_nil] at hskipped
    rw [hskipped, skipLayout, List.length_cons]
    congr 1
    omega

/-! ## Lexemes -/

/-- The classes of lexemes. -/
inductive LexemeClass
  | word
  | digits
  | quoted
  | sign
deriving DecidableEq, Repr

/-- The reserved words with their kinds. -/
inductive ReservedWord : String → TokenKind → Prop
  | varWord : ReservedWord "var" .varWord
  | forWord : ReservedWord "for" .forWord
  | inWord : ReservedWord "in" .inWord
  | ifWord : ReservedWord "if" .ifWord
  | elseWord : ReservedWord "else" .elseWord
  | returnWord : ReservedWord "return" .returnWord
  | continueWord : ReservedWord "continue" .continueWord
  | breakWord : ReservedWord "break" .breakWord
  | matchWord : ReservedWord "match" .matchWord
  | fnWord : ReservedWord "fn" .fnWord
  | nilWord : ReservedWord "nil" .nilWord

/-- The signs with their kinds. -/
inductive Sign : String → TokenKind → Prop
  | colon : Sign ":" .colon
  | leftBrace : Sign "\x7b" .leftBrace
  | rightBrace : Sign "\x7d" .rightBrace
  | leftParen : Sign "(" .leftParen
  | rightParen : Sign ")" .rightParen
  | leftBracket : Sign "[" .leftBracket
  | rightBracket : Sign "]" .rightBracket
  | comma : Sign "," .comma
  | plus : Sign "+" .plus
  | minus : Sign "-" .minus
  | star : Sign "*" .star
  | slash : Sign "/" .slash
  | percent : Sign "%" .percent
  | assign : Sign "=" .assign
  | equal : Sign "==" .equal
  | notEqual : Sign "!=" .notEqual
  | less : Sign "<" .less
  | lessEqual : Sign "<=" .lessEqual
  | greater : Sign ">" .greater
  | greaterEqual : Sign ">=" .greaterEqual
  | both : Sign "&&" .both
  | either : Sign "||" .either

/-- The characters are a lexeme of a class, and the kind matches it. -/
inductive Lexeme : LexemeClass → TokenKind → List Char → Prop
  | reserved {word : String} {kind : TokenKind} :
    ReservedWord word kind → Lexeme .word kind word.toList
  | name {cs : List Char} :
    isWord cs = true → (∀ kind, ¬ReservedWord (String.ofList cs) kind) →
      Lexeme .word .identifier cs
  | digits {cs : List Char} :
    cs ≠ [] → cs.all isDigit = true → Lexeme .digits .number cs
  | quoted {content : List Char} :
    '\'' ∉ content → Lexeme .quoted .string ('\'' :: content ++ ['\''])
  | sign {text : String} {kind : TokenKind} :
    Sign text kind → Lexeme .sign kind text.toList

/-- The characters `cs` start with a token, and it is the longest lexeme of its class there. -/
def Token.IsLongest (t : Token) (cs : List Char) : Prop :=
  ∃ lexemeClass, Lexeme lexemeClass t.kind t.terminal.written ∧ t.terminal.written <+: cs ∧
    ∀ kind other, Lexeme lexemeClass kind other → other <+: cs →
      other.length ≤ t.terminal.written.length

theorem length_le_takeWhile
    {p : Char → Bool} {xs cs : List Char} (h : xs <+: cs) (hall : xs.all p = true) :
    xs.length ≤ (cs.takeWhile p).length := by
  obtain ⟨rest, rfl⟩ := h
  rw [List.takeWhile_append_of_pos (List.all_eq_true.mp hall), List.length_append]
  omega

theorem takeWhile_quote {content : List Char} (hnoQuote : '\'' ∉ content) (rest : List Char) :
    (content ++ '\'' :: rest).takeWhile (· != '\'') = content := by
  have hinside : ∀ c ∈ content, (c != '\'') = true := by
    intro c hmember
    rw [bne_iff_ne]
    rintro rfl
    exact hnoQuote hmember
  rw [List.takeWhile_append_of_pos hinside]
  simp

theorem all_isNamePart_of_isWord {cs : List Char} (h : isWord cs = true) :
    cs.all isNamePart = true := by
  cases cs with
  | nil => rfl
  | cons c cs =>
    simp only [isWord, Bool.and_eq_true] at h
    simp only [List.all_cons, Bool.and_eq_true]
    refine ⟨?_, h.2⟩
    have hstart := h.1
    simp only [isNameStart, Bool.or_eq_true] at hstart
    simp only [isNamePart, Bool.or_eq_true]
    exact hstart.imp (isAlphanumeric_of_isLetter c) id

theorem TokenKind.ofWord_ne_string (word : String) : TokenKind.ofWord word ≠ .string := by
  rcases TokenKind.ofWord_cases word with hname | ⟨hreserved, -⟩
  · rw [hname]
    decide
  · intro hstring
    rw [hstring] at hreserved
    exact absurd hreserved (by decide)

/-! ## The tables of the lexer -/

theorem ReservedWord.ofWord_eq {word : String} {kind : TokenKind} (h : ReservedWord word kind) :
    TokenKind.ofWord word = kind := by
  cases h <;> decide

theorem ReservedWord.ne_identifier {word : String} {kind : TokenKind} (h : ReservedWord word kind) :
    kind ≠ .identifier := by
  cases h <;> decide

theorem ReservedWord.isWord {word : String} {kind : TokenKind} (h : ReservedWord word kind) :
    isWord word.toList = true := by
  cases h <;> decide

theorem reservedWord_of_ofWord {word : String} (h : TokenKind.ofWord word ≠ .identifier) :
    ReservedWord word (TokenKind.ofWord word) := by
  obtain ⟨hmem, htext⟩ := (TokenKind.ofWord_cases word).resolve_left h
  have hwords : ∀ kind ∈ TokenKind.words, ReservedWord kind.text kind := by
    simp only [TokenKind.words, List.forall_mem_cons]
    exact ⟨.varWord, .forWord, .inWord, .ifWord, .elseWord, .returnWord, .continueWord, .breakWord,
      .matchWord, .fnWord, .nilWord, nofun⟩
  have hreserved := hwords _ hmem
  rwa [htext] at hreserved

/-- The lexer finds the kind of every word. -/
theorem lexeme_word_iff {kind : TokenKind} {cs : List Char} :
    Lexeme .word kind cs ↔ isWord cs = true ∧ kind = .ofWord (String.ofList cs) := by
  constructor
  · intro h
    cases h with
    | reserved hreserved =>
      exact ⟨hreserved.isWord, by rw [String.ofList_toList, hreserved.ofWord_eq]⟩
    | name hword hother =>
      refine ⟨hword, Eq.symm (Decidable.byContradiction fun hne => ?_)⟩
      exact hother _ (reservedWord_of_ofWord hne)
  · rintro ⟨hword, rfl⟩
    by_cases hname : TokenKind.ofWord (String.ofList cs) = .identifier
    · rw [hname]
      exact .name hword fun kind hreserved =>
        hreserved.ne_identifier (hreserved.ofWord_eq.symm.trans hname)
    · have hlexeme := Lexeme.reserved (reservedWord_of_ofWord hname)
      rwa [String.toList_ofList] at hlexeme

/-- The table of the lexer has exactly the signs. -/
theorem lexeme_sign_iff {kind : TokenKind} {cs : List Char} :
    Lexeme .sign kind cs ↔ (cs, kind) ∈ signTable := by
  constructor
  · intro h
    cases h with
    | sign hsign => cases hsign <;> decide
  · intro h
    have htable : ∀ entry ∈ signTable, Sign (.ofList entry.1) entry.2 := by
      simp only [signTable, List.forall_mem_cons]
      exact ⟨.equal, .notEqual, .lessEqual, .greaterEqual, .both, .either, .colon, .leftBrace,
        .rightBrace, .leftParen, .rightParen, .leftBracket, .rightBracket, .comma, .plus, .minus,
        .star, .slash, .percent, .assign, .less, .greater, List.forall_mem_nil _⟩
    have hlexeme := Lexeme.sign (htable _ h)
    rwa [String.toList_ofList] at hlexeme

/-- The sign that is found is the longest one: the table has the longer signs first. -/
theorem length_le_of_sign?
    {cs sign other : List Char} {kind kind' : TokenKind}
    (hfound : sign? cs = some (sign, kind)) (hmember : (other, kind') ∈ signTable)
    (h : other <+: cs) :
    other.length ≤ sign.length := by
  have hdescending : signTable.Pairwise fun entry entry' => entry'.1.length ≤ entry.1.length := by
    decide
  obtain ⟨-, before, after, htable, hnone⟩ := List.find?_eq_some_iff_append.mp hfound
  rw [htable] at hmember hdescending
  rcases List.mem_append.mp hmember with hearly | hlate
  · have hdiffers := hnone _ hearly
    rw [List.isPrefixOf_iff_prefix.mpr h] at hdiffers
    cases hdiffers
  · rcases List.mem_cons.mp hlate with hsame | hlater
    · cases hsame
      exact Nat.le_refl _
    · exact List.rel_of_pairwise_cons (List.pairwise_append.mp hdescending).2.1 hlater

/-! ## Cutting off one token -/

/-- How many characters of a token stand before its text. -/
def Token.quotes (t : Token) : Nat :=
  if t.kind = .string then 1 else 0

theorem Token.quotes_le (t : Token) : t.quotes ≤ t.terminal.written.length := by
  unfold Token.quotes Terminal.written Token.terminal
  split
  · simp
  · exact Nat.zero_le _

theorem Token.quotes_lt {t : Token} (h : 0 < t.terminal.written.length) :
    t.quotes < t.terminal.written.length := by
  by_cases hstring : t.kind = .string
  · rw [Token.quotes, if_pos hstring, Terminal.written, Token.terminal]
    simp [hstring]
  · rwa [Token.quotes, if_neg hstring]

/-- What cutting off one token gives. -/
structure CutsOff (cs : List Char) (offset : Nat) (t : Token) (after : Cursor) : Prop where
  longest : t.IsLongest cs
  textOffset : t.offset = offset + t.quotes
  rest : after.rest = cs.drop t.terminal.written.length
  stop : after.offset = offset + t.terminal.written.length

theorem cutsOff_unquoted
    {cs lexeme : List Char} {kind : TokenKind} {lexemeClass : LexemeClass}
    (hlexeme : Lexeme lexemeClass kind lexeme) (hnoString : kind ≠ .string)
    (hprefixed : lexeme <+: cs)
    (hlongest : ∀ kind' other, Lexeme lexemeClass kind' other → other <+: cs →
      other.length ≤ lexeme.length)
    (offset : Nat) :
    CutsOff cs offset ⟨kind, String.ofList lexeme, offset⟩
      ⟨cs.drop lexeme.length, offset + lexeme.length⟩ := by
  have hwritten : (Token.mk kind (String.ofList lexeme) offset).terminal.written = lexeme := by
    refine (if_neg hnoString).trans ?_
    exact String.toList_ofList
  have hnoQuotes : (Token.mk kind (String.ofList lexeme) offset).quotes = 0 := if_neg hnoString
  refine ⟨⟨lexemeClass, ?_, ?_, ?_⟩, ?_, ?_, ?_⟩
  · rwa [hwritten]
  · rwa [hwritten]
  · rwa [hwritten]
  · rw [hnoQuotes, Nat.add_zero]
  · rw [hwritten]
  · rw [hwritten]

theorem cutsOff_word {c : Char} {cs : List Char} (hstart : isNameStart c = true) (offset : Nat) :
    let word := c :: cs.takeWhile isNamePart
    let text := String.ofList word
    CutsOff (c :: cs) offset ⟨.ofWord text, text, offset⟩
      ⟨cs.dropWhile isNamePart, offset + word.length⟩ := by
  intro word text
  have hlexeme : isWord word = true := by simp [word, isWord, hstart]
  have hsplit : c :: cs = word ++ cs.dropWhile isNamePart := by simp [word]
  have hwhole : (c :: cs).takeWhile isNamePart = word := by
    have hpart := List.all_eq_true.mp (all_isNamePart_of_isWord hlexeme) c List.mem_cons_self
    exact List.takeWhile_cons_of_pos hpart
  have hlongest : ∀ kind other, Lexeme .word kind other → other <+: c :: cs →
      other.length ≤ word.length := by
    intro kind other hlexeme' hprefixed
    rw [← hwhole]
    exact length_le_takeWhile hprefixed (all_isNamePart_of_isWord (lexeme_word_iff.mp hlexeme').1)
  have hprefixed : word <+: c :: cs := hwhole ▸ List.takeWhile_prefix _
  have hcut := cutsOff_unquoted (lexeme_word_iff.mpr ⟨hlexeme, rfl⟩)
    (TokenKind.ofWord_ne_string text) hprefixed hlongest offset
  have hdropped : (c :: cs).drop word.length = cs.dropWhile isNamePart := by
    rw [hsplit, List.drop_left]
  rwa [hdropped] at hcut

theorem cutsOff_digits {c : Char} {cs : List Char} (hdigit : isDigit c = true) (offset : Nat) :
    let digits := c :: cs.takeWhile isDigit
    CutsOff (c :: cs) offset ⟨.number, String.ofList digits, offset⟩
      ⟨cs.dropWhile isDigit, offset + digits.length⟩ := by
  intro digits
  have hall : digits.all isDigit = true := by simp [digits, hdigit]
  have hsplit : c :: cs = digits ++ cs.dropWhile isDigit := by simp [digits]
  have hwhole : (c :: cs).takeWhile isDigit = digits := List.takeWhile_cons_of_pos hdigit
  have hlongest : ∀ kind other, Lexeme .digits kind other → other <+: c :: cs →
      other.length ≤ digits.length := by
    intro kind other hlexeme hprefixed
    cases hlexeme with
    | digits _ hallOther =>
      rw [← hwhole]
      exact length_le_takeWhile hprefixed hallOther
  have hprefixed : digits <+: c :: cs := hwhole ▸ List.takeWhile_prefix _
  have hcut := cutsOff_unquoted (.digits (List.cons_ne_nil _ _) hall) (by decide) hprefixed hlongest
    offset
  have hdropped : (c :: cs).drop digits.length = cs.dropWhile isDigit := by
    rw [hsplit, List.drop_left]
  rwa [hdropped] at hcut

theorem cutsOff_quoted {content rest : List Char} (hnoQuote : '\'' ∉ content) (offset : Nat) :
    CutsOff ('\'' :: (content ++ '\'' :: rest)) offset
      ⟨.string, String.ofList content, offset + 1⟩ ⟨rest, offset + 2 + content.length⟩ := by
  let t : Token := ⟨.string, String.ofList content, offset + 1⟩
  have hwritten : t.terminal.written = '\'' :: content ++ ['\''] := by
    change '\'' :: (String.ofList content).toList ++ ['\''] = _
    rw [String.toList_ofList]
  have hsplit : '\'' :: (content ++ '\'' :: rest) = ('\'' :: content ++ ['\'']) ++ rest := by simp
  refine ⟨⟨.quoted, hwritten ▸ .quoted hnoQuote, ?_, ?_⟩, rfl, ?_, ?_⟩
  · rw [hwritten, hsplit]
    exact List.prefix_append _ _
  · intro kind other hlexeme hprefixed
    cases hlexeme with
    | @quoted content' hnoQuote' =>
      -- The content of the other text has no quote either, so it ends where this one does.
      obtain ⟨rest', hequation⟩ := hprefixed
      have htails : content' ++ '\'' :: rest' = content ++ '\'' :: rest := by simpa using hequation
      have hsameContent : content' = content := by
        have hrun := congrArg (List.takeWhile (· != '\'')) htails
        rwa [takeWhile_quote hnoQuote' rest', takeWhile_quote hnoQuote rest] at hrun
      exact Nat.le_of_eq (by rw [hwritten, hsameContent])
  · rw [hwritten, hsplit, List.drop_left]
  · rw [hwritten]
    simp
    omega

theorem cutsOff_sign
    {cs sign : List Char} {kind : TokenKind}
    (hfound : sign? cs = some (sign, kind)) (offset : Nat) :
    CutsOff cs offset ⟨kind, String.ofList sign, offset⟩
      ⟨cs.drop sign.length, offset + sign.length⟩ := by
  have hmember : (sign, kind) ∈ signTable := List.mem_of_find?_eq_some hfound
  have hnoString : ∀ entry ∈ signTable, entry.2 ≠ .string := by decide
  have hprefixed : sign.isPrefixOf cs = true := by
    have hmatching := List.find?_some hfound
    exact hmatching
  have hlongest : ∀ kind' other, Lexeme .sign kind' other → other <+: cs →
      other.length ≤ sign.length := by
    intro kind' other hlexeme hprefixed
    exact length_le_of_sign? hfound (lexeme_sign_iff.mp hlexeme) hprefixed
  exact cutsOff_unquoted (lexeme_sign_iff.mpr hmember) (hnoString _ hmember)
    (List.isPrefixOf_iff_prefix.mp hprefixed) hlongest offset

theorem cutsOff_of_lexeme
    {c : Char} {cs : List Char} {offset : Nat} {t : Token} {after : Cursor}
    (h : lexeme c cs offset = (.ok t, after)) :
    CutsOff (c :: cs) offset t after := by
  unfold lexeme at h
  split at h
  · rename_i hstart
    cases h
    exact cutsOff_word hstart offset
  · split at h
    · rename_i hdigit
      cases h
      exact cutsOff_digits hdigit offset
    · split at h
      · rename_i hquote
        split at h
        · cases h
        · rename_i quote rest hdropped
          cases h
          obtain rfl : c = '\'' := by simpa using hquote
          obtain rfl : quote = '\'' := by
            have := List.head?_dropWhile_not (· != '\'') cs
            simpa [hdropped] using this
          have hsplit : cs = cs.takeWhile (· != '\'') ++ '\'' :: rest := by
            rw [← hdropped, List.takeWhile_append_dropWhile]
          have hnoQuote : '\'' ∉ cs.takeWhile (· != '\'') := by
            intro hquote'
            have := List.all_eq_true.mp List.all_takeWhile _ hquote'
            simp at this
          have hcut := @cutsOff_quoted _ rest hnoQuote offset
          rwa [← hsplit] at hcut
      · split at h
        · rename_i hfound
          cases h
          exact cutsOff_sign hfound offset
        · cases h

theorem isValid_of_lexeme_class
    {t : Terminal} {lexemeClass : LexemeClass} (h : Lexeme lexemeClass t.kind t.written) :
    t.isValid = true := by
  obtain ⟨kind, text⟩ := t
  by_cases hstring : kind = .string
  · subst hstring
    have hnoQuote : '\'' ∉ text.toList := by
      change Lexeme lexemeClass .string ('\'' :: text.toList ++ ['\'']) at h
      generalize hwritten : '\'' :: text.toList ++ ['\''] = written at h
      generalize hisKind : TokenKind.string = kind at h
      cases h with
      | quoted hnoQuote =>
        simp only [List.cons_append, List.cons.injEq, true_and, List.append_cancel_right_eq]
          at hwritten
        rwa [hwritten]
      | reserved hkind | sign hkind => cases hkind <;> cases hisKind
      | _ => cases hisKind
    simpa [Terminal.isValid] using hnoQuote
  · have hwritten' : (Terminal.mk kind text).written = text.toList := if_neg hstring
    rw [hwritten'] at h
    change Lexeme lexemeClass kind text.toList at h
    generalize htext : text.toList = cs at h
    obtain rfl : text = String.ofList cs := by rw [← htext, String.ofList_toList]
    cases h with
    | digits hnonempty hall => simpa [Terminal.isValid, isNumber, hnonempty] using hall
    | quoted _ => exact absurd rfl hstring
    | reserved hkind | sign hkind => cases hkind <;> decide
    | name hword hother =>
      have hname := (lexeme_word_iff.mp (.name hword hother)).2
      simp [Terminal.isValid, isName, hword, ← hname]

theorem Lexeme.ne_nil
    {lexemeClass : LexemeClass} {kind : TokenKind} {cs : List Char}
    (h : Lexeme lexemeClass kind cs) :
    cs ≠ [] := by
  cases h with
  | reserved hkind | sign hkind => cases hkind <;> decide
  | name hword =>
    rintro rfl
    cases hword
  | digits hnonempty _ => exact hnonempty
  | quoted _ => simp

/-- A lexeme with a character after it that would belong to it is a lexeme of the same class. -/
theorem Lexeme.absorb
    {lexemeClass : LexemeClass} {kind : TokenKind} {cs : List Char} {c : Char}
    (h : Lexeme lexemeClass kind cs) (habsorbs : kind.absorbs c = true) :
    ∃ kind', Lexeme lexemeClass kind' (cs ++ [c]) := by
  cases lexemeClass with
  | word =>
    obtain ⟨hword, rfl⟩ := lexeme_word_iff.mp h
    have hpart : isNamePart c = true := by
      rcases TokenKind.ofWord_cases (String.ofList cs) with hname | ⟨hreserved, -⟩
      · rwa [hname] at habsorbs
      · revert habsorbs hreserved
        cases TokenKind.ofWord (String.ofList cs) <;> simp [TokenKind.absorbs, TokenKind.words]
    refine ⟨_, lexeme_word_iff.mpr ⟨?_, rfl⟩⟩
    cases cs with
    | nil => cases hword
    | cons first cs => simpa [isWord, hpart] using hword
  | digits =>
    cases h with
    | digits _ hall =>
      have hdigit : isDigit c = true := habsorbs
      exact ⟨_, .digits (by simp) (by simpa [hdigit] using hall)⟩
  | quoted =>
    cases h
    cases habsorbs
  | sign =>
    have hmember := lexeme_sign_iff.mp h
    have hsign : ∀ entry ∈ signTable, entry.2 ∈ TokenKind.signs := by decide
    have hlonger : ∀ entry ∈ signTable, entry.2 ∈ [.assign, .less, .greater] →
        entry.1 ++ ['='] ∈ signTable.map Prod.fst := by decide
    have hshort : kind ∈ [TokenKind.assign, .less, .greater] ∧ c = '=' := by
      have hsigns : kind ∈ TokenKind.signs := hsign _ hmember
      cases kind with
      | assign | less | greater => exact ⟨by decide, eq_of_beq habsorbs⟩
      | _ => first | cases habsorbs | exact absurd hsigns (by decide)
    obtain ⟨⟨_, kind'⟩, hmemberLonger, rfl⟩ := List.mem_map.mp (hlonger _ hmember hshort.1)
    rw [hshort.2]
    exact ⟨kind', lexeme_sign_iff.mpr hmemberLonger⟩

theorem endsBefore_of_isLongest
    {t : Token} {rest : List Char} (h : t.IsLongest (t.terminal.written ++ rest)) :
    t.kind.EndsBefore rest := by
  obtain ⟨lexemeClass, hlexeme, -, hlongest⟩ := h
  intro c hfirst
  cases habsorbs : t.kind.absorbs c with
  | false => rfl
  | true =>
    obtain ⟨kind, hlonger⟩ := hlexeme.absorb habsorbs
    obtain ⟨rest, rfl⟩ : ∃ rest', rest = c :: rest' := by
      cases rest with
      | nil => cases hfirst
      | cons c' rest => exact ⟨rest, by rw [Option.some.inj hfirst]⟩
    have hbound := hlongest kind _ hlonger ⟨rest, by simp⟩
    rw [List.length_append] at hbound
    exact absurd hbound (Nat.not_succ_le_self _)

/-- The longest lexeme at a place is the token that is cut off there. -/
theorem lexeme_of_isLongest
    {t : Token} {cs : List Char} {offset : Nat}
    (h : t.IsLongest cs) (hoffset : t.offset = offset + t.quotes) :
    ∃ c cs', cs = c :: cs' ∧ startsToken c = true ∧
      lexeme c cs' offset = (.ok t,
        ⟨cs.drop t.terminal.written.length, offset + t.terminal.written.length⟩) := by
  obtain ⟨lexemeClass, hlexeme, ⟨rest, rfl⟩, hlongest⟩ := id h
  have hvalid : t.terminal.isValid = true := isValid_of_lexeme_class hlexeme
  obtain ⟨c, cs, t', hequation, hstarts, hsameTerminal, hfound⟩ :=
    lexeme_written hvalid (endsBefore_of_isLongest h) offset
  have hsameOffset := (cutsOff_of_lexeme hfound).textOffset
  obtain ⟨kind, text, textOffset⟩ := t
  obtain ⟨kind', text', textOffset'⟩ := t'
  cases hsameTerminal
  cases hoffset.trans hsameOffset.symm
  refine ⟨c, cs, hequation, hstarts, ?_⟩
  rw [hfound, List.drop_left]

/-! ## Segmentations -/

/-- Where a token starts: a quoted text starts with its opening quote. -/
def Token.start (t : Token) : Nat :=
  t.offset - t.quotes

/-- Where a token ends: a quoted text ends after its closing quote. -/
def Token.stop (t : Token) : Nat :=
  t.start + t.terminal.written.length

/-- Gaps stand before, between and after the tokens, from a place on. -/
def GapsFrom (source : List Char) : (place : Nat) → List Token → Prop
  | place, [] => IsGap True (source.drop place)
  | place, t :: ts => IsGap False ((source.take t.start).drop place) ∧ GapsFrom source t.stop ts

/-- The tokens are the segmentation of a script by maximal munch. -/
structure IsSegmentation (source : List Char) (tokens : List Token) : Prop where
  /-- The extents of the tokens are in order and disjoint. -/
  ordered : tokens.Pairwise fun t t' => t.stop ≤ t'.start
  gaps : GapsFrom source 0 tokens
  /-- There is room for the opening quote of a quoted text. -/
  quotes : ∀ t ∈ tokens, t.quotes ≤ t.offset
  longest : ∀ t ∈ tokens, t.IsLongest (source.drop t.start)

theorem Token.offset_eq {t : Token} (h : t.quotes ≤ t.offset) : t.offset = t.start + t.quotes := by
  rw [Token.start]
  omega

theorem Token.IsLongest.stop_le
    {source : List Char} {t : Token} (h : t.IsLongest (source.drop t.start)) :
    t.stop ≤ source.length := by
  obtain ⟨lexemeClass, hlexeme, hprefixed, -⟩ := h
  have hnonempty := List.length_pos_iff.mpr hlexeme.ne_nil
  have hbound := hprefixed.length_le
  rw [List.length_drop] at hbound
  rw [Token.stop]
  omega

/-- A stretch of a script from one place to another, with what follows it. -/
theorem drop_eq_append_drop {source : List Char} {place stop : Nat} (hle : place ≤ stop) :
    source.drop place = (source.take stop).drop place ++ source.drop stop := by
  have hsplit := List.take_append_drop (stop - place) (source.drop place)
  rw [List.drop_drop, Nat.add_sub_cancel' hle] at hsplit
  rw [List.drop_take, hsplit]

/-! ## Cutting and segmentations -/

/-- The part of a segmentation from a place on. -/
structure SegmentsFrom (source : List Char) (place : Nat) (tokens : List Token) : Prop where
  after : ∀ t ∈ tokens, place ≤ t.start
  ordered : tokens.Pairwise fun t t' => t.stop ≤ t'.start
  gaps : GapsFrom source place tokens
  quotes : ∀ t ∈ tokens, t.quotes ≤ t.offset
  longest : ∀ t ∈ tokens, t.IsLongest (source.drop t.start)

theorem isSegmentation_iff {source : List Char} {tokens : List Token} :
    IsSegmentation source tokens ↔ SegmentsFrom source 0 tokens :=
  ⟨fun h => ⟨fun _ _ => Nat.zero_le _, h.ordered, h.gaps, h.quotes, h.longest⟩,
    fun h => ⟨h.ordered, h.gaps, h.quotes, h.longest⟩⟩

theorem segmentsFrom_cons_iff {source : List Char} {place : Nat} {t : Token} {tokens : List Token} :
    SegmentsFrom source place (t :: tokens) ↔
      place ≤ t.start ∧ IsGap False ((source.take t.start).drop place) ∧ t.quotes ≤ t.offset ∧
        t.IsLongest (source.drop t.start) ∧ SegmentsFrom source t.stop tokens := by
  constructor
  · intro h
    have hlater := List.pairwise_cons.mp h.ordered
    refine ⟨h.after t List.mem_cons_self, h.gaps.1, h.quotes t List.mem_cons_self,
      h.longest t List.mem_cons_self, hlater.1, hlater.2, h.gaps.2, ?_, ?_⟩
    · exact fun t' hmember => h.quotes t' (List.mem_cons_of_mem _ hmember)
    · exact fun t' hmember => h.longest t' (List.mem_cons_of_mem _ hmember)
  · rintro ⟨hafter, hgap, hquotes, hlongest, h⟩
    have hstartsLater : t.start ≤ t.stop := Nat.le_add_right _ _
    refine ⟨?_, List.pairwise_cons.mpr ⟨h.after, h.ordered⟩, ⟨hgap, h.gaps⟩, ?_, ?_⟩
    · intro t' hmember
      rcases List.mem_cons.mp hmember with rfl | hmember
      · exact hafter
      · exact Nat.le_trans hafter (Nat.le_trans hstartsLater (h.after t' hmember))
    · intro t' hmember
      rcases List.mem_cons.mp hmember with rfl | hmember
      · exact hquotes
      · exact h.quotes t' hmember
    · intro t' hmember
      rcases List.mem_cons.mp hmember with rfl | hmember
      · exact hlongest
      · exact h.longest t' hmember

theorem ofCursor_of_segmentsFrom
    {source : List Char} {tokens : List Token} {place : Nat}
    (hle : place ≤ source.length) (h : SegmentsFrom source place tokens) :
    Lexed.ofCursor ⟨source.drop place, place⟩ = ⟨tokens, .eof source.length⟩ := by
  induction tokens generalizing place with
  | nil =>
    have hgap : IsGap (([] : List Char) = []) (source.drop place) := by
      rw [eq_self]
      exact h.gaps
    have hskipped := skipLayout_of_isGap hgap (by simp) place
    rw [List.append_nil, List.length_drop, Nat.add_sub_cancel' hle] at hskipped
    rw [ofCursor_eq]
    simp only [hskipped]
  | cons t tokens ih =>
    obtain ⟨hafter, hgap, hquotes, hlongest, hlater⟩ := segmentsFrom_cons_iff.mp h
    obtain ⟨c, cs, hequation, hstarts, hfound⟩ :=
      lexeme_of_isLongest hlongest (Token.offset_eq hquotes)
    have hstop_le := hlongest.stop_le
    have hstart_le : t.start ≤ source.length := Nat.le_trans (Nat.le_add_right _ _) hstop_le
    have hskipped : skipLayout false (source.drop place) place = ⟨c :: cs, t.start⟩ := by
      have hgap' : IsGap (c :: cs = []) ((source.take t.start).drop place) := by simpa using hgap
      have hskipped := skipLayout_of_isGap hgap' (by simpa using hstarts) place
      rw [← hequation, ← drop_eq_append_drop hafter, List.length_drop, List.length_take,
        Nat.min_eq_left hstart_le, Nat.add_sub_cancel' hafter, hequation] at hskipped
      exact hskipped
    have hrest : Lexed.ofCursor ⟨(source.drop t.start).drop t.terminal.written.length,
        t.start + t.terminal.written.length⟩ = ⟨tokens, .eof source.length⟩ := by
      rw [List.drop_drop]
      exact ih hstop_le hlater
    rw [ofCursor_eq]
    simp only [hskipped, hfound, hrest]

theorem segmentsFrom_of_ofCursor
    {source : List Char} {place : Cursor} {last : Nat}
    (hrest : place.rest = source.drop place.offset) (hle : place.offset ≤ source.length)
    (h : (Lexed.ofCursor place).ending = .eof last) :
    SegmentsFrom source place.offset (Lexed.ofCursor place).tokens ∧ last = source.length := by
  fun_induction Lexed.ofCursor place with
  | case1 place offset hskipped =>
    obtain ⟨gap, hsplit, hoffset, hgap, -⟩ := skipLayout_isGap hskipped
    rw [List.append_nil] at hsplit
    have hlength : gap.length = source.length - place.offset := by
      rw [← hsplit, hrest, List.length_drop]
    cases h
    refine ⟨⟨by simp, .nil, ?_, by simp, by simp⟩, ?_⟩
    · rw [GapsFrom, ← hrest, hsplit]
      simpa using hgap
    · have hpassed : last = place.offset + gap.length := hoffset
      omega
  | case2 => cases h
  | case3 place c cs offset hskipped t after hfound hshorter later ih =>
    obtain ⟨gap, hsplit, hoffset, hgap, -⟩ := skipLayout_isGap hskipped
    have hcut := cutsOff_of_lexeme hfound
    have hstart : t.start = offset := by
      rw [Token.start, hcut.textOffset, Nat.add_sub_cancel]
    have hpassed : offset = place.offset + gap.length := hoffset
    have hrest' : source.drop t.start = c :: cs := by
      rw [hstart, hpassed, ← List.drop_drop, ← hrest, hsplit, List.drop_left]
    have hstretch : (source.take t.start).drop place.offset = gap := by
      have hwhole := @drop_eq_append_drop source place.offset t.start (by omega)
      rw [← hrest, hsplit, hrest'] at hwhole
      exact (List.append_cancel_right hwhole).symm
    have hstop : after.offset = t.stop := by rw [hcut.stop, Token.stop, hstart]
    have hlongest : t.IsLongest (source.drop t.start) := hrest' ▸ hcut.longest
    obtain ⟨hlaterSegments, hlast⟩ := ih
      (by rw [hcut.rest, ← hrest', List.drop_drop, hstop, Token.stop]) (hstop ▸ hlongest.stop_le) h
    refine ⟨segmentsFrom_cons_iff.mpr ⟨by omega, ?_, ?_, hlongest, hstop ▸ hlaterSegments⟩, hlast⟩
    · rw [hstretch]
      simpa using hgap
    · rw [hcut.textOffset]
      omega

/-- Cutting a script gives a list of tokens exactly if it is the segmentation of the script by
maximal munch. -/
theorem tokenize_eq_ok_iff_isSegmentation (source : List Char) (tokens : List Token) :
    tokenize source = .ok (tokens ++ [⟨.eof, "", source.length⟩]) ↔
      IsSegmentation source tokens := by
  rw [isSegmentation_iff]
  constructor
  · intro h
    simp only [tokenize] at h
    split at h
    · rename_i last hending
      obtain ⟨hsegments, -⟩ := segmentsFrom_of_ofCursor rfl (Nat.zero_le _) hending
      have hsameTokens := (List.append_inj' (Except.ok.inj h) rfl).1
      rwa [← hsameTokens]
    · cases h
  · intro h
    have hcut : Lexed.ofSource source = ⟨tokens, .eof source.length⟩ :=
      ofCursor_of_segmentsFrom (Nat.zero_le _) h
    rw [tokenize, hcut]

end PuzzleLang
