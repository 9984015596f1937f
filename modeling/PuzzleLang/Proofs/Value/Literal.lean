import PuzzleLang.Proofs.Grammar.Canonical
import PuzzleLang.Value.Datum

/-!
# Data as literals

A datum of numbers, strings, arrays and maps has an expression that stands for it.  The text of the
datum is cut into the print of that expression, wherever a blank, a comma or a closing bracket
follows: these end every token before them.
-/

namespace PuzzleLang

namespace Datum

mutual

/-- A datum can be written as an expression: it is made of nil, numbers, strings, arrays and maps,
no string has a quote in it, and the keys of a map differ and are names or runs of digits. -/
def IsLiteral : Datum → Prop
  | nil => True
  | number _ => True
  | string value => '\'' ∉ value.toList
  | array items => AreLiterals items
  | map entries => (entries.map Prod.fst).Nodup ∧ HasLiterals entries
  | range _ => False
  | native _ => False
  | function _ _ => False

/-- The data in a list can be written as expressions. -/
def AreLiterals : List Datum → Prop
  | [] => True
  | item :: items => IsLiteral item ∧ AreLiterals items

/-- The keys and the values of a map can be written in an expression. -/
def HasLiterals : List (String × Datum) → Prop
  | [] => True
  | (key, value) :: entries =>
    (isNumber key = true ∨ isName key = true) ∧ IsLiteral value ∧ HasLiterals entries

end

mutual

/-- The expression that stands for a datum. -/
def expr : Datum → Expr
  | number (.ofNat n) => .number 0 n
  | number (.negSucc n) => .negate 0 (.number 0 (n + 1))
  | string value => .string 0 value
  | array items => .array 0 (exprs items)
  | map entries => .map 0 (entryExprs entries)
  | _ => .nil 0

/-- The expressions that stand for a list of data. -/
def exprs : List Datum → List Expr
  | [] => []
  | item :: items => expr item :: exprs items

/-- The entries of a map with the expressions that stand for their values. -/
def entryExprs : List (String × Datum) → List (String × Expr)
  | [] => []
  | (key, value) :: entries => (key, expr value) :: entryExprs entries

end

mutual

theorem separated_expr : ∀ datum : Datum, Separated.expr datum.expr
  | number (.ofNat _) | number (.negSucc _) | string _ | nil | range _ | native _
  | function _ _ => trivial
  | array items => separated_exprs items
  | map entries => separated_entryExprs entries

theorem separated_exprs : ∀ items : List Datum, Separated.exprs (exprs items)
  | [] => trivial
  | item :: items => ⟨separated_expr item, separated_exprs items⟩

theorem separated_entryExprs : ∀ entries : List (String × Datum),
    Separated.entries (entryExprs entries)
  | [] => trivial
  | (_, value) :: entries => ⟨separated_expr value, separated_entryExprs entries⟩

end

end Datum

/-! ## Cutting the text of a datum -/

/-- The characters that follow a datum in a text, if any, do not belong to its last token. -/
def Delimited (rest : List Char) : Prop :=
  ∀ c ∈ rest.head?, c ∈ [' ', ',', ':', ']', '\x7d']

theorem Delimited.endsBefore {rest : List Char} (h : Delimited rest) (kind : TokenKind) :
    kind.EndsBefore rest := by
  intro c hfirst
  have houtside {p : Char → Bool} (hothers : [' ', ',', ':', ']', '\x7d'].any p = false) :
      p c = false := by
    simpa using List.any_eq_false.mp hothers c (h c hfirst)
  have hnoDigit : isDigit c = false := houtside (by decide)
  have hnoPart : isNamePart c = false := houtside (by decide)
  have hnoSign : (c == '=') = false := houtside (by decide : List.any _ (· == '=') = false)
  unfold TokenKind.absorbs
  split
  · exact hnoDigit
  · exact hnoSign
  · exact hnoSign
  · exact hnoSign
  · exact hnoPart
  · rw [hnoPart, Bool.and_false]

theorem delimited_append
    {text : String}
    (h : text.toList.head?.any [' ', ',', ':', ']', '\x7d'].contains = true) (rest : List Char) :
    Delimited (text.toList ++ rest) := by
  intro c hfirst
  cases hcharacters : text.toList with
  | nil => simp [hcharacters] at h
  | cons c' cs =>
    rw [hcharacters] at h hfirst
    cases hfirst
    simpa using h

theorem CutsInto.delimited
    {cs : List Char} {ls : List Terminal}
    (t : Terminal) (hvalid : t.isValid = true) (hends : Delimited cs) (h : CutsInto cs ls) :
    CutsInto (t.written ++ cs) (t :: ls) :=
  .written hvalid (hends.endsBefore t.kind) h

/-- A sign that no longer sign starts with can stand before anything. -/
theorem CutsInto.sign
    {cs : List Char} {ls : List Terminal}
    (kind : TokenKind)
    (hsign : kind ∈ [.leftBracket, .leftBrace, .rightBracket, .rightBrace, .comma, .colon, .minus])
    (h : CutsInto cs ls) :
    CutsInto (kind.text.toList ++ cs) (.ofKind kind :: ls) := by
  have hfacts : (Terminal.ofKind kind).isValid = true ∧
      (Terminal.ofKind kind).written = kind.text.toList ∧ ∀ c, kind.absorbs c = false := by
    simp only [List.mem_cons, List.not_mem_nil, or_false] at hsign
    rcases hsign with rfl | rfl | rfl | rfl | rfl | rfl | rfl <;> exact ⟨rfl, rfl, fun _ => rfl⟩
  obtain ⟨hvalid, hwritten, halone⟩ := hfacts
  rw [← hwritten]
  exact .written hvalid (fun c _ => halone c) h

theorem CutsInto.key
    {key : String} {cs : List Char} {ls : List Terminal}
    (hkey : isNumber key = true ∨ isName key = true) (hends : Delimited cs) (h : CutsInto cs ls) :
    CutsInto (key.toList ++ cs) (Print.key key :: ls) := by
  unfold Print.key
  by_cases hnumber : isNumber key = true
  · rw [if_pos hnumber]
    exact .delimited ⟨.number, key⟩ hnumber hends h
  · rw [if_neg hnumber]
    exact .delimited (Print.name key) (hkey.resolve_left hnumber) hends h

/-- Brackets can be put around a text that is cut wherever its end is delimited. -/
theorem CutsInto.enclosed
    {text : String} {cs : List Char} {inside ls : List Terminal}
    (opening closing : TokenKind) (hopening : opening ∈ [.leftBracket, .leftBrace])
    (hclosing : closing ∈ [.rightBracket, .rightBrace])
    (hinner : ∀ {cs : List Char} {ls : List Terminal}, Delimited cs → CutsInto cs ls →
      CutsInto (text.toList ++ cs) (inside ++ ls))
    (h : CutsInto cs ls) :
    CutsInto ((opening.text ++ text ++ closing.text).toList ++ cs)
      (.ofKind opening :: (inside ++ .ofKind closing :: ls)) := by
  have hclose : CutsInto (closing.text.toList ++ cs) (.ofKind closing :: ls) :=
    .sign closing (by grind) h
  have hends : Delimited (closing.text.toList ++ cs) := by
    refine delimited_append ?_ cs
    simp only [List.mem_cons, List.not_mem_nil, or_false] at hclosing
    rcases hclosing with rfl | rfl <;> decide
  rw [String.toList_append, String.toList_append, List.append_assoc, List.append_assoc]
  exact .sign opening (by grind) (hinner hends hclose)

theorem CutsInto.comma {cs : List Char} {ls : List Terminal} (h : CutsInto cs ls) :
    CutsInto (", ".toList ++ cs) (.ofKind .comma :: ls) :=
  .sign .comma (by decide) (h.layout (by decide))

namespace Datum

theorem cutsInto_entry
    {cs : List Char} {ls : List Terminal}
    (key : String) (value : Datum) (hkey : isNumber key = true ∨ isName key = true)
    (h : CutsInto (value.render.toList ++ cs) ls) :
    CutsInto ((key ++ ": " ++ value.render).toList ++ cs)
      (Print.key key :: .ofKind .colon :: ls) := by
  have hcolon : CutsInto (": ".toList ++ (value.render.toList ++ cs)) (.ofKind .colon :: ls) :=
    .sign .colon (by decide) (h.layout (by decide))
  rw [String.toList_append, String.toList_append, List.append_assoc, List.append_assoc]
  exact .key hkey (delimited_append (by decide) _) hcolon

theorem cutsInto_quoted
    {value : String} {cs : List Char} {ls : List Terminal}
    (hnoQuote : '\'' ∉ value.toList) (hends : Delimited cs) (h : CutsInto cs ls) :
    CutsInto (("'" ++ value ++ "'").toList ++ cs) (⟨.string, value⟩ :: ls) := by
  have hvalid : (Terminal.mk .string value).isValid = true := by
    simpa [Terminal.isValid] using hnoQuote
  have hwritten : ("'" ++ value ++ "'").toList = (Terminal.mk .string value).written := by
    simp [Terminal.written]
  rw [hwritten]
  exact .delimited ⟨.string, value⟩ hvalid hends h

theorem cutsInto_integerText
    (value : Int)
    {cs : List Char} {ls : List Terminal}
    (hends : Delimited cs) (h : CutsInto cs ls) :
    CutsInto ((integerText value).toList ++ cs) (Print.expr (number value).expr ++ ls) := by
  have hdigits (n : Nat) :
      CutsInto ((naturalText n).toList ++ cs) (⟨.number, naturalText n⟩ :: ls) :=
    .delimited ⟨.number, naturalText n⟩ (isNumber_naturalText n) hends h
  cases value with
  | ofNat n => exact hdigits n
  | negSucc n =>
    have hprinted : Print.expr (number (.negSucc n)).expr =
        [.ofKind .minus, ⟨.number, naturalText (n + 1)⟩] := by
      rw [expr, Print.expr, Print.expr, Print.fit, if_neg (by simp [Expr.tier])]
    rw [hprinted, integerText, String.toList_append, List.append_assoc]
    exact .sign .minus (by decide) (hdigits (n + 1))

mutual

theorem cutsInto_render : ∀ (datum : Datum), datum.IsLiteral →
    ∀ {cs : List Char} {ls : List Terminal}, Delimited cs → CutsInto cs ls →
      CutsInto (datum.render.toList ++ cs) (Print.expr datum.expr ++ ls)
  | nil, _, cs, ls, hends, h => by
    exact .delimited (.ofKind .nilWord) rfl hends h
  | number value, _, cs, ls, hends, h => cutsInto_integerText value hends h
  | string _, hnoQuote, cs, ls, hends, h => cutsInto_quoted hnoQuote hends h
  | array items, hliteral, cs, ls, hends, h => by
    simp only [expr, Print.expr, List.cons_append, List.append_assoc, List.nil_append]
    exact .enclosed .leftBracket .rightBracket (by decide) (by decide)
      (cutsInto_renderAll items hliteral) h
  | map entries, hliteral, cs, ls, hends, h => by
    simp only [expr, Print.expr, List.cons_append, List.append_assoc, List.nil_append]
    exact .enclosed .leftBrace .rightBrace (by decide) (by decide)
      (cutsInto_renderEntries entries hliteral.2) h

theorem cutsInto_renderAll : ∀ (items : List Datum), AreLiterals items →
    ∀ {cs : List Char} {ls : List Terminal}, Delimited cs → CutsInto cs ls →
      CutsInto ((String.intercalate ", " (renderAll items)).toList ++ cs)
        (Print.exprs (exprs items) ++ ls)
  | [], _, cs, ls, hends, h => h
  | [item], hliteral, cs, ls, hends, h => by
    have hwhole := cutsInto_render item hliteral.1 hends h
    simpa [renderAll, exprs, Print.exprs] using hwhole
  | item :: next :: more, hliteral, cs, ls, hends, h => by
    have hlater := cutsInto_renderAll (next :: more) hliteral.2 hends h
    have hwhole := cutsInto_render item hliteral.1 (delimited_append (by decide) _) hlater.comma
    rw [renderAll, String.intercalate_cons_of_ne_nil (by simp [renderAll]), String.toList_append,
      String.toList_append, exprs, Print.exprs, if_neg (by simp [exprs])]
    simpa only [List.append_assoc, List.cons_append] using hwhole

theorem cutsInto_renderEntries : ∀ (entries : List (String × Datum)), HasLiterals entries →
    ∀ {cs : List Char} {ls : List Terminal}, Delimited cs → CutsInto cs ls →
      CutsInto ((String.intercalate ", " (renderEntries entries)).toList ++ cs)
        (Print.entries (entryExprs entries) ++ ls)
  | [], _, cs, ls, hends, h => h
  | [(key, value)], hliteral, cs, ls, hends, h => by
    have hwhole := cutsInto_entry key value hliteral.1 (cutsInto_render value hliteral.2.1 hends h)
    simpa only [renderEntries, String.intercalate_singleton, entryExprs, Print.entries,
      List.isEmpty_nil, if_true, List.append_nil, List.cons_append] using hwhole
  | (key, value) :: next :: more, hliteral, cs, ls, hends, h => by
    have hlater := cutsInto_renderEntries (next :: more) hliteral.2.2 hends h
    have hwhole := cutsInto_entry key value hliteral.1
      (cutsInto_render value hliteral.2.1 (delimited_append (by decide) _) hlater.comma)
    rw [renderEntries, String.intercalate_cons_of_ne_nil (by simp [renderEntries]),
      String.toList_append, String.toList_append, entryExprs, Print.entries,
      if_neg (by simp [entryExprs])]
    simpa only [List.append_assoc, List.cons_append] using hwhole

end

end Datum

end PuzzleLang
