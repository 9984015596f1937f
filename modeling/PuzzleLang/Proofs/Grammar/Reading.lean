import PuzzleLang.Proofs.Grammar
import Mathlib.Data.List.Induction

/-!
# What readers give

A reader gives a value and leaves tokens over, or fails.  The lemmas here take a successful reading
apart: each step of a reader has succeeded on its own, and the next step has gone on with the tokens
it left over.
-/

namespace PuzzleLang.Parse

/-- A reader gives a value and leaves the tokens `rest` over. -/
def Gives {α : Type} {ts : List Token} (result : Except Fault (Parsed α ts)) (value : α)
    (rest : List Token) : Prop :=
  ∃ hshorter, result = .ok ⟨value, rest, hshorter⟩

/-- The first of the tokens `rest` can be brought into view: there is one, or the script ends in
good order. -/
def Visible (ending : Ending) (rest : List Token) : Prop :=
  bring ending rest = .ok ()

theorem visible_cons (ending : Ending) (t : Token) (rest : List Token) :
    Visible ending (t :: rest) := by
  rfl

theorem visible_of_ne_nil {ending : Ending} {rest : List Token} (h : rest ≠ []) :
    Visible ending rest := by
  cases rest with
  | nil => exact (h rfl).elim
  | cons t rest => rfl

theorem visible_of_ends {ending : Ending} (hends : Visible ending []) (rest : List Token) :
    Visible ending rest := by
  cases rest with
  | nil => exact hends
  | cons t rest => rfl

theorem exists_eof_of_visible_nil {ending : Ending} (h : Visible ending []) :
    ∃ offset, ending = .eof offset := by
  cases ending with
  | eof offset => exact ⟨offset, rfl⟩
  | broken fault => cases h

section

variable {α β : Type} {ts ts' rest : List Token} {value : α}

theorem bind_eq_ok_iff {first : Except Fault β} {next : β → Except Fault α} :
    first >>= next = .ok value ↔ ∃ found, first = .ok found ∧ next found = .ok value := by
  cases first with
  | error fault =>
    constructor
    · intro hequation
      cases hequation
    · rintro ⟨found, hequation, -⟩
      cases hequation
  | ok found =>
    constructor
    · intro hequation
      exact ⟨found, rfl, hequation⟩
    · rintro ⟨_, hsame, hequation⟩
      cases hsame
      exact hequation

theorem Gives.shorter {result : Except Fault (Parsed α ts)} (h : Gives result value rest) :
    rest.length < ts.length := by
  obtain ⟨hshorter, -⟩ := h
  exact hshorter

theorem gives_pure_iff {found : α} {left : List Token} {hshorter : left.length < ts.length} :
    Gives (pure ⟨found, left, hshorter⟩ : Except Fault (Parsed α ts)) value rest ↔
      found = value ∧ left = rest := by
  constructor
  · rintro ⟨_, hequation⟩
    cases hequation
    exact ⟨rfl, rfl⟩
  · rintro ⟨rfl, rfl⟩
    exact ⟨hshorter, rfl⟩

theorem not_gives_error {fault : Fault} :
    ¬Gives (.error fault : Except Fault (Parsed α ts)) value rest := by
  rintro ⟨_, hequation⟩
  cases hequation

theorem not_gives_failHere {ending : Ending} {cause : Cause} {left : List Token} :
    ¬Gives (failHere ending cause left : Except Fault (Parsed α ts)) value rest :=
  not_gives_error

theorem gives_bind_iff
    {first : Except Fault (Parsed β ts')} {next : Parsed β ts' → Except Fault (Parsed α ts)} :
    Gives (first >>= next) value rest ↔
      ∃ (found : β) (left : List Token) (hshorter : left.length < ts'.length),
        Gives first found left ∧ Gives (next ⟨found, left, hshorter⟩) value rest := by
  constructor
  · rintro ⟨hshorter, hequation⟩
    cases first with
    | error fault => cases hequation
    | ok parsed => exact ⟨parsed.value, parsed.rest, parsed.shorter, ⟨_, rfl⟩, hshorter, hequation⟩
  · rintro ⟨found, left, hshorter, ⟨_, rfl⟩, hgiven⟩
    exact hgiven

theorem gives_bring_iff
    {ending : Ending} {left : List Token} {next : Unit → Except Fault (Parsed α ts)} :
    Gives (bring ending left >>= next) value rest ↔
      Visible ending left ∧ Gives (next ()) value rest := by
  unfold Visible
  cases bring ending left with
  | error fault =>
    constructor
    · intro h
      exact (not_gives_error h).elim
    · rintro ⟨hequation, -⟩
      cases hequation
  | ok found =>
    constructor
    · intro h
      exact ⟨rfl, h⟩
    · rintro ⟨-, h⟩
      exact h

theorem gives_expect_iff {ending : Ending} {allowed : List TokenKind} {t : Token} :
    Gives (expect ending allowed ts) t rest ↔
      ts = t :: rest ∧ t.kind ∈ allowed ∧ Visible ending rest := by
  unfold expect
  split
  · constructor
    · intro h
      exact (not_gives_failHere h).elim
    · rintro ⟨hequation, -⟩
      cases hequation
  · rename_i first left
    by_cases hmember : first.kind ∈ allowed
    · rw [if_pos hmember, gives_bring_iff, gives_pure_iff]
      constructor
      · rintro ⟨hvisible, rfl, rfl⟩
        exact ⟨rfl, hmember, hvisible⟩
      · rintro ⟨hequation, -, hvisible⟩
        cases hequation
        exact ⟨hvisible, rfl, rfl⟩
    · rw [if_neg hmember]
      constructor
      · intro h
        exact (not_gives_failHere h).elim
      · rintro ⟨hequation, hallowed, -⟩
        cases hequation
        exact (hmember hallowed).elim

theorem Gives.bind
    {first : Except Fault (Parsed β ts')} {next : Parsed β ts' → Except Fault (Parsed α ts)}
    {found : β} {left : List Token}
    (h : Gives first found left)
    (h' : ∀ hshorter, Gives (next ⟨found, left, hshorter⟩) value rest) :
    Gives (first >>= next) value rest :=
  gives_bind_iff.mpr ⟨found, left, h.shorter, h, h' h.shorter⟩

theorem gives_pure {hshorter : rest.length < ts.length} :
    Gives (pure ⟨value, rest, hshorter⟩ : Except Fault (Parsed α ts)) value rest :=
  gives_pure_iff.mpr ⟨rfl, rfl⟩

theorem gives_expect
    {ending : Ending} {kind : TokenKind} {t : Token}
    (hkind : t.kind = kind) (hvisible : Visible ending rest) :
    Gives (expect ending [kind] (t :: rest)) t rest :=
  gives_expect_iff.mpr ⟨rfl, List.mem_singleton.mpr hkind, hvisible⟩

theorem gives_ite_pos
    {condition : Prop} [Decidable condition] {yes no : Except Fault (Parsed α ts)}
    (hholds : condition) (h : Gives yes value rest) :
    Gives (if condition then yes else no) value rest := by
  rwa [if_pos hholds]

theorem gives_ite_neg
    {condition : Prop} [Decidable condition] {yes no : Except Fault (Parsed α ts)}
    (hfails : ¬condition) (h : Gives no value rest) :
    Gives (if condition then yes else no) value rest := by
  rwa [if_neg hfails]

end

/-! ## The token in view -/

theorem viewKind_append {ts : List Token} (h : viewKind ts ≠ .eof) (rest : List Token) :
    viewKind (ts ++ rest) = viewKind ts := by
  cases ts with
  | nil => exact (h rfl).elim
  | cons t ts => rfl

end PuzzleLang.Parse

namespace PuzzleLang

theorem firstOffset_append {ts : List Token} (h : ts ≠ []) (rest : List Token) :
    firstOffset (ts ++ rest) = firstOffset ts := by
  cases ts with
  | nil => exact (h rfl).elim
  | cons t ts => rfl

/-- A reader that goes from digit to digit finds the number that the places of the digits give. -/
theorem digitsValue_eq_placeValue (digits : List Char) :
    digitsValue digits = placeValue digits := by
  induction digits using List.reverseRecOn with
  | nil => rfl
  | append_singleton digits c ih =>
    rw [digitsValue, List.foldl_append, ← digitsValue, ih, placeValue, placeValue, List.map_append,
      List.map_singleton, List.reverse_append, List.reverse_singleton, List.singleton_append,
      Nat.ofDigits_cons, List.foldl_cons, List.foldl_nil, Nat.add_comm]

/-! ## Tokens with which an expression goes on -/

/-- Operators are read with a strength that is their tier. -/
theorem Operator.strength_eq_tier (op : Operator) : op.strength = op.tier := by
  cases op <;> rfl

namespace TokenKind

theorem continues_of_le
    {kind : TokenKind} {least least' : Nat}
    (hle : least ≤ least') (h : kind.continues least' = true) :
    kind.continues least = true := by
  cases kind <;> simp only [continues, decide_eq_true_eq] at h ⊢ <;> omega

theorem continues_assign_iff {least : Nat} :
    TokenKind.assign.continues least = true ↔ least ≤ 1 := by
  simp [continues]

theorem continues_operator_iff
    {kind : TokenKind} {op : Operator} {least : Nat} (hfound : Operator.ofKind? kind = some op) :
    kind.continues least = true ↔ least ≤ op.tier := by
  rw [← Operator.kind_of_ofKind? hfound]
  cases op <;> simp [continues, Operator.kind, Operator.tier]

/-- A token that is no operator lets an expression go on either always or never. -/
theorem continues_of_no_operator
    {kind : TokenKind} {least least' : Nat}
    (hnoAssign : kind ≠ .assign) (hnoOperator : Operator.ofKind? kind = none)
    (h : kind.continues least = true) :
    kind.continues least' = true := by
  cases kind <;> first | exact h | exact (hnoAssign rfl).elim | cases hnoOperator

theorem continues_seven_iff {kind : TokenKind} :
    kind.continues 7 = true ↔ kind = .leftParen ∨ kind = .leftBracket := by
  cases kind <;> decide

end TokenKind

end PuzzleLang
