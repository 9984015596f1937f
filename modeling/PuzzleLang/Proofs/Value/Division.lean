import PuzzleLang.Value.Arithmetic

/-!
# Division toward zero

Two operands that count as numbers have a quotient and a remainder unless the second one counts as
zero.  The two are a truncated pair: they make up the first operand again, the remainder is smaller
than the second operand and does not have the other sign than the first.  No other pair of numbers
does this, and the quotient goes toward zero in all combinations of signs: turning the quotient of
the absolute values around where the signs differ is what makes the pair truncated.
-/

namespace PuzzleLang

/-- The number that a value counts as in arithmetic: a number is itself, and nil is zero. -/
inductive Value.CountsAs : Value → Int → Prop
  | number (x : Int) : CountsAs (.number x) x
  | nil : CountsAs .nil 0

/-- The quotient `q` and the remainder `r` of `x` by `y`, where the remainder has no other sign than
`x`. -/
structure Truncated (x y q r : Int) : Prop where
  sum : x = y * q + r
  small : r.natAbs < y.natAbs
  sign : r = 0 ∨ r.sign = x.sign

section

variable {x y q r q' r' : Int}

theorem eq_zero_or_sign_eq_iff : (r = 0 ∨ r.sign = x.sign) ↔ (0 ≤ x → 0 ≤ r) ∧ (x ≤ 0 → r ≤ 0) := by
  rcases Int.lt_trichotomy x 0 with hnegative | rfl | hpositive
  · rw [Int.sign_eq_neg_one_of_neg hnegative, Int.sign_eq_neg_one_iff_neg]
    omega
  · rw [Int.sign_zero, Int.sign_eq_zero_iff_zero]
    omega
  · rw [Int.sign_eq_one_of_pos hpositive, Int.sign_eq_one_iff_pos]
    omega

theorem natAbs_truncateDiv (x y : Int) : (truncateDiv x y).natAbs = x.natAbs / y.natAbs := by
  rw [truncateDiv]
  split
  · exact Int.natAbs_natCast _
  · exact (Int.natAbs_neg _).trans (Int.natAbs_natCast _)

/-- What the product leaves over is the remainder of the absolute values, on the side of the
dividend: the product of the divisor and the quotient always has the sign of the dividend. -/
theorem sub_mul_truncateDiv (x y : Int) :
    x - y * truncateDiv x y =
      if x < 0 then -((x.natAbs % y.natAbs : Nat) : Int) else (x.natAbs % y.natAbs : Nat) := by
  have hparts : (y.natAbs : Int) * (x.natAbs / y.natAbs : Nat) + (x.natAbs % y.natAbs : Nat) =
      x.natAbs := by
    exact_mod_cast Nat.div_add_mod x.natAbs y.natAbs
  rw [truncateDiv]
  generalize ((x.natAbs / y.natAbs : Nat) : Int) = quotient at hparts ⊢
  by_cases hx : x < 0 <;> by_cases hy : y < 0
  · rw [Int.ofNat_natAbs_of_nonpos (Int.le_of_lt hy), Int.neg_mul] at hparts
    rw [if_pos (iff_of_true hx hy), if_pos hx]
    omega
  · rw [Int.natAbs_of_nonneg (Int.not_lt.mp hy)] at hparts
    rw [if_neg (fun h => hy (h.mp hx)), if_pos hx, Int.mul_neg]
    omega
  · rw [Int.ofNat_natAbs_of_nonpos (Int.le_of_lt hy), Int.neg_mul] at hparts
    rw [if_neg (fun h => hx (h.mpr hy)), if_neg hx, Int.mul_neg]
    omega
  · rw [Int.natAbs_of_nonneg (Int.not_lt.mp hy)] at hparts
    rw [if_pos (iff_of_false hx hy), if_neg hx]
    omega

theorem truncated_truncateDiv (x : Int) (hy : y ≠ 0) :
    Truncated x y (truncateDiv x y) (x - y * truncateDiv x y) := by
  have hrest := sub_mul_truncateDiv x y
  have hsmall : x.natAbs % y.natAbs < y.natAbs := Nat.mod_lt _ (Int.natAbs_pos.mpr hy)
  have hle : x.natAbs % y.natAbs ≤ x.natAbs := Nat.mod_le _ _
  generalize x.natAbs % y.natAbs = rest at hrest hsmall hle
  refine ⟨by omega, ?_, eq_zero_or_sign_eq_iff.mpr ?_⟩ <;> rw [hrest] <;> split <;> omega

theorem Truncated.ne_zero (h : Truncated x y q r) : y ≠ 0 := by
  rintro rfl
  exact absurd h.small (Nat.not_lt_zero _)

/-- Two remainders lie on the same side of zero, so less than a divisor apart. -/
theorem Truncated.remainder_unique (h : Truncated x y q r) (h' : Truncated x y q' r') : r' = r := by
  have hmultiple : y ∣ r' - r := by
    refine ⟨q - q', ?_⟩
    have hsums : y * q + r = y * q' + r' := h.sum.symm.trans h'.sum
    rw [Int.mul_sub]
    omega
  have hclose : (r' - r).natAbs < y.natAbs := by
    have hsmall := h.small
    have hsmall' := h'.small
    have hside := eq_zero_or_sign_eq_iff.mp h.sign
    have hside' := eq_zero_or_sign_eq_iff.mp h'.sign
    omega
  have hsame := Int.eq_zero_of_dvd_of_natAbs_lt_natAbs hmultiple hclose
  omega

theorem Truncated.unique (h : Truncated x y q r) (h' : Truncated x y q' r') : q' = q ∧ r' = r := by
  have hsameRemainder := h.remainder_unique h'
  refine ⟨Int.eq_of_mul_eq_mul_left h.ne_zero ?_, hsameRemainder⟩
  have hsums : y * q + r = y * q' + r' := h.sum.symm.trans h'.sum
  omega

end

theorem Value.countsAs_iff {a : Value} {x : Int} : a.CountsAs x ↔ a.operand? = some x := by
  constructor
  · intro h
    cases h with
    | number x => rfl
    | nil => rfl
  · intro h
    cases a with
    | nil =>
      cases h
      exact .nil
    | number x =>
      cases h
      exact .number x
    | _ => cases h

namespace Operator

/-- An operator fails on two values, with these words. -/
def Refuses (op : Operator) (store : Store) (a b : Value) (text : String) : Prop :=
  ∃ cause, op.apply store a b = .error cause ∧ cause.message = text

variable {a b : Value} {x y : Int}

theorem arithmetic_of_countsAs (op : Operator) (hleft : a.CountsAs x) (hright : b.CountsAs y) :
    op.arithmetic a b = op.onNumbers x y := by
  rw [arithmetic, Value.countsAs_iff.mp hleft, Value.countsAs_iff.mp hright]

theorem arithmetic_of_not_countsAs
    (op : Operator) (hothers : ¬((∃ x, a.CountsAs x) ∧ ∃ y, b.CountsAs y)) :
    op.arithmetic a b = .error (.cannotApply op.kind a.type b.type) := by
  rw [arithmetic]
  split
  · rename_i x y hleft hright
    exact absurd ⟨⟨x, Value.countsAs_iff.mpr hleft⟩, ⟨y, Value.countsAs_iff.mpr hright⟩⟩ hothers
  · rfl

/-- On operands that count as numbers, division and remainder fail exactly if the second one counts
as zero; else they give the truncated pair, which is the only one.  They fail on all other
operands. -/
theorem divide_modulo_truncate (store : Store) (a b : Value) :
    (∀ x y, a.CountsAs x → b.CountsAs y →
      (y = 0 → divide.Refuses store a b "division by zero" ∧
        modulo.Refuses store a b "modulo by zero") ∧
      (y ≠ 0 → ∃ q r, divide.apply store a b = .ok (.number q) ∧
        modulo.apply store a b = .ok (.number r) ∧
        Truncated x y q r ∧ q.natAbs = x.natAbs / y.natAbs ∧
        ∀ q' r', Truncated x y q' r' → q' = q ∧ r' = r)) ∧
    (¬((∃ x, a.CountsAs x) ∧ ∃ y, b.CountsAs y) →
      divide.Refuses store a b ("cannot apply / to " ++ a.type.name ++ " and " ++ b.type.name) ∧
      modulo.Refuses store a b
        ("cannot apply % to " ++ a.type.name ++ " and " ++ b.type.name)) := by
  constructor
  · intro x y hleft hright
    have hquotient : divide.apply store a b =
        if y = 0 then .error .divisionByZero else .ok (.number (truncateDiv x y)) :=
      arithmetic_of_countsAs divide hleft hright
    have hremainder : modulo.apply store a b =
        if y = 0 then .error .moduloByZero else .ok (.number (x - y * truncateDiv x y)) :=
      arithmetic_of_countsAs modulo hleft hright
    constructor
    · intro hzero
      rw [if_pos hzero] at hquotient hremainder
      exact ⟨⟨_, hquotient, rfl⟩, ⟨_, hremainder, rfl⟩⟩
    · intro hnonzero
      rw [if_neg hnonzero] at hquotient hremainder
      have htruncated := truncated_truncateDiv x hnonzero
      exact ⟨_, _, hquotient, hremainder, htruncated, natAbs_truncateDiv x y,
        fun q' r' hother => htruncated.unique hother⟩
  · intro hothers
    exact ⟨⟨_, arithmetic_of_not_countsAs divide hothers, rfl⟩,
      ⟨_, arithmetic_of_not_countsAs modulo hothers, rfl⟩⟩

/-- A negative number by a positive one, a number by nil, and a text, which counts as no number. -/
theorem divide_modulo_truncate_signs :
    (divide.apply .empty (.number (-7)) (.number 2) = .ok (.number (-3)) ∧
      modulo.apply .empty (.number (-7)) (.number 2) = .ok (.number (-1)) ∧
      ∀ q r, Truncated (-7) 2 q r → q = -3 ∧ r = -1) ∧
    divide.Refuses .empty (.number 7) .nil "division by zero" ∧
    modulo.Refuses .empty (.string "7") (.number 2) "cannot apply % to string and number" := by
  refine ⟨?_, ?_, ?_⟩
  · obtain ⟨q, r, hquotient, hremainder, -, -, honly⟩ :=
      ((divide_modulo_truncate .empty (.number (-7)) (.number 2)).1 (-7) 2 (.number _)
        (.number _)).2 (by decide)
    cases hquotient
    cases hremainder
    exact ⟨rfl, rfl, honly⟩
  · exact (((divide_modulo_truncate .empty (.number 7) .nil).1 7 0 (.number _) .nil).1 rfl).1
  · have hothers : ¬((∃ x, (Value.string "7").CountsAs x) ∧ ∃ y, (Value.number 2).CountsAs y) := by
      rintro ⟨⟨x, hnumber⟩, -⟩
      cases hnumber
    exact ((divide_modulo_truncate .empty (.string "7") (.number 2)).2 hothers).2

end Operator

end PuzzleLang
