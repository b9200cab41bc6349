import CodeContext.Number.Binary64
import Mathlib.Algebra.Order.Field.Rat
import Mathlib.Data.Rat.Cast.Order
import Mathlib.Order.WithBot
import Mathlib.Tactic.Lemma
import Mathlib.Tactic.Positivity

/-!
# The order of numbers

A finite number is a whole multiple of the smallest positive one, and its magnitude orders it by size. So the
rank of a number orders all numbers by their place on the number line with both infinities, where the zeros
have one place and what is not a number has none and ranks with negative infinity.
-/

namespace CodeContext.Binary64

variable {x y : Binary64}

/-! ### Places -/

/-- The value of a finite number. -/
def value (x : Binary64) : ℚ :=
  (if x.negative then -1 else 1) * ((x.ratio.1 : ℚ) / x.ratio.2)

/-- The place of a number among the rationals and the infinities. What is not a number has none. -/
def place? (x : Binary64) : Option (WithBot (WithTop ℚ)) :=
  if x.isNaN then none
  else if x.isFinite then some (x.value : WithTop ℚ)
  else some (if x.negative then ⊥ else ⊤)

/-- Both are numbers, and the first is the greater one. -/
def IsGreater (x y : Binary64) : Prop :=
  ∃ p ∈ x.place?, ∃ q ∈ y.place?, q < p

/-- A number is above each smaller one, and one above negative infinity is above what is not a number. -/
def IsAbove (x y : Binary64) : Prop :=
  x.IsGreater y ∨ y.isNaN = true ∧ x.IsGreater negativeInfinity

/-! ### Finite numbers -/

/-- The absolute value of a finite number in units of the smallest positive one. -/
def units (x : Binary64) : Nat :=
  x.significand * 2 ^ x.scale

lemma magnitude_eq (x : Binary64) : x.magnitude = x.significand + x.scale * 2 ^ 52 := by
  unfold significand scale
  simp only [Nat.pow_eq]
  split <;> omega

lemma significand_lt (x : Binary64) : x.significand < 2 ^ 53 := by
  unfold significand
  simp only [Nat.pow_eq]
  split <;> omega

lemma le_significand (h : x.scale ≠ 0) : 2 ^ 52 ≤ x.significand := by
  unfold scale at h
  unfold significand
  simp only [Nat.pow_eq] at h ⊢
  split <;> omega

lemma units_lt_of_magnitude_lt (h : x.magnitude < y.magnitude) : x.units < y.units := by
  rw [magnitude_eq, magnitude_eq] at h
  have hx := x.significand_lt
  have hy := y.significand_lt
  rcases Nat.lt_trichotomy x.scale y.scale with hlt | heq | hgt
  · -- The significands differ by a factor of less than two, which the larger power makes up for.
    have hle : 2 ^ 52 ≤ y.significand := le_significand (by omega)
    calc x.units < 2 ^ 53 * 2 ^ x.scale := Nat.mul_lt_mul_of_pos_right hx (Nat.two_pow_pos _)
      _ = 2 ^ 52 * 2 ^ (x.scale + 1) := by rw [Nat.pow_succ]; omega
      _ ≤ 2 ^ 52 * 2 ^ y.scale := Nat.mul_le_mul_left _ (Nat.pow_le_pow_right (by decide) hlt)
      _ ≤ y.units := Nat.mul_le_mul_right _ hle
  · rw [units, units, heq]
    rw [heq] at h
    exact Nat.mul_lt_mul_of_pos_right (by omega) (Nat.two_pow_pos _)
  · have hle : 2 ^ 52 ≤ x.significand := le_significand (by omega)
    omega

lemma units_of_magnitude_eq (h : x.magnitude = y.magnitude) : x.units = y.units := by
  unfold units significand scale
  rw [h]

lemma units_eq_zero_iff : x.units = 0 ↔ x.magnitude = 0 := by
  have hzero : (⟨0⟩ : Binary64).magnitude = 0 := rfl
  have hunits : (⟨0⟩ : Binary64).units = 0 := rfl
  constructor
  · intro h
    by_contra hne
    have hlt : (⟨0⟩ : Binary64).units < x.units := units_lt_of_magnitude_lt (by omega)
    omega
  · intro h
    rw [← hunits]
    exact units_of_magnitude_eq (h.trans hzero.symm)

/-- A natural number with the sign of a number. -/
def signed (x : Binary64) (n : Nat) : Int :=
  if x.negative then -n else n

lemma ratio_eq_units (x : Binary64) : (x.ratio.1 : ℚ) / x.ratio.2 = x.units / 2 ^ 1074 := by
  unfold ratio units
  simp only [Nat.pow_eq]
  split
  · have hpow : (2 : ℚ) ^ 1074 = 2 ^ (1074 - x.scale) * 2 ^ x.scale := by
      rw [← pow_add]
      congr 1
      omega
    push_cast
    rw [hpow, mul_div_mul_right _ _ (by positivity)]
  · have hpow : (2 : ℚ) ^ x.scale = 2 ^ (x.scale - 1074) * 2 ^ 1074 := by
      rw [← pow_add]
      congr 1
      omega
    push_cast
    rw [hpow, ← mul_assoc, mul_div_cancel_right₀ _ (by positivity), div_one]

lemma value_eq_units (x : Binary64) : x.value = x.signed x.units / 2 ^ 1074 := by
  rw [value, ratio_eq_units, signed]
  split
  · rw [neg_one_mul, Int.cast_neg, Int.cast_natCast, neg_div]
  · rw [one_mul, Int.cast_natCast]

/-- The magnitudes with their signs order the finite numbers by their values. -/
lemma value_lt_value_iff : x.value < y.value ↔ x.signed x.magnitude < y.signed y.magnitude := by
  have hunits : x.value < y.value ↔ x.signed x.units < y.signed y.units := by
    rw [value_eq_units, value_eq_units, div_lt_div_iff_of_pos_right (by positivity), Int.cast_lt]
  have hlt := units_lt_of_magnitude_lt (x := x) (y := y)
  have hgt := units_lt_of_magnitude_lt (x := y) (y := x)
  have heq := units_of_magnitude_eq (x := x) (y := y)
  have hx := units_eq_zero_iff (x := x)
  have hy := units_eq_zero_iff (x := y)
  rw [hunits]
  unfold signed
  split <;> split <;> omega

/-! ### All numbers -/

/-- A place on the number line: both zeros at 0, and what is not a number where negative infinity is. -/
def rank (x : Binary64) : Int :=
  if x.isNaN then -infinite else if x.negative then -x.magnitude else x.magnitude

/-- The total order of the sort keys has one more place below zero, that of negative zero, which is no sort key. -/
lemma totalPlace_sortKey (x : Binary64) : x.sortKey.totalPlace = if x.rank < 0 then x.rank - 1 else x.rank := by
  have hpos : (0 : Int) < infinite := by decide
  have hlow : negativeInfinity.totalPlace = -infinite - 1 := by decide
  have hzero : (ofMagnitude false 0).totalPlace = 0 := by decide
  unfold sortKey rank
  split
  · rw [hlow, if_pos (by omega)]
  · by_cases hmagnitude : x.magnitude = 0
    · rw [if_pos hmagnitude, hzero, hmagnitude]
      simp
    · rw [if_neg hmagnitude, totalPlace]
      cases x.negative with
      | false => simp
      | true =>
        simp only [if_true]
        rw [if_pos (by omega)]

/-- Sort keys in the total order are ordered as the ranks are. -/
theorem totalPlace_sortKey_le_iff :
    x.sortKey.totalPlace ≤ y.sortKey.totalPlace ↔ x.rank ≤ y.rank := by
  rw [totalPlace_sortKey, totalPlace_sortKey]
  split <;> split <;> omega

/-- The place of a number, or else that of negative infinity. -/
def level (x : Binary64) : WithBot (WithTop ℚ) :=
  x.place?.getD ⊥

/-- A number is the lowest, the highest or finite, by its place and by its rank. -/
lemma level_cases (x : Binary64) :
    (x.level = ⊥ ∧ x.rank = -infinite) ∨ (x.level = ⊤ ∧ x.rank = infinite) ∨
      (x.level = ((x.value : WithTop ℚ) : WithBot (WithTop ℚ)) ∧ x.rank = x.signed x.magnitude ∧
        x.magnitude < infinite) := by
  unfold level place? rank isNaN isFinite
  by_cases hnan : infinite < x.magnitude
  · left
    simp [hnan]
  · by_cases hfin : x.magnitude < infinite
    · right; right
      simp [hnan, hfin, signed]
    · have hinf : x.magnitude = infinite := by omega
      cases x.negative <;> simp [hinf]

lemma signed_between (h : x.magnitude < infinite) :
    -infinite < x.signed x.magnitude ∧ x.signed x.magnitude < infinite := by
  unfold signed
  split <;> omega

lemma level_lt_level_iff : x.level < y.level ↔ x.rank < y.rank := by
  have hpos : (0 : Int) < infinite := by decide
  rcases x.level_cases with ⟨hl, hr⟩ | ⟨hl, hr⟩ | ⟨hl, hr, hm⟩ <;>
    rcases y.level_cases with ⟨hl', hr'⟩ | ⟨hl', hr'⟩ | ⟨hl', hr', hm'⟩
  all_goals rw [hl, hr, hl', hr']
  · exact iff_of_false (lt_irrefl _) (lt_irrefl _)
  · exact iff_of_true bot_lt_top (by omega)
  · exact iff_of_true (WithBot.bot_lt_coe _) (signed_between hm').1
  · exact iff_of_false not_lt_bot (by omega)
  · exact iff_of_false (lt_irrefl _) (lt_irrefl _)
  · exact iff_of_false not_top_lt (signed_between hm').2.le.not_gt
  · exact iff_of_false not_lt_bot (signed_between hm).1.le.not_gt
  · exact iff_of_true (WithBot.coe_lt_coe.mpr (WithTop.coe_lt_top _)) (signed_between hm).2
  · rw [WithBot.coe_lt_coe, WithTop.coe_lt_coe]
    exact value_lt_value_iff

lemma place?_eq (x : Binary64) : x.place? = if x.isNaN then none else some x.level := by
  unfold level place?
  cases x.isNaN with
  | true => rfl
  | false => cases x.isFinite <;> rfl

lemma isGreater_iff : x.IsGreater y ↔ x.isNaN = false ∧ y.isNaN = false ∧ y.level < x.level := by
  rw [IsGreater, place?_eq, place?_eq]
  cases x.isNaN <;> cases y.isNaN <;> simp

/-- What ranks higher is above, and nothing else is. -/
theorem isAbove_iff : x.IsAbove y ↔ y.rank < x.rank := by
  have hlow : negativeInfinity.isNaN = false ∧ negativeInfinity.level = ⊥ := by decide
  have hnan (x : Binary64) (h : x.isNaN = true) : x.level = ⊥ := by simp [level, place?, h]
  rw [← level_lt_level_iff, IsAbove, isGreater_iff, isGreater_iff, hlow.1, hlow.2]
  constructor
  · rintro (⟨-, -, hlt⟩ | ⟨hy, -, -, hlt⟩)
    · exact hlt
    · rwa [hnan y hy]
  · intro hlt
    have hx : x.isNaN = false := by
      by_contra h
      rw [hnan x (by simpa using h)] at hlt
      exact not_lt_bot hlt
    cases hy : y.isNaN with
    | false => exact .inl ⟨hx, rfl, hlt⟩
    | true => exact .inr ⟨rfl, hx, rfl, bot_le.trans_lt hlt⟩

end CodeContext.Binary64
