import Mathlib.Data.BitVec
import Mathlib.Algebra.Order.Field.Power
import Mathlib.Data.Rat.Floor

/-!
# Go's `float64`

The code computes a few values in `float64`: conversions from `int64`, one
division and one product, and a conversion back to `int64`.  A finite
`float64` is `(-1)^negative * mantissa * 2^exponent`, and every operation
rounds its exact result to the nearest value with a 53-bit mantissa, ties to
even, as IEEE 754 binary64 does.  The values the code computes stay far from
the subnormal range and from overflow: their exact results lie between
`2^-128` and `2^128` in magnitude, or are zero.

`int64(f)` truncates toward zero.  When the result does not fit in an
`int64` the Go specification leaves the value to the implementation; it is
taken as on amd64, whose `CVTTSD2SQ` gives `0x8000000000000000`.
-/

namespace MongoShardingPoc.Go

/-- The number of binary digits of `n`, `0` for `0`. -/
def bitLength (n : Nat) : Nat :=
  go n n
where
  /-- Halve at most `fuel` times; `fuel = n` is enough. -/
  go : Nat → Nat → Nat
    | 0, _ => 0
    | fuel + 1, n => if n = 0 then 0 else go fuel (n / 2) + 1

/-- `num / den` rounded to the nearest natural number, ties to even. -/
def roundHalfEven (num den : Nat) : Nat :=
  if 2 * (num % den) < den then num / den
  else if den < 2 * (num % den) then num / den + 1
  else num / den + num / den % 2

/-- The fraction `n / (d * 2^e)` as a numerator and a denominator. -/
def scaled (n d : Nat) (e : Int) : Nat × Nat :=
  if 0 ≤ e then (n, d * 2 ^ e.toNat) else (n * 2 ^ (-e).toNat, d)

/-- A finite `float64`: `(-1)^negative * mantissa * 2^exponent`. -/
structure Float64 where
  negative : Bool
  mantissa : Nat
  exponent : Int
  deriving Repr

namespace Float64

/-- The exponent of the 53-bit mantissa of `n / d * 2^k`: the `e` with
`2^52 ≤ n / (d * 2^(e - k)) < 2^53`, for `n` and `d` positive. -/
def exponentOf (n d : Nat) (k : Int) : Int :=
  let e := k + bitLength n - bitLength d - 53
  if 2 ^ 53 * (scaled n d (e - k)).2 ≤ (scaled n d (e - k)).1 then e + 1 else e

/-- The `float64` nearest to `(-1)^negative * n / d * 2^k`, ties to even. -/
def round (negative : Bool) (n d : Nat) (k : Int) : Float64 :=
  let e := exponentOf n d k
  ⟨negative, roundHalfEven (scaled n d (e - k)).1 (scaled n d (e - k)).2, e⟩

/-- `float64(x)` for an `int64` `x`. -/
def ofInt64 (x : BitVec 64) : Float64 :=
  round (x.toInt < 0) x.toInt.natAbs 1 0

/-- `a / b`, for `b` not zero (the code divides only by a positive value). -/
def div (a b : Float64) : Float64 :=
  round (a.negative != b.negative) a.mantissa b.mantissa (a.exponent - b.exponent)

def mul (a b : Float64) : Float64 :=
  round (a.negative != b.negative) (a.mantissa * b.mantissa) 1 (a.exponent + b.exponent)

/-- `|a|` truncated toward zero. -/
def truncNatAbs (a : Float64) : Nat :=
  if 0 ≤ a.exponent then a.mantissa * 2 ^ a.exponent.toNat
  else a.mantissa / 2 ^ (-a.exponent).toNat

/-- `int64(a)`. -/
def toInt64 (a : Float64) : BitVec 64 :=
  let t : Int := if a.negative then -(a.truncNatAbs : Int) else a.truncNatAbs
  if -2 ^ 63 ≤ t ∧ t < 2 ^ 63 then BitVec.ofInt 64 t else 0x8000000000000000#64

/-- `a` scaled by `2^(-s)`, as an integer, for `s` at most `a.exponent`. -/
def scaledInt (a : Float64) (s : Int) : Int :=
  (if a.negative then -1 else 1) * (a.mantissa * 2 ^ (a.exponent - s).toNat : Nat)

def lt (a b : Float64) : Bool :=
  decide (a.scaledInt (min a.exponent b.exponent) < b.scaledInt (min a.exponent b.exponent))

/-- The rational number a finite `float64` stands for. -/
def toRat (a : Float64) : ℚ :=
  (if a.negative then -1 else 1) * a.mantissa * 2 ^ a.exponent

end Float64

/-! ## Bit lengths -/

theorem bitLength_go_zero (fuel : Nat) : bitLength.go fuel 0 = 0 := by
  cases fuel <;> rfl

theorem bitLength_go_bounds (fuel n : Nat) (enough : n ≤ fuel) :
    n < 2 ^ bitLength.go fuel n ∧ (0 < n → 2 ^ bitLength.go fuel n ≤ 2 * n) := by
  induction fuel generalizing n with
  | zero =>
      obtain rfl : n = 0 := by omega
      simp [bitLength.go]
  | succ fuel inductionHypothesis =>
      rcases Nat.eq_zero_or_pos n with rfl | positive
      · simp [bitLength.go]
      · have half := inductionHypothesis (n / 2) (by omega)
        simp only [bitLength.go, positive.ne', if_false, pow_succ]
        refine ⟨by omega, fun _ => ?_⟩
        rcases Nat.eq_zero_or_pos (n / 2) with none | some
        · rw [none, bitLength_go_zero]
          omega
        · have := half.2 some
          omega

/-- `n` has `bitLength n` binary digits: `2^(bitLength n - 1) ≤ n < 2^bitLength n`. -/
theorem bitLength_bounds (n : Nat) :
    n < 2 ^ bitLength n ∧ (0 < n → 2 ^ bitLength n ≤ 2 * n) :=
  bitLength_go_bounds n n le_rfl

/-! ## Rounding -/

/-- Twice the rounding error, in whole numbers: `|2 * (r * den - num)| ≤ den`. -/
theorem roundHalfEven_twice (num : Nat) {den : Nat} (pos : 0 < den) :
    2 * num ≤ 2 * (roundHalfEven num den * den) + den ∧
      2 * (roundHalfEven num den * den) ≤ 2 * num + den := by
  have split := Nat.div_add_mod' num den
  have below := Nat.mod_lt num pos
  unfold roundHalfEven
  split_ifs with lower upper
  · omega
  · rw [Nat.add_one_mul (num / den) den]
    omega
  · rcases Nat.mod_two_eq_zero_or_one (num / den) with even | odd
    · rw [even, Nat.add_zero]
      omega
    · rw [odd, Nat.add_one_mul (num / den) den]
      omega

theorem roundHalfEven_sub_le (num : Nat) {den : Nat} (pos : 0 < den) :
    |(roundHalfEven num den : ℚ) - num / den| ≤ 1 / 2 := by
  have denPos : (0 : ℚ) < den := by exact_mod_cast pos
  obtain ⟨low, high⟩ := roundHalfEven_twice num pos
  have lowQ : (2 * num : ℚ) ≤ 2 * (roundHalfEven num den * den) + den := by exact_mod_cast low
  have highQ : (2 * (roundHalfEven num den * den) : ℚ) ≤ 2 * num + den := by exact_mod_cast high
  rw [sub_div' _ _ _ denPos.ne', abs_div, abs_of_pos denPos, div_le_iff₀ denPos, abs_le]
  constructor <;> linarith only [lowQ, highQ]

theorem scaled_snd_pos (n : Nat) {d : Nat} (pos : 0 < d) (s : Int) : 0 < (scaled n d s).2 := by
  unfold scaled
  split_ifs <;> positivity

theorem two_zpow_of_nonneg {s : Int} (nonneg : 0 ≤ s) : (2 : ℚ) ^ s = 2 ^ s.toNat := by
  rw [← zpow_natCast, Int.toNat_of_nonneg nonneg]

theorem scaled_ratio (n : Nat) {d : Nat} (s : Int) :
    ((scaled n d s).1 : ℚ) / (scaled n d s).2 = n / d / 2 ^ s := by
  unfold scaled
  split_ifs with nonneg
  · rw [two_zpow_of_nonneg nonneg]
    push_cast
    rw [div_div]
  · have flipped : (2 : ℚ) ^ s = ((2 : ℚ) ^ (-s).toNat)⁻¹ := by
      rw [← two_zpow_of_nonneg (by omega), zpow_neg, inv_inv]
    rw [flipped, div_inv_eq_mul]
    push_cast
    exact mul_div_right_comm _ _ _

theorem exponentOf_bounds {n d : Nat} (hn : 0 < n) (hd : 0 < d) (k : Int) :
    (2 : ℚ) ^ 52 ≤ n / d / 2 ^ (Float64.exponentOf n d k - k) ∧
      (n : ℚ) / d / 2 ^ (Float64.exponentOf n d k - k) < 2 ^ 53 := by
  obtain ⟨nBelow, nAbove⟩ := bitLength_bounds n
  obtain ⟨dBelow, dAbove⟩ := bitLength_bounds d
  have q1 : (n : ℚ) < 2 ^ bitLength n := by exact_mod_cast nBelow
  have q2 : (2 : ℚ) ^ bitLength n ≤ 2 * n := by exact_mod_cast nAbove hn
  have q3 : (d : ℚ) < 2 ^ bitLength d := by exact_mod_cast dBelow
  have q4 : (2 : ℚ) ^ bitLength d ≤ 2 * d := by exact_mod_cast dAbove hd
  have dPos : (0 : ℚ) < d := by exact_mod_cast hd
  have lPos : (0 : ℚ) < 2 ^ bitLength n := by positivity
  have mPos : (0 : ℚ) < 2 ^ bitLength d := by positivity
  -- the first guess puts the ratio strictly between `2^52` and `2^54`
  have guess : (n : ℚ) / d / 2 ^ ((bitLength n : Int) - bitLength d - 53) =
      n * 2 ^ bitLength d * 2 ^ 53 / (d * 2 ^ bitLength n) := by
    rw [zpow_sub₀ two_ne_zero, zpow_sub₀ two_ne_zero, zpow_natCast, zpow_natCast]
    ring_nf
  have low : (2 : ℚ) ^ 52 < n / d / 2 ^ ((bitLength n : Int) - bitLength d - 53) := by
    rw [guess, lt_div_iff₀ (by positivity)]
    have dn := mul_lt_mul_of_pos_right q3 lPos
    have md := mul_le_mul_of_nonneg_left q2 mPos.le
    linarith only [dn, md]
  have high : (n : ℚ) / d / 2 ^ ((bitLength n : Int) - bitLength d - 53) < 2 ^ 54 := by
    rw [guess, div_lt_iff₀ (by positivity)]
    have nm := mul_lt_mul_of_pos_right q1 mPos
    have ld := mul_le_mul_of_nonneg_left q4 lPos.le
    linarith only [nm, ld]
  have condition : ∀ s : Int, 2 ^ 53 * (scaled n d s).2 ≤ (scaled n d s).1 ↔
      (2 : ℚ) ^ 53 ≤ n / d / 2 ^ s := fun s => by
    rw [← scaled_ratio, le_div_iff₀ (by exact_mod_cast scaled_snd_pos n hd s)]
    exact_mod_cast Iff.rfl
  have first : k + (bitLength n : Int) - bitLength d - 53 - k = (bitLength n : Int) - bitLength d - 53 := by
    ring
  have second : k + (bitLength n : Int) - bitLength d - 53 + 1 - k =
      ((bitLength n : Int) - bitLength d - 53) + 1 := by
    ring
  unfold Float64.exponentOf
  dsimp only
  split_ifs with above
  · rw [second, zpow_add_one₀ two_ne_zero, ← div_div]
    have doubled := (condition _).mp above
    rw [first] at doubled
    exact ⟨(le_div_iff₀ two_pos).mpr (by rw [← pow_succ]; exact doubled),
      (div_lt_iff₀ two_pos).mpr (by rw [← pow_succ]; exact high)⟩
  · rw [first]
    rw [first] at above
    exact ⟨low.le, lt_of_not_le fun h => above ((condition _).mpr h)⟩

theorem scaled_fst_zero (d : Nat) (s : Int) : (scaled 0 d s).1 = 0 := by
  unfold scaled
  split_ifs <;> simp

theorem roundHalfEven_mul_left (quotient : Nat) {den : Nat} (pos : 0 < den) :
    roundHalfEven (den * quotient) den = quotient := by
  simp [roundHalfEven, Nat.mul_mod_right, Nat.mul_div_cancel_left _ pos, pos]

theorem toRat_round (n d : Nat) (k : Int) :
    (Float64.round false n d k).toRat =
      roundHalfEven (scaled n d (Float64.exponentOf n d k - k)).1
          (scaled n d (Float64.exponentOf n d k - k)).2 *
        2 ^ Float64.exponentOf n d k := by
  simp [Float64.round, Float64.toRat]

theorem value_eq_ratio (n d : Nat) (k e : Int) :
    (n : ℚ) / d * 2 ^ k = n / d / 2 ^ (e - k) * 2 ^ e := by
  rw [zpow_sub₀ two_ne_zero, div_div_eq_mul_div, div_mul_cancel₀ _ (zpow_ne_zero _ two_ne_zero)]

/-- Rounding a non-negative value errs by at most `2^-53` of it. -/
theorem round_error (n : Nat) {d : Nat} (hd : 0 < d) (k : Int) :
    |(Float64.round false n d k).toRat - n / d * 2 ^ k| ≤ n / d * 2 ^ k / 2 ^ 53 := by
  rcases Nat.eq_zero_or_pos n with rfl | hn
  · simp [toRat_round, scaled_fst_zero, roundHalfEven, scaled_snd_pos 0 hd]
  · have bounds := exponentOf_bounds hn hd k
    have err := roundHalfEven_sub_le (scaled n d (Float64.exponentOf n d k - k)).1
      (scaled_snd_pos n hd (Float64.exponentOf n d k - k))
    rw [scaled_ratio] at err
    have power : (0 : ℚ) < 2 ^ Float64.exponentOf n d k := by positivity
    rw [toRat_round, value_eq_ratio n d k (Float64.exponentOf n d k), ← sub_mul, abs_mul,
      abs_of_pos power, le_div_iff₀ (by positivity)]
    have half := mul_le_mul_of_nonneg_right err power.le
    have above := mul_le_mul_of_nonneg_right bounds.1 power.le
    linarith only [half, above]

/-- Rounding a value with a mantissa of at most 53 bits gives it back. -/
theorem round_of_representable (n : Nat) {d : Nat} (hd : 0 < d) (k : Int) {m : Nat} {E : Int}
    (small : m < 2 ^ 53) (value : (n : ℚ) / d * 2 ^ k = m * 2 ^ E) :
    (Float64.round false n d k).toRat = m * 2 ^ E := by
  rcases Nat.eq_zero_or_pos n with rfl | hn
  · have : (m : ℚ) * 2 ^ E = 0 := by rw [← value]; simp
    rw [this]
    simp [toRat_round, scaled_fst_zero, roundHalfEven, scaled_snd_pos 0 hd]
  · set e := Float64.exponentOf n d k
    have bounds := exponentOf_bounds hn hd k
    have ratio : (n : ℚ) / d / 2 ^ (e - k) = m * 2 ^ (E - e) := by
      rw [zpow_sub₀ two_ne_zero, div_div_eq_mul_div, value, zpow_sub₀ two_ne_zero, mul_div_assoc]
    -- the ratio is at least `2^52` while `m < 2^53`, so `E - e` is not negative
    have nonneg : 0 ≤ E - e := by
      by_contra negative
      have smaller : (2 : ℚ) ^ (E - e) ≤ 2⁻¹ :=
        (zpow_le_zpow_right₀ one_le_two (show E - e ≤ -1 by omega)).trans_eq (zpow_neg_one 2)
      have mBound : (m : ℚ) < 2 ^ 53 := by exact_mod_cast small
      have halved := mul_le_mul_of_nonneg_left smaller (Nat.cast_nonneg m)
      linarith only [bounds.1, ratio, halved, mBound]
    have whole : ((scaled n d (e - k)).1 : ℚ) =
        (scaled n d (e - k)).2 * (m * 2 ^ (E - e).toNat : Nat) := by
      have := @scaled_ratio n d (e - k)
      rw [ratio, two_zpow_of_nonneg nonneg, div_eq_iff (by exact_mod_cast (scaled_snd_pos n hd _).ne')] at this
      push_cast
      rw [this]
      ring
    rw [toRat_round, show (scaled n d (e - k)).1 = (scaled n d (e - k)).2 * (m * 2 ^ (E - e).toNat)
      by exact_mod_cast whole, roundHalfEven_mul_left _ (scaled_snd_pos n hd _)]
    push_cast
    rw [← two_zpow_of_nonneg nonneg, mul_assoc, ← zpow_add₀ two_ne_zero, sub_add_cancel]

/-! ## The operations of the code -/

namespace Float64

variable {a b : Float64}

theorem toRat_nonneg (positive : a.negative = false) : 0 ≤ a.toRat := by
  simp only [toRat, positive, Bool.false_eq_true, if_false, one_mul]
  positivity

theorem ofInt64_of_nonneg {x : BitVec 64} (nonneg : 0 ≤ x.toInt) :
    ofInt64 x = round false x.toInt.natAbs 1 0 := by
  simp [ofInt64, Int.not_lt.mpr nonneg]

theorem ofInt64_value {x : BitVec 64} (nonneg : 0 ≤ x.toInt) :
    ((x.toInt.natAbs : Nat) : ℚ) / (1 : Nat) * 2 ^ (0 : Int) = x.toInt := by
  simp only [Nat.cast_one, div_one, zpow_zero, mul_one]
  rw [← Int.cast_natCast, Int.natAbs_of_nonneg nonneg]

theorem div_of_nonneg (ha : a.negative = false) (hb : b.negative = false) :
    a.div b = round false a.mantissa b.mantissa (a.exponent - b.exponent) := by
  simp [div, ha, hb]

theorem div_value (ha : a.negative = false) (hb : b.negative = false) (pos : 0 < b.mantissa) :
    (a.mantissa : ℚ) / b.mantissa * 2 ^ (a.exponent - b.exponent) = a.toRat / b.toRat := by
  have : (b.mantissa : ℚ) ≠ 0 := by exact_mod_cast pos.ne'
  simp only [toRat, ha, hb, Bool.false_eq_true, if_false, one_mul]
  rw [zpow_sub₀ two_ne_zero]
  field_simp

theorem mul_of_nonneg (ha : a.negative = false) (hb : b.negative = false) :
    a.mul b = round false (a.mantissa * b.mantissa) 1 (a.exponent + b.exponent) := by
  simp [mul, ha, hb]

theorem mul_value (ha : a.negative = false) (hb : b.negative = false) :
    ((a.mantissa * b.mantissa : Nat) : ℚ) / (1 : Nat) * 2 ^ (a.exponent + b.exponent) =
      a.toRat * b.toRat := by
  simp only [toRat, ha, hb, Bool.false_eq_true, if_false, one_mul]
  rw [zpow_add₀ two_ne_zero]
  push_cast
  ring

theorem round_negative (negative : Bool) (n d : Nat) (k : Int) :
    (round negative n d k).negative = negative :=
  rfl

/-- `int64(a)` of a non-negative `a` below `2^63` is `a` rounded down. -/
theorem toInt64_toInt (positive : a.negative = false) (small : a.toRat < 2 ^ 63) :
    a.toInt64.toInt = ⌊a.toRat⌋₊ := by
  have floor : a.truncNatAbs = ⌊a.toRat⌋₊ := by
    simp only [truncNatAbs, toRat, positive, Bool.false_eq_true, if_false, one_mul]
    split_ifs with nonneg
    · rw [two_zpow_of_nonneg nonneg]
      exact_mod_cast (Nat.floor_natCast _).symm
    · have flipped : (2 : ℚ) ^ a.exponent = ((2 : ℚ) ^ (-a.exponent).toNat)⁻¹ := by
        rw [← two_zpow_of_nonneg (by omega), zpow_neg, inv_inv]
      rw [flipped, ← div_eq_mul_inv, show (2 : ℚ) ^ (-a.exponent).toNat =
        ((2 ^ (-a.exponent).toNat : Nat) : ℚ) by push_cast; rfl, Nat.floor_div_eq_div]
  have below : (a.truncNatAbs : Int) < 2 ^ 63 := by
    have := Nat.floor_le (toRat_nonneg positive)
    rw [← floor] at this
    exact_mod_cast this.trans_lt small
  simp only [toInt64, positive, Bool.false_eq_true, if_false]
  rw [if_pos ⟨by omega, below⟩, BitVec.toInt_ofInt,
    Int.bmod_pos _ _ (by rw [Int.emod_eq_of_lt (by omega) (by omega)]; omega),
    Int.emod_eq_of_lt (by omega) (by omega), floor]

theorem scaledInt_eq (a : Float64) {s : Int} (below : s ≤ a.exponent) :
    (a.scaledInt s : ℚ) = a.toRat / 2 ^ s := by
  have power : (2 : ℚ) ^ (a.exponent - s).toNat = 2 ^ a.exponent / 2 ^ s := by
    rw [← two_zpow_of_nonneg (by omega), zpow_sub₀ two_ne_zero]
  simp only [scaledInt, toRat]
  push_cast
  rw [power]
  split_ifs <;> ring

theorem lt_iff (a b : Float64) : a.lt b = true ↔ a.toRat < b.toRat := by
  simp only [lt, decide_eq_true_eq]
  rw [← div_lt_div_iff_of_pos_right (by positivity : (0 : ℚ) < 2 ^ min a.exponent b.exponent),
    ← scaledInt_eq a (min_le_left _ _), ← scaledInt_eq b (min_le_right _ _)]
  exact_mod_cast Iff.rfl

end Float64

/-! ## Relative error -/

theorem round_within (n : Nat) {d : Nat} (hd : 0 < d) (k : Int) :
    (n : ℚ) / d * 2 ^ k * (1 - 2⁻¹ ^ 53) ≤ (Float64.round false n d k).toRat ∧
      (Float64.round false n d k).toRat ≤ n / d * 2 ^ k * (1 + 2⁻¹ ^ 53) := by
  obtain ⟨low, high⟩ := abs_le.mp ((round_error n hd k).trans_eq (div_eq_mul_inv _ _))
  rw [← inv_pow] at low high
  constructor <;> linarith only [low, high]

namespace Float64

variable {a b : Float64}

theorem ofInt64_within {x : BitVec 64} (nonneg : 0 ≤ x.toInt) :
    (ofInt64 x).negative = false ∧ (x.toInt : ℚ) * (1 - 2⁻¹ ^ 53) ≤ (ofInt64 x).toRat ∧
      (ofInt64 x).toRat ≤ x.toInt * (1 + 2⁻¹ ^ 53) := by
  rw [ofInt64_of_nonneg nonneg, ← ofInt64_value nonneg]
  exact ⟨rfl, round_within _ one_pos 0⟩

theorem ofInt64_exact {x : BitVec 64} (nonneg : 0 ≤ x.toInt) (small : x.toInt < 2 ^ 53) :
    (ofInt64 x).toRat = x.toInt := by
  rw [ofInt64_of_nonneg nonneg, round_of_representable _ one_pos 0 (by omega)
    ((ofInt64_value nonneg).trans (show (x.toInt : ℚ) = (x.toInt.natAbs : Nat) * 2 ^ (0 : Int) by
      rw [zpow_zero, mul_one, ← Int.cast_natCast, Int.natAbs_of_nonneg nonneg]))]
  rw [zpow_zero, mul_one, ← Int.cast_natCast, Int.natAbs_of_nonneg nonneg]

theorem mantissa_pos (positive : 0 < a.toRat) : 0 < a.mantissa := by
  rcases Nat.eq_zero_or_pos a.mantissa with zero | pos
  · simp [toRat, zero] at positive
  · exact pos

theorem div_within (ha : a.negative = false) (hb : b.negative = false) (positive : 0 < b.toRat) :
    (a.div b).negative = false ∧ a.toRat / b.toRat * (1 - 2⁻¹ ^ 53) ≤ (a.div b).toRat ∧
      (a.div b).toRat ≤ a.toRat / b.toRat * (1 + 2⁻¹ ^ 53) := by
  rw [div_of_nonneg ha hb, ← div_value ha hb (mantissa_pos positive)]
  exact ⟨rfl, round_within _ (mantissa_pos positive) _⟩

theorem mul_within (ha : a.negative = false) (hb : b.negative = false) :
    (a.mul b).negative = false ∧ a.toRat * b.toRat * (1 - 2⁻¹ ^ 53) ≤ (a.mul b).toRat ∧
      (a.mul b).toRat ≤ a.toRat * b.toRat * (1 + 2⁻¹ ^ 53) := by
  rw [mul_of_nonneg ha hb, ← mul_value ha hb]
  exact ⟨rfl, round_within _ one_pos _⟩

theorem div_self_toRat (ha : a.negative = false) (positive : 0 < a.toRat) : (a.div a).toRat = 1 := by
  have one : (a.mantissa : ℚ) / a.mantissa * 2 ^ (a.exponent - a.exponent) =
      ((1 : Nat) : ℚ) * 2 ^ (0 : Int) := by
    rw [div_self (by exact_mod_cast (mantissa_pos positive).ne'), sub_self]
    simp
  rw [div_of_nonneg ha ha, round_of_representable _ (mantissa_pos positive) _ (by norm_num) one]
  simp

end Float64

/-- A product by a quotient, `t * (c / d)`, with `c`, `d`, the quotient and
the product each rounded within a relative error `ε`, against the exact
`t * c / d`. -/
theorem mul_div_within_of {ε t c d C D p r : ℚ} (ε0 : 0 ≤ ε) (ε1 : ε < 1) (t0 : 0 ≤ t) (c0 : 0 ≤ c)
    (d0 : 0 < d) (cLow : c * (1 - ε) ≤ C) (cHigh : C ≤ c * (1 + ε))
    (dLow : d * (1 - ε) ≤ D) (dHigh : D ≤ d * (1 + ε))
    (pLow : C / D * (1 - ε) ≤ p) (pHigh : p ≤ C / D * (1 + ε))
    (rLow : t * p * (1 - ε) ≤ r) (rHigh : r ≤ t * p * (1 + ε)) :
    t * c / d * ((1 - ε) ^ 3 / (1 + ε)) ≤ r ∧ r ≤ t * c / d * ((1 + ε) ^ 3 / (1 - ε)) := by
  have below : 0 < 1 - ε := by linarith
  have above : 0 < 1 + ε := by linarith
  have dPos : 0 < D := lt_of_lt_of_le (mul_pos d0 below) dLow
  -- the rounded quotient, against the exact one
  have quotientHigh : p ≤ c / d * ((1 + ε) ^ 2 / (1 - ε)) :=
    calc p ≤ c * (1 + ε) / (d * (1 - ε)) * (1 + ε) :=
          pHigh.trans (mul_le_mul_of_nonneg_right
            (div_le_div₀ (by positivity) cHigh (mul_pos d0 below) dLow) above.le)
      _ = c / d * ((1 + ε) ^ 2 / (1 - ε)) := by rw [mul_div_mul_comm]; ring
  have quotientLow : c / d * ((1 - ε) ^ 2 / (1 + ε)) ≤ p :=
    calc c / d * ((1 - ε) ^ 2 / (1 + ε)) = c * (1 - ε) / (d * (1 + ε)) * (1 - ε) := by
          rw [mul_div_mul_comm]; ring
      _ ≤ p := (mul_le_mul_of_nonneg_right
          (div_le_div₀ ((mul_nonneg c0 below.le).trans cLow) cLow dPos dHigh) below.le).trans pLow
  constructor
  · calc t * c / d * ((1 - ε) ^ 3 / (1 + ε)) = t * (c / d * ((1 - ε) ^ 2 / (1 + ε))) * (1 - ε) := by
          ring
      _ ≤ r := (mul_le_mul_of_nonneg_right (mul_le_mul_of_nonneg_left quotientLow t0)
          below.le).trans rLow
  · calc r ≤ t * (c / d * ((1 + ε) ^ 2 / (1 - ε))) * (1 + ε) :=
          rHigh.trans (mul_le_mul_of_nonneg_right (mul_le_mul_of_nonneg_left quotientHigh t0)
            above.le)
      _ = t * c / d * ((1 + ε) ^ 3 / (1 - ε)) := by ring

/-- With binary64's `ε = 2^-53`, the four roundings stay within `2^-50`. -/
theorem mul_div_within {t c d C D p r : ℚ} (t0 : 0 ≤ t) (c0 : 0 ≤ c) (d0 : 0 < d)
    (cLow : c * (1 - 2⁻¹ ^ 53) ≤ C) (cHigh : C ≤ c * (1 + 2⁻¹ ^ 53))
    (dLow : d * (1 - 2⁻¹ ^ 53) ≤ D) (dHigh : D ≤ d * (1 + 2⁻¹ ^ 53))
    (pLow : C / D * (1 - 2⁻¹ ^ 53) ≤ p) (pHigh : p ≤ C / D * (1 + 2⁻¹ ^ 53))
    (rLow : t * p * (1 - 2⁻¹ ^ 53) ≤ r) (rHigh : r ≤ t * p * (1 + 2⁻¹ ^ 53)) :
    t * c / d * (1 - 2⁻¹ ^ 50) ≤ r ∧ r ≤ t * c / d * (1 + 2⁻¹ ^ 50) := by
  obtain ⟨low, high⟩ := mul_div_within_of (by norm_num) (by norm_num) t0 c0 d0 cLow cHigh dLow dHigh
    pLow pHigh rLow rHigh
  have exact0 : 0 ≤ t * c / d := by positivity
  exact ⟨(mul_le_mul_of_nonneg_left (by norm_num) exact0).trans low,
    high.trans (mul_le_mul_of_nonneg_left (by norm_num) exact0)⟩

end MongoShardingPoc.Go
