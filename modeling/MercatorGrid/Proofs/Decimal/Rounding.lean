import MercatorGrid.Proofs.Binary64.Line
import MercatorGrid.Decimal.Numeral

/-! Decimals as doubles.
A decimal becomes the double nearest to its exact value, for any number of digits and any
exponent: ties go to the even significand, values beyond the doubles to an infinity, and values
below half the smallest double to zero. -/
namespace MercatorGrid
open Binary64 Float.Model Float.Model.UnpackedFloat

theorem ten_zpow_pos (k : ℤ) : (0 : ℚ) < 10 ^ k := zpow_pos (by norm_num) k

namespace Decimal

def value (d : Decimal) : ℚ := d.digits * 10 ^ d.exponent

theorem value_trim (d : Decimal) : d.trim.value = d.value := by
  fun_induction trim d with
  | case1 d zeros ih =>
    have whole : (d.digits : ℚ) = (d.digits / 10 : ℕ) * 10 := by
      exact_mod_cast (Nat.div_mul_cancel (Nat.dvd_of_mod_eq_zero zeros.2)).symm
    rw [ih]
    simp only [value, whole, zpow_add_one₀ (show (10 : ℚ) ≠ 0 by norm_num)]
    ring
  | case2 d _ => rfl

section Scientific

theorem read_powers : ∀ e : Fin Float.exactlyRepresentablePowersOfTen.size,
    2 ^ (10 ^ e.val).log2 ∣ 10 ^ e.val * 2 ^ 52 ∧
    read Float.exactlyRepresentablePowersOfTen[e.val] =
      .finite false (10 ^ e.val * 2 ^ 52 / 2 ^ (10 ^ e.val).log2) ((10 ^ e.val).log2 - 52) := by
  decide +kernel

theorem denotes_power {e : ℕ} (inside : e < Float.exactlyRepresentablePowersOfTen.size) :
    Denotes Float.exactlyRepresentablePowersOfTen[e] ((10 ^ e : ℚ) : Line) := by
  obtain ⟨exact, reading⟩ := read_powers ⟨e, inside⟩
  have h := denotes_of_read reading
  dsimp only at exact h
  obtain ⟨m, whole⟩ := exact
  rw [whole, Nat.mul_div_cancel_left _ (by positivity)] at h
  have value : (m : ℚ) * 2 ^ (((10 ^ e).log2 : ℤ) - 52) = 10 ^ e := by
    have cast : (10 ^ e * 2 ^ 52 : ℚ) = 2 ^ (10 ^ e).log2 * m := by exact_mod_cast whole
    rw [zpow_sub₀ (by norm_num), zpow_natCast, mul_div_assoc', mul_comm, ← cast]
    norm_num
  simp only [signed, Bool.false_eq_true, if_false, Int.cast_natCast, value] at h
  exact h

theorem representable_firstOverflow : Representable firstOverflow :=
  representable_two_pow (by norm_num)

theorem clip_nearest_of_huge {q : ℚ} (huge : firstOverflow ≤ q) : clip (nearest q) = ⊤ := by
  refine clip_of_large ?_
  rw [← nearest_of_representable representable_firstOverflow]
  exact nearest_mono huge

theorem nearest_of_tiny {q : ℚ} (positive : 0 < q) (tiny : q < 2 ^ (-1075 : ℤ)) :
    nearest q = 0 := by
  have place : lastPlace q = -1074 := by
    have low := lastPlace_low q
    have high : lastPlace q ≤ -1021 - 53 := by
      refine lastPlace_le positive.ne' ?_ le_rfl
      rw [abs_of_pos positive]
      exact tiny.trans (zpow_lt_zpow_right₀ (by norm_num) (by norm_num))
    omega
  have none : nearestEven (q / 2 ^ (-1074 : ℤ)) = 0 := by
    apply nearestEven_eq
    left
    rw [Int.cast_zero, zero_sub, abs_neg, abs_of_pos (by positivity),
      div_lt_iff₀ (two_zpow_pos _)]
    calc q < 2 ^ (-1075 : ℤ) := tiny
      _ = 1 / 2 * 2 ^ (-1074 : ℤ) := by
        rw [show (-1074 : ℤ) = -1075 + 1 by norm_num, zpow_add_one₀ (by norm_num)]
        ring
  rw [nearest, Binary64.digits, place, none, Int.cast_zero, zero_mul]

theorem ten_zpow_le {k n : ℤ} (h : k ≤ n) : (10 : ℚ) ^ k ≤ 10 ^ n :=
  zpow_le_zpow_right₀ (by norm_num) h

theorem firstOverflow_le : firstOverflow ≤ 10 ^ (309 : ℤ) := by
  have powers : 2 ^ 1024 ≤ 10 ^ 309 := by decide +kernel
  have cast := (Nat.cast_le (α := ℚ)).mpr powers
  simp only [Nat.cast_pow, Nat.cast_ofNat] at cast
  simpa only [firstOverflow, zpow_ofNat] using cast

theorem ten_zpow_lt_smallest : (10 : ℚ) ^ (-324 : ℤ) < 2 ^ (-1075 : ℤ) := by
  have powers : 2 ^ 1075 < 10 ^ 324 := by decide +kernel
  have cast := (Nat.cast_lt (α := ℚ)).mpr powers
  simp only [Nat.cast_pow, Nat.cast_ofNat] at cast
  simp only [zpow_neg, zpow_ofNat]
  exact inv_strictAnti₀ (by positivity) cast

theorem huge_of_exponent {m : ℕ} {e : ℤ} (some : m ≠ 0) (large : 309 ≤ e) :
    firstOverflow ≤ m * 10 ^ e := by
  have one : (1 : ℚ) ≤ m := by exact_mod_cast Nat.one_le_iff_ne_zero.mpr some
  calc firstOverflow ≤ 10 ^ (309 : ℤ) := firstOverflow_le
    _ ≤ 10 ^ e := ten_zpow_le large
    _ ≤ m * 10 ^ e := le_mul_of_one_le_left (ten_zpow_pos e).le one

/-- An exponent so small that the digits cannot make up for it. -/
theorem tiny_of_exponent {m : ℕ} {e : ℤ} (small : e < -(2048 + m.log2)) :
    (m : ℚ) * 10 ^ e < 2 ^ (-1075 : ℤ) := by
  have few : (m : ℚ) < 2 ^ (m.log2 + 1) := by exact_mod_cast Nat.lt_log2_self
  obtain ⟨n, rfl⟩ : ∃ n : ℕ, e = -n := ⟨(-e).toNat, by omega⟩
  have powers : (10 : ℚ) ^ (-n : ℤ) ≤ 2 ^ (-n : ℤ) := by
    rw [zpow_neg, zpow_neg, zpow_natCast, zpow_natCast]
    exact inv_anti₀ (by positivity) (pow_le_pow_left₀ (by norm_num) (by norm_num) n)
  calc (m : ℚ) * 10 ^ (-n : ℤ) ≤ m * 2 ^ (-n : ℤ) :=
        mul_le_mul_of_nonneg_left powers (Nat.cast_nonneg m)
    _ < 2 ^ (m.log2 + 1) * 2 ^ (-n : ℤ) := mul_lt_mul_of_pos_right few (two_zpow_pos _)
    _ = 2 ^ ((m.log2 : ℤ) + 1 - n) := by
        rw [sub_eq_add_neg, zpow_add₀ (by norm_num), ← zpow_natCast]
        push_cast
        rfl
    _ ≤ 2 ^ (-1075 : ℤ) := zpow_le_zpow_right₀ (by norm_num) (by omega)

theorem holds_times_power {m : ℕ} (positive : 0 < m) (n : ℕ) : Holds
    (UnpackedFloat.mul Format.binary64 (.finite .positive (m <<< 53) (-53) (by simpa))
      (.finite .positive (10 ^ n) 0 (by positivity))) (nearest (m * 10 ^ (n : ℤ))) := by
  have shifted : 2 ^ 52 ≤ m <<< 53 := by
    rw [Nat.shiftLeft_eq]
    omega
  have h := @holds_mul_finite .positive .positive (m <<< 53) (10 ^ n) (-53) 0 (by omega)
    (by positivity) (.inl (.inl shifted))
  have left := shiftLeft_value m 53 0
  have value : ofSign .positive ((m <<< 53 : ℕ) * 2 ^ (-53 : ℤ)) *
      ofSign .positive ((10 ^ n : ℕ) * 2 ^ (0 : ℤ)) = (m : ℚ) * 10 ^ (n : ℤ) := by
    rw [ofSign, ofSign, show (-53 : ℤ) = 0 - (53 : ℕ) by norm_num, left]
    push_cast
    simp
  rwa [value] at h

theorem holds_over_power {m : ℕ} (positive : 0 < m) (n : ℕ) : Holds
    (UnpackedFloat.div Format.binary64 (.finite .positive m 0 positive)
      (.finite .positive (10 ^ n) 0 (by positivity))) (nearest (m * 10 ^ (-n : ℤ))) := by
  have h := @holds_div_finite .positive .positive m (10 ^ n) 0 0 positive (by positivity)
  have value : ofSign .positive ((m : ℕ) * 2 ^ (0 : ℤ)) /
      ofSign .positive ((10 ^ n : ℕ) * 2 ^ (0 : ℤ)) = (m : ℚ) * 10 ^ (-n : ℤ) := by
    rw [ofSign, ofSign, zpow_neg, zpow_natCast]
    push_cast
    simp [div_eq_mul_inv]
  rwa [value] at h

theorem denotes_model (m : ℕ) (e : ℤ) :
    pointOf (Float.Model.pack (UnpackedFloat.ofScientific Format.binary64 m e)).unpack =
      some (clip (nearest (m * 10 ^ e))) := by
  unfold UnpackedFloat.ofScientific
  by_cases zero : m = 0
  · rw [dif_pos zero, zero, Nat.cast_zero, zero_mul, nearest_zero]
    exact pointOf_unpack_pack (.zero _)
  rw [dif_neg zero]
  have positive : 0 < m := Nat.pos_of_ne_zero zero
  by_cases huge : e > 2 ^ Format.binary64.exponentBits
  · have large : (2048 : ℤ) < e := huge
    rw [if_pos huge, clip_nearest_of_huge (huge_of_exponent zero (by omega))]
    rfl
  rw [if_neg huge]
  by_cases tiny : e < -((2 ^ Format.binary64.exponentBits : Int) + m.log2)
  · have value : (0 : ℚ) < m * 10 ^ e := mul_pos (by exact_mod_cast positive) (ten_zpow_pos e)
    rw [if_pos tiny, nearest_of_tiny value (tiny_of_exponent tiny)]
    exact pointOf_unpack_pack (.zero _)
  rw [if_neg tiny]
  by_cases whole : 0 ≤ e
  · rw [if_pos whole]
    obtain ⟨n, rfl⟩ := Int.eq_ofNat_of_zero_le whole
    exact pointOf_unpack_pack (holds_times_power positive n)
  · rw [if_neg whole]
    obtain ⟨n, rfl⟩ : ∃ n : ℕ, e = -n := ⟨(-e).toNat, by omega⟩
    simp only [Int.neg_neg, Int.toNat_natCast]
    exact pointOf_unpack_pack (holds_over_power positive n)

theorem denotes_scientific (m : ℕ) (e : ℤ) :
    Denotes (Float.ofScientific m (e < 0) e.natAbs) (clip (nearest (m * 10 ^ e))) := by
  unfold Float.ofScientific
  by_cases fast : m < 2 ^ 53 ∧ e.natAbs ≤ 22
  -- few digits and a small power are both doubles, so only the one operation rounds
  · rw [dif_pos fast]
    have word := denotes_toUInt64 fast.1
    have inside : e.natAbs < Float.exactlyRepresentablePowersOfTen.size :=
      Nat.lt_succ_of_le fast.2
    have power := denotes_power inside
    by_cases negative : e < 0
    · have h := denotes_div word power (by positivity)
      have value : (m : ℚ) / 10 ^ e.natAbs = m * 10 ^ e := by
        rw [div_eq_mul_inv, ← zpow_natCast, ← zpow_neg, Int.ofNat_natAbs_of_nonpos negative.le,
          neg_neg]
      rw [value] at h
      simpa only [negative, decide_true, if_true] using h
    · have h := denotes_mul word power
      have value : (m : ℚ) * 10 ^ e.natAbs = m * 10 ^ e := by
        rw [← zpow_natCast, Int.natAbs_of_nonneg (by omega)]
      rw [value] at h
      simpa only [negative, decide_false, Bool.false_eq_true, if_false] using h
  · rw [dif_neg fast]
    have exponent : (if decide (e < 0) = true then Int.negOfNat e.natAbs else Int.ofNat e.natAbs)
        = e := by
      by_cases negative : e < 0
      · rw [if_pos (by simpa using negative), Int.negOfNat_eq, Int.ofNat_eq_natCast,
          Int.ofNat_natAbs_of_nonpos negative.le, neg_neg]
      · rw [if_neg (by simpa using negative), Int.ofNat_eq_natCast, Int.natAbs_of_nonneg (by omega)]
    simp only [exponent]
    exact denotes_model m e

end Scientific

section Size

theorem size_bounds {n : ℕ} (some : n ≠ 0) (e : ℤ) :
    (10 : ℚ) ^ ((Nat.toDigits 10 n).length + e - 1) ≤ n * 10 ^ e ∧
      (n : ℚ) * 10 ^ e < 10 ^ ((Nat.toDigits 10 n).length + e) := by
  have long : 0 < (Nat.toDigits 10 n).length := Nat.length_toDigits_pos
  generalize size : (Nat.toDigits 10 n).length = l at long
  have below : n < 10 ^ l := (Nat.length_toDigits_le_iff (by norm_num) long).mp size.le
  have above : 10 ^ (l - 1) ≤ n := by
    rcases Nat.lt_or_ge 1 l with more | one
    · by_contra few
      have short := (Nat.length_toDigits_le_iff (b := 10) (k := l - 1) (by norm_num) (by omega)).mpr
        (by omega : n < 10 ^ (l - 1))
      omega
    · rw [show l - 1 = 0 by omega, pow_zero]
      omega
  have unit := ten_zpow_pos e
  constructor
  · have first : (10 : ℚ) ^ (l - 1) ≤ n := by exact_mod_cast above
    calc (10 : ℚ) ^ (l + e - 1) = 10 ^ (l - 1) * 10 ^ e := by
          rw [← zpow_natCast, ← zpow_add₀ (by norm_num), Nat.cast_sub long]
          congr 1
          push_cast
          ring
      _ ≤ n * 10 ^ e := mul_le_mul_of_nonneg_right first unit.le
  · have last : (n : ℚ) < 10 ^ l := by exact_mod_cast below
    calc (n : ℚ) * 10 ^ e < 10 ^ l * 10 ^ e := mul_lt_mul_of_pos_right last unit
      _ = 10 ^ (l + e) := by rw [zpow_add₀ (by norm_num), zpow_natCast]

end Size

theorem denotes_infinity : Denotes infinity ⊤ := rfl

/-- The double nearest to the exact value; where the value passes the doubles, an infinity. -/
theorem denotes_toFloat (d : Decimal) : Denotes d.toFloat (clip (nearest d.value)) := by
  rw [← value_trim d, toFloat]
  generalize d.trim = t
  have zero : clip (nearest 0) = ((0 : ℚ) : Line) := by
    rw [nearest_zero, clip_of_small (by rw [abs_zero]; exact firstOverflow_pos)]
  by_cases none : t.digits = 0
  · rw [if_pos none, value, none, Nat.cast_zero, zero_mul, zero]
    exact denotes_zero
  rw [if_neg none]
  obtain ⟨low, high⟩ := size_bounds none t.exponent
  by_cases huge : 309 < ((Nat.toDigits 10 t.digits).length + t.exponent : ℤ)
  · rw [if_pos huge]
    have large : firstOverflow ≤ t.value :=
      firstOverflow_le.trans ((ten_zpow_le (by omega)).trans low)
    rw [clip_nearest_of_huge large]
    exact denotes_infinity
  rw [if_neg huge]
  by_cases tiny : ((Nat.toDigits 10 t.digits).length + t.exponent : ℤ) < -323
  · have positive : 0 < t.value := (ten_zpow_pos _).trans_le low
    have small : t.value < 2 ^ (-1075 : ℤ) :=
      (high.trans_le (ten_zpow_le (by omega))).trans ten_zpow_lt_smallest
    rw [if_pos tiny, nearest_of_tiny positive small, ← nearest_zero, zero]
    exact denotes_zero
  · rw [if_neg tiny]
    exact denotes_scientific _ _

end Decimal

namespace Numeral

def amount (negative : Bool) (d : Decimal) : ℚ := if negative then -d.value else d.value

theorem denotes_neg_clip {x : Float} {q : ℚ} (h : Denotes x (clip q)) :
    Denotes (-x) (clip (-q)) := by
  have opposite : (-x).toModel.unpack = (Float.Model.pack x.toModel.unpack.neg).unpack := rfl
  have stands := stands_unpack h
  by_cases large : firstOverflow ≤ q
  · rw [clip_of_large large] at stands
    rw [clip_neg_of_large large, Denotes, opposite]
    generalize x.toModel.unpack = u at stands
    cases stands
    rfl
  · by_cases low : q ≤ -firstOverflow
    · have far : firstOverflow ≤ -q := by linarith
      have same : clip q = ⊥ := by rw [← neg_neg q, clip_neg_of_large far]
      rw [same] at stands
      rw [clip_of_large far, Denotes, opposite]
      generalize x.toModel.unpack = u at stands
      cases stands
      rfl
    · have small : |q| < firstOverflow := abs_lt.mpr ⟨not_le.mp low, not_le.mp large⟩
      rw [clip_of_small small] at h
      rw [clip_of_small (by rwa [abs_neg])]
      exact denotes_neg h

theorem denotes_decimal (negative : Bool) (d : Decimal) :
    Denotes (Numeral.decimal negative d).toFloat (clip (nearest (amount negative d))) := by
  have magnitude := d.denotes_toFloat
  cases negative with
  | false => exact magnitude
  | true =>
    rw [amount, if_pos rfl, nearest_neg]
    exact denotes_neg_clip magnitude

theorem denotes_word (negative : Bool) :
    Denotes (Numeral.infinite negative).toFloat (if negative then ⊥ else ⊤) := by
  cases negative <;> rfl

/-- A double nearest to the number that a numeral writes, or what its word says. -/
inductive Names : Numeral → Float → Prop
  | decimal {negative : Bool} {d : Decimal} {x : Float}
    (rounded : Denotes x (clip (nearest (amount negative d)))) : Names (.decimal negative d) x
  | infinite {negative : Bool} {x : Float} (endless : Denotes x (if negative then ⊥ else ⊤)) :
    Names (.infinite negative) x
  | nan {x : Float} (nan : x.isNaN = true) : Names .nan x

theorem names_toFloat (n : Numeral) : Names n n.toFloat := by
  cases n with
  | decimal negative d => exact .decimal (denotes_decimal negative d)
  | infinite negative => exact .infinite (denotes_word negative)
  | nan => exact .nan rfl

end Numeral
end MercatorGrid
