import Mathlib.Data.Int.Log
import Mathlib.Data.Rat.Floor
import Mathlib.Tactic.Linarith
import Mathlib.Tactic.FieldSimp
import Mathlib.Tactic.NormNum
import Mathlib.Tactic.Ring

/-! Rounding to nearest in exact rationals, with the spacing of doubles.
The last place of a number is `2^-1074` or, where that is larger, 52 binary places below its
first digit. Nothing is bounded above here: where doubles overflow is a matter of packing. -/
namespace MercatorGrid.Binary64

theorem two_zpow_pos (e : ℤ) : (0 : ℚ) < 2 ^ e := zpow_pos (by norm_num) e

/-- At most half a unit away, and even where two integers are equally near. -/
def Near (q : ℚ) (k : ℤ) : Prop :=
  |(k : ℚ) - q| < 1 / 2 ∨ (|(k : ℚ) - q| = 1 / 2 ∧ k % 2 = 0)

/-- The nearest integer; of two that are equally near, the even one. -/
def nearestEven (q : ℚ) : ℤ :=
  if q - ⌊q⌋ < 1 / 2 then ⌊q⌋
  else if 1 / 2 < q - ⌊q⌋ then ⌊q⌋ + 1
  else ⌊q⌋ + ⌊q⌋ % 2

theorem near_nearestEven (q : ℚ) : Near q (nearestEven q) := by
  have low := Int.floor_le q
  have high := Int.lt_floor_add_one q
  unfold nearestEven Near
  split
  · rename_i below
    left
    rw [abs_lt]
    constructor <;> linarith
  · rename_i notBelow
    split
    · left
      push_cast
      rw [abs_lt]
      constructor <;> linarith
    · rename_i notAbove
      have half : q - ⌊q⌋ = 1 / 2 := le_antisymm (not_lt.mp notAbove) (not_lt.mp notBelow)
      right
      rcases Int.emod_two_eq_zero_or_one ⌊q⌋ with even | odd
      · simp only [even]
        refine ⟨?_, by omega⟩
        rw [add_zero, abs_sub_comm, half, abs_of_pos (by norm_num)]
      · simp only [odd]
        refine ⟨?_, by omega⟩
        push_cast
        rw [abs_of_nonneg (by linarith)]
        linarith

theorem near_unique {q : ℚ} {j k : ℤ} (hj : Near q j) (hk : Near q k) : j = k := by
  have dist : |(j : ℚ) - k| ≤ |(j : ℚ) - q| + |(k : ℚ) - q| := by
    have h := abs_sub_le (j : ℚ) q k
    rwa [abs_sub_comm q k] at h
  have apart : |((j - k : ℤ) : ℚ)| ≤ |(j : ℚ) - q| + |(k : ℚ) - q| := by
    push_cast
    exact dist
  have close : |j - k| < 1 ∨ (|j - k| ≤ 1 ∧ j % 2 = 0 ∧ k % 2 = 0) := by
    rcases hj with hj | ⟨hj, evenJ⟩
    · left
      have h : |((j - k : ℤ) : ℚ)| < 1 := by rcases hk with hk | ⟨hk, _⟩ <;> linarith
      exact_mod_cast h
    · rcases hk with hk | ⟨hk, evenK⟩
      · left
        have h : |((j - k : ℤ) : ℚ)| < 1 := by linarith
        exact_mod_cast h
      · right
        have h : |((j - k : ℤ) : ℚ)| ≤ 1 := by linarith
        exact ⟨by exact_mod_cast h, evenJ, evenK⟩
  rcases close with h | ⟨h, evenJ, evenK⟩
  · rw [abs_lt] at h
    omega
  · rw [abs_le] at h
    omega

theorem nearestEven_eq {q : ℚ} {k : ℤ} (h : Near q k) : nearestEven q = k :=
  near_unique (near_nearestEven q) h

theorem Near.error {q : ℚ} {k : ℤ} (near : Near q k) : |(k : ℚ) - q| ≤ 1 / 2 := by
  rcases near with close | ⟨half, -⟩
  · exact close.le
  · exact half.le

theorem nearestEven_error (q : ℚ) : |(nearestEven q : ℚ) - q| ≤ 1 / 2 :=
  (near_nearestEven q).error

@[simp] theorem nearestEven_intCast (k : ℤ) : nearestEven (k : ℚ) = k := by
  apply nearestEven_eq
  left
  simp only [sub_self, abs_zero]
  norm_num

theorem nearestEven_neg (q : ℚ) : nearestEven (-q) = -nearestEven q := by
  apply nearestEven_eq
  have flip : |((-nearestEven q : ℤ) : ℚ) - -q| = |(nearestEven q : ℚ) - q| := by
    rw [← abs_neg]
    push_cast
    congr 1
    ring
  unfold Near
  simp only [flip]
  rcases near_nearestEven q with h | ⟨h, even⟩
  · exact .inl h
  · exact .inr ⟨h, by omega⟩

theorem nearestEven_closest (q : ℚ) (k : ℤ) : |(nearestEven q : ℚ) - q| ≤ |(k : ℚ) - q| := by
  by_cases same : nearestEven q = k
  · rw [same]
  · have apart : (1 : ℚ) ≤ |(nearestEven q : ℚ) - k| := by
      have h : 1 ≤ |nearestEven q - k| := Int.one_le_abs (sub_ne_zero.mpr same)
      exact_mod_cast h
    have dist := abs_sub_le (nearestEven q : ℚ) q k
    rw [abs_sub_comm q k] at dist
    have error := nearestEven_error q
    linarith

def lastPlace (q : ℚ) : ℤ := max (Int.log 2 |q| - 52) (-1074)

/-- The nearest multiple of the last place, the even one if two are equally near, counted in
last places. -/
def digits (q : ℚ) : ℤ := nearestEven (q / 2 ^ lastPlace q)

def nearest (q : ℚ) : ℚ := digits q * 2 ^ lastPlace q

/-- A multiple of some place by at most 53 binary digits. -/
def Representable (q : ℚ) : Prop :=
  ∃ k e : ℤ, |k| ≤ 2 ^ 53 ∧ -1074 ≤ e ∧ q = k * 2 ^ e

theorem lastPlace_low (q : ℚ) : -1074 ≤ lastPlace q := le_max_right _ _

theorem lastPlace_neg (q : ℚ) : lastPlace (-q) = lastPlace q := by
  simp only [lastPlace, abs_neg]

theorem abs_lt_lastPlace (q : ℚ) : |q| < 2 ^ (lastPlace q + 53) := by
  have below : |q| < ((2 : ℕ) : ℚ) ^ (Int.log 2 |q| + 1) :=
    Int.lt_zpow_succ_log_self (by norm_num) |q|
  have place : Int.log 2 |q| + 1 ≤ lastPlace q + 53 := by
    have := le_max_left (Int.log 2 |q| - 52) (-1074)
    unfold lastPlace
    omega
  exact lt_of_lt_of_le below (zpow_le_zpow_right₀ (by norm_num) place)

theorem le_abs_of_lastPlace {q : ℚ} (nonzero : q ≠ 0) (above : -1074 < lastPlace q) :
    (2 : ℚ) ^ (lastPlace q + 52) ≤ |q| := by
  have h : ((2 : ℕ) : ℚ) ^ Int.log 2 |q| ≤ |q| :=
    Int.zpow_log_le_self (by norm_num) (abs_pos.mpr nonzero)
  have place : lastPlace q + 52 = Int.log 2 |q| := by
    unfold lastPlace at above ⊢
    omega
  simp only [place]
  exact h

theorem lastPlace_le {q : ℚ} {k : ℤ} (nonzero : q ≠ 0) (small : |q| < 2 ^ k) (low : -1021 ≤ k) :
    lastPlace q ≤ k - 53 := by
  have h : Int.log 2 |q| < k :=
    (Int.lt_zpow_iff_log_lt (by norm_num) (abs_pos.mpr nonzero)).mp small
  unfold lastPlace
  omega

@[simp] theorem nearest_zero : nearest 0 = 0 := by
  have h := nearestEven_intCast 0
  simp only [Int.cast_zero] at h
  simp [nearest, digits, h]

theorem nearest_neg (q : ℚ) : nearest (-q) = -nearest q := by
  simp only [nearest, digits, lastPlace_neg, neg_div, nearestEven_neg]
  push_cast
  ring

private theorem scaled_distance (a q : ℚ) {u : ℚ} (positive : 0 < u) :
    |a * u - q| = |a - q / u| * u := by
  rw [← abs_of_pos positive, ← abs_mul, abs_of_pos positive]
  congr 1
  field_simp

theorem nearest_error_lastPlace (q : ℚ) : |nearest q - q| ≤ 2 ^ lastPlace q / 2 := by
  have unit := two_zpow_pos (lastPlace q)
  simp only [nearest, digits, scaled_distance _ _ unit]
  have h := mul_le_mul_of_nonneg_right (nearestEven_error (q / 2 ^ lastPlace q)) unit.le
  linarith

theorem nearest_error {q : ℚ} {k : ℤ} (small : |q| < 2 ^ k) (low : -1021 ≤ k) :
    |nearest q - q| ≤ 2 ^ (k - 54) := by
  by_cases zero : q = 0
  · simp only [zero, nearest_zero, sub_self, abs_zero]
    exact (two_zpow_pos _).le
  · calc |nearest q - q| ≤ 2 ^ lastPlace q / 2 := nearest_error_lastPlace q
      _ ≤ 2 ^ (k - 53) / 2 := by
          have h : (2 : ℚ) ^ lastPlace q ≤ 2 ^ (k - 53) :=
            zpow_le_zpow_right₀ (by norm_num) (lastPlace_le zero small low)
          linarith
      _ = 2 ^ (k - 54) := by
          rw [show k - 53 = (k - 54) + 1 by ring, zpow_add_one₀ (by norm_num)]
          ring

theorem nearest_closest_multiple (q : ℚ) {e : ℤ} (k : ℤ) (coarse : lastPlace q ≤ e) :
    |nearest q - q| ≤ |k * 2 ^ e - q| := by
  have unit := two_zpow_pos (lastPlace q)
  obtain ⟨n, hn⟩ : ∃ n : ℕ, e = lastPlace q + n := ⟨(e - lastPlace q).toNat, by omega⟩
  have split : (k : ℚ) * 2 ^ e = ((k * 2 ^ n : ℤ) : ℚ) * 2 ^ lastPlace q := by
    rw [hn, zpow_add₀ (by norm_num), zpow_natCast]
    push_cast
    ring
  simp only [split, nearest, digits, scaled_distance _ _ unit]
  exact mul_le_mul_of_nonneg_right (nearestEven_closest _ _) unit.le

theorem nearest_closest (q : ℚ) {r : ℚ} (rep : Representable r) :
    |nearest q - q| ≤ |r - q| := by
  obtain ⟨k, e, digits, low, rfl⟩ := rep
  by_cases coarse : lastPlace q ≤ e
  · exact nearest_closest_multiple q k coarse
  by_cases zero : q = 0
  · simp only [zero, nearest_zero, sub_self, abs_zero]
    exact abs_nonneg _
  -- A finer multiple stays below the first digit of `q`, which is a coarse multiple itself.
  have first := le_abs_of_lastPlace zero (by omega)
  have finer : |(k : ℚ) * 2 ^ e| ≤ 2 ^ (lastPlace q + 52) := by
    have unit := two_zpow_pos e
    have bound : |(k : ℚ)| ≤ 2 ^ 53 := by exact_mod_cast digits
    calc |(k : ℚ) * 2 ^ e| = |(k : ℚ)| * 2 ^ e := by rw [abs_mul, abs_of_pos unit]
      _ ≤ 2 ^ 53 * 2 ^ e := mul_le_mul_of_nonneg_right bound unit.le
      _ = 2 ^ (e + 53) := by rw [zpow_add₀ (by norm_num)]; norm_num; ring
      _ ≤ 2 ^ (lastPlace q + 52) := zpow_le_zpow_right₀ (by norm_num) (by omega)
  have reach : |nearest q - q| ≤ |q| - 2 ^ (lastPlace q + 52) := by
    rcases abs_cases q with ⟨habs, _⟩ | ⟨habs, _⟩
    · have h := nearest_closest_multiple q 1 (e := lastPlace q + 52) (by omega)
      rw [Int.cast_one, one_mul, abs_sub_comm (2 ^ (lastPlace q + 52) : ℚ) q] at h
      rwa [habs, ← abs_of_nonneg (a := q - 2 ^ (lastPlace q + 52)) (by linarith)]
    · have h := nearest_closest_multiple q (-1) (e := lastPlace q + 52) (by omega)
      simp only [Int.cast_neg, Int.cast_one, neg_one_mul] at h
      rw [abs_of_nonneg (a := -2 ^ (lastPlace q + 52) - q) (by linarith)] at h
      linarith
  have apart := abs_sub_abs_le_abs_sub q ((k : ℚ) * 2 ^ e)
  rw [abs_sub_comm q] at apart
  linarith

theorem nearestEven_le {q : ℚ} {k : ℤ} (h : q < k) : nearestEven q ≤ k := by
  have error := abs_le.mp (nearestEven_error q)
  have less : (nearestEven q : ℚ) < k + 1 := by linarith
  have : nearestEven q < k + 1 := by exact_mod_cast less
  omega

theorem abs_digits_le (q : ℚ) : |digits q| ≤ 2 ^ 53 := by
  have unit := two_zpow_pos (lastPlace q)
  have size : |q / 2 ^ lastPlace q| < ((2 ^ 53 : ℤ) : ℚ) := by
    simp only [abs_div, abs_of_pos unit, div_lt_iff₀ unit]
    calc |q| < 2 ^ (lastPlace q + 53) := abs_lt_lastPlace q
      _ = ((2 ^ 53 : ℤ) : ℚ) * 2 ^ lastPlace q := by
          rw [zpow_add₀ (by norm_num)]
          norm_num
          ring
  rw [abs_lt] at size
  simp only [abs_le, digits]
  constructor
  · have h := nearestEven_le (q := -(q / 2 ^ lastPlace q)) (k := 2 ^ 53) (by linarith)
    simp only [nearestEven_neg] at h
    linarith
  · exact nearestEven_le size.2

theorem le_digits {q : ℚ} (positive : 0 < q) (above : -1074 < lastPlace q) :
    2 ^ 52 ≤ digits q := by
  have unit := two_zpow_pos (lastPlace q)
  have size : ((2 ^ 52 : ℤ) : ℚ) ≤ q / 2 ^ lastPlace q := by
    simp only [le_div_iff₀ unit]
    calc ((2 ^ 52 : ℤ) : ℚ) * 2 ^ lastPlace q = 2 ^ (lastPlace q + 52) := by
          rw [zpow_add₀ (by norm_num)]
          norm_num
          ring
      _ ≤ |q| := le_abs_of_lastPlace positive.ne' above
      _ = q := abs_of_pos positive
  have error := abs_le.mp (nearestEven_error (q / 2 ^ lastPlace q))
  have near : ((2 ^ 52 : ℤ) : ℚ) < nearestEven (q / 2 ^ lastPlace q) + 1 := by linarith
  have : 2 ^ 52 < nearestEven (q / 2 ^ lastPlace q) + 1 := by exact_mod_cast near
  unfold digits
  omega

theorem nearest_representable (q : ℚ) : Representable (nearest q) :=
  ⟨digits q, lastPlace q, abs_digits_le q, lastPlace_low q, rfl⟩

theorem nearest_of_representable {q : ℚ} (rep : Representable q) : nearest q = q := by
  have h := nearest_closest q rep
  simp only [sub_self, abs_zero] at h
  exact sub_eq_zero.mp (abs_nonpos_iff.mp h)

theorem nearest_mono {a b : ℚ} (h : a ≤ b) : nearest a ≤ nearest b := by
  rcases h.eq_or_lt with rfl | less
  · exact le_refl _
  by_contra crossed
  simp only [not_le] at crossed
  -- each of the two would have to lie on the other's side of their middle
  have left := sq_le_sq.mpr (nearest_closest a (nearest_representable b))
  have right := sq_le_sq.mpr (nearest_closest b (nearest_representable a))
  have middleLeft : nearest a + nearest b ≤ 2 * a := by nlinarith
  have middleRight : 2 * b ≤ nearest a + nearest b := by nlinarith
  linarith

theorem nearest_nonneg {q : ℚ} (nonneg : 0 ≤ q) : 0 ≤ nearest q := by
  rw [← nearest_zero]
  exact nearest_mono nonneg

theorem abs_nearest (q : ℚ) : |nearest q| = nearest |q| := by
  rcases le_total 0 q with nonneg | nonpos
  · rw [abs_of_nonneg nonneg, abs_of_nonneg (nearest_nonneg nonneg)]
  · have opposite := nearest_nonneg (neg_nonneg.mpr nonpos)
    rw [abs_of_nonpos nonpos, nearest_neg] at *
    rw [abs_of_nonpos (by linarith)]

theorem Representable.neg {q : ℚ} (rep : Representable q) : Representable (-q) := by
  obtain ⟨k, e, digits, low, rfl⟩ := rep
  exact ⟨-k, e, by rwa [abs_neg], low, by push_cast; ring⟩

theorem Representable.mul_two_pow {q : ℚ} (rep : Representable q) (n : ℕ) :
    Representable (q * 2 ^ n) := by
  obtain ⟨k, e, digits, low, rfl⟩ := rep
  refine ⟨k, e + n, digits, by omega, ?_⟩
  rw [zpow_add₀ (by norm_num), zpow_natCast]
  ring

theorem representable_div_two_pow {k : ℤ} (n : ℕ) (digits : |k| ≤ 2 ^ 53) (low : n ≤ 1074) :
    Representable (k / 2 ^ n) := by
  refine ⟨k, -n, digits, by omega, ?_⟩
  rw [zpow_neg, zpow_natCast, div_eq_mul_inv]

theorem representable_two_pow {k : ℤ} (low : -1074 ≤ k) : Representable (2 ^ k) :=
  ⟨1, k, by norm_num, low, by simp⟩

theorem nearest_le {q : ℚ} {k : ℤ} (low : -1074 ≤ k) (small : q ≤ 2 ^ k) : nearest q ≤ 2 ^ k := by
  rw [← nearest_of_representable (representable_two_pow low)]
  exact nearest_mono small

theorem abs_lt_of_nearest {q : ℚ} {k : ℤ} (low : -1074 ≤ k) (small : |nearest q| < 2 ^ k) :
    |q| < 2 ^ k := by
  by_contra large
  rw [not_lt, le_abs] at large
  have power : nearest (2 ^ k) = 2 ^ k := nearest_of_representable (representable_two_pow low)
  have reaches : (2 : ℚ) ^ k ≤ |nearest q| := by
    rcases large with above | below
    · exact le_abs.mpr (.inl (power ▸ nearest_mono above))
    · rw [← abs_neg, ← nearest_neg]
      exact le_abs.mpr (.inl (power ▸ nearest_mono below))
  exact absurd small (not_lt.mpr reaches)

theorem representable_intCast {k : ℤ} (digits : |k| ≤ 2 ^ 53) : Representable k :=
  ⟨k, 0, digits, by norm_num, by simp⟩

end MercatorGrid.Binary64
