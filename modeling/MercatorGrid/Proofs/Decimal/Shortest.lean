import MercatorGrid.Proofs.Binary64.Preimage
import MercatorGrid.Proofs.Decimal.Rounding
import MercatorGrid.Decimal.Shortest

/-! The shortest decimal of a double.
It rounds to the double, and no multiple of a larger power of ten does. The search goes through the
grids from a power of ten above all candidates down to one that holds the double itself. -/
namespace MercatorGrid.Decimal
open Binary64

namespace Interval
variable {i : Interval} {k : ℤ} {c : ℕ}

def From (i : Interval) (y : ℚ) : Prop :=
  i.low * 2 ^ i.scale < y ∨ i.closed = true ∧ i.low * 2 ^ i.scale = y

def UpTo (i : Interval) (y : ℚ) : Prop :=
  y < i.high * 2 ^ i.scale ∨ i.closed = true ∧ y = i.high * 2 ^ i.scale

def Holds (i : Interval) (y : ℚ) : Prop := i.From y ∧ i.UpTo y

def Proper (i : Interval) : Prop := i.low < i.mid ∧ i.mid < i.high

section Grid

theorem From.mono {y z : ℚ} (h : i.From y) (order : y ≤ z) : i.From z := by
  rcases h with less | ⟨closed, equal⟩
  · exact .inl (less.trans_le order)
  · rw [← equal] at order
    exact order.lt_or_eq.imp_right fun same => ⟨closed, same⟩

theorem UpTo.anti {y z : ℚ} (h : i.UpTo z) (order : y ≤ z) : i.UpTo y := by
  rcases h with less | ⟨closed, equal⟩
  · exact .inl (order.trans_lt less)
  · rw [equal] at order
    exact order.lt_or_eq.imp_right fun same => ⟨closed, same⟩

theorem From.le {y : ℚ} (h : i.From y) : i.low * 2 ^ i.scale ≤ y := by
  rcases h with less | ⟨-, equal⟩
  · exact less.le
  · exact equal.le

theorem UpTo.le {y : ℚ} (h : i.UpTo y) : y ≤ i.high * 2 ^ i.scale := by
  rcases h with less | ⟨-, equal⟩
  · exact less.le
  · exact equal.le

theorem pow_toNat {b : ℚ} (nonzero : b ≠ 0) (k : ℤ) : b ^ k.toNat = b ^ k * b ^ (-k).toNat := by
  rw [← zpow_natCast, ← zpow_natCast, ← zpow_add₀ nonzero]
  congr 1
  omega

theorem measure_eq (i : Interval) (k : ℤ) : ∃ u : ℚ, 0 < u ∧
    ((i.measure k).1 : ℚ) = 10 ^ k * u ∧ ((i.measure k).2 : ℚ) = 2 ^ i.scale * u := by
  refine ⟨10 ^ (-k).toNat * 2 ^ (-i.scale).toNat, by positivity, ?_, ?_⟩
  · simp only [measure, Nat.shiftLeft_eq, Nat.pow_eq, Nat.cast_mul, Nat.cast_pow, Nat.cast_ofNat,
      pow_toNat (show (10 : ℚ) ≠ 0 by norm_num) k]
    ring
  · simp only [measure, Nat.shiftLeft_eq, Nat.pow_eq, Nat.cast_mul, Nat.cast_pow, Nat.cast_ofNat,
      pow_toNat (show (2 : ℚ) ≠ 0 by norm_num) i.scale]
    ring

section Exact
variable {step unit : ℕ} {k : ℤ} {u : ℚ} (positive : 0 < u) (hstep : (step : ℚ) = 10 ^ k * u)
  (hunit : (unit : ℚ) = 2 ^ i.scale * u)
include positive hstep hunit

theorem mul_le_mul_iff (a b : ℕ) :
    b * step ≤ a * unit ↔ (b : ℚ) * 10 ^ k ≤ a * 2 ^ i.scale := by
  rw [← mul_le_mul_iff_left₀ positive, mul_assoc, ← hstep, mul_assoc, ← hunit]
  exact_mod_cast Iff.rfl

theorem mul_le_mul_iff' (a b : ℕ) :
    a * unit ≤ b * step ↔ (a : ℚ) * 2 ^ i.scale ≤ b * 10 ^ k := by
  rw [← mul_le_mul_iff_left₀ positive, mul_assoc, ← hunit, mul_assoc, ← hstep]
  exact_mod_cast Iff.rfl

theorem from_iff (b : ℕ) : (decide (i.low * unit < b * step) ||
    (i.closed && i.low * unit == b * step)) = true ↔ i.From (b * 10 ^ k) := by
  simp only [Bool.or_eq_true, decide_eq_true_iff, Bool.and_eq_true, beq_iff_eq, From,
    ← not_le (a := (b : ℚ) * 10 ^ k), ← mul_le_mul_iff positive hstep hunit, not_le]
  simp only [le_antisymm_iff, ← mul_le_mul_iff positive hstep hunit,
    ← mul_le_mul_iff' positive hstep hunit]

theorem upTo_iff (b : ℕ) : (decide (b * step < i.high * unit) ||
    (i.closed && b * step == i.high * unit)) = true ↔ i.UpTo (b * 10 ^ k) := by
  simp only [Bool.or_eq_true, decide_eq_true_iff, Bool.and_eq_true, beq_iff_eq, UpTo,
    ← not_le (b := (b : ℚ) * 10 ^ k), ← mul_le_mul_iff' positive hstep hunit, not_le]
  simp only [le_antisymm_iff, ← mul_le_mul_iff positive hstep hunit,
    ← mul_le_mul_iff' positive hstep hunit]

end Exact

theorem onGrid_cases (i : Interval) (k : ℤ) : ∃ c : ℕ,
    ((c : ℚ) * 10 ^ k ≤ i.mid * 2 ^ i.scale ∧ i.mid * 2 ^ i.scale < (c + 1 : ℕ) * (10 : ℚ) ^ k) ∧
    (i.onGrid k = some c ∧ i.From (c * 10 ^ k) ∨
      i.onGrid k = some (c + 1) ∧ i.UpTo ((c + 1 : ℕ) * 10 ^ k) ∨
      i.onGrid k = none ∧ ¬ i.From (c * 10 ^ k) ∧ ¬ i.UpTo ((c + 1 : ℕ) * 10 ^ k)) := by
  obtain ⟨u, positive, hstep, hunit⟩ := i.measure_eq k
  unfold onGrid
  generalize i.measure k = grid at hstep hunit
  obtain ⟨step, unit⟩ := grid
  dsimp only at hstep hunit ⊢
  have some : 0 < step := by
    have value : (0 : ℚ) < step := by
      rw [hstep]
      exact mul_pos (ten_zpow_pos k) positive
    exact_mod_cast value
  have least := Nat.div_mul_le_self (i.mid * unit) step
  have less := (Nat.div_lt_iff_lt_mul some).mp (Nat.lt_succ_self (i.mid * unit / step))
  generalize i.mid * unit / step = c at least less
  have lower := from_iff positive hstep hunit c
  have upper := upTo_iff positive hstep hunit (c + 1)
  refine ⟨c, ⟨(mul_le_mul_iff positive hstep hunit _ _).mp least, ?_⟩, ?_⟩
  · rwa [← not_le, ← mul_le_mul_iff positive hstep hunit, not_le]
  · rw [← lower, ← upper]
    generalize (_ || _ : Bool) = below
    generalize (_ || _ : Bool) = above
    cases below <;> cases above
    case true.true =>
      by_cases nearer : 2 * (i.mid * unit) < (2 * c + 1) * step
      · simp [nearer]
      · simp [nearer]
    all_goals simp

theorem holds_of_onGrid (proper : i.Proper) (found : i.onGrid k = some c) :
    i.Holds (c * 10 ^ k) := by
  have unit := two_zpow_pos i.scale
  have lower : (i.low : ℚ) * 2 ^ i.scale < i.mid * 2 ^ i.scale :=
    mul_lt_mul_of_pos_right (by exact_mod_cast proper.1) unit
  have upper : (i.mid : ℚ) * 2 ^ i.scale < i.high * 2 ^ i.scale :=
    mul_lt_mul_of_pos_right (by exact_mod_cast proper.2) unit
  obtain ⟨b, ⟨least, less⟩, ⟨taken, above⟩ | ⟨taken, below⟩ | ⟨taken, -, -⟩⟩ := i.onGrid_cases k
  · rw [found] at taken
    cases taken
    exact ⟨above, .inl (least.trans_lt upper)⟩
  · rw [found] at taken
    cases taken
    exact ⟨.inl (lower.trans less), below⟩
  · rw [found] at taken
    cases taken

theorem not_holds_of_onGrid (none : i.onGrid k = none) (c : ℕ) : ¬ i.Holds (c * 10 ^ k) := by
  have unit := ten_zpow_pos k
  obtain ⟨b, -, ⟨taken, -⟩ | ⟨taken, -⟩ | ⟨-, below, above⟩⟩ := i.onGrid_cases k
  · rw [none] at taken
    cases taken
  · rw [none] at taken
    cases taken
  · rintro ⟨lower, upper⟩
    rcases Nat.lt_or_ge b c with more | less
    · exact above (upper.anti (mul_le_mul_of_nonneg_right (by exact_mod_cast more) unit.le))
    · exact below (lower.mono (mul_le_mul_of_nonneg_right (by exact_mod_cast less) unit.le))

end Grid

section Search

/-- Inside the interval, where no multiple of a larger power of ten lies. -/
structure Coarsest (i : Interval) (d : Decimal) : Prop where
  inside : i.Holds d.value
  only : ∀ k > d.exponent, ∀ c : ℕ, ¬ i.Holds (c * 10 ^ k)

theorem value_exact (i : Interval) : i.exact.value = i.mid * 2 ^ i.scale := by
  simp only [exact, value, Nat.shiftLeft_eq, Nat.pow_eq, Nat.cast_mul, Nat.cast_pow, Nat.cast_ofNat]
  rcases le_total 0 i.scale with whole | part
  · obtain ⟨n, hn⟩ := Int.eq_ofNat_of_zero_le whole
    rw [hn, min_eq_right (by omega), show (-(n : ℤ)).toNat = 0 by omega, Int.toNat_natCast]
    simp
  · obtain ⟨n, hn⟩ : ∃ n : ℕ, i.scale = -n := ⟨(-i.scale).toNat, by omega⟩
    rw [hn, min_eq_left (by omega), neg_neg, Int.toNat_natCast, show (-(n : ℤ)).toNat = 0 by omega,
      zpow_neg, zpow_neg, zpow_natCast, zpow_natCast, show (10 : ℚ) = 5 * 2 by norm_num, mul_pow]
    field_simp

theorem holds_exact (proper : i.Proper) : i.Holds i.exact.value := by
  have unit := two_zpow_pos i.scale
  rw [value_exact]
  exact ⟨.inl (mul_lt_mul_of_pos_right (by exact_mod_cast proper.1) unit),
    .inl (mul_lt_mul_of_pos_right (by exact_mod_cast proper.2) unit)⟩

/-- The search cannot come to its end without a find, because the grid of the middle is among those
that it tries. -/
theorem coarsest_descend (proper : i.Proper) (fuel : ℕ) (k : ℤ)
    (enough : k < i.exact.exponent + fuel) (none : ∀ j > k, ∀ c : ℕ, ¬ i.Holds (c * 10 ^ j)) :
    i.Coarsest (i.descend fuel k) := by
  induction fuel generalizing k with
  | zero =>
    have inside := holds_exact proper
    exact absurd inside (none i.exact.exponent (by omega) i.exact.digits)
  | succ fuel ih =>
    rw [descend]
    cases found : i.onGrid k with
    | some c => exact ⟨holds_of_onGrid proper found, none⟩
    | none =>
      refine ih (k - 1) (by omega) fun j above c => ?_
      rcases (by omega : j = k ∨ k < j) with rfl | higher
      · exact not_holds_of_onGrid found c
      · exact none j higher c

end Search
end Interval

section Start

theorem two_pow_lt_ten_pow (n : ℕ) : 2 ^ n < 10 ^ (n / 3 + 1) :=
  calc 2 ^ n < 2 ^ (3 * (n / 3 + 1)) := Nat.pow_lt_pow_right (by norm_num) (by omega)
    _ = 8 ^ (n / 3 + 1) := by
        rw [pow_mul]
        norm_num
    _ ≤ 10 ^ (n / 3 + 1) := Nat.pow_le_pow_left (by norm_num) _

theorem ten_pow_le_two_pow (n : ℕ) : 10 ^ (n / 4) ≤ 2 ^ n :=
  calc 10 ^ (n / 4) ≤ 16 ^ (n / 4) := Nat.pow_le_pow_left (by norm_num) _
    _ = 2 ^ (4 * (n / 4)) := by
        rw [pow_mul]
        norm_num
    _ ≤ 2 ^ n := Nat.pow_le_pow_right (by norm_num) (by omega)

theorem two_zpow_lt_ten (s : ℤ) : (2 : ℚ) ^ s < 10 ^ aboveTwoPower s := by
  unfold aboveTwoPower
  split
  · rename_i whole
    obtain ⟨n, rfl⟩ := Int.eq_ofNat_of_zero_le whole
    exact_mod_cast two_pow_lt_ten_pow n
  · rename_i part
    obtain ⟨n, rfl⟩ : ∃ n : ℕ, s = -n := ⟨(-s).toNat, by omega⟩
    have powers : (10 : ℚ) ^ (n / 4) ≤ 2 ^ n := by exact_mod_cast ten_pow_le_two_pow n
    have whole : (n : ℤ) / 4 = (n / 4 : ℕ) := by omega
    rw [neg_neg, whole, zpow_neg, zpow_sub₀ (by norm_num), zpow_natCast, zpow_natCast, zpow_one,
      inv_lt_comm₀ (by positivity) (by positivity), inv_div]
    have positive : (0 : ℚ) < 10 ^ (n / 4) := by positivity
    linarith

variable {m : ℕ} {e : ℤ}

theorem proper_of (positive : 0 < m) : (Interval.of m e).Proper := by
  unfold Interval.of Interval.Proper
  dsimp only
  split <;> omega

theorem low_pos (positive : 0 < m) : 0 < (Interval.of m e).low := by
  unfold Interval.of
  dsimp only
  split <;> omega

theorem not_holds_above (positive : 0 < m) {j : ℤ} (above : aboveTwoPower (m.log2 + 1 + e) ≤ j)
    (c : ℕ) : ¬ (Interval.of m e).Holds (c * 10 ^ j) := by
  rintro ⟨lower, upper⟩
  have unit := two_zpow_pos (e - 2)
  have digits : ((m : ℚ) + 1) ≤ 2 ^ (m.log2 + 1) := by exact_mod_cast Nat.lt_log2_self
  have some : c ≠ 0 := by
    rintro rfl
    have low : (0 : ℚ) < (Interval.of m e).low := by
      exact_mod_cast low_pos positive
    have least := lower.le
    rw [Nat.cast_zero, zero_mul] at least
    exact absurd (mul_pos low unit) (not_lt.mpr least)
  have one : (1 : ℚ) ≤ c := by exact_mod_cast Nat.one_le_iff_ne_zero.mpr some
  have high : (10 : ℚ) ^ j < 10 ^ j := by
    calc (10 : ℚ) ^ j ≤ c * 10 ^ j := le_mul_of_one_le_left (ten_zpow_pos j).le one
      _ ≤ (4 * m + 2 : ℕ) * 2 ^ (e - 2) := upper.le
      _ ≤ (m + 1) * 2 ^ e := by
          rw [show e = e - 2 + 2 by ring, zpow_add₀ (by norm_num) (e - 2) 2]
          push_cast
          rw [add_sub_cancel_right]
          nlinarith
      _ ≤ 2 ^ (m.log2 + 1) * 2 ^ e := mul_le_mul_of_nonneg_right digits (two_zpow_pos e).le
      _ = 2 ^ ((m.log2 : ℤ) + 1 + e) := by
          rw [zpow_add₀ (by norm_num)]
          norm_cast
      _ < 10 ^ aboveTwoPower (m.log2 + 1 + e) := two_zpow_lt_ten _
      _ ≤ 10 ^ j := ten_zpow_le above
  exact lt_irrefl _ high

theorem coarsest_shortest (positive : 0 < m) :
    (Interval.of m e).Coarsest (shortest m e) := by
  unfold shortest
  refine Interval.coarsest_descend (proper_of positive) _ _ ?_ fun j above =>
    not_holds_above positive above.le
  dsimp only [Interval.exact]
  omega

theorem near_iff {t : ℚ} : Near t m ↔
    ((m : ℚ) - 1 / 2 < t ∨ m % 2 = 0 ∧ (m : ℚ) - 1 / 2 = t) ∧
      (t < m + 1 / 2 ∨ m % 2 = 0 ∧ t = m + 1 / 2) := by
  have even : ((m : ℤ) % 2 = 0) = (m % 2 = 0) := by
    rw [eq_iff_iff]
    omega
  rw [Near, Int.cast_natCast, abs_lt, abs_eq (by norm_num), even]
  constructor
  · rintro (⟨above, below⟩ | ⟨high | low, even⟩)
    · exact ⟨.inl (by linarith), .inl (by linarith)⟩
    · exact ⟨.inr ⟨even, by linarith⟩, .inl (by linarith)⟩
    · exact ⟨.inl (by linarith), .inr ⟨even, by linarith⟩⟩
  · rintro ⟨above | ⟨even, low⟩, below | ⟨even, high⟩⟩
    · exact .inl ⟨by linarith, by linarith⟩
    · exact .inr ⟨.inr (by linarith), even⟩
    · exact .inr ⟨.inl (by linarith), even⟩
    · linarith

theorem quarter_low_of_leads (leads : Leads m e) :
    ((Interval.of m e).low : ℚ) / 4 = m - 1 / 4 := by
  have low : (Interval.of m e).low = 4 * m - 1 := if_pos leads
  have power := leads.1
  rw [low, Nat.cast_sub (by omega)]
  push_cast
  ring

theorem quarter_low (positive : 0 < m) (even : ¬ Leads m e) :
    ((Interval.of m e).low : ℚ) / 4 = m - 1 / 2 := by
  have low : (Interval.of m e).low = 4 * m - 2 := if_neg even
  rw [low, Nat.cast_sub (by omega)]
  push_cast
  ring

/-- The interval of a double is what rounds to it. -/
theorem holds_iff (c : Canonical m e) {y : ℚ} :
    (Interval.of m e).Holds y ↔ nearest y = m * 2 ^ e := by
  have unit := two_zpow_pos e
  have quarter : ∀ n : ℚ, n * 2 ^ (Interval.of m e).scale = n / 4 * 2 ^ e := by
    intro n
    rw [Interval.of, zpow_sub₀ (by norm_num)]
    norm_num
    ring
  have high : ((Interval.of m e).high : ℚ) / 4 = m + 1 / 2 := by
    rw [Interval.of]
    push_cast
    ring
  have closed : (Interval.of m e).closed = true ↔ m % 2 = 0 := decide_eq_true_iff
  obtain ⟨t, rfl⟩ : ∃ t, y = t * 2 ^ e := ⟨y / 2 ^ e, (div_mul_cancel₀ y unit.ne').symm⟩
  rw [nearest_eq_iff c, near_iff, mul_div_cancel_right₀ _ unit.ne']
  simp only [Interval.Holds, Interval.From, Interval.UpTo, quarter, high, closed,
    mul_lt_mul_iff_left₀ unit, mul_left_inj' unit.ne']
  by_cases leads : Leads m e
  · have even : m % 2 = 0 := by
      have power := leads.1
      omega
    simp only [quarter_low_of_leads leads, leads, even, true_and, forall_const, ← le_iff_lt_or_eq]
    constructor
    · rintro ⟨low, up⟩
      exact ⟨⟨by linarith, up⟩, low⟩
    · rintro ⟨⟨-, up⟩, low⟩
      exact ⟨low, up⟩
  · simp only [quarter_low c.positive leads, leads, false_implies, and_true]

/-- The shortest decimal of a double rounds to it, and no multiple of a larger power of ten does. -/
theorem shortest_spec (c : Canonical m e) : nearest (shortest m e).value = m * 2 ^ e ∧
    ∀ k > (shortest m e).exponent, ∀ n : ℕ, nearest (n * 10 ^ k) ≠ m * 2 ^ e := by
  obtain ⟨inside, only⟩ := coarsest_shortest (e := e) c.positive
  exact ⟨(holds_iff c).mp inside, fun k coarser n near => only k coarser n ((holds_iff c).mpr near)⟩

end Start
end MercatorGrid.Decimal
