import MercatorGrid.Proofs.Binary64.Nearest

namespace MercatorGrid.Binary64
open Float.Model Float.Model.UnpackedFloat

/-- The rationals that a mantissa and its two residual bits stand for. -/
inductive Shows : ExtendedMantissa → ℚ → Prop where
  | exact (m : ℕ) : Shows ⟨m, false, false⟩ m
  | below {m : ℕ} {q : ℚ} : (m : ℚ) < q → q < m + 1 / 2 → Shows ⟨m, false, true⟩ q
  | half (m : ℕ) : Shows ⟨m, true, false⟩ (m + 1 / 2)
  | above {m : ℕ} {q : ℚ} : (m : ℚ) + 1 / 2 < q → q < m + 1 → Shows ⟨m, true, true⟩ q

theorem Shows.bounds {em : ExtendedMantissa} {q : ℚ} (h : Shows em q) :
    (em.mantissa : ℚ) ≤ q ∧ q < em.mantissa + 1 := by
  cases h with
  | exact m => constructor <;> dsimp only <;> linarith
  | below low high => constructor <;> dsimp only <;> linarith
  | half m => constructor <;> dsimp only <;> linarith
  | above low high => constructor <;> dsimp only <;> linarith

theorem Shows.roundedMantissa {em : ExtendedMantissa} {q : ℚ} (h : Shows em q) :
    nearestEven q = em.roundedMantissa := by
  apply nearestEven_eq
  cases h with
  | exact m =>
    change Near m (m : ℤ)
    left
    norm_num
  | below low high =>
    rename_i m
    change Near q (m : ℤ)
    left
    rw [abs_lt]
    constructor <;> push_cast <;> linarith
  | half m =>
    change Near (m + 1 / 2) ((m + m % 2 : ℕ) : ℤ)
    right
    rcases Nat.mod_two_eq_zero_or_one m with even | odd
    · simp only [even]
      refine ⟨?_, by omega⟩
      rw [abs_sub_comm, abs_of_nonneg] <;> push_cast <;> linarith
    · simp only [odd]
      refine ⟨?_, by omega⟩
      rw [abs_of_nonneg] <;> push_cast <;> linarith
  | above low high =>
    rename_i m
    change Near q ((m + 1 : ℕ) : ℤ)
    left
    rw [abs_lt]
    constructor <;> push_cast <;> linarith

theorem Shows.shiftRightOne {em : ExtendedMantissa} {q : ℚ} (h : Shows em q) :
    Shows em.shiftRightOne (q / 2) := by
  obtain ⟨m, r, s⟩ := em
  obtain ⟨k, rfl | rfl⟩ := Nat.even_or_odd' m
  · have quotient : 2 * k / 2 = k := by omega
    simp only [ExtendedMantissa.shiftRightOne, quotient, Nat.mul_mod_right]
    generalize twice : (2 * k : ℕ) = n at h
    have cast : (n : ℚ) = 2 * k := by rw [← twice]; push_cast; ring
    cases h with
    | exact =>
      have value : (n : ℚ) / 2 = k := by linarith
      simp only [value]
      exact .exact k
    | below low high => exact .below (by linarith) (by linarith)
    | half => exact .below (by linarith) (by linarith)
    | above low high => exact .below (by linarith) (by linarith)
  · have quotient : (2 * k + 1) / 2 = k := by omega
    have remainder : (2 * k + 1) % 2 = 1 := by omega
    simp only [ExtendedMantissa.shiftRightOne, quotient, remainder]
    generalize odd : 2 * k + 1 = n at h
    have cast : (n : ℚ) = 2 * k + 1 := by rw [← odd]; push_cast; ring
    cases h with
    | exact =>
      have value : (n : ℚ) / 2 = k + 1 / 2 := by linarith
      simp only [value]
      exact .half k
    | below low high => exact .above (by linarith) (by linarith)
    | half => exact .above (by linarith) (by linarith)
    | above low high => exact .above (by linarith) (by linarith)

theorem Shows.shiftRight {em : ExtendedMantissa} {q : ℚ} (h : Shows em q) (n : ℕ) :
    Shows (em >>> n) (q / 2 ^ n) := by
  change Shows (n.repeat ExtendedMantissa.shiftRightOne em) (q / 2 ^ n)
  induction n with
  | zero => simpa [Nat.repeat] using h
  | succ n ih =>
    rw [Nat.repeat, pow_succ, ← div_div]
    exact ih.shiftRightOne

theorem shows_exact (m : ℕ) : Shows (.ofMantissaAndAccuracy m .exact) m := .exact m

theorem shows_fraction (m num den : ℕ) (less : num < den) :
    Shows (.ofMantissaAndAccuracy m (accuracyOfFraction num den)) (m + num / den) := by
  have positive : (0 : ℚ) < den := by exact_mod_cast Nat.lt_of_le_of_lt (Nat.zero_le _) less
  have proper : (num : ℚ) / den < 1 := by
    simp only [div_lt_one positive]
    exact_mod_cast less
  unfold accuracyOfFraction
  split
  · rename_i zero
    subst zero
    simp only [Nat.cast_zero, zero_div, add_zero]
    exact .exact m
  · rename_i nonzero
    have some : (0 : ℚ) < num / den :=
      div_pos (by exact_mod_cast Nat.pos_of_ne_zero nonzero) positive
    rcases lt_trichotomy (2 * num) den with less | equal | more
    · simp only [Nat.compare_eq_lt.mpr less]
      have half : (num : ℚ) / den < 1 / 2 := by
        simp only [div_lt_div_iff₀ positive two_pos]
        exact_mod_cast (by omega : num * 2 < 1 * den)
      exact .below (by linarith) (by linarith)
    · simp only [Nat.compare_eq_eq.mpr equal]
      have half : (num : ℚ) / den = 1 / 2 := by
        simp only [div_eq_div_iff positive.ne' two_ne_zero]
        exact_mod_cast (by omega : num * 2 = 1 * den)
      simp only [half]
      exact .half m
    · simp only [Nat.compare_eq_gt.mpr more]
      have half : 1 / 2 < (num : ℚ) / den := by
        simp only [div_lt_div_iff₀ two_pos positive]
        exact_mod_cast (by omega : 1 * den < num * 2)
      exact .above (by linarith) (by linarith)

def ofSign : Sign → ℚ → ℚ
  | .negative, q => -q
  | .positive, q => q

theorem nearest_ofSign (s : Sign) (q : ℚ) : nearest (ofSign s q) = ofSign s (nearest q) := by
  cases s with
  | negative => exact nearest_neg q
  | positive => rfl

/-- A finite unpacked number in the one form that doubles have, and its value. The exponent is
not bounded above. -/
inductive Holds : UnpackedFloat → ℚ → Prop where
  | zero (s : Sign) : Holds (.zero s) 0
  | finite (s : Sign) {m : ℕ} {e : ℤ} (positive : 0 < m) : m < 2 ^ 53 → -1074 ≤ e →
      (2 ^ 52 ≤ m ∨ e = -1074) → Holds (.finite s m e positive) (ofSign s (m * 2 ^ e))

theorem Holds.representable {u : UnpackedFloat} {q : ℚ} (h : Holds u q) : Representable q := by
  cases h with
  | zero s => exact ⟨0, 0, by norm_num, by norm_num, by simp⟩
  | finite s positive digits low form =>
    rename_i m e
    have rep : Representable (m * 2 ^ e) :=
      ⟨m, e, by rw [abs_of_nonneg (by omega)]; omega, low, by simp⟩
    cases s with
    | negative => exact rep.neg
    | positive => exact rep

theorem targetExponent_eq (m : ℕ) (e : ℤ) :
    Format.binary64.targetExponent (totalExponent m e) = max (m.log2 + e - 52) (-1074) := by
  unfold Format.targetExponent totalExponent Format.mantissaBits Format.minExponent
  norm_num
  congr 1
  ring

/-- The place that is read off the mantissa's first digit is the last place of the number. -/
theorem targetExponent_eq_lastPlace {m : ℕ} {e : ℤ} {q : ℚ} (positive : 0 < q)
    (low : (m : ℚ) * 2 ^ e ≤ q) (high : q < (m + 1) * 2 ^ e) (fine : m = 0 → e ≤ lastPlace q) :
    Format.binary64.targetExponent (totalExponent m e) = lastPlace q := by
  simp only [targetExponent_eq]
  unfold lastPlace at fine ⊢
  simp only [abs_of_pos positive] at fine ⊢
  by_cases zero : m = 0
  · have small : Int.log 2 q < e := by
      apply (Int.lt_zpow_iff_log_lt (by norm_num) positive).mp
      simpa [zero] using high
    have := fine zero
    simp only [zero, Nat.log2_zero]
    omega
  · have unit := two_zpow_pos e
    have less : q < ((2 : ℕ) : ℚ) ^ ((m.log2 : ℤ) + 1 + e) := by
      have digits : ((m : ℚ) + 1) ≤ 2 ^ (m.log2 + 1) := by exact_mod_cast Nat.lt_log2_self
      rw [Nat.cast_ofNat, zpow_add₀ (by norm_num)]
      calc q < (m + 1) * 2 ^ e := high
        _ ≤ 2 ^ (m.log2 + 1) * 2 ^ e := mul_le_mul_of_nonneg_right digits unit.le
        _ = 2 ^ ((m.log2 : ℤ) + 1) * 2 ^ e := by norm_cast
    have reach : ((2 : ℕ) : ℚ) ^ ((m.log2 : ℤ) + e) ≤ q := by
      have digits : (2 : ℚ) ^ m.log2 ≤ m := by exact_mod_cast Nat.log2_self_le zero
      rw [Nat.cast_ofNat, zpow_add₀ (by norm_num), zpow_natCast]
      exact le_trans (mul_le_mul_of_nonneg_right digits unit.le) low
    have above := (Int.lt_zpow_iff_log_lt (by norm_num) positive).mp less
    have below := (Int.zpow_le_iff_le_log (by norm_num) positive).mp reach
    congr 2
    omega

theorem lastPlace_eq {m : ℕ} (positive : 0 < m) (e : ℤ) :
    lastPlace (m * 2 ^ e) = max (m.log2 + e - 52) (-1074) := by
  have unit := two_zpow_pos e
  have value : (0 : ℚ) < m * 2 ^ e := mul_pos (by exact_mod_cast positive) unit
  rw [← targetExponent_eq_lastPlace value le_rfl (by linarith) (by omega), targetExponent_eq]

private theorem shiftToTarget_eq {m : ℕ} {e : ℤ} (accuracy : Accuracy) {n : ℕ}
    (amount : (Format.binary64.targetExponent (totalExponent m e) - e).toNat = n) :
    shiftToTargetExponent Format.binary64 m e accuracy =
      (ExtendedMantissa.ofMantissaAndAccuracy m accuracy >>> n, e + n) := by
  subst amount
  rfl

private theorem shiftToTarget_small {r : ℕ} {e : ℤ} (digits : r < 2 ^ 53) (low : -1074 ≤ e) :
    shiftToTargetExponent Format.binary64 r e .exact = (⟨r, false, false⟩, e) := by
  have place : Format.binary64.targetExponent (totalExponent r e) ≤ e := by
    simp only [targetExponent_eq]
    have : r.log2 ≤ 52 := by
      by_cases zero : r = 0
      · simp [zero]
      · have := (Nat.log2_lt zero).mpr digits
        omega
    omega
  have none : (Format.binary64.targetExponent (totalExponent r e) - e).toNat = 0 := by omega
  simp only [shiftToTarget_eq .exact none, Nat.cast_zero, add_zero]
  rfl

private theorem shiftToTarget_carry {e : ℤ} (low : -1074 ≤ e) :
    shiftToTargetExponent Format.binary64 (2 ^ 53) e .exact =
      (⟨2 ^ 52, false, false⟩, e + 1) := by
  have place : Format.binary64.targetExponent (totalExponent (2 ^ 53) e) = e + 1 := by
    simp only [targetExponent_eq, Nat.log2_two_pow]
    omega
  have one : (Format.binary64.targetExponent (totalExponent (2 ^ 53) e) - e).toNat = 1 := by omega
  simp only [shiftToTarget_eq .exact one]
  rfl

private theorem holds_carried (s : Sign) {r : ℕ} {e : ℤ} (digits : r ≤ 2 ^ 53)
    (low : -1074 ≤ e) (form : 2 ^ 52 ≤ r ∨ e = -1074) :
    let shifted := shiftToTargetExponent Format.binary64 r e .exact
    Holds (if h : shifted.1.mantissa = 0 then .zero s
      else .finite s shifted.1.mantissa shifted.2 (Nat.pos_of_ne_zero h))
      (ofSign s (r * 2 ^ e)) := by
  dsimp only
  rcases digits.lt_or_eq with less | rfl
  · rw [shiftToTarget_small less low]
    by_cases zero : r = 0
    · rw [dif_pos zero, zero, Nat.cast_zero, zero_mul]
      cases s with
      | negative => rw [ofSign, neg_zero]; exact .zero _
      | positive => exact .zero _
    · rw [dif_neg zero]
      exact .finite s _ less low form
  · rw [shiftToTarget_carry low]
    have value : ((2 ^ 53 : ℕ) : ℚ) * 2 ^ e = ((2 ^ 52 : ℕ) : ℚ) * 2 ^ (e + 1) := by
      rw [zpow_add_one₀ (by norm_num)]
      push_cast
      ring
    rw [value]
    exact .finite s (by norm_num) (by norm_num) (by omega) (.inl le_rfl)

/-- Rounding a mantissa whose residual bits are right gives the nearest double. It must not lie
above its last place, because no digits are added here. -/
theorem holds_roundWithAccuracy (s : Sign) {m : ℕ} {e : ℤ} {accuracy : Accuracy} {q : ℚ}
    (positive : 0 < q) (shows : Shows (.ofMantissaAndAccuracy m accuracy) (q / 2 ^ e))
    (fine : e ≤ lastPlace q) :
    Holds (roundWithAccuracy Format.binary64 s m e accuracy) (nearest (ofSign s q)) := by
  have unit := two_zpow_pos e
  have bounds := shows.bounds
  have mantissa : (ExtendedMantissa.ofMantissaAndAccuracy m accuracy).mantissa = m := by
    cases accuracy with
    | exact => rfl
    | inexact o => cases o <;> rfl
  simp only [mantissa, le_div_iff₀ unit, div_lt_iff₀ unit] at bounds
  have place := targetExponent_eq_lastPlace positive bounds.1 bounds.2 (fun _ => fine)
  obtain ⟨n, hn⟩ : ∃ n : ℕ, lastPlace q = e + n := ⟨(lastPlace q - e).toNat, by omega⟩
  have first : shiftToTargetExponent Format.binary64 m e accuracy =
      (ExtendedMantissa.ofMantissaAndAccuracy m accuracy >>> n, lastPlace q) := by
    rw [shiftToTarget_eq accuracy (n := n) (by omega), ← hn]
  have rounded := (shows.shiftRight n).roundedMantissa
  have scaled : q / 2 ^ e / 2 ^ n = q / 2 ^ lastPlace q := by
    rw [hn, zpow_add₀ (by norm_num), zpow_natCast, div_div]
  simp only [scaled] at rounded
  change digits q = _ at rounded
  generalize hr : (ExtendedMantissa.ofMantissaAndAccuracy m accuracy >>> n).roundedMantissa = r
    at rounded
  have value : nearest q = r * 2 ^ lastPlace q := by
    simp only [nearest, rounded, Int.cast_natCast]
  have few : r ≤ 2 ^ 53 := by
    have h := abs_le.mp (abs_digits_le q)
    omega
  have form : 2 ^ 52 ≤ r ∨ lastPlace q = -1074 := by
    by_cases least : lastPlace q = -1074
    · exact .inr least
    · have above := lastPlace_low q
      have h := le_digits positive (by omega)
      exact .inl (by omega)
  rw [nearest_ofSign, value]
  unfold roundWithAccuracy
  rw [first]
  dsimp only
  rw [hr]
  exact holds_carried s few (lastPlace_low q) form

end MercatorGrid.Binary64
