import MercatorGrid.Proofs.Binary64.Packing
import MercatorGrid.Binary64
import MercatorGrid.Checked

/-! Arithmetic on doubles is exact arithmetic rounded to nearest.
`Denotes` reads a double as a rational or an infinity. Sums, products and quotients of finite
doubles denote the rounded exact result, which is clipped where doubles overflow. -/
namespace MercatorGrid.Binary64
open Float.Model Float.Model.UnpackedFloat

def Denotes (x : Float) (v : Line) : Prop := pointOf x.toModel.unpack = some v

theorem ofSign_apply (s : Sign) (m : ℕ) (c : ℚ) :
    ((s.apply m : ℤ) : ℚ) * c = ofSign s (m * c) := by
  cases s with
  | negative => simp only [Sign.apply, ofSign, Int.cast_neg, Int.cast_natCast, neg_mul]
  | positive => rfl

theorem ofSign_mul (s t : Sign) (p q : ℚ) : ofSign s p * ofSign t q = ofSign (s * t) (p * q) := by
  cases s <;> cases t
  · exact neg_mul_neg p q
  · exact neg_mul p q
  · exact mul_neg p q
  · rfl

theorem ofSign_div (s t : Sign) (p q : ℚ) : ofSign s p / ofSign t q = ofSign (s / t) (p / q) := by
  cases s <;> cases t
  · exact neg_div_neg_eq p q
  · exact neg_div q p
  · exact div_neg p
  · rfl

theorem shiftLeft_value (m n : ℕ) (e : ℤ) :
    ((m <<< n : ℕ) : ℚ) * 2 ^ (e - n) = m * 2 ^ e := by
  rw [Nat.shiftLeft_eq, zpow_sub₀ (by norm_num), zpow_natCast]
  push_cast
  field_simp

theorem holds_round (s : Sign) {m : ℕ} (positive : 0 < m) (e : ℤ) :
    Holds (UnpackedFloat.round Format.binary64 s m e) (nearest (ofSign s (m * 2 ^ e))) := by
  have value : (0 : ℚ) < m * 2 ^ e := mul_pos (by exact_mod_cast positive) (two_zpow_pos e)
  have place := lastPlace_eq positive e
  unfold UnpackedFloat.round decreaseExponent
  dsimp only
  rw [targetExponent_eq, ← place]
  generalize amount : (e - lastPlace (m * 2 ^ e)).toNat = n
  apply holds_roundWithAccuracy s value
  · rw [← shiftLeft_value m n e, mul_div_cancel_right₀ _ (two_zpow_pos _).ne']
    exact shows_exact _
  · omega

theorem holds_normalize (k e : ℤ) (z : Sign) :
    Holds (UnpackedFloat.normalize Format.binary64 k e z) (nearest (k * 2 ^ e)) := by
  unfold UnpackedFloat.normalize
  rcases lt_trichotomy k 0 with less | rfl | more
  · simp only [Int.compare_eq_lt.mpr less]
    have h := holds_round .negative (m := (-k).toNat) (by omega) e
    have cast : (((-k).toNat : ℕ) : ℚ) = -(k : ℚ) := by
      exact_mod_cast (by omega : (((-k).toNat : ℕ) : ℤ) = -k)
    rwa [ofSign, cast, neg_mul, neg_neg] at h
  · simp only [Int.cast_zero, zero_mul, nearest_zero]
    exact .zero z
  · simp only [Int.compare_eq_gt.mpr more]
    have h := holds_round .positive (m := k.toNat) (by omega) e
    have cast : ((k.toNat : ℕ) : ℚ) = (k : ℚ) := by
      exact_mod_cast (by omega : ((k.toNat : ℕ) : ℤ) = k)
    rwa [ofSign, cast] at h

theorem holds_add {a b : UnpackedFloat} {p q : ℚ} (ha : Holds a p) (hb : Holds b q) :
    Holds (UnpackedFloat.add Format.binary64 a b) (nearest (p + q)) := by
  have repA := nearest_of_representable ha.representable
  have repB := nearest_of_representable hb.representable
  cases ha with
  | zero s =>
    simp only [zero_add, repB]
    cases hb with
    | zero t =>
      simp only [UnpackedFloat.add]
      split <;> exact .zero _
    | finite t positive digits low form => exact .finite t positive digits low form
  | finite s positive digits low form =>
    cases hb with
    | zero t =>
      simp only [add_zero, repA]
      exact .finite s positive digits low form
    | finite t positive' digits' low' form' =>
      rename_i m₁ e₁ m₂ e₂
      have h := holds_normalize (s.apply (m₁ <<< (e₁ - min e₁ e₂).toNat : ℕ) +
        t.apply (m₂ <<< (e₂ - min e₁ e₂).toNat : ℕ)) (min e₁ e₂) .positive
      have left := shiftLeft_value m₁ (e₁ - min e₁ e₂).toNat e₁
      have right := shiftLeft_value m₂ (e₂ - min e₁ e₂).toNat e₂
      rw [show e₁ - (e₁ - min e₁ e₂).toNat = min e₁ e₂ by omega] at left
      rw [show e₂ - (e₂ - min e₁ e₂).toNat = min e₁ e₂ by omega] at right
      simp only [Int.cast_add, add_mul, ofSign_apply, left, right] at h
      exact h

/-- The digits of the product are enough if one mantissa is full, or if no digit below the last
place is left to find. -/
theorem holds_mul_finite (s t : Sign) {m₁ m₂ : ℕ} {e₁ e₂ : ℤ} (positive₁ : 0 < m₁)
    (positive₂ : 0 < m₂) (enough : (2 ^ 52 ≤ m₁ ∨ 2 ^ 52 ≤ m₂) ∨ e₁ + e₂ ≤ -1074) :
    Holds (UnpackedFloat.mul Format.binary64 (.finite s m₁ e₁ positive₁)
      (.finite t m₂ e₂ positive₂)) (nearest (ofSign s (m₁ * 2 ^ e₁) * ofSign t (m₂ * 2 ^ e₂))) := by
  have product : (m₁ : ℚ) * 2 ^ e₁ * (m₂ * 2 ^ e₂) = (m₁ * m₂ : ℕ) * 2 ^ (e₁ + e₂) := by
    rw [zpow_add₀ (by norm_num)]
    push_cast
    ring
  have positives : 0 < m₁ * m₂ := Nat.mul_pos positive₁ positive₂
  simp only [ofSign_mul, product]
  apply holds_roundWithAccuracy _
    (mul_pos (by exact_mod_cast positives) (two_zpow_pos (e₁ + e₂)))
  · rw [mul_div_cancel_right₀ _ (two_zpow_pos _).ne']
    exact shows_exact _
  · simp only [lastPlace_eq positives]
    rcases enough with full | low
    · have digits : 52 ≤ (m₁ * m₂).log2 := by
        apply (Nat.le_log2 positives.ne').mpr
        rcases full with full | full
        · exact le_trans full (Nat.le_mul_of_pos_right m₁ positive₂)
        · exact le_trans full (Nat.le_mul_of_pos_left m₂ positive₁)
      omega
    · omega

theorem holds_mul {a b : UnpackedFloat} {p q : ℚ} (ha : Holds a p) (hb : Holds b q) :
    Holds (UnpackedFloat.mul Format.binary64 a b) (nearest (p * q)) := by
  cases ha with
  | zero s =>
    simp only [zero_mul, nearest_zero]
    cases hb <;> exact .zero _
  | finite s positive digits low form =>
    cases hb with
    | zero t =>
      simp only [mul_zero, nearest_zero]
      exact .zero _
    | finite t positive' digits' low' form' =>
      exact holds_mul_finite s t positive positive' (by omega)

theorem holds_div_finite (s t : Sign) {m₁ m₂ : ℕ} {e₁ e₂ : ℤ} (positive₁ : 0 < m₁)
    (positive₂ : 0 < m₂) :
    Holds (UnpackedFloat.div Format.binary64 (.finite s m₁ e₁ positive₁)
      (.finite t m₂ e₂ positive₂)) (nearest (ofSign s (m₁ * 2 ^ e₁) / ofSign t (m₂ * 2 ^ e₂))) := by
  have cast₁ : (0 : ℚ) < m₁ := by exact_mod_cast positive₁
  have cast₂ : (0 : ℚ) < m₂ := by exact_mod_cast positive₂
  have unit₁ := two_zpow_pos e₁
  have unit₂ := two_zpow_pos e₂
  have ratio : (0 : ℚ) < m₁ * 2 ^ e₁ / (m₂ * 2 ^ e₂) :=
    div_pos (mul_pos cast₁ unit₁) (mul_pos cast₂ unit₂)
  simp only [ofSign_div]
  generalize target : min (e₁ - e₂) (Format.binary64.targetExponent
    (totalExponent m₁ e₁ - totalExponent m₂ e₂)) = e
  generalize amount : (e₁ - e₂ - e).toNat = n
  have core : divCore Format.binary64 m₁ e₁ m₂ e₂ = ((m₁ <<< n) / m₂, e,
      accuracyOfFraction ((m₁ <<< n) % m₂) m₂) := by
    simp only [divCore, target, amount]
  simp only [UnpackedFloat.div, core]
  apply holds_roundWithAccuracy _ ratio
  · have quotient : (m₁ : ℚ) * 2 ^ e₁ / (m₂ * 2 ^ e₂) / 2 ^ e = (m₁ <<< n : ℕ) / m₂ := by
      rw [← shiftLeft_value m₁ n e₁, show e₁ - n = e₂ + e by omega, zpow_add₀ (by norm_num)]
      have unit := two_zpow_pos e
      field_simp
    have cut : ((m₁ <<< n : ℕ) : ℚ) / m₂ =
        ((m₁ <<< n) / m₂ : ℕ) + ((m₁ <<< n) % m₂ : ℕ) / m₂ := by
      simp only [div_eq_iff cast₂.ne', add_mul, div_mul_cancel₀ _ cast₂.ne']
      exact_mod_cast (Nat.div_add_mod' (m₁ <<< n) m₂).symm
    simp only [quotient, cut]
    exact shows_fraction _ _ _ (Nat.mod_lt _ positive₂)
  · -- The quotient's first digit is at most one place below the difference of the exponents.
    have first : ((2 : ℕ) : ℚ) ^ ((m₁.log2 : ℤ) + e₁ - (m₂.log2 + 1 + e₂)) ≤
        m₁ * 2 ^ e₁ / (m₂ * 2 ^ e₂) := by
      have above : (2 : ℚ) ^ m₁.log2 ≤ m₁ := by exact_mod_cast Nat.log2_self_le positive₁.ne'
      have below : (m₂ : ℚ) ≤ 2 ^ (m₂.log2 + 1) := by exact_mod_cast Nat.lt_log2_self.le
      rw [Nat.cast_ofNat, zpow_sub₀ (by norm_num), zpow_add₀ (by norm_num),
        zpow_add₀ (a := (2 : ℚ)) (by norm_num) ((m₂.log2 : ℤ) + 1) e₂]
      apply div_le_div₀ (mul_pos cast₁ unit₁).le _ (mul_pos cast₂ unit₂)
      · exact mul_le_mul_of_nonneg_right (by exact_mod_cast below) unit₂.le
      · exact mul_le_mul_of_nonneg_right (by exact_mod_cast above) unit₁.le
    have log := (Int.zpow_le_iff_le_log (by norm_num) ratio).mp first
    have place : Format.binary64.targetExponent
        (totalExponent m₁ e₁ - totalExponent m₂ e₂) =
        max ((m₁.log2 : ℤ) + e₁ - (m₂.log2 + e₂) - 53) (-1074) := by
      unfold Format.targetExponent totalExponent Format.mantissaBits Format.minExponent
      norm_num
      congr 1
      ring
    unfold lastPlace
    simp only [abs_of_pos ratio]
    omega

theorem holds_div {a b : UnpackedFloat} {p q : ℚ} (ha : Holds a p) (hb : Holds b q)
    (nonzero : q ≠ 0) : Holds (UnpackedFloat.div Format.binary64 a b) (nearest (p / q)) := by
  cases hb with
  | zero t => exact absurd rfl nonzero
  | finite t positive' digits' low' form' =>
    cases ha with
    | zero s =>
      simp only [zero_div, nearest_zero]
      exact .zero _
    | finite s positive digits low form => exact holds_div_finite s t positive positive'

theorem holds_neg {u : UnpackedFloat} {q : ℚ} (h : Holds u q) : Holds u.neg (-q) := by
  cases h with
  | zero s =>
    simp only [neg_zero]
    exact .zero _
  | finite s positive digits low form =>
    cases s with
    | negative =>
      simp only [ofSign, neg_neg]
      exact .finite .positive positive digits low form
    | positive => exact .finite .negative positive digits low form

theorem sub_eq_add_opposite (a b : UnpackedFloat) :
    UnpackedFloat.sub Format.binary64 a b = UnpackedFloat.add Format.binary64 a b.neg := by
  cases a with
  | notANumber => cases b <;> rfl
  | infinity s => cases b <;> rfl
  | zero s => cases b <;> rfl
  | finite s m e positive =>
    cases b with
    | notANumber => rfl
    | infinity t => rfl
    | zero t => rfl
    | finite t m' e' positive' =>
      have opposite : ∀ n : ℕ, (-t).apply n = -t.apply n := by
        intro n
        cases t with
        | negative => exact (neg_neg (n : ℤ)).symm
        | positive => rfl
      simp only [UnpackedFloat.sub, UnpackedFloat.add, UnpackedFloat.neg, opposite, sub_eq_add_neg]

section Denotation
variable {x y : Float} {p q : ℚ}

theorem denotes_add (hx : Denotes x p) (hy : Denotes y q) :
    Denotes (x + y) (clip (nearest (p + q))) :=
  pointOf_unpack_pack (holds_add (holds_unpack hx).1 (holds_unpack hy).1)

theorem denotes_mul (hx : Denotes x p) (hy : Denotes y q) :
    Denotes (x * y) (clip (nearest (p * q))) :=
  pointOf_unpack_pack (holds_mul (holds_unpack hx).1 (holds_unpack hy).1)

theorem denotes_div (hx : Denotes x p) (hy : Denotes y q) (nonzero : q ≠ 0) :
    Denotes (x / y) (clip (nearest (p / q))) :=
  pointOf_unpack_pack (holds_div (holds_unpack hx).1 (holds_unpack hy).1 nonzero)

theorem denotes_neg (hx : Denotes x p) : Denotes (-x) ((-p : ℚ) : Line) := by
  obtain ⟨holds, small⟩ := holds_unpack hx
  have h := pointOf_unpack_pack (holds_neg holds)
  rw [clip_of_small (by rwa [abs_neg])] at h
  exact h

theorem denotes_sub (hx : Denotes x p) (hy : Denotes y q) :
    Denotes (x - y) (clip (nearest (p - q))) := by
  have sum := holds_add (holds_unpack hx).1 (holds_neg (holds_unpack hy).1)
  rw [← sub_eq_add_opposite, ← sub_eq_add_neg] at sum
  exact pointOf_unpack_pack sum

end Denotation
end MercatorGrid.Binary64
