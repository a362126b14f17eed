import MercatorGrid.Proofs.Binary64.Line
import MercatorGrid.Proofs.Binary64.NearestInteger
import MercatorGrid.Proofs.Attempt
import MercatorGrid.Envelope

/-! Fixed-point degrees as doubles.
The quotient by the number of units in a degree is rounded by less than half a unit, so
different fixed-point values stay in order and a valid envelope keeps its corners. Multiplied
back it is still nearest to the value it came from. What any double becomes that way rises with the
double, and is hardly more than half a unit away from it. -/
namespace MercatorGrid.FixedPoint
open Binary64

theorem denotes_unitsPerDegree : Denotes unitsPerDegree ((10 ^ 7 : ℚ) : Line) :=
  denotes_constant (m := 5368709120000000) (e := -29) (by norm_num) rfl (by norm_num)

theorem toInt_bounds (n : Int32) : (-2147483648 : ℚ) ≤ n.toInt ∧ (n.toInt : ℚ) ≤ 2147483647 := by
  have range := Checked.toInt_range n
  exact ⟨by exact_mod_cast range.1, by exact_mod_cast range.2⟩

theorem abs_degrees_lt (n : Int32) : |(n.toInt : ℚ) / 10 ^ 7| < 2 ^ (8 : ℤ) := by
  obtain ⟨low, high⟩ := toInt_bounds n
  rw [abs_lt]
  constructor
  · rw [lt_div_iff₀ (by norm_num)]
    norm_num
    linarith
  · rw [div_lt_iff₀ (by norm_num)]
    norm_num
    linarith

theorem clip_degrees (n : Int32) :
    clip (nearest (n.toInt / 10 ^ 7)) = ((nearest (n.toInt / 10 ^ 7) : ℚ) : Line) :=
  clip_nearest (le_trans (abs_degrees_lt n).le (by norm_num))

theorem denotes_toDegrees (n : Int32) :
    Denotes (toDegrees n) ((nearest (n.toInt / 10 ^ 7) : ℚ) : Line) := by
  have h := denotes_div (denotes_ofInt32 n) denotes_unitsPerDegree (by norm_num)
  rwa [clip_degrees] at h

theorem toDegrees_error (n : Int32) :
    |nearest (n.toInt / 10 ^ 7) - n.toInt / 10 ^ 7| ≤ 2 ^ (-46 : ℤ) :=
  nearest_error (abs_degrees_lt n) (by norm_num)

theorem nearest_degrees_lt {a b : Int32} (h : a < b) :
    nearest (a.toInt / 10 ^ 7) < nearest (b.toInt / 10 ^ 7) := by
  have apart : (a.toInt : ℚ) + 1 ≤ b.toInt := by exact_mod_cast Int32.lt_iff_toInt_lt.mp h
  have below := abs_le.mp (toDegrees_error a)
  have above := abs_le.mp (toDegrees_error b)
  have gap : (a.toInt : ℚ) / 10 ^ 7 + 1 / 10 ^ 7 ≤ b.toInt / 10 ^ 7 := by
    rw [← add_div]
    exact div_le_div_of_nonneg_right apart (by norm_num)
  have narrow : (2 : ℚ) ^ (-46 : ℤ) + 2 ^ (-46 : ℤ) < 1 / 10 ^ 7 := by norm_num
  linarith

section Apart
variable (n : Int32)

theorem abs_units : |(n.toInt : ℚ) / 10 ^ 7| = (n.toInt.natAbs : ℚ) / 10 ^ 7 := by
  rw [abs_div, abs_of_pos (show (0 : ℚ) < 10 ^ 7 by norm_num), Nat.cast_natAbs, Int.cast_abs]

theorem units_apart (b : ℕ)
    (same : nearest (b / 10 ^ 7) = nearest (n.toInt.natAbs / 10 ^ 7)) : b = n.toInt.natAbs := by
  have small : |(n.toInt.natAbs : ℚ) / 10 ^ 7| < 2 ^ (8 : ℤ) := by
    rw [← abs_units, abs_abs]
    exact abs_degrees_lt n
  have smallB : |(b : ℚ) / 10 ^ 7| < 2 ^ (9 : ℤ) := by
    refine abs_lt_of_nearest (by norm_num) ?_
    rw [same]
    exact (abs_nearest_le (by norm_num) small.le).trans_lt (by norm_num)
  have first := abs_le.mp (nearest_error smallB (by norm_num))
  have second := abs_le.mp (nearest_error small (by norm_num))
  rw [same] at first
  have close : |((b : ℤ) : ℚ) - (n.toInt.natAbs : ℤ)| < 1 := by
    rw [abs_lt, Int.cast_natCast, Int.cast_natCast]
    norm_num at first second ⊢
    constructor <;> linarith
  have whole : |(b : ℤ) - n.toInt.natAbs| < 1 := by exact_mod_cast close
  have zero := Int.abs_lt_one_iff.mp whole
  omega

theorem nearest_degrees_ne_zero (some : n.toInt ≠ 0) : nearest (n.toInt / 10 ^ 7) ≠ 0 := by
  intro zero
  have magnitude := abs_nearest (n.toInt / 10 ^ 7)
  rw [zero, abs_zero, abs_units] at magnitude
  have none := units_apart n 0 (by rw [← magnitude, Nat.cast_zero, zero_div, nearest_zero])
  omega

theorem nearest_degrees_neg_iff : nearest (n.toInt / 10 ^ 7) < 0 ↔ n.toInt < 0 := by
  constructor
  · intro below
    by_contra nonneg
    have cast : (0 : ℚ) ≤ n.toInt := by exact_mod_cast not_lt.mp nonneg
    exact absurd below (not_lt.mpr (nearest_nonneg (div_nonneg cast (by norm_num))))
  · intro negative
    have zero : (0 : Int32).toInt = 0 := rfl
    have less := nearest_degrees_lt (a := n) (b := 0) (Int32.lt_iff_toInt_lt.mpr (by rwa [zero]))
    rwa [zero, Int.cast_zero, zero_div, nearest_zero] at less

end Apart

theorem toDegrees_lt {a b : Int32} (h : a < b) : toDegrees a < toDegrees b :=
  (denotes_lt (denotes_toDegrees a) (denotes_toDegrees b)).mpr (nearest_degrees_lt h)

theorem toDegrees_le {a b : Int32} (h : a ≤ b) : toDegrees a ≤ toDegrees b := by
  rw [denotes_le (denotes_toDegrees a) (denotes_toDegrees b), WithBotTop.coe_le_coe]
  rcases Int32.le_iff_lt_or_eq.mp h with less | rfl
  · exact (nearest_degrees_lt less).le
  · exact le_refl _

theorem order_toDegrees {a b : Int32} (h : a ≤ b) :
    DegreeBox.order (toDegrees a) (toDegrees b) = (toDegrees a, toDegrees b) := by
  rcases Int32.le_iff_lt_or_eq.mp h with less | rfl
  · rw [DegreeBox.order, if_pos (toDegrees_lt less)]
  · simp only [DegreeBox.order, ite_self]

theorem abs_product_lt (n : Int32) :
    |nearest (n.toInt / 10 ^ 7) * 10 ^ 7| < 2 ^ (32 : ℤ) := by
  obtain ⟨low, high⟩ := toInt_bounds n
  have error := abs_le.mp (toDegrees_error n)
  rw [abs_lt]
  norm_num at error ⊢
  constructor <;> linarith

theorem denotes_product_of_nearest {degrees : Float} {n : Int32}
    (h : Denotes degrees ((nearest (n.toInt / 10 ^ 7) : ℚ) : Line)) :
    Denotes (degrees * unitsPerDegree)
      ((nearest (nearest (n.toInt / 10 ^ 7) * 10 ^ 7) : ℚ) : Line) := by
  have product := denotes_mul h denotes_unitsPerDegree
  rwa [clip_nearest (le_trans (abs_product_lt n).le (by norm_num))] at product

theorem denotes_product (n : Int32) : Denotes (toDegrees n * unitsPerDegree)
    ((nearest (nearest (n.toInt / 10 ^ 7) * 10 ^ 7) : ℚ) : Line) :=
  denotes_product_of_nearest (denotes_toDegrees n)

/-- The rounding of the quotient grows to 1.5e-7 of a unit, and the one of the product is at most
2.4e-7 of a unit. -/
theorem product_close (n : Int32) :
    |nearest (nearest (n.toInt / 10 ^ 7) * 10 ^ 7) - n.toInt| < 1 / 2 := by
  have first := abs_le.mp (toDegrees_error n)
  have second := abs_le.mp (nearest_error (abs_product_lt n) (by norm_num))
  rw [abs_lt]
  norm_num at first second ⊢
  constructor <;> linarith

theorem nearestAway_product (n : Int32) :
    nearestAway (nearest (nearest (n.toInt / 10 ^ 7) * 10 ^ 7)) = n.toInt :=
  nearestAway_of_close (product_close n)

/-- The product by the number of units in a degree is a number, and `k` is its nearest integer. -/
def Scaled (degrees : Float) (k : ℤ) : Prop :=
  ∃ p : ℚ, Denotes (degrees * unitsPerDegree) p ∧ nearestAway p = k

theorem ofDegrees?_eq_some_iff {degrees : Float} {n : Int32} :
    ofDegrees? degrees = some n ↔ Scaled degrees n.toInt := by
  unfold ofDegrees? Scaled
  rw [← nearest?_eq_some_iff]
  constructor
  · intro found
    obtain ⟨k, whole, fits⟩ := Option.bind_eq_some_iff.mp found
    rw [whole, Checked.int32_eq_ok_iff.mp (eq_ok_of_toOption fits)]
  · intro whole
    rw [whole, Option.bind_some, Checked.int32_eq_ok_iff.mpr rfl]
    rfl

theorem exists_ofDegrees?_iff {degrees : Float} : (∃ n, ofDegrees? degrees = some n) ↔
    ∃ k, Scaled degrees k ∧ -2147483648 ≤ k ∧ k ≤ 2147483647 := by
  constructor
  · rintro ⟨n, found⟩
    exact ⟨n.toInt, ofDegrees?_eq_some_iff.mp found, Checked.toInt_range n⟩
  · rintro ⟨k, scaled, low, high⟩
    refine ⟨Int32.ofInt k, ofDegrees?_eq_some_iff.mpr ?_⟩
    rwa [Checked.toInt_ofInt_of_range low high]

theorem Scaled.number {degrees : Float} {k : ℤ} (scaled : Scaled degrees k) :
    ∃ q : ℚ, Denotes degrees q ∧ nearestAway (nearest (q * 10 ^ 7)) = k := by
  obtain ⟨p, product, rfl⟩ := scaled
  obtain ⟨q, denotes, rfl⟩ :=
    factor_of_product denotes_unitsPerDegree (by norm_num) product
  exact ⟨q, denotes, rfl⟩

theorem Scaled.mono {a b : Float} {j k : ℤ} (ha : Scaled a j) (hb : Scaled b k)
    (order : a ≤ b) : j ≤ k := by
  obtain ⟨p, hp, rfl⟩ := ha.number
  obtain ⟨q, hq, rfl⟩ := hb.number
  have less : p ≤ q := WithBotTop.coe_le_coe.mp ((denotes_le hp hq).mp order)
  exact nearestAway_mono (nearest_mono (mul_le_mul_of_nonneg_right less (by norm_num)))

theorem Scaled.close {degrees : Float} {n : Int32} (scaled : Scaled degrees n.toInt) :
    ∃ q : ℚ, Denotes degrees q ∧ |(n.toInt : ℚ) - 10 ^ 7 * q| ≤ 1 / 2 + 2 ^ (-22 : ℤ) := by
  obtain ⟨q, denotes, whole⟩ := scaled.number
  obtain ⟨low, high⟩ := toInt_bounds n
  have away := abs_le.mp (nearestAway_error (nearest (q * 10 ^ 7)))
  rw [whole] at away
  have small : |nearest (q * 10 ^ 7)| < 2 ^ (32 : ℤ) := by
    rw [abs_lt]
    norm_num
    constructor <;> linarith
  have error := abs_le.mp (nearest_error (abs_lt_of_nearest (by norm_num) small) (by norm_num))
  refine ⟨q, denotes, abs_le.mpr ?_⟩
  norm_num at error ⊢
  constructor <;> linarith

theorem isFinite_of_ofDegrees? {degrees : Float} {n : Int32} (found : ofDegrees? degrees = some n) :
    degrees.isFinite = true := by
  obtain ⟨q, denotes, -⟩ := (ofDegrees?_eq_some_iff.mp found).number
  exact isFinite_iff.mpr ⟨q, denotes⟩

theorem scaled_of_nearest {degrees : Float} {n : Int32}
    (h : Denotes degrees ((nearest (n.toInt / 10 ^ 7) : ℚ) : Line)) : Scaled degrees n.toInt :=
  ⟨_, denotes_product_of_nearest h, nearestAway_product n⟩

theorem ofDegrees?_toDegrees (n : Int32) : ofDegrees? (toDegrees n) = some n :=
  ofDegrees?_eq_some_iff.mpr (scaled_of_nearest (denotes_toDegrees n))

end MercatorGrid.FixedPoint

namespace MercatorGrid.Envelope
open FixedPoint

theorem toBox_eq {e : Envelope} (valid : e.Valid) :
    e.toBox = ⟨toDegrees e.minLon, toDegrees e.minLat, toDegrees e.maxLon, toDegrees e.maxLat⟩ := by
  simp only [toBox, DegreeBox.ofCorners, order_toDegrees valid.1, order_toDegrees valid.2]

end MercatorGrid.Envelope
