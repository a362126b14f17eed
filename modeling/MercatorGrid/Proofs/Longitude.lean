import MercatorGrid.Proofs.FixedPoint
import MercatorGrid.Mercator

/-! Pixel columns of fixed-point longitudes.
A longitude is turned into a fraction of the way round the world by three roundings. At the
deepest zoom a fixed-point longitude that is not on a pixel boundary is at least 1/3515625 of a
pixel away from it, which is more than the three roundings move it; one that is on a boundary is
a dyadic number of degrees, and then no step rounds at all. -/
namespace MercatorGrid.Mercator
open Binary64 FixedPoint

/-- The pixel column of a fixed-point longitude, in exact integers. -/
def exactColumn (zoom : ℕ) (n : Int32) : ℤ :=
  (n.toInt + 1800000000) * 2 ^ (zoom + 8) / 3600000000

/-- The fraction of the way round the world of a longitude, by the two steps taken on doubles. -/
def fraction (q : ℚ) : ℚ := nearest (nearest (q + 180) / 360)

def degrees (n : Int32) : ℚ := nearest (n.toInt / 10 ^ 7)

def eastward (n : Int32) : ℚ := nearest (degrees n + 180)

def turn (n : Int32) : ℚ := nearest (eastward n / 360)

def exactTurn (n : Int32) : ℚ := (n.toInt + 1800000000) / 3600000000

/-- A fraction that replaces the exact one without moving it over a pixel boundary. -/
structure Follows (n : Int32) (u : ℚ) : Prop where
  close : |u - exactTurn n| ≤ 2 ^ (-53 : ℤ) + (2 ^ (-45 : ℤ) + 2 ^ (-46 : ℤ)) / 360
  boundary : (3515625 : ℤ) ∣ n.toInt + 1800000000 → u = exactTurn n

theorem denotes_halfTurn : Denotes 180.0 ((180 : ℚ) : Line) :=
  denotes_constant (m := 180 * 2 ^ 45) (e := -45) (by norm_num) rfl (by norm_num)

theorem denotes_fullTurn : Denotes 360.0 ((360 : ℚ) : Line) :=
  denotes_constant (m := 180 * 2 ^ 45) (e := -44) (by norm_num) rfl (by norm_num)

theorem shift_le {zoom : ℕ} (shallow : zoom ≤ deepestZoom) : zoom + 8 ≤ 30 := by
  unfold deepestZoom at shallow
  omega

theorem worldPixels_eq (zoom : ℕ) : worldPixels zoom = 2 ^ (zoom + 8) := by
  rw [worldPixels, tilePixels, Nat.shiftLeft_eq, Nat.pow_add, Nat.mul_comm]

theorem worldPixels_range {zoom : ℕ} (shallow : zoom ≤ deepestZoom) :
    1 ≤ worldPixels zoom ∧ worldPixels zoom ≤ 1073741824 := by
  simp only [worldPixels_eq]
  exact ⟨Nat.one_le_two_pow, Nat.pow_le_pow_right (by norm_num) (shift_le shallow)⟩

theorem denotes_worldSize {zoom : ℕ} (shallow : zoom ≤ deepestZoom) :
    Denotes (worldSize zoom) ((2 ^ (zoom + 8) : ℚ) : Line) := by
  have digits : worldPixels zoom < 2 ^ 53 := by
    simp only [worldPixels_eq]
    have depth := shift_le shallow
    exact Nat.pow_lt_pow_right (by norm_num) (by omega)
  have h := denotes_ofScientific digits
  simp only [worldPixels_eq] at h
  push_cast at h
  rw [← worldPixels_eq] at h
  exact h

theorem abs_sum_lt (n : Int32) : |degrees n + 180| < 2 ^ (9 : ℤ) := by
  have size := abs_nearest_le (by norm_num) (abs_degrees_lt n).le
  rw [abs_le] at size
  rw [degrees, abs_lt]
  norm_num at size ⊢
  constructor <;> linarith

-- The three steps from any longitude less than 512 degrees away from the antimeridian.
section Steps
variable {lon : Float} {q : ℚ} (near : |q + 180| < 2 ^ (9 : ℤ))
include near

theorem abs_ratio_lt : |nearest (q + 180) / 360| < 2 ^ (1 : ℤ) := by
  have size := abs_nearest_le (by norm_num) near.le
  rw [abs_div, div_lt_iff₀ (by norm_num)]
  norm_num at size ⊢
  linarith

theorem abs_fraction_le : |fraction q| ≤ 2 ^ (1 : ℤ) :=
  abs_nearest_le (by norm_num) (abs_ratio_lt near).le

theorem fraction_close :
    |fraction q - (q + 180) / 360| ≤ 2 ^ (-53 : ℤ) + 2 ^ (-45 : ℤ) / 360 := by
  have first := abs_le.mp (nearest_error near (by norm_num))
  have second := abs_le.mp (nearest_error (abs_ratio_lt near) (by norm_num))
  rw [fraction, abs_le]
  norm_num at first second ⊢
  constructor <;> linarith

variable (h : Denotes lon (q : Line))
include h

theorem denotes_sum : Denotes (lon + 180.0) (nearest (q + 180) : Line) := by
  have sum := denotes_add h denotes_halfTurn
  rwa [clip_nearest (le_trans near.le (by norm_num))] at sum

theorem denotes_fraction : Denotes ((lon + 180.0) / 360.0) (fraction q : Line) := by
  have ratio := denotes_div (denotes_sum near h) denotes_fullTurn (by norm_num)
  rwa [clip_nearest (le_trans (abs_ratio_lt near).le (by norm_num))] at ratio

theorem denotes_scaled {zoom : ℕ} (shallow : zoom ≤ deepestZoom) :
    Denotes (xOfLongitude zoom lon) ((fraction q * 2 ^ (zoom + 8) : ℚ) : Line) := by
  have scaled := denotes_mul (denotes_fraction near h) (denotes_worldSize shallow)
  have rep : Representable (fraction q * 2 ^ (zoom + 8)) :=
    (nearest_representable _).mul_two_pow (zoom + 8)
  have small : |fraction q * 2 ^ (zoom + 8)| ≤ 2 ^ (64 : ℤ) := by
    have power : (2 : ℚ) ^ (zoom + 8) ≤ 2 ^ 30 :=
      pow_le_pow_right₀ (by norm_num) (shift_le shallow)
    rw [abs_mul, abs_of_pos (a := (2 : ℚ) ^ (zoom + 8)) (by positivity)]
    calc |fraction q| * 2 ^ (zoom + 8) ≤ 2 ^ (1 : ℤ) * 2 ^ 30 :=
          mul_le_mul (abs_fraction_le near) power (by positivity) (by norm_num)
      _ ≤ 2 ^ (64 : ℤ) := by norm_num
  rw [clip_nearest small, nearest_of_representable rep] at scaled
  exact scaled

end Steps

theorem denotes_eastward (n : Int32) : Denotes (toDegrees n + 180.0) (eastward n : Line) :=
  denotes_sum (abs_sum_lt n) (denotes_toDegrees n)

theorem denotes_turn (n : Int32) : Denotes ((toDegrees n + 180.0) / 360.0) (turn n : Line) :=
  denotes_fraction (abs_sum_lt n) (denotes_toDegrees n)

theorem denotes_xOfLongitude {zoom : ℕ} (shallow : zoom ≤ deepestZoom) (n : Int32) :
    Denotes (xOfLongitude zoom (toDegrees n)) ((turn n * 2 ^ (zoom + 8) : ℚ) : Line) :=
  denotes_scaled (abs_sum_lt n) (denotes_toDegrees n) shallow

-- On a pixel boundary every intermediate result is a double.
section Boundary
variable {n : Int32} {j : ℤ} (on : n.toInt + 1800000000 = 3515625 * j)
include on

theorem boundary_few :
    |45 * j - 23040| ≤ 2 ^ 53 ∧ |45 * j| ≤ 2 ^ 53 ∧ |j| ≤ 2 ^ 53 := by
  have range := Checked.toInt_range n
  refine ⟨?_, ?_, ?_⟩ <;> rw [abs_le] <;> omega

theorem exactTurn_boundary : exactTurn n = j / 2 ^ 10 := by
  have value : (n.toInt : ℚ) + 1800000000 = 3515625 * j := by exact_mod_cast on
  simp only [exactTurn, value]
  ring

theorem degrees_boundary : degrees n = ((45 * j - 23040 : ℤ) : ℚ) / 2 ^ 7 := by
  have value : (n.toInt : ℚ) = 3515625 * j - 1800000000 := by
    simp only [eq_sub_iff_add_eq]
    exact_mod_cast on
  rw [← nearest_of_representable (representable_div_two_pow 7 (boundary_few on).1 (by norm_num)),
    degrees, value]
  congr 1
  push_cast
  ring

theorem eastward_boundary : eastward n = ((45 * j : ℤ) : ℚ) / 2 ^ 7 := by
  rw [eastward, degrees_boundary on,
    ← nearest_of_representable (representable_div_two_pow 7 (boundary_few on).2.1 (by norm_num))]
  congr 1
  push_cast
  ring

theorem turn_boundary : turn n = (j : ℚ) / 2 ^ 10 := by
  rw [turn, eastward_boundary on,
    ← nearest_of_representable (representable_div_two_pow 10 (boundary_few on).2.2 (by norm_num))]
  congr 1
  push_cast
  ring

end Boundary

theorem exactTurn_eq (n : Int32) : exactTurn n = (n.toInt / 10 ^ 7 + 180) / 360 := by
  simp only [exactTurn]
  ring

theorem degrees_close (n : Int32) : |(degrees n + 180) / 360 - exactTurn n| ≤
    2 ^ (-46 : ℤ) / 360 := by
  have first := abs_le.mp (toDegrees_error n)
  rw [← degrees] at first
  rw [exactTurn_eq, abs_le]
  norm_num at first ⊢
  constructor <;> linarith

theorem eastward_close (n : Int32) : |eastward n / 360 - exactTurn n| ≤
    (2 ^ (-45 : ℤ) + 2 ^ (-46 : ℤ)) / 360 := by
  have before := abs_le.mp (degrees_close n)
  have second := abs_le.mp (nearest_error (abs_sum_lt n) (by norm_num))
  rw [← eastward] at second
  rw [abs_le]
  norm_num at before second ⊢
  constructor <;> linarith

theorem turn_close (n : Int32) : |turn n - exactTurn n| ≤
    2 ^ (-53 : ℤ) + (2 ^ (-45 : ℤ) + 2 ^ (-46 : ℤ)) / 360 := by
  have before := abs_le.mp (degrees_close n)
  have steps := abs_le.mp (fraction_close (abs_sum_lt n))
  rw [fraction, ← eastward, ← turn] at steps
  rw [abs_le]
  norm_num at before steps ⊢
  constructor <;> linarith

theorem follows_degrees (n : Int32) : Follows n ((degrees n + 180) / 360) where
  close := le_trans (degrees_close n) (by norm_num)
  boundary := by
    rintro ⟨j, on⟩
    simp only [degrees_boundary on, exactTurn_boundary on]
    push_cast
    ring

theorem follows_eastward (n : Int32) : Follows n (eastward n / 360) where
  close := le_trans (eastward_close n) (by norm_num)
  boundary := by
    rintro ⟨j, on⟩
    simp only [eastward_boundary on, exactTurn_boundary on]
    push_cast
    ring

theorem follows_turn (n : Int32) : Follows n (turn n) where
  close := turn_close n
  boundary := by
    rintro ⟨j, on⟩
    simp only [turn_boundary on, exactTurn_boundary on]

theorem Follows.floor_deepest {n : Int32} {u : ℚ} (h : Follows n u) :
    ⌊u * 2 ^ 30⌋ = (n.toInt + 1800000000) * 2 ^ 30 / 3600000000 := by
  by_cases boundary : (3515625 : ℤ) ∣ n.toInt + 1800000000
  · simp only [h.boundary boundary]
    obtain ⟨j, on⟩ := boundary
    have value : (j : ℚ) / 2 ^ 10 * 2 ^ 30 = ((j * 2 ^ 20 : ℤ) : ℚ) := by
      push_cast
      ring
    simp only [exactTurn_boundary on, value, Int.floor_intCast, on]
    omega
  · have error := abs_le.mp h.close
    -- The quotient and remainder at the deepest zoom, where the remainder is not zero.
    generalize hq : (n.toInt + 1800000000) * 2 ^ 30 / 3600000000 = q
    obtain ⟨r, hr, low, high⟩ : ∃ r : ℤ, (n.toInt + 1800000000) * 2 ^ 20 = q * 3515625 + r ∧
        1 ≤ r ∧ r ≤ 3515624 :=
      ⟨(n.toInt + 1800000000) * 2 ^ 20 % 3515625, by omega, by omega, by omega⟩
    have place : ((n.toInt : ℚ) + 1800000000) * 2 ^ 20 = q * 3515625 + r := by exact_mod_cast hr
    have least : (1 : ℚ) ≤ r := by exact_mod_cast low
    have most : (r : ℚ) ≤ 3515624 := by exact_mod_cast high
    simp only [exactTurn] at error
    simp only [Int.floor_eq_iff]
    norm_num at error place ⊢
    constructor <;> linarith

/-- The column at a zoom is the one at the deepest zoom, divided down. -/
theorem Follows.floor {zoom : ℕ} (shallow : zoom ≤ deepestZoom) {n : Int32} {u : ℚ}
    (h : Follows n u) : ⌊u * 2 ^ (zoom + 8)⌋ = exactColumn zoom n := by
  obtain ⟨rest, hrest⟩ := Nat.exists_eq_add_of_le (shift_le shallow)
  have positive : (0 : ℤ) < 2 ^ rest := by positivity
  have divided : u * 2 ^ (zoom + 8) = u * 2 ^ 30 / ((2 ^ rest : ℕ) : ℚ) := by
    rw [eq_div_iff (by positivity), hrest, pow_add _ (zoom + 8), mul_assoc]
    push_cast
    rfl
  rw [divided, Int.floor_div_natCast, h.floor_deepest, hrest, pow_add _ (zoom + 8),
    Int.ediv_ediv_of_nonneg (by norm_num), ← mul_assoc]
  push_cast
  exact Int.mul_ediv_mul_of_pos_left _ _ positive

theorem exactColumn_range {zoom : ℕ} (shallow : zoom ≤ deepestZoom) (n : Int32) :
    -2147483648 ≤ exactColumn zoom n ∧ exactColumn zoom n ≤ 2147483647 := by
  have range := Checked.toInt_range n
  have power : (2 : ℤ) ^ (zoom + 8) ≤ 2 ^ 30 :=
    pow_le_pow_right₀ (by norm_num) (shift_le shallow)
  have positive : (0 : ℤ) < 2 ^ (zoom + 8) := by positivity
  unfold exactColumn
  constructor
  · rw [Int.le_ediv_iff_mul_le (by norm_num)]
    nlinarith
  · apply Int.le_of_lt_add_one
    rw [Int.ediv_lt_iff_lt_mul (by norm_num)]
    nlinarith

theorem exactColumn_inside (zoom : ℕ) (n : Int32) :
    (0 ≤ exactColumn zoom n ↔ -1800000000 ≤ n.toInt) ∧
      (exactColumn zoom n < worldPixels zoom ↔ n.toInt < 1800000000) := by
  have positive : (0 : ℤ) < 2 ^ (zoom + 8) := by positivity
  simp only [worldPixels_eq, exactColumn]
  push_cast
  constructor
  · rw [Int.le_ediv_iff_mul_le (by norm_num), zero_mul, mul_nonneg_iff_of_pos_right positive]
    omega
  · rw [Int.ediv_lt_iff_lt_mul (by norm_num), mul_comm ((2 : ℤ) ^ (zoom + 8)),
      mul_lt_mul_iff_of_pos_right positive]
    omega

theorem columnOf_toDegrees {zoom : ℕ} (shallow : zoom ≤ deepestZoom) (n : Int32) :
    (columnOf zoom (toDegrees n)).toInt = exactColumn zoom n := by
  have range := exactColumn_range shallow n
  rw [columnOf, floor32_toInt (denotes_xOfLongitude shallow n), (follows_turn n).floor shallow]
  omega

/-- No rounding moves a fixed-point longitude to another column: not the one of the degrees, not
the one of the sum, not the one of the fraction. The last product is not rounded, and its floor
fits a pixel without being cut off. -/
theorem column_exact (zoom : ℕ) (shallow : zoom ≤ deepestZoom) (n : Int32) :
    (Denotes (toDegrees n) (degrees n : Line) ∧
      ⌊(degrees n + 180) / 360 * 2 ^ (zoom + 8)⌋ = exactColumn zoom n) ∧
    (Denotes (toDegrees n + 180.0) (eastward n : Line) ∧
      ⌊eastward n / 360 * 2 ^ (zoom + 8)⌋ = exactColumn zoom n) ∧
    (Denotes ((toDegrees n + 180.0) / 360.0) (turn n : Line) ∧
      ⌊turn n * 2 ^ (zoom + 8)⌋ = exactColumn zoom n) ∧
    Denotes (xOfLongitude zoom (toDegrees n)) ((turn n * 2 ^ (zoom + 8) : ℚ) : Line) ∧
    (-2147483648 ≤ exactColumn zoom n ∧ exactColumn zoom n ≤ 2147483647) ∧
    (columnOf zoom (toDegrees n)).toInt = exactColumn zoom n := by
  refine ⟨⟨denotes_toDegrees n, (follows_degrees n).floor shallow⟩,
    ⟨denotes_eastward n, (follows_eastward n).floor shallow⟩,
    ⟨denotes_turn n, (follows_turn n).floor shallow⟩, denotes_xOfLongitude shallow n,
    exactColumn_range shallow n, columnOf_toDegrees shallow n⟩

theorem column_exact_before_antimeridian :
    22 ≤ deepestZoom ∧ (columnOf 22 (toDegrees 1799999999)).toInt = 1073741823 := by
  have shallow : 22 ≤ deepestZoom := by decide
  have column := column_exact 22 shallow 1799999999
  have exact : exactColumn 22 1799999999 = 1073741823 := by decide
  exact ⟨shallow, column.2.2.2.2.2.trans exact⟩

end MercatorGrid.Mercator
