import MercatorGrid.Proofs.Longitude.Centre
import MercatorGrid.Proofs.Longitude.Order
import MercatorGrid.Proofs.Envelope.Conversion

/-! Longitudes from 180 west to 180 east.
Of the way to a column only the sum and the quotient round, together by less than 1e-13 degree, and
the way back does not. A longitude just west of a boundary can still fall into the column east of
it, so what comes back is the edge of its column up to that error. -/
namespace MercatorGrid.Mercator
open Binary64 FixedPoint

def OnGlobe (lon : Float) : Prop := -180.0 ≤ lon ∧ lon ≤ 180.0

instance (lon : Float) : Decidable (OnGlobe lon) := inferInstanceAs (Decidable (_ ∧ _))

theorem number_of_onGlobe {lon : Float} (on : OnGlobe lon) :
    ∃ q : ℚ, Denotes lon (q : Line) ∧ -180 ≤ q ∧ q ≤ 180 := by
  obtain ⟨_, v, _, hv, _⟩ := points_of_le on.1
  have above := (denotes_le (denotes_neg denotes_halfTurn) hv).mp on.1
  have below := (denotes_le hv denotes_halfTurn).mp on.2
  induction v using WithBotTop.rec with
  | bot => exact absurd (le_bot_iff.mp above) (WithBotTop.coe_ne_bot _)
  | top => exact absurd (top_le_iff.mp below) (WithBotTop.coe_ne_top _)
  | coe q => exact ⟨q, hv, WithBotTop.coe_le_coe.mp above, WithBotTop.coe_le_coe.mp below⟩

theorem abs_sum_lt_of_range {q : ℚ} (low : -180 ≤ q) (high : q ≤ 180) :
    |q + 180| < 2 ^ (9 : ℤ) := by
  rw [abs_lt]
  norm_num
  constructor <;> linarith

section Column
variable {zoom : ℕ} (shallow : zoom ≤ deepestZoom) {lon : Float} (on : OnGlobe lon)
include shallow on

theorem columnOf_range :
    0 ≤ (columnOf zoom lon).toInt ∧ (columnOf zoom lon).toInt ≤ worldPixels zoom := by
  obtain ⟨q, hq, low, high⟩ := number_of_onGlobe on
  have world := worldPixels_range shallow
  have first : (0 : Int32).toInt = 0 := by decide
  have last : (Int32.ofInt (worldPixels zoom)).toInt = worldPixels zoom :=
    Checked.toInt_ofInt_of_range (by omega) (by omega)
  have west : westEdge zoom 0 ≤ lon := by
    rw [denotes_le (denotes_westEdge shallow 0) hq, WithBotTop.coe_le_coe, first, exactLongitude]
    norm_num
    exact low
  have east : lon ≤ westEdge zoom (Int32.ofInt (worldPixels zoom)) := by
    rw [denotes_le hq (denotes_westEdge shallow _), WithBotTop.coe_le_coe, last, worldPixels_eq,
      exactLongitude]
    push_cast
    rw [mul_div_cancel_right₀ _ (by positivity)]
    linarith
  have least := columnOf_le shallow west
  have most := columnOf_le shallow east
  rw [columnOf_westEdge shallow, first] at least
  rw [columnOf_westEdge shallow, last] at most
  exact ⟨least, most⟩

theorem toInt_columnOf {q : ℚ} (h : Denotes lon (q : Line)) (low : -180 ≤ q) (high : q ≤ 180) :
    (columnOf zoom lon).toInt = ⌊fraction q * 2 ^ (zoom + 8)⌋ := by
  have world := worldPixels_range shallow
  have range := columnOf_range shallow on
  have scaled := floor32_toInt (denotes_scaled (abs_sum_lt_of_range low high) h shallow)
  rw [← columnOf] at scaled
  omega

end Column

/-- The two roundings that decide on the column move a longitude by less than 1e-13 degree. -/
theorem close_to_column {zoom : ℕ} {q : ℚ} (low : -180 ≤ q) (high : q ≤ 180) {x : ℤ}
    (column : x = ⌊fraction q * 2 ^ (zoom + 8)⌋) : -(1 / 10 ^ 13) ≤ q - exactLongitude zoom x ∧
      q - exactLongitude zoom x < 360 / 2 ^ (zoom + 8) + 1 / 10 ^ 13 := by
  have close := abs_le.mp (fraction_close (abs_sum_lt_of_range low high))
  have positive : (0 : ℚ) < 2 ^ (zoom + 8) := by positivity
  obtain ⟨above, below⟩ := Int.floor_eq_iff.mp column.symm
  rw [← div_le_iff₀ positive] at above
  rw [← lt_div_iff₀ positive, add_div] at below
  have width : (360 : ℚ) / 2 ^ (zoom + 8) = 360 * (1 / 2 ^ (zoom + 8)) := by rw [mul_one_div]
  rw [exactLongitude, mul_div_assoc, width]
  norm_num at close
  constructor <;> linarith

/-- The column of a longitude holds it up to 1e-13 degree: so far it can lie west of the column's
edge or east of the next one. From zoom 8 on a column is narrower than 0.01 degree. -/
theorem westEdge_columnOf {zoom : ℕ} (shallow : zoom ≤ deepestZoom) {lon : Float}
    (on : OnGlobe lon) : ∃ q r : ℚ, Denotes lon (q : Line) ∧
      Denotes (westEdge zoom (columnOf zoom lon)) (r : Line) ∧
      (-(1 / 10 ^ 13) ≤ q - r ∧ q - r < 360 / 2 ^ (zoom + 8) + 1 / 10 ^ 13) ∧
      (0 ≤ (columnOf zoom lon).toInt ∧ (columnOf zoom lon).toInt ≤ worldPixels zoom) ∧
      (8 ≤ zoom → |q - r| < 1 / 100) := by
  obtain ⟨q, hq, low, high⟩ := number_of_onGlobe on
  have sides := close_to_column low high (toInt_columnOf shallow on hq low high)
  refine ⟨q, _, hq, denotes_westEdge shallow _, sides, columnOf_range shallow on, ?_⟩
  intro deep
  have narrow : (360 : ℚ) / 2 ^ (zoom + 8) ≤ 360 / 2 ^ 16 :=
    div_le_div_of_nonneg_left (by norm_num) (by norm_num)
      (pow_le_pow_right₀ (by norm_num) (by omega))
  rw [abs_lt]
  norm_num at sides narrow ⊢
  constructor <;> linarith

/-- The last double before 180 east is absorbed into the column that begins there. -/
theorem westEdge_columnOf_before_antimeridian :
    22 ≤ deepestZoom ∧ OnGlobe 179.99999999999997 ∧ columnOf 22 179.99999999999997 = 1073741824 ∧
      ∃ q : ℚ, Denotes 179.99999999999997 (q : Line) ∧ -(1 / 10 ^ 13) ≤ q - 180 ∧
        |q - 180| < 1 / 100 := by
  have shallow : 22 ≤ deepestZoom := by decide
  have on : OnGlobe 179.99999999999997 := by decide +kernel
  have column : columnOf 22 179.99999999999997 = 1073741824 := by decide +kernel
  have last : (1073741824 : Int32).toInt = 1073741824 := by decide
  obtain ⟨q, r, hq, hr, ⟨west, -⟩, -, close⟩ := westEdge_columnOf shallow on
  rw [column] at hr
  obtain rfl : r = 180 := by
    have edge := WithBotTop.coe_injective (hr.unique (denotes_westEdge shallow 1073741824))
    rw [edge, last, exactLongitude]
    norm_num
  exact ⟨shallow, on, column, q, hq, west, close (by norm_num)⟩

section Converted
variable {lon : Float}

theorem scaled_of_small {q : ℚ} (h : Denotes lon (q : Line)) (small : |q| ≤ 180) :
    Scaled lon (nearestAway (nearest (q * 10 ^ 7))) := by
  have size : |q * 10 ^ 7| ≤ 2 ^ (64 : ℤ) := by
    rw [abs_le] at small ⊢
    norm_num
    constructor <;> linarith
  have product := denotes_mul h denotes_unitsPerDegree
  rw [clip_nearest size] at product
  exact ⟨_, product, rfl⟩

theorem scaled_degrees {d : ℤ} (h : Denotes lon ((d : ℚ) : Line)) (small : |d| ≤ 180) :
    Scaled lon (d * 10 ^ 7) := by
  have scaled := scaled_of_small h (by exact_mod_cast small)
  have sides := abs_le.mp small
  have value : (d : ℚ) * 10 ^ 7 = ((d * 10 ^ 7 : ℤ) : ℚ) := by
    push_cast
    rfl
  rwa [value, nearest_of_representable (representable_intCast (by rw [abs_le]; omega)),
    nearestAway_intCast] at scaled

theorem exists_coordinate (on : OnGlobe lon) : ∃ n, Envelope.coordinate lon = .ok n ∧
    -1800000000 ≤ n.toInt ∧ n.toInt ≤ 1800000000 := by
  obtain ⟨q, hq, low, high⟩ := number_of_onGlobe on
  have scaled := scaled_of_small hq (abs_le.mpr ⟨low, high⟩)
  have west : Scaled (-180.0) (-1800000000) :=
    scaled_degrees (d := -180) (by exact_mod_cast denotes_neg denotes_halfTurn) (by norm_num)
  have east : Scaled 180.0 1800000000 :=
    scaled_degrees (d := 180) (by exact_mod_cast denotes_halfTurn) (by norm_num)
  have least := west.mono scaled on.1
  have most := scaled.mono east on.2
  obtain ⟨n, found⟩ := exists_ofDegrees?_iff.mpr ⟨_, scaled, by omega, by omega⟩
  have same : Scaled lon n.toInt := ofDegrees?_eq_some_iff.mp found
  exact ⟨n, Envelope.coordinate_eq_ok_iff.mpr found, west.mono same on.1, same.mono east on.2⟩

theorem onGlobe_toDegrees {n : Int32} (low : -1800000000 ≤ n.toInt)
    (high : n.toInt ≤ 1800000000) : OnGlobe (toDegrees n) := by
  have least : (-1800000000 : ℚ) ≤ n.toInt := by exact_mod_cast low
  have most : (n.toInt : ℚ) ≤ 1800000000 := by exact_mod_cast high
  have whole : ∀ d : ℤ, |d| ≤ 180 → nearest d = d := fun d small =>
    nearest_of_representable (representable_intCast (le_trans small (by norm_num)))
  have west := whole (-180) (by norm_num)
  have east := whole 180 (by norm_num)
  push_cast at west east
  constructor
  · rw [denotes_le (denotes_neg denotes_halfTurn) (denotes_toDegrees n), WithBotTop.coe_le_coe,
      ← west]
    exact nearest_mono (by rw [le_div_iff₀ (by norm_num)]; linarith)
  · rw [denotes_le (denotes_toDegrees n) denotes_halfTurn, WithBotTop.coe_le_coe, ← east]
    exact nearest_mono (by rw [div_le_iff₀ (by norm_num)]; linarith)

theorem abs_floor_sub_le {a b : ℚ} (close : |a - b| < 1) : |⌊a⌋ - ⌊b⌋| ≤ 1 := by
  obtain ⟨above, below⟩ := abs_lt.mp close
  have up : ⌊a⌋ ≤ ⌊b + 1⌋ := Int.floor_le_floor (by linarith)
  have down : ⌊b⌋ ≤ ⌊a + 1⌋ := Int.floor_le_floor (by linarith)
  rw [Int.floor_add_one] at up down
  rw [abs_le]
  omega

/-- A longitude and its nearest fixed-point value are half a unit apart, which is 0.15 of a column
at the deepest zoom. -/
theorem turn_close_fraction {q : ℚ} {n : Int32} (low : -180 ≤ q) (high : q ≤ 180)
    (near : |(n.toInt : ℚ) - 10 ^ 7 * q| ≤ 1 / 2 + 2 ^ (-22 : ℤ)) :
    |turn n - fraction q| < 1 / 2 ^ 30 := by
  have first := abs_le.mp (turn_close n)
  have second := abs_le.mp (fraction_close (abs_sum_lt_of_range low high))
  have units := abs_le.mp near
  rw [exactTurn_eq] at first
  rw [abs_lt]
  norm_num at first second units ⊢
  constructor <;> linarith

theorem columnOf_converted {zoom : ℕ} (shallow : zoom ≤ deepestZoom) (on : OnGlobe lon)
    {n : Int32} (converted : Envelope.coordinate lon = .ok n) :
    |(columnOf zoom (toDegrees n)).toInt - (columnOf zoom lon).toInt| ≤ 1 := by
  obtain ⟨q, hq, low, high⟩ := number_of_onGlobe on
  obtain ⟨r, hr, near⟩ :=
    (ofDegrees?_eq_some_iff.mp (Envelope.coordinate_eq_ok_iff.mp converted)).close
  obtain rfl : r = q := WithBotTop.coe_injective (hr.unique hq)
  have positive : (0 : ℚ) < 2 ^ (zoom + 8) := by positivity
  have power : (2 : ℚ) ^ (zoom + 8) ≤ 2 ^ 30 :=
    pow_le_pow_right₀ (by norm_num) (shift_le shallow)
  rw [columnOf_toDegrees shallow, ← (follows_turn n).floor shallow,
    toInt_columnOf shallow on hq low high]
  apply abs_floor_sub_le
  rw [← sub_mul, abs_mul, abs_of_pos positive]
  calc |turn n - fraction r| * 2 ^ (zoom + 8) < 1 / 2 ^ 30 * 2 ^ (zoom + 8) :=
        mul_lt_mul_of_pos_right (turn_close_fraction low high near) positive
    _ ≤ 1 / 2 ^ 30 * 2 ^ 30 := mul_le_mul_of_nonneg_left power (by norm_num)
    _ = 1 := by norm_num

end Converted

end MercatorGrid.Mercator
