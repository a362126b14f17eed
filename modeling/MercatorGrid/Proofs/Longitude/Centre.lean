import MercatorGrid.Proofs.Longitude

/-! Longitudes of pixel edges and pixel centres.
A column of 32 bits or half-way to the next is a dyadic number, and so is its longitude. All six
steps there and back have room in a double's digits, so none of them rounds and the column found
is the one begun with, inside the plane and outside it. -/
namespace MercatorGrid.Mercator
open Binary64

def exactLongitude (zoom : ℕ) (q : ℚ) : ℚ := 360 * q / 2 ^ (zoom + 8) - 180

theorem exactLongitude_lt_iff (zoom : ℕ) {p q : ℚ} :
    exactLongitude zoom p < exactLongitude zoom q ↔ p < q := by
  have width : (0 : ℚ) < 360 / 2 ^ (zoom + 8) := by positivity
  simp only [exactLongitude, mul_div_right_comm, sub_lt_sub_iff_right, mul_lt_mul_iff_right₀ width]

/-- No step from a continuous column to its longitude rounds, and none on the way back. -/
structure Unrounded (zoom : ℕ) (x : Float) (q : ℚ) : Prop where
  start : Denotes x (q : Line)
  fraction : Denotes (x / worldSize zoom) ((q / 2 ^ (zoom + 8) : ℚ) : Line)
  eastward : Denotes (x / worldSize zoom * 360.0) ((q / 2 ^ (zoom + 8) * 360 : ℚ) : Line)
  longitude : Denotes (longitudeOfX zoom x) (exactLongitude zoom q : Line)
  shifted : Denotes (longitudeOfX zoom x + 180.0) ((q / 2 ^ (zoom + 8) * 360 : ℚ) : Line)
  turn : Denotes ((longitudeOfX zoom x + 180.0) / 360.0) ((q / 2 ^ (zoom + 8) : ℚ) : Line)
  column : Denotes (xOfLongitude zoom (longitudeOfX zoom x)) (q : Line)

theorem clip_dyadic {k : ℤ} {n : ℕ} {q : ℚ} (value : q = k / 2 ^ n) (digits : |k| ≤ 2 ^ 53)
    (low : n ≤ 1074) : clip (nearest q) = (q : Line) := by
  have rep : Representable q := value ▸ representable_div_two_pow n digits low
  have size : |q| ≤ 2 ^ (64 : ℤ) := by
    have few : |(k : ℚ)| ≤ 2 ^ 53 := by exact_mod_cast digits
    have unit : (1 : ℚ) ≤ 2 ^ n := one_le_pow₀ (by norm_num)
    rw [value, abs_div, abs_of_pos (a := (2 : ℚ) ^ n) (by positivity)]
    calc |(k : ℚ)| / 2 ^ n ≤ |(k : ℚ)| := div_le_self (abs_nonneg _) unit
      _ ≤ 2 ^ (64 : ℤ) := le_trans few (by norm_num)
  rw [clip_nearest size, nearest_of_representable rep]

theorem denotes_half : Denotes 0.5 ((1 / 2 : ℚ) : Line) :=
  denotes_constant (m := 2 ^ 52) (e := -53) (by norm_num) rfl (by norm_num)

section Dyadic
variable {zoom : ℕ} (shallow : zoom ≤ deepestZoom) {h : ℤ} (few : |h| ≤ 2 ^ 33)
include shallow few

theorem clip_fraction : clip (nearest (h / 2 / 2 ^ (zoom + 8))) =
    ((h / 2 / 2 ^ (zoom + 8) : ℚ) : Line) := by
  have depth := shift_le shallow
  have sides := abs_le.mp few
  apply clip_dyadic (k := h) (n := zoom + 9)
  · ring
  · rw [abs_le]
    omega
  · omega

theorem clip_eastward : clip (nearest (h / 2 / 2 ^ (zoom + 8) * 360)) =
    ((h / 2 / 2 ^ (zoom + 8) * 360 : ℚ) : Line) := by
  have depth := shift_le shallow
  have sides := abs_le.mp few
  apply clip_dyadic (k := 45 * h) (n := zoom + 6)
  · push_cast
    ring
  · rw [abs_le]
    omega
  · omega

theorem clip_longitude : clip (nearest (h / 2 / 2 ^ (zoom + 8) * 360 - 180)) =
    (exactLongitude zoom (h / 2) : Line) := by
  have depth := shift_le shallow
  have sides := abs_le.mp few
  have power : (2 : ℤ) ^ (zoom + 6) ≤ 2 ^ 28 := pow_le_pow_right₀ (by norm_num) (by omega)
  have positive : (0 : ℤ) < 2 ^ (zoom + 6) := by positivity
  have value : (h / 2 : ℚ) / 2 ^ (zoom + 8) * 360 - 180 = exactLongitude zoom (h / 2) := by
    rw [exactLongitude]
    ring
  rw [← value]
  apply clip_dyadic (k := 45 * h - 180 * 2 ^ (zoom + 6)) (n := zoom + 6)
  · push_cast
    field_simp
    ring
  · rw [abs_le]
    constructor <;> omega
  · omega

theorem unrounded {x : Float} (hx : Denotes x ((h / 2 : ℚ) : Line)) : Unrounded zoom x (h / 2) := by
  have fraction := denotes_div hx (denotes_worldSize shallow) (by positivity)
  rw [clip_fraction shallow few] at fraction
  have eastward := denotes_mul fraction denotes_fullTurn
  rw [clip_eastward shallow few] at eastward
  have longitude := denotes_sub eastward denotes_halfTurn
  rw [clip_longitude shallow few] at longitude
  have shifted := denotes_add longitude denotes_halfTurn
  rw [show exactLongitude zoom (h / 2) + 180 = h / 2 / 2 ^ (zoom + 8) * 360 by
    rw [exactLongitude]; ring, clip_eastward shallow few] at shifted
  have turn := denotes_div shifted denotes_fullTurn (by norm_num)
  rw [mul_div_cancel_right₀ _ (by norm_num), clip_fraction shallow few] at turn
  have column := denotes_mul turn (denotes_worldSize shallow)
  rw [div_mul_cancel₀ _ (by positivity), clip_dyadic (k := h) (n := 1) (by rw [pow_one])
    (le_trans few (by norm_num)) (by norm_num)] at column
  exact ⟨hx, fraction, eastward, longitude, shifted, turn, column⟩

theorem columnOf_longitudeOfX {x : Float} (hx : Denotes x ((h / 2 : ℚ) : Line)) {column : Int32}
    (whole : ⌊(h / 2 : ℚ)⌋ = column.toInt) : columnOf zoom (longitudeOfX zoom x) = column := by
  have range := Checked.toInt_range column
  have back := (unrounded shallow few hx).column
  apply Int32.toInt_inj.mp
  rw [columnOf, floor32_toInt back, whole]
  omega

end Dyadic

theorem half_centre (column : Int32) :
    ((2 * column.toInt + 1 : ℤ) / 2 : ℚ) = column.toInt + 1 / 2 := by
  push_cast
  ring

theorem denotes_centre (column : Int32) : Denotes (ofInt32 column + 0.5)
    (((2 * column.toInt + 1 : ℤ) / 2 : ℚ) : Line) := by
  have range := Checked.toInt_range column
  have sum := denotes_add (denotes_ofInt32 column) denotes_half
  rw [clip_dyadic (k := 2 * column.toInt + 1) (n := 1) (by push_cast; ring)
    (by rw [abs_le]; omega) (by norm_num)] at sum
  rw [half_centre]
  exact sum

theorem centre_few (column : Int32) : |2 * column.toInt + 1| ≤ 2 ^ 33 := by
  have range := Checked.toInt_range column
  rw [abs_le]
  omega

theorem unrounded_centre {zoom : ℕ} (shallow : zoom ≤ deepestZoom) (column : Int32) :
    Unrounded zoom (ofInt32 column + 0.5) (column.toInt + 1 / 2) := by
  rw [← half_centre]
  exact unrounded shallow (centre_few column) (denotes_centre column)

/-- The centre of a column lies in that column, for every column of 32 bits. -/
theorem columnOf_columnCentre {zoom : ℕ} (shallow : zoom ≤ deepestZoom) (column : Int32) :
    columnOf zoom (columnCentre zoom column) = column := by
  apply columnOf_longitudeOfX shallow (centre_few column) (denotes_centre column)
  rw [Int.floor_eq_iff]
  push_cast
  constructor <;> linarith

theorem edge_few (column : Int32) : |2 * column.toInt| ≤ 2 ^ 33 := by
  have range := Checked.toInt_range column
  rw [abs_le]
  omega

theorem half_edge (column : Int32) : ((2 * column.toInt : ℤ) / 2 : ℚ) = column.toInt := by
  push_cast
  ring

theorem denotes_edge (column : Int32) :
    Denotes (ofInt32 column) (((2 * column.toInt : ℤ) / 2 : ℚ) : Line) := by
  rw [half_edge]
  exact denotes_ofInt32 column

theorem unrounded_edge {zoom : ℕ} (shallow : zoom ≤ deepestZoom) (column : Int32) :
    Unrounded zoom (ofInt32 column) column.toInt := by
  rw [← half_edge]
  exact unrounded shallow (edge_few column) (denotes_edge column)

/-- A column begins with its west edge, also the column after the last of a grid. -/
theorem columnOf_westEdge {zoom : ℕ} (shallow : zoom ≤ deepestZoom) (column : Int32) :
    columnOf zoom (westEdge zoom column) = column := by
  apply columnOf_longitudeOfX shallow (edge_few column) (denotes_edge column)
  rw [half_edge, Int.floor_intCast]

section Order
variable {zoom : ℕ} (shallow : zoom ≤ deepestZoom)
include shallow

theorem denotes_westEdge (column : Int32) :
    Denotes (westEdge zoom column) (exactLongitude zoom column.toInt : Line) :=
  (unrounded_edge shallow column).longitude

theorem denotes_columnCentre (column : Int32) :
    Denotes (columnCentre zoom column) (exactLongitude zoom (column.toInt + 1 / 2) : Line) :=
  (unrounded_centre shallow column).longitude

theorem order_westEdge {a b : Int32} (less : a.toInt < b.toInt) :
    DegreeBox.order (westEdge zoom a) (westEdge zoom b) = (westEdge zoom a, westEdge zoom b) := by
  have apart : westEdge zoom a < westEdge zoom b := by
    rw [denotes_lt (denotes_westEdge shallow a) (denotes_westEdge shallow b),
      exactLongitude_lt_iff]
    exact_mod_cast less
  rw [DegreeBox.order, if_pos apart]

theorem columnCentre_lt_iff {a b : Int32} :
    columnCentre zoom a < columnCentre zoom b ↔ a.toInt < b.toInt := by
  rw [denotes_lt (denotes_columnCentre shallow a) (denotes_columnCentre shallow b),
    exactLongitude_lt_iff, add_lt_add_iff_right, Int.cast_lt]

theorem westEdge_lt_columnCentre {a b : Int32} (order : a.toInt ≤ b.toInt) :
    westEdge zoom a < columnCentre zoom b := by
  have columns : (a.toInt : ℚ) ≤ b.toInt := by exact_mod_cast order
  rw [denotes_lt (denotes_westEdge shallow a) (denotes_columnCentre shallow b),
    exactLongitude_lt_iff]
  linarith

theorem columnCentre_lt_westEdge {a b : Int32} (order : a.toInt < b.toInt) :
    columnCentre zoom a < westEdge zoom b := by
  have columns : (a.toInt : ℚ) + 1 ≤ b.toInt := by exact_mod_cast order
  rw [denotes_lt (denotes_columnCentre shallow a) (denotes_westEdge shallow b),
    exactLongitude_lt_iff]
  linarith

end Order

end MercatorGrid.Mercator
