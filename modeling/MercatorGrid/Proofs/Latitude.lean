import MercatorGrid.Proofs.Longitude

/-! Pixel rows of latitudes.
Whatever the elementary functions return, a row is one of the plane or the one after its last.
That rows fall as latitudes rise is a property of those functions and stays a hypothesis. -/
namespace MercatorGrid.Mercator
open Binary64 FixedPoint

/-- The row of a fixed-point latitude does not grow with the latitude. -/
def RowsFall (fns : Elementary Float) (zoom : ℕ) : Prop :=
  ∀ a b : Int32, a ≤ b → rowOf fns zoom (toDegrees b) ≤ rowOf fns zoom (toDegrees a)

/-- Between two latitudes the row does not grow with the latitude. -/
def RowsFallBetween (fns : Elementary Float) (zoom : ℕ) (low high : Float) : Prop :=
  ∀ a b : Float, low ≤ a → a ≤ b → b ≤ high → rowOf fns zoom b ≤ rowOf fns zoom a

/-- The north edge of a row is projected back to less than a pixel from where it was. -/
def EdgeReturns (fns : Elementary Float) (zoom : ℕ) (row : Int32) : Prop :=
  ∃ q : ℚ, Denotes (yOfLatitude fns zoom (northEdge fns zoom row)) (q : Line) ∧
    |q - row.toInt| < 1

theorem EdgeReturns.row {fns : Elementary Float} {zoom : ℕ} {row : Int32}
    (h : EdgeReturns fns zoom row) :
    row.toInt - 1 ≤ (rowOf fns zoom (northEdge fns zoom row)).toInt ∧
      (rowOf fns zoom (northEdge fns zoom row)).toInt ≤ row.toInt := by
  obtain ⟨q, position, near⟩ := h
  obtain ⟨above, below⟩ := abs_lt.mp near
  have range := Checked.toInt_range row
  have first : row.toInt - 1 ≤ ⌊q⌋ := Int.le_floor.mpr (by push_cast; linarith)
  have last : ⌊q⌋ < row.toInt + 1 := Int.floor_lt.mpr (by push_cast; linarith)
  rw [rowOf, floor32_toInt position]
  omega

theorem floor32_clamp {low high x : Float} {p q : ℤ} (hl : Denotes low (p : ℚ))
    (hh : Denotes high (q : ℚ)) (straddle : p ≤ 0 ∧ 0 ≤ q)
    (fits : -2147483648 ≤ p ∧ q ≤ 2147483647) :
    p ≤ (floor32 (clamp low high x)).toInt ∧ (floor32 (clamp low high x)).toInt ≤ q := by
  simp only [clamp]
  split
  · simp only [floor32_toInt hl, Int.floor_intCast]
    omega
  · rename_i above
    split
    · simp only [floor32_toInt hh, Int.floor_intCast]
      omega
    · rename_i below
      rcases nan_or_between hl hh above below with nan | ⟨r, hr, least, most⟩
      · simp only [floor32_nan nan, Int32.toInt_zero]
        exact straddle
      · have first : p ≤ ⌊r⌋ := Int.le_floor.mpr least
        have last : ⌊r⌋ ≤ q := by
          rw [← Int.floor_intCast (R := ℚ) q]
          exact Int.floor_le_floor most
        simp only [floor32_toInt hr]
        omega

theorem rowOf_range (fns : Elementary Float) {zoom : ℕ} (shallow : zoom ≤ deepestZoom)
    (lat : Float) : 0 ≤ (rowOf fns zoom lat).toInt ∧
      (rowOf fns zoom lat).toInt ≤ worldPixels zoom := by
  have world := worldPixels_range shallow
  have size : Denotes (worldSize zoom) (((worldPixels zoom : ℤ) : ℚ) : Line) := by
    have h := denotes_worldSize shallow
    simp only [worldPixels_eq]
    push_cast
    exact h
  exact floor32_clamp (p := 0) (by exact_mod_cast denotes_zero) size (by omega) (by omega)

theorem denotes_clamp {low high x : Float} {p q : ℚ} {v : Line} (hl : Denotes low p)
    (hh : Denotes high q) (order : p ≤ q) (hx : Denotes x v) :
    Denotes (clamp low high x) (max (p : Line) (min (q : Line) v)) := by
  have bounds : (p : Line) ≤ q := WithBotTop.coe_le_coe.mpr order
  simp only [clamp]
  split
  · rename_i below
    rw [lt_iff_of_denotes hx hl] at below
    rwa [max_eq_left (min_le_of_right_le below.le)]
  · rename_i inside
    rw [lt_iff_of_denotes hx hl, not_lt] at inside
    split
    · rename_i above
      rw [lt_iff_of_denotes hh hx] at above
      rwa [min_eq_left above.le, max_eq_right bounds]
    · rename_i below
      rw [lt_iff_of_denotes hh hx, not_lt] at below
      rwa [min_eq_right below, max_eq_right inside]

/-- Functions that agree with the usual ones on the equator and on the parallels of 60 degrees.
Elsewhere they only tell the two hemispheres apart. -/
def stepped : Elementary Float :=
  { Elementary.native with
    tan := fun x =>
      if x < 0.0 then -1.7320508075688767 else if 0.0 < x then 1.7320508075688767 else 0.0
    cos := fun x =>
      if x < 0.0 then 0.5000000000000001 else if 0.0 < x then 0.5000000000000001 else 1.0
    log := fun x =>
      if x < 1.0 then -1.3169578969248164 else if 1.0 < x then 1.3169578969248164 else 0.0 }

def projected (lat : Float) : Float :=
  clamp (-edgeLatitude) edgeLatitude lat * (stepped.pi / 180.0)

def edge : ℚ := 5984941123141376 * 2 ^ (-46 : ℤ)

def radiansPerDegree : ℚ := 5030569068109113 * 2 ^ (-58 : ℤ)

theorem denotes_edgeLatitude : Denotes edgeLatitude (edge : Line) :=
  denotes_constant (m := 5984941123141376) (e := -46) (by norm_num) rfl rfl

theorem denotes_radiansPerDegree : Denotes (stepped.pi / 180.0) (radiansPerDegree : Line) :=
  denotes_constant (m := 5030569068109113) (e := -58) (by norm_num) rfl rfl

theorem radiansPerDegree_pos : 0 < radiansPerDegree := by
  norm_num [radiansPerDegree]

theorem denotes_projected {lat : Float} {v : Line} (h : Denotes lat v) :
    Denotes (projected lat)
      (rounded (· * radiansPerDegree) (max ((-edge : ℚ) : Line) (min (edge : Line) v))) := by
  have order : -edge ≤ edge := by norm_num [edge]
  have clamped := denotes_clamp (denotes_neg denotes_edgeLatitude) denotes_edgeLatitude order h
  exact denotes_mul_positive clamped denotes_radiansPerDegree radiansPerDegree_pos

theorem projected_le {a b : Float} (order : a ≤ b) : projected a ≤ projected b := by
  obtain ⟨v, w, hv, hw, below⟩ := points_of_le order
  have scaled : Monotone fun q : ℚ => q * radiansPerDegree := fun p q h =>
    mul_le_mul_of_nonneg_right h radiansPerDegree_pos.le
  rw [denotes_le (denotes_projected hv) (denotes_projected hw)]
  exact rounded_mono scaled (max_le_max_left _ (min_le_min_left _ below))

theorem rowOf_congr {fns : Elementary Float} (same : fns.pi = stepped.pi) (zoom : ℕ) {a b : Float}
    (tangent : fns.tan (projected a) = fns.tan (projected b))
    (cosine : fns.cos (projected a) = fns.cos (projected b)) :
    rowOf fns zoom a = rowOf fns zoom b := by
  simp only [projected, ← same] at tangent cosine
  simp only [rowOf, yOfLatitude, tangent, cosine]

/-- The latitude in the same hemisphere at which the functions are the usual ones. -/
def parallel (lat : Float) : Float :=
  if projected lat < 0.0 then -60.0 else if 0.0 < projected lat then 60.0 else 0.0

theorem rowOf_parallel (zoom : ℕ) (lat : Float) :
    rowOf stepped zoom lat = rowOf stepped zoom (parallel lat) := by
  by_cases south : projected lat < 0.0
  · have there : projected (-60.0) < 0.0 := by decide +kernel
    rw [parallel, if_pos south]
    apply rowOf_congr rfl <;> simp only [stepped, south, there, if_true]
  · by_cases north : 0.0 < projected lat
    · have beyond : ¬ projected 60.0 < 0.0 := by decide +kernel
      have there : 0.0 < projected 60.0 := by decide +kernel
      rw [parallel, if_neg south, if_pos north]
      apply rowOf_congr rfl <;>
        simp only [stepped, south, north, beyond, there, if_true, if_false]
    · have beyond : ¬ projected 0.0 < 0.0 := by decide +kernel
      have there : ¬ 0.0 < projected 0.0 := by decide +kernel
      rw [parallel, if_neg south, if_neg north]
      apply rowOf_congr rfl <;> simp only [stepped, south, north, beyond, there, if_false]

theorem stepped_parallels : ∀ zoom ≤ deepestZoom,
    rowOf stepped zoom 60.0 ≤ rowOf stepped zoom 0.0 ∧
      rowOf stepped zoom 0.0 ≤ rowOf stepped zoom (-60.0) := by
  decide +kernel

theorem rowOf_stepped_le {zoom : ℕ} (shallow : zoom ≤ deepestZoom) {a b : Float}
    (order : a ≤ b) : rowOf stepped zoom b ≤ rowOf stepped zoom a := by
  obtain ⟨upper, lower⟩ := stepped_parallels zoom shallow
  obtain ⟨v, w, hv, hw, below⟩ := points_of_le (projected_le order)
  have sides := lt_iff_of_denotes hv denotes_zero
  simp only [rowOf_parallel zoom a, rowOf_parallel zoom b, parallel]
  by_cases south : projected a < 0.0
  · rw [if_pos south]
    split
    · exact Int32.le_refl _
    · split
      · exact Int32.le_trans upper lower
      · exact lower
  · have ahead : ¬ projected b < 0.0 := fun h =>
      south (sides.mpr (lt_of_le_of_lt below ((lt_iff_of_denotes hw denotes_zero).mp h)))
    rw [if_neg south, if_neg ahead]
    by_cases north : 0.0 < projected a
    · have after : 0.0 < projected b := (lt_iff_of_denotes denotes_zero hw).mpr
        (lt_of_lt_of_le ((lt_iff_of_denotes denotes_zero hv).mp north) below)
      rw [if_pos north, if_pos after]
      exact Int32.le_refl _
    · rw [if_neg north]
      split
      · exact upper
      · exact Int32.le_refl _

theorem stepped_rowsFallBetween {zoom : ℕ} (shallow : zoom ≤ deepestZoom) (low high : Float) :
    RowsFallBetween stepped zoom low high :=
  fun _ _ _ order _ => rowOf_stepped_le shallow order

theorem stepped_rowsFall {zoom : ℕ} (shallow : zoom ≤ deepestZoom) : RowsFall stepped zoom :=
  fun _ _ order => rowOf_stepped_le shallow (toDegrees_le order)

end MercatorGrid.Mercator
