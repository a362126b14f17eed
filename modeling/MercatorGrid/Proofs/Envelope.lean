import MercatorGrid.Proofs.FixedPoint
import MercatorGrid.Proofs.Attempt

namespace MercatorGrid.Envelope
open Binary64 FixedPoint

def sorted (e : Envelope) : Envelope :=
  ⟨min e.minLon e.maxLon, max e.minLon e.maxLon, min e.minLat e.maxLat, max e.minLat e.maxLat⟩

section Bounds
variable {a b : Int32}

theorem bounds_of_le (h : a ≤ b) : min a b = a ∧ max a b = b := ⟨if_pos h, if_pos h⟩

theorem bounds_of_lt (h : b < a) : min a b = b ∧ max a b = a :=
  ⟨if_neg (Int32.not_le.mpr h), if_neg (Int32.not_le.mpr h)⟩

theorem min_le_max (a b : Int32) : min a b ≤ max a b := by
  by_cases order : a ≤ b
  · rwa [(bounds_of_le order).1, (bounds_of_le order).2]
  · have less := Int32.not_le.mp order
    rw [(bounds_of_lt less).1, (bounds_of_lt less).2]
    exact Int32.le_of_lt less

theorem order_bounds (a b : Int32) : DegreeBox.order (toDegrees a) (toDegrees b) =
    (toDegrees (min a b), toDegrees (max a b)) := by
  by_cases order : a ≤ b
  · rw [(bounds_of_le order).1, (bounds_of_le order).2, order_toDegrees order]
  · have less := Int32.not_le.mp order
    have apart : ¬ toDegrees a < toDegrees b := by
      rw [denotes_lt (denotes_toDegrees a) (denotes_toDegrees b), not_lt]
      exact (nearest_degrees_lt less).le
    rw [(bounds_of_lt less).1, (bounds_of_lt less).2, DegreeBox.order, if_neg apart]

end Bounds

theorem sorted_valid (e : Envelope) : e.sorted.Valid := ⟨min_le_max _ _, min_le_max _ _⟩

theorem sorted_of_valid {e : Envelope} (valid : e.Valid) : e.sorted = e := by
  rw [sorted, (bounds_of_le valid.1).1, (bounds_of_le valid.1).2, (bounds_of_le valid.2).1,
    (bounds_of_le valid.2).2]

theorem toBox_sorted (e : Envelope) : e.toBox = e.sorted.toBox := by
  rw [toBox_eq e.sorted_valid, toBox, DegreeBox.ofCorners, order_bounds, order_bounds]
  rfl

theorem coordinate_toDegrees (n : Int32) : coordinate (toDegrees n) = .ok n := by
  rw [coordinate, ofDegrees?_toDegrees]

theorem ofBox_of_valid {e : Envelope} (valid : e.Valid) : ofBox e.toBox = .ok e := by
  simp only [toBox_eq valid, ofBox, ofDegrees, coordinate_toDegrees, ok_bind]
  exact make_eq_ok_iff.mpr ⟨rfl, valid⟩

/-- An envelope turned into a box and back has its bounds in order, so it is the same envelope
exactly when its own check passes. Each bound alone returns whatever it is: a quotient and a
product are rounded to nearest, and the integer nearest to the outcome is the one it was. -/
theorem ofBox_toBox (e : Envelope) :
    ofBox e.toBox = .ok e.sorted ∧ (ofBox e.toBox = .ok e ↔ e.check = .ok ()) ∧
    ∀ n : Int32, Denotes (toDegrees n) ((nearest (n.toInt / 10 ^ 7) : ℚ) : Line) ∧
      Denotes (toDegrees n * unitsPerDegree)
        ((nearest (nearest (n.toInt / 10 ^ 7) * 10 ^ 7) : ℚ) : Line) ∧
      nearest? (toDegrees n * unitsPerDegree) =
        some (nearestAway (nearest (nearest (n.toInt / 10 ^ 7) * 10 ^ 7))) ∧
      nearestAway (nearest (nearest (n.toInt / 10 ^ 7) * 10 ^ 7)) = n.toInt ∧
      coordinate (toDegrees n) = .ok n := by
  have back : ofBox e.toBox = .ok e.sorted := by
    rw [toBox_sorted, ofBox_of_valid e.sorted_valid]
  refine ⟨back, ?_, fun n => ⟨denotes_toDegrees n, denotes_product n,
    nearest?_eq (denotes_product n), nearestAway_product n, coordinate_toDegrees n⟩⟩
  rw [back, check_eq_ok_iff, Except.ok.injEq]
  constructor
  · intro same
    rw [← same]
    exact e.sorted_valid
  · exact sorted_of_valid

end MercatorGrid.Envelope
