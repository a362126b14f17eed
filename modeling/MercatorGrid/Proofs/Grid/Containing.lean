import MercatorGrid.Proofs.Grid.Covering
import MercatorGrid.Proofs.Placement.Edges

/-! Envelopes that contain a grid.
The box of a grid's outer edges begins on the boundaries of pixels, where the last digit of a
double could decide about a whole column. The longitudes of the edges are exact, so it does not;
for the rows it is enough that an edge comes back to less than a pixel from where it was. -/
namespace MercatorGrid
open Binary64 FixedPoint Mercator

namespace Placement

/-- Each pixel of the rectangle is touched: an edge of the envelope lies on the same side of it as
the edge of the rectangle, or on the boundary between the two. -/
theorem Accepted.touches_of_contains {p : Placement} (accepted : p.Accepted)
    {fns : Elementary Float} {e : Envelope} (valid : e.Valid) {b : DegreeBox}
    (bounded : p.bounds fns = .ok b) (contains : e.toBox.Contains b)
    (falls : RowsFallBetween fns p.zoom e.toBox.minLat e.toBox.maxLat)
    (upper : EdgeReturns fns p.zoom p.north) (lower : EdgeReturns fns p.zoom p.south) {x y : ℤ}
    (covers : p.Covers x y) : e.Touches fns p.zoom x y := by
  rw [accepted.bounds_eq] at bounded
  cases bounded
  obtain ⟨⟨⟨west, -⟩, -, east⟩, ⟨low, lowest⟩, highest, high⟩ :=
    DegreeBox.corners_of_contains contains
  have top := Int32.le_iff_toInt_le.mp
    (falls _ _ highest high (le_self_of_le high).2)
  have bottom := Int32.le_iff_toInt_le.mp (falls _ _ (le_self_of_le low).1 low lowest)
  have left := columnOf_le accepted.shallow west
  have right := columnOf_le accepted.shallow east
  simp only [columnOf_westEdge accepted.shallow, accepted.toInt_east] at left right
  have first := upper.row
  have last := lower.row
  simp only [accepted.toInt_south] at last
  simp only [Envelope.toBox_eq valid] at left right top bottom
  simp only [Covers] at covers
  simp only [Envelope.Touches]
  omega

end Placement

namespace Grid

/-- An envelope that contains the outer edges of a grid returns all its points, also where an edge
of the one lies on an edge of the other. -/
theorem pointsIn_of_contains {zoom west north width height : Int32} {g : Grid}
    (made : Placement.make zoom west north width height = .ok g.placement)
    {fns : Elementary Float} {e : Envelope} (valid : e.Valid)
    (falls : RowsFallBetween fns g.placement.zoom e.toBox.minLat e.toBox.maxLat)
    (upper : EdgeReturns fns g.placement.zoom g.placement.north)
    (lower : EdgeReturns fns g.placement.zoom g.placement.south) :
    ∃ b count, g.placement.bounds fns = .ok b ∧ g.pointCount = .ok count ∧
      (e.toBox.Contains b → g.pointsIn fns e = .ok (List.range count)) := by
  obtain ⟨-, -, -, -, -, accepted⟩ := Placement.make_eq_ok_iff.mp made
  refine ⟨_, g.placement.points, accepted.bounds_eq fns, accepted.pointCount_eq, ?_⟩
  intro contains
  rw [pointsIn_of_valid accepted valid, touched_all]
  intro i inside
  exact accepted.touches_of_contains valid (accepted.bounds_eq fns) contains falls upper lower
    (accepted.covers_cell inside)

def northern : Elementary Float :=
  { Elementary.native with
    sinh := fun x => if 0.0 < x then 11.548739357257748 else 0.0
    atan := fun x => if 0.0 < x then 1.4844222297453324 else 0.0
    tan := fun x => if 0.0 < x then 11.548739357257759 else 0.0
    cos := fun x => if 0.0 < x then 0.08626673833405434 else 1.0
    log := fun x => if 1.0 < x then 3.141592653589794 else 0.0 }

theorem pi_northern : northern.pi = stepped.pi := rfl

theorem rowOf_northern (zoom : ℕ) (lat : Float) : Mercator.rowOf northern zoom lat =
    Mercator.rowOf northern zoom (if 0.0 < projected lat then 85.0 else 0.0) := by
  by_cases north : 0.0 < projected lat
  · have there : 0.0 < projected 85.0 := by decide +kernel
    rw [if_pos north]
    apply rowOf_congr pi_northern <;> simp only [northern, north, there, if_true]
  · have beyond : ¬ 0.0 < projected 0.0 := by decide +kernel
    rw [if_neg north]
    apply rowOf_congr pi_northern <;> simp only [northern, north, beyond, if_false]

theorem northern_rowsFallBetween (low high : Float) : RowsFallBetween northern 0 low high := by
  intro a b _ order _
  obtain ⟨v, w, hv, hw, below⟩ := points_of_le (projected_le order)
  rw [rowOf_northern 0 a, rowOf_northern 0 b]
  by_cases north : 0.0 < projected a
  · have after : 0.0 < projected b := (lt_iff_of_denotes denotes_zero hw).mpr
      (lt_of_lt_of_le ((lt_iff_of_denotes denotes_zero hv).mp north) below)
    rw [if_pos north, if_pos after]
    exact Int32.le_refl _
  · rw [if_neg north]
    split
    · decide +kernel
    · exact Int32.le_refl _

theorem northern_edges : EdgeReturns northern 0 0 ∧ EdgeReturns northern 0 128 := by
  have upper : read (yOfLatitude northern 0 (northEdge northern 0 0)) = .finite false 0 0 := by
    decide +kernel
  have lower : read (yOfLatitude northern 0 (northEdge northern 0 128)) =
      .finite false 4503599627370496 (-45) := by
    decide +kernel
  have first : (0 : Int32).toInt = 0 := by decide
  have last : (128 : Int32).toInt = 128 := by decide
  exact ⟨⟨_, denotes_of_read upper, by norm_num [signed, first]⟩,
    ⟨_, denotes_of_read lower, by norm_num [signed, last]⟩⟩

theorem pointsIn_of_contains_northern :
    Placement.make 0 100 0 50 128 = .ok ⟨0, 100, 0, 50, 128⟩ ∧
      (Envelope.mk (-393750000) 309375000 0 850511288).Valid ∧
      RowsFallBetween northern 0 (Envelope.mk (-393750000) 309375000 0 850511288).toBox.minLat
        (Envelope.mk (-393750000) 309375000 0 850511288).toBox.maxLat ∧
      EdgeReturns northern 0 0 ∧ EdgeReturns northern 0 128 ∧
      Grid.pointsIn northern ⟨⟨0, 100, 0, 50, 128⟩, none⟩ ⟨-393750000, 309375000, 0, 850511288⟩ =
        .ok (List.range 6400) := by
  have made : Placement.make 0 100 0 50 128 = .ok ⟨0, 100, 0, 50, 128⟩ := rfl
  have valid : (Envelope.mk (-393750000) 309375000 0 850511288).Valid := by decide
  have falls := northern_rowsFallBetween
    (Envelope.mk (-393750000) 309375000 0 850511288).toBox.minLat
    (Envelope.mk (-393750000) 309375000 0 850511288).toBox.maxLat
  obtain ⟨b, count, bounded, counted, every⟩ :=
    pointsIn_of_contains (g := ⟨⟨0, 100, 0, 50, 128⟩, none⟩) made valid falls northern_edges.1
      northern_edges.2
  obtain rfl : 6400 = count := Except.ok.inj counted
  refine ⟨made, valid, falls, northern_edges.1, northern_edges.2, every ?_⟩
  cases bounded
  decide +kernel

end Grid
end MercatorGrid
