import MercatorGrid.Proofs.Grid.Locate
import MercatorGrid.Proofs.Longitude.Centre

namespace MercatorGrid
open Mercator

/-- The centre of each row of the placement lies in that row. -/
def Placement.RowsReturn (fns : Elementary Float) (p : Placement) : Prop :=
  ∀ y : Int32, p.north.toInt ≤ y.toInt → y.toInt < p.north.toInt + p.height.toInt →
    rowOf fns p.zoom (rowCentre fns p.zoom y) = y

namespace Grid

section Accepted
variable {g : Grid} (accepted : g.placement.Accepted)
include accepted

theorem cell_of_inside {i : ℕ} (inside : i < g.placement.points) : ∃ column row,
    g.placement.cell? i = .ok (some (column, row)) ∧
      Checked.int32 (g.placement.west.toInt + column.toInt) = .ok (Int32.ofInt (g.pixel i).1) ∧
      Checked.int32 (g.placement.north.toInt + row.toInt) = .ok (Int32.ofInt (g.pixel i).2) := by
  obtain ⟨across, down⟩ := accepted.toInt_pixel inside
  obtain ⟨_, _, cell, column, row⟩ := accepted.exists_cell inside
  refine ⟨_, _, cell, ?_, ?_⟩
  · rw [column, Checked.int32_eq_ok_iff]
    exact across
  · rw [row, Checked.int32_eq_ok_iff]
    exact down

theorem longitude_eq (i : ℕ) : g.longitude i = .ok (if i < g.placement.points then
    some (columnCentre g.placement.zoom (Int32.ofInt (g.pixel i).1)) else none) := by
  by_cases inside : i < g.placement.points
  · obtain ⟨column, row, cell, across, -⟩ := cell_of_inside accepted inside
    simp only [longitude, cell, ok_bind, across, accepted.level_eq, pure_ok, inside, if_true]
  · simp only [longitude, accepted.cell?_eq, inside, if_false, ok_bind, pure_ok]

theorem latitude_eq (fns : Elementary Float) (i : ℕ) :
    g.latitude fns i = .ok (if i < g.placement.points then
      some (rowCentre fns g.placement.zoom (Int32.ofInt (g.pixel i).2)) else none) := by
  by_cases inside : i < g.placement.points
  · obtain ⟨column, row, cell, -, down⟩ := cell_of_inside accepted inside
    simp only [latitude, cell, ok_bind, down, accepted.level_eq, pure_ok, inside, if_true]
  · simp only [latitude, accepted.cell?_eq, inside, if_false, ok_bind, pure_ok]

theorem locate_pixel {fns : Elementary Float} (rows : g.placement.RowsReturn fns) {i : ℕ}
    (inside : i < g.placement.points) :
    g.locate fns (columnCentre g.placement.zoom (Int32.ofInt (g.pixel i).1))
      (rowCentre fns g.placement.zoom (Int32.ofInt (g.pixel i).2)) = .ok (some i) := by
  have covers : g.placement.Covers (g.pixel i).1 (g.pixel i).2 := accepted.covers_cell inside
  have column : (Int32.ofInt (g.pixel i).1).toInt = (g.pixel i).1 :=
    (accepted.toInt_pixel inside).1
  have row : (Int32.ofInt (g.pixel i).2).toInt = (g.pixel i).2 := (accepted.toInt_pixel inside).2
  have same := rows (Int32.ofInt (g.pixel i).2) (by rw [row]; exact covers.2.2.1)
    (by rw [row]; exact covers.2.2.2)
  rw [locate_eq accepted, columnOf_columnCentre accepted.shallow, same,
    accepted.pointAt_eq_some_iff]
  exact ⟨inside, column, row⟩

end Accepted

/-- Exactly the numbers below the count have a longitude and a latitude, and where the rows return
these lead back to the point. -/
theorem locate_centre {zoom west north width height : Int32} {g : Grid}
    (made : Placement.make zoom west north width height = .ok g.placement)
    (fns : Elementary Float) :
    ∃ count, g.pointCount = .ok count ∧
      (∀ i, ∃ lon lat, g.longitude i = .ok lon ∧ g.latitude fns i = .ok lat ∧
        (lon.isSome ↔ i < count) ∧ (lat.isSome ↔ i < count)) ∧
      (g.placement.RowsReturn fns → ∀ i < count, ∃ lon lat,
        g.longitude i = .ok (some lon) ∧ g.latitude fns i = .ok (some lat) ∧
          g.locate fns lon lat = .ok (some i)) := by
  obtain ⟨-, -, -, -, -, accepted⟩ := Placement.make_eq_ok_iff.mp made
  refine ⟨g.placement.points, accepted.pointCount_eq, ?_, ?_⟩
  · intro i
    refine ⟨_, _, longitude_eq accepted i, latitude_eq accepted fns i, ?_, ?_⟩
    · by_cases inside : i < g.placement.points <;> simp [inside]
    · by_cases inside : i < g.placement.points <;> simp [inside]
  · intro rows i inside
    refine ⟨_, _, ?_, ?_, locate_pixel accepted rows inside⟩
    · rw [longitude_eq accepted, if_pos inside]
    · rw [latitude_eq accepted, if_pos inside]

/-- Functions that agree with the usual ones on the centres of the two rows beside the equator at
zoom 2. -/
def besideEquator : Elementary Float :=
  { Elementary.native with
    sinh := fun x => if x < 0.0 then -0.003067966388580997 else 0.003067966388580997
    atan := fun x => if x < 0.0 then -0.0030679567629749143 else 0.0030679567629749143
    tan := fun x => if x < 0.0 then -0.003067966388580997 else 0.003067966388580997
    cos := fun _ => 0.9999952938243416
    log := fun x => if x < 1.0 then -0.003067961575771155 else 0.0030679615757712403 }

theorem besideEquator_rowsReturn :
    Placement.RowsReturn besideEquator ⟨2, -5, 511, 3, 2⟩ := by
  intro y first last
  have upper : (511 : Int32).toInt = 511 := by decide
  have lower : (512 : Int32).toInt = 512 := by decide
  have tall : (2 : Int32).toInt = 2 := by decide
  dsimp only at first last
  rcases (by omega : y.toInt = 511 ∨ y.toInt = 512) with row | row
  · obtain rfl : y = 511 := Int32.toInt_inj.mp (row.trans upper.symm)
    decide +kernel
  · obtain rfl : y = 512 := Int32.toInt_inj.mp (row.trans lower.symm)
    decide +kernel

theorem locate_centre_beside_equator :
    Placement.make 2 (-5) 511 3 2 = .ok ⟨2, -5, 511, 3, 2⟩ ∧
      Placement.RowsReturn besideEquator ⟨2, -5, 511, 3, 2⟩ ∧
      ∀ i < 6, ∃ lon lat, Grid.longitude ⟨⟨2, -5, 511, 3, 2⟩, none⟩ i = .ok (some lon) ∧
        Grid.latitude besideEquator ⟨⟨2, -5, 511, 3, 2⟩, none⟩ i = .ok (some lat) ∧
        Grid.locate besideEquator ⟨⟨2, -5, 511, 3, 2⟩, none⟩ lon lat = .ok (some i) := by
  have made : Placement.make 2 (-5) 511 3 2 = .ok ⟨2, -5, 511, 3, 2⟩ := rfl
  obtain ⟨count, counted, -, found⟩ :=
    locate_centre (g := ⟨⟨2, -5, 511, 3, 2⟩, none⟩) made besideEquator
  obtain rfl : 6 = count := Except.ok.inj counted
  exact ⟨made, besideEquator_rowsReturn, found besideEquator_rowsReturn⟩

end Grid
end MercatorGrid
