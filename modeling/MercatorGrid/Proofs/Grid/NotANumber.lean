import MercatorGrid.Proofs.Binary64.NotANumber
import MercatorGrid.Proofs.Grid.Locate
import MercatorGrid.Proofs.Longitude.Centre

/-! Locations that are not numbers.
Construction and conversion refuse a coordinate that is not a number. A lookup does not test for
it: the coordinate is cast to pixel 0 like any other double of the first pixel, so whether a point
is found depends on where the grid lies. Of the elementary functions only this is assumed, that
they make no number of what is not one. -/
namespace MercatorGrid
open Binary64 Mercator

/-- What is not a number has neither a tangent nor a logarithm. -/
structure Elementary.KeepsNaN (fns : Elementary Float) : Prop where
  tan : ∀ x, x.isNaN = true → (fns.tan x).isNaN = true
  log : ∀ x, x.isNaN = true → (fns.log x).isNaN = true

namespace Mercator

theorem columnOf_of_isNaN (zoom : ℕ) {lon : Float} (nan : lon.isNaN = true) :
    columnOf zoom lon = 0 :=
  floor32_of_isNaN (isNaN_mul (isNaN_div (isNaN_add nan 180.0) 360.0) (worldSize zoom))

theorem rowOf_of_isNaN {fns : Elementary Float} (keeps : fns.KeepsNaN) (zoom : ℕ) {lat : Float}
    (nan : lat.isNaN = true) : rowOf fns zoom lat = 0 := by
  have tangent := keeps.tan _ (isNaN_mul nan (fns.pi / 180.0))
  have northing := keeps.log _ (isNaN_add tangent (1.0 / fns.cos (lat * (fns.pi / 180.0))))
  have half := isNaN_div (isNaN_sub (isNaN_div northing fns.pi) 1.0) 2.0
  have row := isNaN_mul half (worldSize zoom)
  simp only [rowOf, yOfLatitude, clamp_of_isNaN nan, clamp_of_isNaN row]
  exact floor32_of_isNaN row

def careful : Elementary Float :=
  { stepped with
    tan := fun x => if x.isNaN then x else stepped.tan x
    log := fun x => if x.isNaN then x else stepped.log x }

theorem careful_keepsNaN : careful.KeepsNaN where
  tan x nan := by simp only [careful, nan, if_true]
  log x nan := by simp only [careful, nan, if_true]

end Mercator

namespace Placement

def HasColumn (p : Placement) (x : ℤ) : Prop :=
  p.west.toInt ≤ x ∧ x < p.west.toInt + p.width.toInt

def HasRow (p : Placement) (y : ℤ) : Prop :=
  p.north.toInt ≤ y ∧ y < p.north.toInt + p.height.toInt

theorem covers_iff {p : Placement} {x y : ℤ} : p.Covers x y ↔ p.HasColumn x ∧ p.HasRow y :=
  and_assoc.symm

theorem Accepted.pointAt_eq_none_iff_parts {p : Placement} (accepted : p.Accepted) {x y : Int32} :
    p.pointAt x y = .ok none ↔ ¬ (p.HasColumn x.toInt ∧ p.HasRow y.toInt) := by
  rw [accepted.pointAt_eq_none_iff, covers_iff]

theorem Accepted.hasColumn_west {p : Placement} (accepted : p.Accepted) :
    p.HasColumn p.west.toInt := by
  have positive := accepted.2.1
  constructor <;> omega

end Placement

namespace Grid

/-- A coordinate that is not a number stands for the first column or the first row of the plane.
So no such location has a point exactly on the grids without that row that also lack that column,
or lack the row of every latitude. -/
theorem locate_not_a_number {zoom west north width height : Int32} {g : Grid}
    (made : Placement.make zoom west north width height = .ok g.placement)
    {fns : Elementary Float} (keeps : fns.KeepsNaN) :
    (∀ lon lat : Float, lon.isNaN = true → g.locate fns lon lat =
      g.placement.pointAt 0 (Mercator.rowOf fns g.placement.zoom lat)) ∧
    (∀ lon lat : Float, lat.isNaN = true → g.locate fns lon lat =
      g.placement.pointAt (Mercator.columnOf g.placement.zoom lon) 0) ∧
    ((∀ lon lat : Float, lon.isNaN = true ∨ lat.isNaN = true →
        g.locate fns lon lat = .ok none) ↔
      ¬ g.placement.HasRow 0 ∧ (g.placement.HasColumn 0 → ∀ lat,
        ¬ g.placement.HasRow (Mercator.rowOf fns g.placement.zoom lat).toInt)) := by
  obtain ⟨-, -, -, -, -, accepted⟩ := Placement.make_eq_ok_iff.mp made
  have column : ∀ lon lat : Float, lon.isNaN = true → g.locate fns lon lat =
      g.placement.pointAt 0 (Mercator.rowOf fns g.placement.zoom lat) := by
    intro lon lat nan
    rw [locate_eq accepted, columnOf_of_isNaN _ nan]
  have row : ∀ lon lat : Float, lat.isNaN = true → g.locate fns lon lat =
      g.placement.pointAt (Mercator.columnOf g.placement.zoom lon) 0 := by
    intro lon lat nan
    rw [locate_eq accepted, rowOf_of_isNaN keeps _ nan]
  refine ⟨column, row, ?_, ?_⟩
  · intro nowhere
    constructor
    · -- some longitude is in a column of the grid
      intro has
      have none := nowhere (westEdge g.placement.zoom g.placement.west) notANumber (.inr rfl)
      rw [row _ _ rfl, columnOf_westEdge accepted.shallow,
        accepted.pointAt_eq_none_iff_parts] at none
      exact none ⟨accepted.hasColumn_west, has⟩
    · intro has lat there
      have none := nowhere notANumber lat (.inl rfl)
      rw [column _ _ rfl, accepted.pointAt_eq_none_iff_parts] at none
      exact none ⟨has, there⟩
  · rintro ⟨noRow, noColumn⟩ lon lat (nan | nan)
    · rw [column _ _ nan, accepted.pointAt_eq_none_iff_parts]
      rintro ⟨has, there⟩
      exact noColumn has lat there
    · rw [row _ _ nan, accepted.pointAt_eq_none_iff_parts]
      exact fun found => noRow found.2

theorem locate_not_a_number_in_world :
    Placement.make 0 0 0 256 256 = .ok ⟨0, 0, 0, 256, 256⟩ ∧ careful.KeepsNaN ∧
      notANumber.isNaN = true ∧
      Grid.locate careful ⟨⟨0, 0, 0, 256, 256⟩, none⟩ notANumber 60.0 = .ok (some 18944) ∧
      Grid.locate careful ⟨⟨0, 0, 0, 256, 256⟩, none⟩ 0.0 notANumber = .ok (some 128) := by
  have made : Placement.make 0 0 0 256 256 = .ok ⟨0, 0, 0, 256, 256⟩ := rfl
  obtain ⟨column, row, -⟩ := locate_not_a_number
    (g := ⟨⟨0, 0, 0, 256, 256⟩, none⟩) made careful_keepsNaN
  refine ⟨made, careful_keepsNaN, rfl, ?_, ?_⟩
  · rw [column _ _ rfl]
    exact eq_ok_of_toOption (by decide +kernel)
  · rw [row _ _ rfl]
    exact eq_ok_of_toOption (by decide +kernel)

/-- One column with every row of the plane and the one after its last. Conversion and construction
refuse the longitude for which the lookup finds a point. -/
theorem locate_finds_not_a_number :
    Placement.make 0 0 0 1 257 = .ok ⟨0, 0, 0, 1, 257⟩ ∧ notANumber.isNaN = true ∧
      (∃ i < 257, Grid.locate Elementary.native ⟨⟨0, 0, 0, 1, 257⟩, none⟩ notANumber 0.0 =
        .ok (some i)) ∧
      Envelope.coordinate notANumber = .error (.envelopeInvalid (.unrepresentable notANumber)) ∧
      ∃ fault, Placement.covering Elementary.native (.ofCorners notANumber 0.0 notANumber 0.0) 0 =
        .error (.refused (.envelopeInvalid fault)) := by
  have made : Placement.make 0 0 0 1 257 = .ok ⟨0, 0, 0, 1, 257⟩ := rfl
  have accepted : Placement.Accepted ⟨0, 0, 0, 1, 257⟩ := by decide
  have range := rowOf_range Elementary.native accepted.shallow 0.0
  refine ⟨made, rfl, ?_, rfl, _, rfl⟩
  rw [locate_eq accepted, columnOf_of_isNaN _ rfl]
  apply accepted.exists_pointAt_iff.mpr
  exact ⟨by decide, by decide, range.1, lt_of_le_of_lt range.2 (by decide)⟩

end Grid
end MercatorGrid
