import MercatorGrid.Proofs.Grid.Covering
import MercatorGrid.Proofs.Longitude.Globe

/-! Grids of float boxes, asked for their fixed-point conversion.
Construction projects the bounds as doubles, a query projects the nearest fixed-point values. Each
of the two meridians moves by a column at most, so only the outermost columns can be missed. -/
namespace MercatorGrid
open FixedPoint Mercator

namespace DegreeBox

theorem order_all {P : Float → Prop} {a b : Float} (ha : P a) (hb : P b) :
    P (order a b).1 ∧ P (order a b).2 := by
  unfold order
  split
  · exact ⟨ha, hb⟩
  · exact ⟨hb, ha⟩

end DegreeBox

namespace Placement
variable {fns : Elementary Float} {b : DegreeBox} {zoom : Int32} {p : Placement} {e : Envelope}

/-- The query begins by the second column and ends no earlier than at the last but one. A bound
beyond the plane's last column is moved to it by construction, and no fixed-point value of the
globe lies further out than the column after it. -/
theorem columns_of_converted (built : covering fns b zoom = .ok p) (west : OnGlobe b.minLon)
    (east : OnGlobe b.maxLon) (converted : Envelope.ofBox b = .ok e) :
    (columnOf p.zoom (toDegrees e.minLon)).toInt ≤ p.west.toInt + 1 ∧
      p.west.toInt + p.width.toInt - 2 ≤ (columnOf p.zoom (toDegrees e.maxLon)).toInt := by
  obtain ⟨-, accepted, first, last, -⟩ := covering_edges built
  have shallow := accepted.shallow
  obtain ⟨hwest, heast, -⟩ := Envelope.ofBox_eq_ok_iff.mp converted
  obtain ⟨n, same, low, high⟩ := exists_coordinate west
  rw [hwest] at same
  cases same
  have before := columnOf_range shallow west
  have after := columnOf_range shallow east
  have begins := columnOf_range shallow (onGlobe_toDegrees low high)
  have left := abs_le.mp (columnOf_converted shallow west hwest)
  have right := abs_le.mp (columnOf_converted shallow east heast)
  simp only [withinPlane] at first last
  omega

end Placement

namespace Envelope
variable {lon₁ lat₁ lon₂ lat₂ : Float} {b : DegreeBox}

theorem exists_ofBox_of_globe (corners : DegreeBox.ofCorners lon₁ lat₁ lon₂ lat₂ = b)
    (first : OnGlobe lon₁) (second : OnGlobe lon₂) {m n : Int32}
    (south : coordinate lat₁ = .ok m) (north : coordinate lat₂ = .ok n) :
    ∃ e, ofBox b = .ok e ∧ OnGlobe b.minLon ∧ OnGlobe b.maxLon := by
  have lons : OnGlobe b.minLon ∧ OnGlobe b.maxLon := by
    subst corners
    exact DegreeBox.order_all first second
  have lats : (∃ k, coordinate b.minLat = .ok k) ∧ ∃ k, coordinate b.maxLat = .ok k := by
    subst corners
    exact DegreeBox.order_all (P := fun d => ∃ k, coordinate d = .ok k) ⟨m, south⟩ ⟨n, north⟩
  obtain ⟨west, hwest, -⟩ := exists_coordinate lons.1
  obtain ⟨east, heast, -⟩ := exists_coordinate lons.2
  obtain ⟨e, converted⟩ := (exists_ofBox_iff corners).mpr (by
    simp only [DegreeBox.coordinates, List.forall_mem_cons, List.not_mem_nil, IsEmpty.forall_iff,
      implies_true, and_true]
    exact ⟨⟨west, hwest⟩, ⟨east, heast⟩, lats⟩)
  exact ⟨e, converted, lons⟩

end Envelope

namespace Grid

def ReachesRow (fns : Elementary Float) (zoom : ℕ) (e : Envelope) (y : ℤ) : Prop :=
  (Mercator.rowOf fns zoom (toDegrees e.maxLat)).toInt ≤ y ∧
    y ≤ (Mercator.rowOf fns zoom (toDegrees e.minLat)).toInt

instance (fns : Elementary Float) (zoom : ℕ) (e : Envelope) (y : ℤ) :
    Decidable (ReachesRow fns zoom e y) := inferInstanceAs (Decidable (_ ∧ _))

/-- Any longitude of the globe has a fixed-point value, at most a column away from it. So a grid
built for a box of such longitudes and asked for the conversion of the box returns every point of
an inner column whose row is asked for: only the first and the last column can be missed. -/
theorem pointsIn_of_converted :
    (∀ zoom ≤ deepestZoom, ∀ lon, OnGlobe lon → ∃ n, Envelope.coordinate lon = .ok n ∧
      |(Mercator.columnOf zoom (toDegrees n)).toInt - (Mercator.columnOf zoom lon).toInt| ≤ 1) ∧
    ∀ {fns : Elementary Float} {lon₁ lat₁ lon₂ lat₂ : Float} {b : DegreeBox} {zoom : Int32}
      {g : Grid} {m n : Int32}, DegreeBox.ofCorners lon₁ lat₁ lon₂ lat₂ = b →
      OnGlobe lon₁ → OnGlobe lon₂ → Grid.covering fns b zoom = .ok g →
      Envelope.coordinate lat₁ = .ok m → Envelope.coordinate lat₂ = .ok n →
      ∃ e count points, Envelope.ofBox b = .ok e ∧ g.pointCount = .ok count ∧
        g.pointsIn fns e = .ok points ∧
        ∀ i < count, ∃ column row, g.placement.cell? i = .ok (some (column, row)) ∧
          (0 < column.toInt → column.toInt + 1 < g.placement.width.toInt →
            (i ∈ points ↔ ReachesRow fns g.placement.zoom e
              (g.placement.north.toInt + row.toInt))) := by
  constructor
  · intro zoom shallow lon on
    obtain ⟨n, converted, -⟩ := exists_coordinate on
    exact ⟨n, converted, columnOf_converted shallow on converted⟩
  · intro fns lon₁ lat₁ lon₂ lat₂ b zoom g m n corners first second built south north
    have accepted := accepted_of_covering built
    obtain ⟨e, converted, west, east⟩ :=
      Envelope.exists_ofBox_of_globe corners first second south north
    have valid := (Envelope.ofBox_eq_ok_iff.mp converted).2.2.2.2
    have columns :=
      Placement.columns_of_converted (placement_of_covering built) west east converted
    refine ⟨e, _, _, converted, accepted.pointCount_eq, pointsIn_of_valid accepted valid, ?_⟩
    intro i inside
    obtain ⟨column, row, cell, across, down⟩ := accepted.exists_cell inside
    refine ⟨column, row, cell, ?_⟩
    intro after before
    rw [mem_touched_iff, pixel, ← across, ← down, Envelope.Touches, ReachesRow]
    omega

/-- The outer columns are missed here: the western bound lies just before the edge of a column and
is rounded to a unit after it, the eastern one the other way round. -/
theorem pointsIn_of_converted_between_edges :
    OnGlobe 10.00000376 ∧ OnGlobe 10.00000444 ∧
      Grid.covering stepped (DegreeBox.ofCorners 10.00000444 0.0 10.00000376 0.0) 22 =
        .ok ⟨⟨22, 566697084, 536870912, 4, 1⟩, none⟩ ∧
      Envelope.coordinate 0.0 = .ok 0 ∧
      ∃ e points, Envelope.ofBox (DegreeBox.ofCorners 10.00000444 0.0 10.00000376 0.0) = .ok e ∧
        Grid.pointsIn stepped ⟨⟨22, 566697084, 536870912, 4, 1⟩, none⟩ e = .ok points ∧
        0 ∉ points ∧ 1 ∈ points ∧ 2 ∈ points ∧ 3 ∉ points := by
  have first : OnGlobe 10.00000444 := by decide +kernel
  have second : OnGlobe 10.00000376 := by decide +kernel
  have placed : Placement.covering stepped (DegreeBox.ofCorners 10.00000444 0.0 10.00000376 0.0)
      22 = .ok ⟨22, 566697084, 536870912, 4, 1⟩ := eq_ok_of_toOption (by decide +kernel)
  have built := covering_of_placement placed
  have equator : Envelope.coordinate 0.0 = .ok 0 := eq_ok_of_toOption (by decide +kernel)
  obtain ⟨-, within⟩ := pointsIn_of_converted
  obtain ⟨e, count, points, converted, counted, listed, inner⟩ :=
    within rfl first second built equator equator
  have same : Envelope.ofBox (DegreeBox.ofCorners 10.00000444 0.0 10.00000376 0.0) =
      .ok ⟨100000038, 100000044, 0, 0⟩ := eq_ok_of_toOption (by decide +kernel)
  obtain rfl : ⟨100000038, 100000044, 0, 0⟩ = e := Except.ok.inj (same.symm.trans converted)
  obtain rfl : 4 = count := Except.ok.inj counted
  have answer : Grid.pointsIn stepped ⟨⟨22, 566697084, 536870912, 4, 1⟩, none⟩
      ⟨100000038, 100000044, 0, 0⟩ = .ok [1, 2] := eq_ok_of_toOption (by decide +kernel)
  have pair := Except.ok.inj (listed.symm.trans answer)
  refine ⟨second, first, built, equator, _, points, converted, listed, ?_, ?_, ?_, ?_⟩
  · rw [pair]
    decide
  · obtain ⟨column, row, cell, member⟩ := inner 1 (by norm_num)
    cases (Except.ok.inj cell : some (1, 0) = some (column, row))
    exact (member (by decide) (by decide)).mpr (by decide +kernel)
  · obtain ⟨column, row, cell, member⟩ := inner 2 (by norm_num)
    cases (Except.ok.inj cell : some (2, 0) = some (column, row))
    exact (member (by decide) (by decide)).mpr (by decide +kernel)
  · rw [pair]
    decide

end Grid
end MercatorGrid
