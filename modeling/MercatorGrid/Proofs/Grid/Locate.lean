import MercatorGrid.Proofs.Grid.Covering

namespace MercatorGrid
open Binary64 Mercator

/-- The pixel of a location is one of the plane. Rows are never negative. -/
def Mercator.OnPlane (fns : Elementary Float) (zoom : ℕ) (lon lat : Float) : Prop :=
  0 ≤ (columnOf zoom lon).toInt ∧ (columnOf zoom lon).toInt < worldPixels zoom ∧
    (rowOf fns zoom lat).toInt < worldPixels zoom

instance (fns : Elementary Float) (zoom : ℕ) (lon lat : Float) :
    Decidable (OnPlane fns zoom lon lat) := inferInstanceAs (Decidable (_ ∧ _))

namespace Grid

theorem locate_of_level {g : Grid} (leveled : g.placement.level = .ok g.placement.zoom)
    (fns : Elementary Float) (lon lat : Float) : g.locate fns lon lat =
      g.placement.pointAt (Mercator.columnOf g.placement.zoom lon)
        (Mercator.rowOf fns g.placement.zoom lat) := by
  simp only [locate, columnOf, rowOf, leveled, ok_bind, pure_ok]

theorem locate_eq {g : Grid} (accepted : g.placement.Accepted) (fns : Elementary Float)
    (lon lat : Float) : g.locate fns lon lat =
      g.placement.pointAt (Mercator.columnOf g.placement.zoom lon)
        (Mercator.rowOf fns g.placement.zoom lat) :=
  locate_of_level accepted.level_eq fns lon lat

theorem covers_iff_onPlane {fns : Elementary Float} {b : DegreeBox} {zoom : Int32}
    {p : Placement} (built : Placement.covering fns b zoom = .ok p)
    (falls : RowsFallBetween fns p.zoom b.minLat b.maxLat) {lon lat : Float}
    (east : b.minLon ≤ lon) (west : lon ≤ b.maxLon) (north : b.minLat ≤ lat)
    (south : lat ≤ b.maxLat) :
    p.Covers (Mercator.columnOf p.zoom lon).toInt (Mercator.rowOf fns p.zoom lat).toInt ↔
      OnPlane fns p.zoom lon lat := by
  obtain ⟨-, accepted, first, last, top, bottom⟩ := Placement.covering_edges built
  have shallow := accepted.shallow
  have world := worldPixels_range shallow
  have rows := rowOf_range fns shallow lat
  have right := columnOf_le shallow east
  have left := columnOf_le shallow west
  have above := Int32.le_iff_toInt_le.mp
    (falls _ _ (le_self_of_le north).1 north south)
  have below := Int32.le_iff_toInt_le.mp
    (falls _ _ north south (le_self_of_le south).2)
  simp only [Placement.Covers, OnPlane]
  simp only [Placement.withinPlane] at first last top bottom
  omega

/-- A location between the bounds of the box a grid was built for has a point if and only if its
pixel is one of the plane. -/
theorem locate_of_covering {fns : Elementary Float} {b : DegreeBox} {zoom : Int32} {g : Grid}
    (built : Grid.covering fns b zoom = .ok g)
    (falls : RowsFallBetween fns g.placement.zoom b.minLat b.maxLat) {lon lat : Float}
    (east : b.minLon ≤ lon) (west : lon ≤ b.maxLon) (north : b.minLat ≤ lat)
    (south : lat ≤ b.maxLat) :
    zoom.toInt = g.placement.zoom ∧ ∃ count, g.pointCount = .ok count ∧
      ((∃ i < count, g.locate fns lon lat = .ok (some i)) ↔
        OnPlane fns g.placement.zoom lon lat) ∧
      (g.locate fns lon lat = .ok none ↔ ¬ OnPlane fns g.placement.zoom lon lat) ∧
      (OnPlane fns g.placement.zoom lon lat →
        g.placement.Covers (Mercator.columnOf g.placement.zoom lon).toInt
          (Mercator.rowOf fns g.placement.zoom lat).toInt) := by
  have placed := placement_of_covering built
  obtain ⟨same, accepted, -⟩ := Placement.covering_edges placed
  have covers := covers_iff_onPlane placed falls east west north south
  refine ⟨same, g.placement.points, accepted.pointCount_eq, ?_, ?_, covers.mpr⟩
  · simp only [locate_eq accepted]
    exact accepted.exists_pointAt_iff.trans covers
  · rw [locate_eq accepted, accepted.pointAt_eq_none_iff, covers]

theorem locate_of_covering_across_antimeridian :
    Grid.covering stepped (DegreeBox.ofCorners 200.0 60.0 170.0 (-60.0)) 2 =
        .ok ⟨⟨2, 995, 297, 29, 430⟩, none⟩ ∧
      RowsFallBetween stepped 2 (-60.0) 60.0 ∧
      (∃ i < 12470, Grid.locate stepped ⟨⟨2, 995, 297, 29, 430⟩, none⟩ 175.0 0.0 =
        .ok (some i)) ∧
      Grid.locate stepped ⟨⟨2, 995, 297, 29, 430⟩, none⟩ 190.0 0.0 = .ok none := by
  have placed : Placement.covering stepped (DegreeBox.ofCorners 200.0 60.0 170.0 (-60.0)) 2 =
      .ok ⟨2, 995, 297, 29, 430⟩ := eq_ok_of_toOption (by decide +kernel)
  have built : Grid.covering stepped (DegreeBox.ofCorners 200.0 60.0 170.0 (-60.0)) 2 =
      .ok ⟨⟨2, 995, 297, 29, 430⟩, none⟩ := covering_of_placement placed
  have falls : ∀ low high, RowsFallBetween stepped 2 low high :=
    stepped_rowsFallBetween (by decide)
  have north : -60.0 ≤ (0.0 : Float) := by decide +kernel
  have south : (0.0 : Float) ≤ 60.0 := by decide +kernel
  have east : 170.0 ≤ (175.0 : Float) ∧ 170.0 ≤ (190.0 : Float) := by decide +kernel
  have west : (175.0 : Float) ≤ 200.0 ∧ (190.0 : Float) ≤ 200.0 := by decide +kernel
  obtain ⟨-, count, counted, inside, -⟩ :=
    locate_of_covering built (falls _ _) east.1 west.1 north south
  obtain ⟨-, -, -, -, outside, -⟩ :=
    locate_of_covering built (falls _ _) east.2 west.2 north south
  obtain rfl : 12470 = count := Except.ok.inj counted
  exact ⟨built, falls _ _, inside.mpr (by decide +kernel), outside.mpr (by decide +kernel)⟩

end Grid
end MercatorGrid
