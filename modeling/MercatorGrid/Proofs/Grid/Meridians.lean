import MercatorGrid.Proofs.Grid.Centre
import MercatorGrid.Proofs.Placement.Edges

namespace MercatorGrid
open Binary64 Mercator

namespace Grid

/-- The bounds of the box are the outer meridians of the grid, as they were computed and with no
rounding, and the points have exact longitudes between them that rise with their columns. -/
structure Spanned (g : Grid) (count : ℕ) (b : DegreeBox) : Prop where
  kept : b.minLon = longitudeOfX g.placement.zoom (Float.ofInt g.placement.west.toInt) ∧
    b.maxLon = longitudeOfX g.placement.zoom
      (Float.ofInt (g.placement.west.toInt + g.placement.width.toInt))
  west : Denotes b.minLon (exactLongitude g.placement.zoom g.placement.west.toInt : Line)
  east : Denotes b.maxLon (exactLongitude g.placement.zoom
    (g.placement.west.toInt + g.placement.width.toInt) : Line)
  point : ∀ i < count, ∃ column row lon, g.placement.cell? i = .ok (some (column, row)) ∧
    g.longitude i = .ok (some lon) ∧ b.minLon < lon ∧ lon < b.maxLon ∧
    Denotes lon (exactLongitude g.placement.zoom
      (g.placement.west.toInt + column.toInt + 1 / 2) : Line)
  rising : ∀ {i j : ℕ} {column row column' row' : Int32} {lon lon' : Float},
    g.placement.cell? i = .ok (some (column, row)) →
    g.placement.cell? j = .ok (some (column', row')) →
    g.longitude i = .ok (some lon) → g.longitude j = .ok (some lon') →
    (lon < lon' ↔ column < column')

section Accepted
variable {g : Grid} (accepted : g.placement.Accepted)
include accepted

theorem longitude_of_cell {i : ℕ} {column row : Int32}
    (cell : g.placement.cell? i = .ok (some (column, row))) : ∃ x : Int32,
      x.toInt = g.placement.west.toInt + column.toInt ∧
      g.longitude i = .ok (some (columnCentre g.placement.zoom x)) := by
  obtain ⟨inside, across, -⟩ := accepted.cell?_eq_some_iff.mp cell
  have longitude := longitude_eq accepted i
  rw [if_pos inside] at longitude
  exact ⟨_, across ▸ (accepted.toInt_pixel inside).1, longitude⟩

theorem spanned_bounds (fns : Elementary Float) :
    ∃ b, g.placement.bounds fns = .ok b ∧ g.Spanned g.placement.points b := by
  have shallow := accepted.shallow
  have less : g.placement.west.toInt < g.placement.east.toInt := by
    rw [accepted.toInt_east]
    exact lt_add_of_pos_right _ accepted.2.1
  have sum : (g.placement.east.toInt : ℚ) =
      g.placement.west.toInt + g.placement.width.toInt := by
    rw [accepted.toInt_east]
    push_cast
    rfl
  refine ⟨_, accepted.bounds_eq fns, ?_⟩
  simp only [DegreeBox.ofCorners, order_westEdge shallow less]
  constructor
  case kept =>
    rw [← accepted.toInt_east]
    exact ⟨rfl, rfl⟩
  case west => exact denotes_westEdge shallow _
  case east => exact sum ▸ denotes_westEdge shallow g.placement.east
  case point =>
    intro i inside
    obtain ⟨column, row, cell, across, -⟩ := accepted.exists_cell inside
    obtain ⟨x, place, longitude⟩ := longitude_of_cell accepted cell
    have narrow := accepted.lt_columns (i := i)
    have width := accepted.width_eq
    have east := accepted.toInt_east
    refine ⟨column, row, _, cell, longitude, westEdge_lt_columnCentre shallow (by omega),
      columnCentre_lt_westEdge shallow (by omega), ?_⟩
    have centre := denotes_columnCentre shallow x
    rw [place] at centre
    push_cast at centre
    exact centre
  case rising =>
    intro i j column row column' row' lon lon' hi hj hlon hlon'
    obtain ⟨x, place, longitude⟩ := longitude_of_cell accepted hi
    obtain ⟨y, place', longitude'⟩ := longitude_of_cell accepted hj
    rw [longitude] at hlon
    rw [longitude'] at hlon'
    cases hlon
    cases hlon'
    rw [columnCentre_lt_iff shallow, Int32.lt_iff_toInt_lt, place, place']
    omega

end Accepted

/-- Pixel columns have exact longitudes there and back, edges and centres alike, at every zoom and
also outside the plane. So the box of a grid's edges has the exact outer meridians for its bounds,
none exchanged, and the points lie strictly between them in the order of their columns. -/
theorem longitudes_exact :
    (∀ zoom ≤ deepestZoom, ∀ x : Int32,
      Unrounded zoom (ofInt32 x) x.toInt ∧ Mercator.columnOf zoom (westEdge zoom x) = x ∧
      Unrounded zoom (ofInt32 x + 0.5) (x.toInt + 1 / 2) ∧
      Mercator.columnOf zoom (columnCentre zoom x) = x) ∧
    ∀ {zoom west north width height : Int32} {g : Grid},
      Placement.make zoom west north width height = .ok g.placement → ∀ fns : Elementary Float,
        ∃ count b, g.pointCount = .ok count ∧ g.placement.bounds fns = .ok b ∧
          g.Spanned count b := by
  refine ⟨fun zoom shallow x => ⟨unrounded_edge shallow x, columnOf_westEdge shallow x,
    unrounded_centre shallow x, columnOf_columnCentre shallow x⟩, ?_⟩
  intro zoom west north width height g made fns
  obtain ⟨-, -, -, -, -, accepted⟩ := Placement.make_eq_ok_iff.mp made
  obtain ⟨b, bounded, spanned⟩ := spanned_bounds accepted fns
  exact ⟨_, b, accepted.pointCount_eq, bounded, spanned⟩

theorem longitudes_exact_at_far_corner :
    22 ≤ deepestZoom ∧ Mercator.columnOf 22 (westEdge 22 2147483647) = 2147483647 ∧
      Placement.make 22 2147483644 (-2147483648) 3 2 =
        .ok ⟨22, 2147483644, -2147483648, 3, 2⟩ ∧
      ∃ b, Placement.bounds Elementary.native ⟨22, 2147483644, -2147483648, 3, 2⟩ = .ok b ∧
        Denotes b.minLon ((540 - 45 / 2 ^ 25 : ℚ) : Line) ∧
        Denotes b.maxLon ((540 - 45 / 2 ^ 27 : ℚ) : Line) ∧
        ∀ i < 6, ∃ lon, Grid.longitude ⟨⟨22, 2147483644, -2147483648, 3, 2⟩, none⟩ i =
          .ok (some lon) ∧ b.minLon < lon ∧ lon < b.maxLon := by
  have shallow : 22 ≤ deepestZoom := by decide
  have made : Placement.make 22 2147483644 (-2147483648) 3 2 =
      .ok ⟨22, 2147483644, -2147483648, 3, 2⟩ := rfl
  have first : (2147483644 : Int32).toInt = 2147483644 := by decide
  have width : (3 : Int32).toInt = 3 := by decide
  obtain ⟨pixels, grids⟩ := longitudes_exact
  obtain ⟨count, b, counted, bounded, spanned⟩ :=
    grids (g := ⟨⟨22, 2147483644, -2147483648, 3, 2⟩, none⟩) made Elementary.native
  obtain rfl : 6 = count := Except.ok.inj counted
  have west := spanned.west
  have east := spanned.east
  rw [first] at west
  rw [first, width] at east
  refine ⟨shallow, (pixels 22 shallow 2147483647).2.1, made, b, bounded, ?_, ?_, ?_⟩
  · convert west using 2
    norm_num [exactLongitude]
  · convert east using 2
    norm_num [exactLongitude]
  · intro i inside
    obtain ⟨-, -, lon, -, longitude, above, below, -⟩ := spanned.point i inside
    exact ⟨lon, longitude, above, below⟩

end Grid
end MercatorGrid
