import MercatorGrid.Proofs.Grid.Overlap

namespace MercatorGrid
open FixedPoint Mercator

/-- At the deepest zoom a column is 3.35 units of longitude wide. -/
theorem Mercator.exactColumn_next {zoom : ℕ} (shallow : zoom ≤ deepestZoom) {a b : Int32}
    (next : b.toInt = a.toInt + 1) : exactColumn zoom b ≤ exactColumn zoom a + 1 := by
  have power : (2 : ℤ) ^ (zoom + 8) ≤ 2 ^ 30 :=
    pow_le_pow_right₀ (by norm_num) (shift_le shallow)
  unfold exactColumn
  calc (b.toInt + 1800000000) * 2 ^ (zoom + 8) / 3600000000
      = ((a.toInt + 1800000000) * 2 ^ (zoom + 8) + 2 ^ (zoom + 8)) / 3600000000 := by
        rw [next]
        congr 1
        ring
    _ ≤ ((a.toInt + 1800000000) * 2 ^ (zoom + 8) + 3600000000) / 3600000000 :=
        Int.ediv_le_ediv (by norm_num) (by omega)
    _ = (a.toInt + 1800000000) * 2 ^ (zoom + 8) / 3600000000 + 1 :=
        Int.add_ediv_of_dvd_right (dvd_refl _)

theorem Mercator.columnOf_next {zoom : ℕ} (shallow : zoom ≤ deepestZoom) {a b : Int32}
    (next : b.toInt = a.toInt + 1) :
    (columnOf zoom (toDegrees b)).toInt ≤ (columnOf zoom (toDegrees a)).toInt + 1 := by
  simp only [columnOf_toDegrees shallow]
  exact exactColumn_next shallow next

namespace Envelope

/-- What lies west of a longitude, the longitude included. -/
def westOf (e : Envelope) (cut : Int32) : Envelope := { e with maxLon := cut }

def eastOf (e : Envelope) (cut : Int32) : Envelope := { e with minLon := cut }

def southOf (e : Envelope) (cut : Int32) : Envelope := { e with maxLat := cut }

def northOf (e : Envelope) (cut : Int32) : Envelope := { e with minLat := cut }

theorem toInt_next {a b : Int32} (less : a < b) : (a + 1).toInt = a.toInt + 1 := by
  have below := Int32.lt_iff_toInt_lt.mp less
  have range := Checked.toInt_range a
  have above := Checked.toInt_range b
  have one : (1 : Int32).toInt = 1 := by decide
  rw [Int32.toInt_add, one, Int.bmod_eq_of_le_mul_two] <;> omega

theorem next_le {a b : Int32} (less : a < b) : a + 1 ≤ b := by
  rw [Int32.le_iff_toInt_le, toInt_next less]
  exact Int32.lt_iff_toInt_lt.mp less

section Longitude
variable {fns : Elementary Float} {zoom : ℕ} {e : Envelope} {cut : Int32}
  (shallow : zoom ≤ deepestZoom) (first : e.minLon ≤ cut) (last : cut < e.maxLon)
include shallow first last

theorem columns_of_cut :
    (columnOf zoom (toDegrees e.minLon)).toInt ≤ (columnOf zoom (toDegrees cut)).toInt ∧
    (columnOf zoom (toDegrees cut)).toInt ≤ (columnOf zoom (toDegrees (cut + 1))).toInt ∧
    (columnOf zoom (toDegrees (cut + 1))).toInt ≤ (columnOf zoom (toDegrees cut)).toInt + 1 ∧
    (columnOf zoom (toDegrees (cut + 1))).toInt ≤
      (columnOf zoom (toDegrees e.maxLon)).toInt := by
  have next := toInt_next last
  have after : cut ≤ cut + 1 := by
    rw [Int32.le_iff_toInt_le, next]
    omega
  exact ⟨columnOf_mono shallow first, columnOf_mono shallow after, columnOf_next shallow next,
    columnOf_mono shallow (next_le last)⟩

theorem touches_iff_west_or_east (x y : ℤ) : e.Touches fns zoom x y ↔
    (e.westOf cut).Touches fns zoom x y ∨ (e.eastOf (cut + 1)).Touches fns zoom x y := by
  have columns := columns_of_cut shallow first last
  simp only [Touches, westOf, eastOf]
  omega

theorem touches_west_and_east_iff (x y : ℤ) :
    (e.westOf cut).Touches fns zoom x y ∧ (e.eastOf (cut + 1)).Touches fns zoom x y ↔
      e.Touches fns zoom x y ∧ x = (columnOf zoom (toDegrees cut)).toInt ∧
        x = (columnOf zoom (toDegrees (cut + 1))).toInt := by
  have columns := columns_of_cut shallow first last
  simp only [Touches, westOf, eastOf]
  omega

omit shallow in
theorem meridian_parts_valid (valid : e.Valid) :
    (e.westOf cut).Valid ∧ (e.eastOf (cut + 1)).Valid :=
  ⟨⟨first, valid.2⟩, next_le last, valid.2⟩

end Longitude

section Latitude
variable {fns : Elementary Float} {zoom : ℕ} {e : Envelope} {cut : Int32}
  (falls : RowsFall fns zoom) (first : e.minLat ≤ cut) (last : cut ≤ e.maxLat)
include falls first last

theorem rows_of_cut :
    (rowOf fns zoom (toDegrees e.maxLat)).toInt ≤ (rowOf fns zoom (toDegrees cut)).toInt ∧
    (rowOf fns zoom (toDegrees cut)).toInt ≤ (rowOf fns zoom (toDegrees e.minLat)).toInt :=
  ⟨Int32.le_iff_toInt_le.mp (falls _ _ last), Int32.le_iff_toInt_le.mp (falls _ _ first)⟩

theorem touches_iff_south_or_north (x y : ℤ) : e.Touches fns zoom x y ↔
    (e.southOf cut).Touches fns zoom x y ∨ (e.northOf cut).Touches fns zoom x y := by
  have rows := rows_of_cut falls first last
  simp only [Touches, southOf, northOf]
  omega

theorem touches_south_and_north_iff (x y : ℤ) :
    (e.southOf cut).Touches fns zoom x y ∧ (e.northOf cut).Touches fns zoom x y ↔
      e.Touches fns zoom x y ∧ y = (rowOf fns zoom (toDegrees cut)).toInt := by
  have rows := rows_of_cut falls first last
  simp only [Touches, southOf, northOf]
  omega

end Latitude
end Envelope

namespace Grid

/-- Two envelopes that together touch what a third one does have its points, and in common those of
the pixels both touch. -/
theorem mem_touched_parts {fns : Elementary Float} {g : Grid} (accepted : g.placement.Accepted)
    {e a b : Envelope} {P : ℤ → ℤ → Prop}
    (union : ∀ x y, e.Touches fns g.placement.zoom x y ↔
      a.Touches fns g.placement.zoom x y ∨ b.Touches fns g.placement.zoom x y)
    (common : ∀ x y, a.Touches fns g.placement.zoom x y ∧ b.Touches fns g.placement.zoom x y ↔
      e.Touches fns g.placement.zoom x y ∧ P x y) :
    (∀ i, i ∈ g.touched fns e ↔ i ∈ g.touched fns a ∨ i ∈ g.touched fns b) ∧
    ∀ i, i ∈ g.touched fns a ∧ i ∈ g.touched fns b ↔ i ∈ g.touched fns e ∧
      ∃ column row, g.placement.cell? i = .ok (some (column, row)) ∧
        P (g.placement.west.toInt + column.toInt) (g.placement.north.toInt + row.toInt) := by
  constructor
  · intro i
    simp only [mem_touched_iff, union, and_or_left]
  · intro i
    simp only [mem_touched_iff]
    constructor
    · rintro ⟨⟨inside, left⟩, -, right⟩
      obtain ⟨whole, holds⟩ := (common _ _).mp ⟨left, right⟩
      exact ⟨⟨inside, whole⟩, (exists_cell_iff accepted inside P).mpr holds⟩
    · rintro ⟨⟨inside, whole⟩, cell⟩
      obtain ⟨left, right⟩ :=
        (common _ _).mpr ⟨whole, (exists_cell_iff accepted inside P).mp cell⟩
      exact ⟨⟨inside, left⟩, inside, right⟩

/-- An envelope cut in two along a meridian loses no point, and its parts share the column of the
cut if it goes on east of it. Cut along a parallel, they share the row of the cut. -/
theorem pointsIn_tiles {zoom west north width height : Int32} {g : Grid}
    (made : Placement.make zoom west north width height = .ok g.placement)
    (fns : Elementary Float) {e : Envelope} (valid : e.Valid) :
    ∃ points, g.pointsIn fns e = .ok points ∧
    (∀ cut, e.minLon ≤ cut → cut < e.maxLon → ∃ left right,
      g.pointsIn fns (e.westOf cut) = .ok left ∧
      g.pointsIn fns (e.eastOf (cut + 1)) = .ok right ∧
      (∀ i, i ∈ points ↔ i ∈ left ∨ i ∈ right) ∧
      ∀ i, i ∈ left ∧ i ∈ right ↔ i ∈ points ∧
        ∃ column row, g.placement.cell? i = .ok (some (column, row)) ∧
          west.toInt + column.toInt =
            (Mercator.columnOf g.placement.zoom (toDegrees cut)).toInt ∧
          west.toInt + column.toInt =
            (Mercator.columnOf g.placement.zoom (toDegrees (cut + 1))).toInt) ∧
    (RowsFall fns g.placement.zoom → ∀ cut, e.minLat ≤ cut → cut ≤ e.maxLat → ∃ lower upper,
      g.pointsIn fns (e.southOf cut) = .ok lower ∧
      g.pointsIn fns (e.northOf cut) = .ok upper ∧
      (∀ i, i ∈ points ↔ i ∈ lower ∨ i ∈ upper) ∧
      ∀ i, i ∈ lower ∧ i ∈ upper ↔ i ∈ points ∧
        ∃ column row, g.placement.cell? i = .ok (some (column, row)) ∧
          north.toInt + row.toInt =
            (Mercator.rowOf fns g.placement.zoom (toDegrees cut)).toInt) := by
  obtain ⟨-, rfl, rfl, -, -, accepted⟩ := Placement.make_eq_ok_iff.mp made
  have shallow := accepted.shallow
  refine ⟨_, pointsIn_of_valid accepted valid, ?_, ?_⟩
  · intro cut first last
    obtain ⟨left, right⟩ := Envelope.meridian_parts_valid first last valid
    refine ⟨_, _, pointsIn_of_valid accepted left, pointsIn_of_valid accepted right, ?_⟩
    exact mem_touched_parts accepted (Envelope.touches_iff_west_or_east shallow first last)
      (Envelope.touches_west_and_east_iff shallow first last)
  · intro falls cut first last
    have lower : (e.southOf cut).Valid := ⟨valid.1, first⟩
    have upper : (e.northOf cut).Valid := ⟨valid.1, last⟩
    refine ⟨_, _, pointsIn_of_valid accepted lower, pointsIn_of_valid accepted upper, ?_⟩
    exact mem_touched_parts accepted (Envelope.touches_iff_south_or_north falls first last)
      (Envelope.touches_south_and_north_iff falls first last)

theorem mem_of_touches {fns : Elementary Float} {g : Grid} (accepted : g.placement.Accepted)
    {e : Envelope} (valid : e.Valid) {points : List ℕ} (listed : g.pointsIn fns e = .ok points)
    {i : ℕ} (inside : i < g.placement.points)
    (touches : e.Touches fns g.placement.zoom (g.pixel i).1 (g.pixel i).2) : i ∈ points := by
  rw [pointsIn_of_valid accepted valid] at listed
  cases listed
  exact (mem_touched_iff fns g).mpr ⟨inside, touches⟩

/-- East of the first cut a column begins, so its parts have no point in common. Those of the cut
along the equator have its row. -/
theorem pointsIn_tiles_at_origin :
    Placement.make 2 480 290 64 440 = .ok ⟨2, 480, 290, 64, 440⟩ ∧
      (Envelope.mk (-100000000) 100000000 (-600000000) 600000000).Valid ∧ RowsFall stepped 2 ∧
      (∃ left right, Grid.pointsIn stepped ⟨⟨2, 480, 290, 64, 440⟩, none⟩
          ⟨-100000000, -1, -600000000, 600000000⟩ = .ok left ∧
        Grid.pointsIn stepped ⟨⟨2, 480, 290, 64, 440⟩, none⟩
          ⟨0, 100000000, -600000000, 600000000⟩ = .ok right ∧
        14228 ∈ left ∧ 14240 ∈ right ∧ ∀ i ∈ left, i ∉ right) ∧
      ∃ lower upper, Grid.pointsIn stepped ⟨⟨2, 480, 290, 64, 440⟩, none⟩
          ⟨-100000000, 100000000, -600000000, 0⟩ = .ok lower ∧
        Grid.pointsIn stepped ⟨⟨2, 480, 290, 64, 440⟩, none⟩
          ⟨-100000000, 100000000, 0, 600000000⟩ = .ok upper ∧
        19220 ∈ lower ∧ 6420 ∈ upper ∧ 14228 ∈ lower ∧ 14228 ∈ upper ∧
        ∀ i ∈ lower, i ∈ upper → ∃ column,
          Placement.cell? ⟨2, 480, 290, 64, 440⟩ i = .ok (some (column, 222)) := by
  have made : Placement.make 2 480 290 64 440 = .ok ⟨2, 480, 290, 64, 440⟩ := rfl
  have accepted : Placement.Accepted ⟨2, 480, 290, 64, 440⟩ := by decide
  have valid : (Envelope.mk (-100000000) 100000000 (-600000000) 600000000).Valid := by decide
  have falls : RowsFall stepped 2 := stepped_rowsFall (by decide)
  obtain ⟨points, -, meridian, parallel⟩ :=
    pointsIn_tiles (g := ⟨⟨2, 480, 290, 64, 440⟩, none⟩) made stepped valid
  refine ⟨made, valid, falls, ?_, ?_⟩
  · obtain ⟨left, right, west, east, -, common⟩ := meridian (-1) (by decide) (by decide)
    refine ⟨left, right, west, east, ?_, ?_, ?_⟩
    · exact mem_of_touches accepted (by decide) west (by decide) (by decide +kernel)
    · exact mem_of_touches accepted (by decide) east (by decide) (by decide +kernel)
    intro i first second
    obtain ⟨-, column, row, -, before, after⟩ := (common i).mp ⟨first, second⟩
    have apart : Mercator.columnOf 2 (toDegrees (-1)) ≠
        Mercator.columnOf 2 (toDegrees (-1 + 1)) := by
      decide +kernel
    exact apart (Int32.toInt_inj.mp (before.symm.trans after))
  · obtain ⟨lower, upper, south, north, -, common⟩ := parallel falls 0 (by decide) (by decide)
    refine ⟨lower, upper, south, north, ?_, ?_, ?_, ?_, ?_⟩
    · exact mem_of_touches accepted (by decide) south (by decide) (by decide +kernel)
    · exact mem_of_touches accepted (by decide) north (by decide) (by decide +kernel)
    · exact mem_of_touches accepted (by decide) south (by decide) (by decide +kernel)
    · exact mem_of_touches accepted (by decide) north (by decide) (by decide +kernel)
    intro i first second
    obtain ⟨-, column, row, cell, level⟩ := (common i).mp ⟨first, second⟩
    have equator : (Mercator.rowOf stepped 2 (toDegrees 0)).toInt = 512 := by decide +kernel
    have corner : (290 : Int32).toInt = 290 ∧ (222 : Int32).toInt = 222 := by decide
    obtain rfl : row = 222 := by
      rw [← Int32.toInt_inj]
      rw [equator] at level
      omega
    exact ⟨column, cell⟩

end Grid
end MercatorGrid
