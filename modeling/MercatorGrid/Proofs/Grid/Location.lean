import MercatorGrid.Proofs.Grid.Overlap
import MercatorGrid.Proofs.Grid.Locate

namespace MercatorGrid
open FixedPoint Mercator

namespace Envelope

def ofLocation (lon lat : Int32) : Envelope := ⟨lon, lon, lat, lat⟩

theorem ofLocation_valid (lon lat : Int32) : (ofLocation lon lat).Valid :=
  ⟨Int32.le_refl lon, Int32.le_refl lat⟩

theorem touches_ofLocation_iff {fns : Elementary Float} {zoom : ℕ} {lon lat : Int32} {x y : ℤ} :
    (ofLocation lon lat).Touches fns zoom x y ↔
      (columnOf zoom (toDegrees lon)).toInt = x ∧ (rowOf fns zoom (toDegrees lat)).toInt = y := by
  simp only [Touches, ofLocation]
  omega

theorem touches_of_mem {fns : Elementary Float} {zoom : ℕ} (shallow : zoom ≤ deepestZoom)
    (falls : RowsFall fns zoom) {e : Envelope} {lon lat : Int32} (inside : e.Mem lon lat) :
    e.Touches fns zoom (columnOf zoom (toDegrees lon)).toInt
      (rowOf fns zoom (toDegrees lat)).toInt := by
  obtain ⟨west, east, south, north⟩ := inside
  exact ⟨columnOf_mono shallow west, columnOf_mono shallow east,
    Int32.le_iff_toInt_le.mp (falls _ _ north), Int32.le_iff_toInt_le.mp (falls _ _ south)⟩

end Envelope

namespace Grid
section Accepted
variable {g : Grid} (accepted : g.placement.Accepted) (fns : Elementary Float) (lon lat : Int32)
include accepted

theorem locate_eq_some_iff {i : ℕ} :
    g.locate fns (toDegrees lon) (toDegrees lat) = .ok (some i) ↔ i < g.placement.points ∧
      (Mercator.columnOf g.placement.zoom (toDegrees lon)).toInt = (g.pixel i).1 ∧
      (Mercator.rowOf fns g.placement.zoom (toDegrees lat)).toInt = (g.pixel i).2 := by
  rw [locate_eq accepted]
  exact accepted.pointAt_eq_some_iff

theorem mem_touched_ofLocation_iff {i : ℕ} : i ∈ g.touched fns (.ofLocation lon lat) ↔
    g.locate fns (toDegrees lon) (toDegrees lat) = .ok (some i) := by
  rw [mem_touched_iff, locate_eq_some_iff accepted, Envelope.touches_ofLocation_iff]

theorem exists_locate : ∃ found, g.locate fns (toDegrees lon) (toDegrees lat) = .ok found ∧
    g.touched fns (.ofLocation lon lat) = found.toList := by
  obtain ⟨found, outcome⟩ :
      ∃ found, g.locate fns (toDegrees lon) (toDegrees lat) = .ok found := by
    rw [locate_eq accepted, accepted.pointAt_eq]
    exact ⟨_, rfl⟩
  refine ⟨found, outcome, ?_⟩
  have single : found.toList.Pairwise (· < ·) := by
    cases found with
    | none => exact .nil
    | some i => exact List.pairwise_singleton _ i
  apply List.Pairwise.eq_of_mem_iff (touched_sorted fns g _) single
  intro i
  rw [mem_touched_ofLocation_iff accepted, outcome, Except.ok.injEq, Option.mem_toList]

theorem mem_touched_of_locate (falls : RowsFall fns g.placement.zoom) {e : Envelope}
    (inside : e.Mem lon lat) {i : ℕ}
    (found : g.locate fns (toDegrees lon) (toDegrees lat) = .ok (some i)) :
    i ∈ g.touched fns e := by
  obtain ⟨numbered, across, down⟩ := (locate_eq_some_iff accepted fns lon lat).mp found
  rw [mem_touched_iff, ← across, ← down]
  exact ⟨numbered, Envelope.touches_of_mem accepted.shallow falls inside⟩

end Accepted

/-- The query of a single location returns the point a lookup finds there and nothing if it finds
none. The query of an envelope returns every point that a lookup within the envelope finds. -/
theorem pointsIn_location {zoom west north width height : Int32} {g : Grid}
    (made : Placement.make zoom west north width height = .ok g.placement)
    (fns : Elementary Float) :
    (∀ lon lat : Int32, ∃ e found, Envelope.make lon lon lat lat = .ok e ∧
      g.locate fns (toDegrees lon) (toDegrees lat) = .ok found ∧
      g.pointsIn fns e = .ok found.toList) ∧
    (RowsFall fns g.placement.zoom → ∀ e : Envelope, e.Valid →
      ∃ points, g.pointsIn fns e = .ok points ∧
        ∀ (lon lat : Int32) (i : ℕ), e.Mem lon lat →
          g.locate fns (toDegrees lon) (toDegrees lat) = .ok (some i) → i ∈ points) := by
  obtain ⟨-, -, -, -, -, accepted⟩ := Placement.make_eq_ok_iff.mp made
  constructor
  · intro lon lat
    have valid := Envelope.ofLocation_valid lon lat
    obtain ⟨found, located, listed⟩ := exists_locate accepted fns lon lat
    refine ⟨.ofLocation lon lat, found, Envelope.make_eq_ok_iff.mpr ⟨rfl, valid⟩, located, ?_⟩
    rw [pointsIn_of_valid accepted valid, listed]
  · intro falls e valid
    exact ⟨_, pointsIn_of_valid accepted valid, fun lon lat i inside =>
      mem_touched_of_locate accepted fns lon lat falls inside⟩

theorem pointsIn_location_on_equator :
    Placement.make 2 480 290 64 440 = .ok ⟨2, 480, 290, 64, 440⟩ ∧ RowsFall stepped 2 ∧
      Grid.pointsIn stepped ⟨⟨2, 480, 290, 64, 440⟩, none⟩ ⟨0, 0, 0, 0⟩ = .ok [14240] ∧
      Grid.pointsIn stepped ⟨⟨2, 480, 290, 64, 440⟩, none⟩ ⟨900000000, 900000000, 0, 0⟩ =
        .ok [] ∧
      ∃ points, Grid.pointsIn stepped ⟨⟨2, 480, 290, 64, 440⟩, none⟩
          ⟨-100000000, 900000000, -600000000, 600000000⟩ = .ok points ∧ 14240 ∈ points := by
  have made : Placement.make 2 480 290 64 440 = .ok ⟨2, 480, 290, 64, 440⟩ := rfl
  have falls : RowsFall stepped 2 := stepped_rowsFall (by decide)
  have here : Grid.locate stepped ⟨⟨2, 480, 290, 64, 440⟩, none⟩ (toDegrees 0) (toDegrees 0) =
      .ok (some 14240) := eq_ok_of_toOption (by decide +kernel)
  have beyond : Grid.locate stepped ⟨⟨2, 480, 290, 64, 440⟩, none⟩ (toDegrees 900000000)
      (toDegrees 0) = .ok none := eq_ok_of_toOption (by decide +kernel)
  obtain ⟨single, within⟩ :=
    pointsIn_location (g := ⟨⟨2, 480, 290, 64, 440⟩, none⟩) made stepped
  refine ⟨made, falls, ?_, ?_, ?_⟩
  · obtain ⟨e, found, degenerate, located, listed⟩ := single 0 0
    obtain rfl : ⟨0, 0, 0, 0⟩ = e := Except.ok.inj degenerate
    obtain rfl : some 14240 = found := Except.ok.inj (here.symm.trans located)
    exact listed
  · obtain ⟨e, found, degenerate, located, listed⟩ := single 900000000 0
    obtain rfl : ⟨900000000, 900000000, 0, 0⟩ = e := Except.ok.inj degenerate
    obtain rfl : none = found := Except.ok.inj (beyond.symm.trans located)
    exact listed
  · obtain ⟨points, listed, complete⟩ := within falls
      ⟨-100000000, 900000000, -600000000, 600000000⟩ (by decide)
    exact ⟨points, listed, complete 0 0 14240 (by decide) here⟩

end Grid
end MercatorGrid
