import MercatorGrid.Proofs.Grid.Query
import MercatorGrid.Proofs.Placement.Covering
import MercatorGrid.Proofs.Placement.Numbering

namespace MercatorGrid
open FixedPoint Mercator

namespace Grid

theorem touched_all {fns : Elementary Float} {g : Grid} {e : Envelope}
    (every : ∀ i < g.placement.points,
      e.Touches fns g.placement.zoom (g.pixel i).1 (g.pixel i).2) :
    g.touched fns e = List.range g.placement.points := by
  simp only [touched, List.filter_eq_self]
  intro i member
  exact decide_eq_true (every i (List.mem_range.mp member))

theorem touched_none {fns : Elementary Float} {g : Grid} {e : Envelope}
    (never : ∀ i < g.placement.points,
      ¬ e.Touches fns g.placement.zoom (g.pixel i).1 (g.pixel i).2) :
    g.touched fns e = [] := by
  simp only [touched, List.filter_eq_nil_iff]
  intro i member
  simp only [decide_eq_true_iff]
  exact never i (List.mem_range.mp member)

/-- The envelope is not wholly beyond the plane: it begins before the meridian 180, ends in the
plane or east of it, and its first row is one of the plane. -/
def Reaches (fns : Elementary Float) (zoom : ℕ) (e : Envelope) : Prop :=
  e.minLon < 1800000000 ∧ -1800000000 ≤ e.maxLon ∧
    (Mercator.rowOf fns zoom (toDegrees e.maxLat)).toInt < worldPixels zoom

instance (fns : Elementary Float) (zoom : ℕ) (e : Envelope) : Decidable (Reaches fns zoom e) :=
  inferInstanceAs (Decidable (_ ∧ _))

theorem touches_iff_reaches {fns : Elementary Float} {e : Envelope} {zoom : Int32} {p : Placement}
    (valid : e.Valid) (built : Placement.covering fns e.toBox zoom = .ok p) {x y : ℤ}
    (covers : p.Covers x y) : e.Touches fns p.zoom x y ↔ Reaches fns p.zoom e := by
  simp only [Envelope.toBox_eq valid] at built
  obtain ⟨-, accepted, west, east, north, south⟩ := Placement.covering_edges built
  have shallow := accepted.shallow
  have world := worldPixels_range shallow
  have first := (exactColumn_inside p.zoom e.minLon).2
  have last := (exactColumn_inside p.zoom e.maxLon).1
  have top := rowOf_range fns shallow (toDegrees e.maxLat)
  have bottom := rowOf_range fns shallow (toDegrees e.minLat)
  have least : (1800000000 : Int32).toInt = 1800000000 := by decide
  have most : (-1800000000 : Int32).toInt = -1800000000 := by decide
  simp only [Placement.Covers] at covers
  -- An edge inside the plane stays where it is, so only edges wholly outside can disagree.
  rw [Envelope.Touches, Reaches, Int32.lt_iff_toInt_lt, Int32.le_iff_toInt_le, least, most,
    ← first, ← last]
  simp only [Placement.withinPlane, columnOf_toDegrees shallow] at west east north south ⊢
  omega

theorem placement_of_covering {fns : Elementary Float} {b : DegreeBox} {zoom : Int32} {g : Grid}
    (built : covering fns b zoom = .ok g) : Placement.covering fns b zoom = .ok g.placement := by
  simp only [covering, bind_eq_ok_iff] at built
  obtain ⟨p, hp, made⟩ := built
  cases made
  exact hp

theorem covering_of_placement {fns : Elementary Float} {b : DegreeBox} {zoom : Int32}
    {p : Placement} (built : Placement.covering fns b zoom = .ok p) :
    covering fns b zoom = .ok (ofPlacement p) := by
  simp only [covering, built, ok_bind, pure_ok]

theorem accepted_of_covering {fns : Elementary Float} {b : DegreeBox} {zoom : Int32} {g : Grid}
    (built : covering fns b zoom = .ok g) : g.placement.Accepted :=
  (Placement.covering_edges (placement_of_covering built)).2.1

theorem covering_ne_fault (fns : Elementary Float) (b : DegreeBox) (zoom : Int32) (f : Fault) :
    covering fns b zoom ≠ .error (.fault f) := by
  cases placed : Placement.covering fns b zoom with
  | ok p => simp [covering_of_placement placed]
  | error failure =>
    have same : failure ≠ .fault f := fun fault =>
      Placement.covering_ne_fault fns b zoom f (by rw [placed, fault])
    simpa [covering, placed] using same

/-- A grid that was built to cover an envelope returns all its points to it, or none at all. -/
theorem pointsIn_of_covering {fns : Elementary Float} {e : Envelope} {zoom : Int32} {g : Grid}
    (valid : e.Valid) (built : Grid.covering fns e.toBox zoom = .ok g) :
    ∃ count, g.pointCount = .ok count ∧ 0 < count ∧ g.pointsIn fns e =
      .ok (if Reaches fns g.placement.zoom e then List.range count else []) := by
  have placed := placement_of_covering built
  obtain ⟨-, accepted, -⟩ := Placement.covering_edges placed
  refine ⟨g.placement.points, accepted.pointCount_eq,
    Nat.mul_pos accepted.columns_pos accepted.rows_pos, ?_⟩
  have agree : ∀ i < g.placement.points,
      (e.Touches fns g.placement.zoom (g.pixel i).1 (g.pixel i).2 ↔
        Reaches fns g.placement.zoom e) := fun i inside =>
    touches_iff_reaches valid placed (accepted.covers_cell inside)
  simp only [pointsIn_of_valid accepted valid]
  by_cases reaches : Reaches fns g.placement.zoom e
  · rw [if_pos reaches, touched_all fun i inside => (agree i inside).mpr reaches]
  · rw [if_neg reaches, touched_none fun i inside touches => reaches ((agree i inside).mp touches)]

theorem pointsIn_of_covering_equator :
    (Envelope.mk (-100000000) 100000000 0 600000000).Valid ∧
      Grid.covering stepped (Envelope.mk (-100000000) 100000000 0 600000000).toBox 2 =
        .ok ⟨⟨2, 483, 297, 58, 216⟩, none⟩ ∧
      Grid.pointsIn stepped ⟨⟨2, 483, 297, 58, 216⟩, none⟩ ⟨-100000000, 100000000, 0, 600000000⟩ =
        .ok (List.range 12528) := by
  have valid : (Envelope.mk (-100000000) 100000000 0 600000000).Valid := by decide
  have placed : Placement.covering stepped
      (Envelope.mk (-100000000) 100000000 0 600000000).toBox 2 = .ok ⟨2, 483, 297, 58, 216⟩ :=
    eq_ok_of_toOption (by decide +kernel)
  have built : Grid.covering stepped (Envelope.mk (-100000000) 100000000 0 600000000).toBox 2 =
      .ok ⟨⟨2, 483, 297, 58, 216⟩, none⟩ := covering_of_placement placed
  obtain ⟨count, counted, -, answer⟩ := pointsIn_of_covering valid built
  obtain rfl : 12528 = count := Except.ok.inj counted
  refine ⟨valid, built, ?_⟩
  rw [answer, if_pos (by decide +kernel)]

/-- On the meridian 180 construction takes the last column and the query the one after it. -/
theorem covering_of_antimeridian_is_missed :
    (Envelope.mk 1800000000 1800000000 0 0).Valid ∧ RowsFall stepped 0 ∧
      Grid.covering stepped (Envelope.mk 1800000000 1800000000 0 0).toBox 0 =
        .ok ⟨⟨0, 255, 128, 1, 1⟩, none⟩ ∧
      Grid.pointCount ⟨⟨0, 255, 128, 1, 1⟩, none⟩ = .ok 1 ∧
      Grid.pointsIn stepped ⟨⟨0, 255, 128, 1, 1⟩, none⟩ ⟨1800000000, 1800000000, 0, 0⟩ =
        .ok [] := by
  have placed : Placement.covering stepped (Envelope.mk 1800000000 1800000000 0 0).toBox 0 =
      .ok ⟨0, 255, 128, 1, 1⟩ := eq_ok_of_toOption (by decide +kernel)
  exact ⟨by decide, stepped_rowsFall (by decide), covering_of_placement placed, rfl,
    eq_ok_of_toOption (by decide +kernel)⟩

end Grid
end MercatorGrid
