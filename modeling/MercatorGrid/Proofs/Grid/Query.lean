import MercatorGrid.Proofs.Grid.Window
import MercatorGrid.Proofs.Placement
import MercatorGrid.Proofs.Latitude

namespace MercatorGrid
open FixedPoint

/-- The pixel lies between those of the envelope's edges, all of them included. -/
def Envelope.Touches (fns : Elementary Float) (zoom : ℕ) (e : Envelope) (x y : ℤ) : Prop :=
  (Mercator.columnOf zoom (toDegrees e.minLon)).toInt ≤ x ∧
    x ≤ (Mercator.columnOf zoom (toDegrees e.maxLon)).toInt ∧
    (Mercator.rowOf fns zoom (toDegrees e.maxLat)).toInt ≤ y ∧
    y ≤ (Mercator.rowOf fns zoom (toDegrees e.minLat)).toInt

instance (fns : Elementary Float) (zoom : ℕ) (e : Envelope) (x y : ℤ) :
    Decidable (e.Touches fns zoom x y) := inferInstanceAs (Decidable (_ ∧ _))

namespace Grid
variable (fns : Elementary Float) (g : Grid)

def pixel (i : ℕ) : ℤ × ℤ :=
  (g.placement.west.toInt + (i % g.placement.columns : ℕ),
    g.placement.north.toInt + (i / g.placement.columns : ℕ))

def touched (e : Envelope) : List ℕ :=
  (List.range g.placement.points).filter fun i =>
    e.Touches fns g.placement.zoom (g.pixel i).1 (g.pixel i).2

def clipped (b : DegreeBox) : Window :=
  let p := g.placement
  ⟨max ((Mercator.columnOf p.zoom b.minLon).toInt - p.west.toInt) 0,
    min ((Mercator.columnOf p.zoom b.maxLon).toInt - p.west.toInt) (p.columns - 1),
    max ((Mercator.rowOf fns p.zoom b.maxLat).toInt - p.north.toInt) 0,
    min ((Mercator.rowOf fns p.zoom b.minLat).toInt - p.north.toInt) (p.rows - 1)⟩

theorem mem_touched_iff {e : Envelope} {i : ℕ} : i ∈ g.touched fns e ↔
    i < g.placement.points ∧ e.Touches fns g.placement.zoom (g.pixel i).1 (g.pixel i).2 := by
  simp [touched]

theorem touched_sorted (e : Envelope) : (g.touched fns e).Pairwise (· < ·) :=
  List.pairwise_lt_range.filter _

/-- The sides need not be positive: with one that is not, the last cell lies before the first. -/
theorem window_of_level {fns : Elementary Float} {g : Grid}
    (leveled : g.placement.level = .ok g.placement.zoom) (b : DegreeBox) : g.window fns b =
      .ok ⟨max ((Mercator.columnOf g.placement.zoom b.minLon).toInt - g.placement.west.toInt) 0,
        min ((Mercator.columnOf g.placement.zoom b.maxLon).toInt - g.placement.west.toInt)
          (g.placement.width.toInt - 1),
        max ((Mercator.rowOf fns g.placement.zoom b.maxLat).toInt - g.placement.north.toInt) 0,
        min ((Mercator.rowOf fns g.placement.zoom b.minLat).toInt - g.placement.north.toInt)
          (g.placement.height.toInt - 1)⟩ := by
  have width := Checked.toInt_range g.placement.width
  have height := Checked.toInt_range g.placement.height
  simp only [window, columnOf, rowOf, leveled, ok_bind, pure_ok, Checked.int64_difference]
  rw [Checked.int64_of_range (by omega) (by omega), ok_bind,
    Checked.int64_of_range (by omega) (by omega), ok_bind]

section Accepted
variable {fns : Elementary Float} {g : Grid} (accepted : g.placement.Accepted)
include accepted

theorem window_eq (b : DegreeBox) : g.window fns b = .ok (g.clipped fns b) := by
  rw [window_of_level accepted.level_eq, accepted.width_eq, accepted.height_eq]
  rfl

theorem clipped_within (b : DegreeBox) :
    (g.clipped fns b).Within g.placement.columns g.placement.rows := by
  have across := accepted.columns_pos
  have down := accepted.rows_pos
  constructor <;> simp only [clipped] <;> omega

theorem clipped_holds_iff {e : Envelope} (valid : e.Valid) {i : ℕ}
    (inside : i < g.placement.points) :
    (g.clipped fns e.toBox).Holds (i % g.placement.columns : ℕ) (i / g.placement.columns : ℕ) ↔
      e.Touches fns g.placement.zoom (g.pixel i).1 (g.pixel i).2 := by
  have column := accepted.lt_columns (i := i)
  have row := Placement.Accepted.lt_rows inside
  simp only [Window.Holds, clipped, Envelope.Touches, pixel, Envelope.toBox_eq valid]
  generalize i % g.placement.columns = x at column ⊢
  generalize i / g.placement.columns = y at row ⊢
  omega

theorem numbers_eq_touched {e : Envelope} (valid : e.Valid) :
    (g.clipped fns e.toBox).numbers g.placement.columns = g.touched fns e := by
  have within : (g.clipped fns e.toBox).Within _ _ := clipped_within accepted e.toBox
  refine List.Pairwise.eq_of_mem_iff (Window.numbers_sorted within) (touched_sorted fns g e) ?_
  intro i
  simp only [Window.mem_numbers_iff within, mem_touched_iff]
  exact and_congr_right fun inside => clipped_holds_iff accepted valid inside

theorem touched_of_isEmpty {e : Envelope} (valid : e.Valid)
    (nothing : (g.clipped fns e.toBox).isEmpty = true) : g.touched fns e = [] := by
  simp only [List.eq_nil_iff_forall_not_mem]
  intro i member
  obtain ⟨inside, touches⟩ := (mem_touched_iff fns g).mp member
  have holds := (clipped_holds_iff accepted valid inside).mpr touches
  exact Window.not_holds_of_isEmpty nothing _ _ holds

theorem pointsIn_of_valid {e : Envelope} (valid : e.Valid) :
    g.pointsIn fns e = .ok (g.touched fns e) := by
  rw [pointsIn, (Envelope.check_eq_ok_iff e).mpr valid, Attempt.guarded_ok, ok_bind,
    window_eq accepted, Attempt.checked_ok, ok_bind]
  cases nothing : (g.clipped fns e.toBox).isEmpty with
  | true =>
    rw [if_pos rfl, touched_of_isEmpty accepted valid nothing]
    rfl
  | false =>
    rw [if_neg Bool.false_ne_true, accepted.wrap_width,
      Window.indices_eq (clipped_within accepted e.toBox) accepted.points_le nothing,
      numbers_eq_touched accepted valid]
    rfl

end Accepted

theorem pointsIn_of_refused {e : Envelope} {r : Refusal} (refused : e.check = .error r) :
    g.pointsIn fns e = .error (.refused r) := by
  simp only [pointsIn, refused]
  rfl

theorem check_error {e : Envelope} {r : Refusal} (refused : e.check = .error r) :
    ∃ fault, r = .envelopeInvalid fault := by
  unfold Envelope.check at refused
  split at refused
  · cases refused
    exact ⟨_, rfl⟩
  · split at refused
    · cases refused
      exact ⟨_, rfl⟩
    · cases refused

theorem exists_cell_iff {g : Grid} (accepted : g.placement.Accepted) {i : ℕ}
    (inside : i < g.placement.points) (P : ℤ → ℤ → Prop) :
    (∃ column row, g.placement.cell? i = .ok (some (column, row)) ∧
      P (g.placement.west.toInt + column.toInt) (g.placement.north.toInt + row.toInt)) ↔
    P (g.pixel i).1 (g.pixel i).2 := by
  constructor
  · rintro ⟨column, row, cell, holds⟩
    obtain ⟨-, across, down⟩ := accepted.cell?_eq_some_iff.mp cell
    rwa [across, down] at holds
  · intro holds
    obtain ⟨column, row, cell, across, down⟩ := accepted.exists_cell inside
    exact ⟨column, row, cell, by rwa [across, down]⟩

theorem mem_touched_iff_cell {fns : Elementary Float} {g : Grid} (accepted : g.placement.Accepted)
    {e : Envelope} {i : ℕ} : i ∈ g.touched fns e ↔
      i < g.placement.points ∧ ∃ column row, g.placement.cell? i = .ok (some (column, row)) ∧
        e.Touches fns g.placement.zoom (g.placement.west.toInt + column.toInt)
          (g.placement.north.toInt + row.toInt) := by
  rw [mem_touched_iff]
  exact and_congr_right fun inside => (exists_cell_iff accepted inside _).symm

theorem capacity_of_touched {fns : Elementary Float} {g : Grid} (accepted : g.placement.Accepted)
    {e : Envelope} (valid : e.Valid) :
    (g.clipped fns e.toBox).capacity = .ok (g.touched fns e).length := by
  rw [← numbers_eq_touched accepted valid, Window.numbers_length]
  exact Window.capacity_eq (clipped_within accepted e.toBox) accepted.points_le

/-- A query is refused exactly when the envelope's own check fails, with that refusal. Otherwise
the four edges are the fixed-point bounds, none exchanged, and the answer is the increasing list
of the points whose cell they reach. The room set aside for it is its length. -/
theorem pointsIn_exact {zoom west north width height : Int32} {g : Grid}
    (made : Placement.make zoom west north width height = .ok g.placement)
    (fns : Elementary Float) (e : Envelope) :
    ((∃ fault, g.pointsIn fns e = .error (.refused (.envelopeInvalid fault))) ↔
      e.check ≠ .ok ()) ∧
    (∀ r, e.check = .error r → g.pointsIn fns e = .error (.refused r)) ∧
    (e.check = .ok () →
      e.toBox = ⟨toDegrees e.minLon, toDegrees e.minLat, toDegrees e.maxLon,
        toDegrees e.maxLat⟩ ∧
      ∃ window points count, g.window fns e.toBox = .ok window ∧ g.pointCount = .ok count ∧
        g.pointsIn fns e = .ok points ∧ points.Pairwise (· < ·) ∧
        (∀ i, i ∈ points ↔ i < count ∧
          ∃ column row, g.placement.cell? i = .ok (some (column, row)) ∧
            e.Touches fns g.placement.zoom (west.toInt + column.toInt)
              (north.toInt + row.toInt)) ∧
        (window.isEmpty → points = []) ∧ window.capacity = .ok points.length) := by
  obtain ⟨-, rfl, rfl, -, -, accepted⟩ := Placement.make_eq_ok_iff.mp made
  refine ⟨⟨?_, ?_⟩, fun r => pointsIn_of_refused fns g, ?_⟩
  · rintro ⟨fault, failed⟩ passed
    simp only [pointsIn_of_valid accepted ((Envelope.check_eq_ok_iff e).mp passed)] at failed
    cases failed
  · intro fails
    cases outcome : e.check with
    | ok u => exact absurd outcome fails
    | error r =>
      obtain ⟨fault, rfl⟩ := check_error outcome
      exact ⟨fault, pointsIn_of_refused fns g outcome⟩
  · intro passed
    have valid := (Envelope.check_eq_ok_iff e).mp passed
    exact ⟨Envelope.toBox_eq valid, g.clipped fns e.toBox, g.touched fns e, g.placement.points,
      window_eq accepted e.toBox, accepted.pointCount_eq, pointsIn_of_valid accepted valid,
      touched_sorted fns g e, fun i => mem_touched_iff_cell accepted,
      touched_of_isEmpty accepted valid, capacity_of_touched accepted valid⟩

theorem pointsIn_exact_on_equator :
    Placement.make 2 500 500 30 40 = .ok ⟨2, 500, 500, 30, 40⟩ ∧
      ∃ points, Grid.pointsIn Mercator.stepped ⟨⟨2, 500, 500, 30, 40⟩, none⟩
          ⟨-100000000, 100000000, 0, 0⟩ = .ok points ∧
        points.Pairwise (· < ·) ∧ 360 ∈ points ∧ 389 ∈ points ∧ 390 ∉ points := by
  have made : Placement.make 2 500 500 30 40 = .ok ⟨2, 500, 500, 30, 40⟩ := rfl
  obtain ⟨-, -, answered⟩ := pointsIn_exact (g := ⟨⟨2, 500, 500, 30, 40⟩, none⟩) made
    Mercator.stepped ⟨-100000000, 100000000, 0, 0⟩
  obtain ⟨-, window, points, count, -, counted, listed, sorted, member, -⟩ := answered rfl
  obtain rfl : 1200 = count := Except.ok.inj counted
  refine ⟨made, points, listed, sorted, ?_, ?_, ?_⟩
  · exact (member 360).mpr ⟨by norm_num, 0, 12, rfl, by decide +kernel⟩
  · exact (member 389).mpr ⟨by norm_num, 29, 12, rfl, by decide +kernel⟩
  · intro inside
    obtain ⟨-, column, row, cell, touches⟩ := (member 390).mp inside
    cases (Except.ok.inj cell : some (0, 13) = some (column, row))
    revert touches
    decide +kernel

end Grid
end MercatorGrid
