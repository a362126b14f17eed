import MercatorGrid.Proofs.Grid.Centre
import MercatorGrid.Proofs.Placement.Edges

namespace MercatorGrid
open Mercator

/-- Grids on a placement that passed its checks, bare or with values that were attached. -/
inductive Grid.Made : Grid → Prop
  | bare {zoom west north width height : Int32} {p : Placement}
    (made : Placement.make zoom west north width height = .ok p) : Made (.ofPlacement p)
  | valued {g h : Grid} {counts : List Float} (made : Made g)
    (attached : g.attach counts = .ok h) : Made h

namespace Grid

def value (g : Grid) (i : ℕ) : Float :=
  match g.counts with
  | none => 0.0
  | some counts => counts.getD i 0.0

def Full (g : Grid) : Prop := ∀ counts, g.counts = some counts → counts.length = g.placement.points

/-- What the requests to a grid of so many points give, whatever they are about: a result, and the
one of exact integers. -/
structure Exact (fns : Elementary Float) (g : Grid) (count : ℕ) : Prop where
  sides : (wrap64 g.placement.width.toInt : ℤ) = g.placement.width.toInt ∧
    (wrap64 g.placement.height.toInt : ℤ) = g.placement.height.toInt
  points : g.pointCount = .ok count ∧
    (count : ℤ) = g.placement.width.toInt * g.placement.height.toInt
  cell : ∀ i < count, ∃ column row, g.placement.cell? i = .ok (some (column, row)) ∧
    column.toInt = i % g.placement.width.toInt ∧ row.toInt = i / g.placement.width.toInt
  centre : ∀ i < count, ∃ x y : Int32,
    x.toInt = g.placement.west.toInt + i % g.placement.width.toInt ∧
    y.toInt = g.placement.north.toInt + i / g.placement.width.toInt ∧
    g.longitude i = .ok (some (columnCentre g.placement.zoom x)) ∧
    g.latitude fns i = .ok (some (rowCentre fns g.placement.zoom y))
  value : ∀ i < count, g.countAt i = .ok (some (g.value i))
  beyond : ∀ i, count ≤ i → g.placement.cell? i = .ok none ∧ g.longitude i = .ok none ∧
    g.latitude fns i = .ok none ∧ g.countAt i = .ok none
  pixel : ∀ x y : Int32, ∃ found, g.placement.pointAt x y = .ok found ∧ ∀ i, found = some i →
    (i : ℤ) = (y.toInt - g.placement.north.toInt) * g.placement.width.toInt +
      (x.toInt - g.placement.west.toInt)
  location : ∀ lon lat, ∃ found, g.locate fns lon lat = .ok found ∧
    g.placement.pointAt (Mercator.columnOf g.placement.zoom lon)
      (Mercator.rowOf fns g.placement.zoom lat) = .ok found
  bounds : ∃ east south : Int32,
    east.toInt = g.placement.west.toInt + g.placement.width.toInt ∧
    south.toInt = g.placement.north.toInt + g.placement.height.toInt ∧
    g.placement.bounds fns = .ok (.ofCorners (westEdge g.placement.zoom g.placement.west)
      (northEdge fns g.placement.zoom south) (westEdge g.placement.zoom east)
      (northEdge fns g.placement.zoom g.placement.north))
  inverted : ∀ (e : Envelope) r, e.check = .error r → g.pointsIn fns e = .error (.refused r)
  query : ∀ e : Envelope, e.check = .ok () → ∃ window points,
    g.window fns e.toBox = .ok window ∧ window = g.clipped fns e.toBox ∧
    window.Within g.placement.columns g.placement.rows ∧ g.pointsIn fns e = .ok points ∧
    (window.isEmpty = false → window.capacity = .ok points.length ∧ (points.length : ℤ) =
      (window.maxCol - window.minCol + 1) * (window.maxRow - window.minRow + 1)) ∧
    ∀ i ∈ points, ∃ column row : ℤ, window.Holds column row ∧
      (i : ℤ) = row * g.placement.width.toInt + column

section Counted
variable {g : Grid} {count : ℕ} (counted : g.pointCount = .ok count)
include counted

theorem attach_of_counted (counts : List Float) : g.attach counts =
    if counts.length = count then .ok { g with counts := some counts }
    else .error (.refused (.countsMismatch count counts.length)) := by
  rw [attach, counted]
  rfl

theorem countAt_of_counted (full : ∀ counts, g.counts = some counts → counts.length = count)
    (i : ℕ) : g.countAt i = .ok (if i < count then some (g.value i) else none) := by
  simp only [countAt, counted, ok_bind, value]
  by_cases inside : i < count
  · rw [if_neg (Nat.not_le.mpr inside), if_pos inside]
    cases values : g.counts with
    | none => rfl
    | some counts =>
      have long : i < counts.length := (full counts values).symm ▸ inside
      simp only [Checked.item, List.getElem?_eq_getElem long, ok_bind, pure_ok,
        List.getD_eq_getElem _ _ long]
  · rw [if_pos (Nat.not_lt.mp inside), if_neg inside]
    rfl

end Counted

theorem attach_eq_ok_iff {g h : Grid} (accepted : g.placement.Accepted) {counts : List Float} :
    g.attach counts = .ok h ↔
      counts.length = g.placement.points ∧ h = { g with counts := some counts } := by
  rw [attach_of_counted accepted.pointCount_eq]
  by_cases full : counts.length = g.placement.points
  · simp only [full, if_true, Except.ok.injEq, true_and, eq_comm]
  · simp [full]

namespace Made
variable {g : Grid}

theorem accepted (made : g.Made) : g.placement.Accepted := by
  induction made with
  | bare made => exact (Placement.make_eq_ok_iff.mp made).2.2.2.2.2
  | valued made attached ih =>
    obtain ⟨-, rfl⟩ := (attach_eq_ok_iff ih).mp attached
    exact ih

theorem full (made : g.Made) : g.Full := by
  cases made with
  | bare made =>
    intro counts some
    cases some
  | valued made attached =>
    obtain ⟨length, rfl⟩ := (attach_eq_ok_iff made.accepted).mp attached
    intro counts some
    cases some
    exact length

end Made

section Accepted
variable {g : Grid} (accepted : g.placement.Accepted)
include accepted

theorem countAt_eq (full : g.Full) (i : ℕ) : g.countAt i =
    .ok (if i < g.placement.points then some (g.value i) else none) :=
  countAt_of_counted accepted.pointCount_eq full i

theorem sides_kept : (wrap64 g.placement.width.toInt : ℤ) = g.placement.width.toInt ∧
    (wrap64 g.placement.height.toInt : ℤ) = g.placement.height.toInt := by
  have width := Checked.toInt_range g.placement.width
  have height := Checked.toInt_range g.placement.height
  obtain ⟨-, wide, tall, -⟩ := accepted
  rw [wrap64_of_nonneg (by omega) (by omega), wrap64_of_nonneg (by omega) (by omega)]
  omega

theorem pixel_eq (i : ℕ) :
    (g.pixel i).1 = g.placement.west.toInt + i % g.placement.width.toInt ∧
      (g.pixel i).2 = g.placement.north.toInt + i / g.placement.width.toInt := by
  rw [accepted.width_eq, pixel]
  push_cast
  exact ⟨rfl, rfl⟩

theorem cell_exact {i : ℕ} (inside : i < g.placement.points) :
    ∃ column row, g.placement.cell? i = .ok (some (column, row)) ∧
      column.toInt = i % g.placement.width.toInt ∧
      row.toInt = i / g.placement.width.toInt := by
  obtain ⟨_, _, cell, column, row⟩ := accepted.exists_cell inside
  rw [accepted.width_eq]
  exact ⟨_, _, cell, by exact_mod_cast column, by exact_mod_cast row⟩

theorem centre_exact (fns : Elementary Float) {i : ℕ} (inside : i < g.placement.points) :
    ∃ x y : Int32, x.toInt = g.placement.west.toInt + i % g.placement.width.toInt ∧
      y.toInt = g.placement.north.toInt + i / g.placement.width.toInt ∧
      g.longitude i = .ok (some (columnCentre g.placement.zoom x)) ∧
      g.latitude fns i = .ok (some (rowCentre fns g.placement.zoom y)) := by
  obtain ⟨across, down⟩ := accepted.toInt_pixel inside
  obtain ⟨column, row⟩ := pixel_eq accepted i
  have lon := longitude_eq accepted i
  have lat := latitude_eq accepted fns i
  rw [if_pos inside] at lon lat
  exact ⟨_, _, across.trans column, down.trans row, lon, lat⟩

theorem pixel_exact (x y : Int32) : ∃ found, g.placement.pointAt x y = .ok found ∧
    ∀ i, found = some i →
      (i : ℤ) = (y.toInt - g.placement.north.toInt) * g.placement.width.toInt +
        (x.toInt - g.placement.west.toInt) := by
  refine ⟨_, accepted.pointAt_eq x y, ?_⟩
  intro i found
  split at found
  · rename_i covers
    cases found
    obtain ⟨west, -, north, -⟩ := covers
    rw [Placement.number, accepted.width_eq]
    push_cast
    rw [Int.toNat_of_nonneg (by omega), Int.toNat_of_nonneg (by omega)]
  · cases found

theorem length_exact {fns : Elementary Float} {e : Envelope} (valid : e.Valid)
    (inhabited : (g.clipped fns e.toBox).isEmpty = false) :
    ((g.touched fns e).length : ℤ) =
      ((g.clipped fns e.toBox).maxCol - (g.clipped fns e.toBox).minCol + 1) *
        ((g.clipped fns e.toBox).maxRow - (g.clipped fns e.toBox).minRow + 1) := by
  obtain ⟨across, down⟩ := Window.isEmpty_eq_false_iff.mp inhabited
  rw [← numbers_eq_touched accepted valid, Window.numbers_length, Window.columns, Window.rows]
  push_cast
  rw [Int.toNat_of_nonneg (by omega), Int.toNat_of_nonneg (by omega)]

theorem holds_of_touched {fns : Elementary Float} {e : Envelope} (valid : e.Valid) {i : ℕ}
    (member : i ∈ g.touched fns e) : ∃ column row : ℤ,
      (g.clipped fns e.toBox).Holds column row ∧
      (i : ℤ) = row * g.placement.width.toInt + column := by
  obtain ⟨inside, touches⟩ := (mem_touched_iff fns g).mp member
  refine ⟨_, _, (clipped_holds_iff accepted valid inside).mpr touches, ?_⟩
  rw [accepted.width_eq]
  exact_mod_cast (Nat.div_add_mod' i g.placement.columns).symm

end Accepted

/-- No request to a grid that was made stops, and none is answered from a number that changed on
the way: not for an envelope that is inverted, nor for a location that is not a number. -/
theorem requests_exact {g : Grid} (made : g.Made) (fns : Elementary Float) :
    ∃ count, g.Exact fns count := by
  have accepted := made.accepted
  refine ⟨g.placement.points, ?_⟩
  constructor
  case sides => exact sides_kept accepted
  case points => exact ⟨accepted.pointCount_eq, Placement.points_eq accepted.2.1 accepted.2.2.1⟩
  case cell => exact fun i inside => cell_exact accepted inside
  case centre => exact fun i inside => centre_exact accepted fns inside
  case value =>
    intro i inside
    rw [countAt_eq accepted made.full, if_pos inside]
  case beyond =>
    intro i outside
    have far := Nat.not_lt.mpr outside
    rw [accepted.cell?_eq, longitude_eq accepted, latitude_eq accepted,
      countAt_eq accepted made.full, if_neg far, if_neg far, if_neg far, if_neg far]
    exact ⟨rfl, rfl, rfl, rfl⟩
  case pixel => exact fun x y => pixel_exact accepted x y
  case location =>
    intro lon lat
    rw [locate_eq accepted]
    exact ⟨_, accepted.pointAt_eq _ _, accepted.pointAt_eq _ _⟩
  case bounds => exact ⟨_, _, accepted.toInt_east, accepted.toInt_south, accepted.bounds_eq fns⟩
  case inverted => exact fun e r => pointsIn_of_refused fns g
  case query =>
    intro e passed
    have valid := (Envelope.check_eq_ok_iff e).mp passed
    exact ⟨_, _, window_eq accepted e.toBox, rfl, clipped_within accepted e.toBox,
      pointsIn_of_valid accepted valid,
      fun inhabited => ⟨capacity_of_touched accepted valid, length_exact accepted valid inhabited⟩,
      fun i member => holds_of_touched accepted valid member⟩

theorem requests_exact_at_far_corner :
    Made ⟨⟨22, 2147483644, -2147483648, 3, 2⟩, some [0.5, 1.5, 2.5, 3.5, 4.5, 5.5]⟩ ∧
      Exact Elementary.native
        ⟨⟨22, 2147483644, -2147483648, 3, 2⟩, some [0.5, 1.5, 2.5, 3.5, 4.5, 5.5]⟩ 6 := by
  have bare : Made (.ofPlacement ⟨22, 2147483644, -2147483648, 3, 2⟩) :=
    .bare (rfl : Placement.make 22 2147483644 (-2147483648) 3 2 = _)
  have attached : attach (.ofPlacement ⟨22, 2147483644, -2147483648, 3, 2⟩)
      [0.5, 1.5, 2.5, 3.5, 4.5, 5.5] = .ok _ := rfl
  have made := bare.valued attached
  obtain ⟨count, exact⟩ := requests_exact made Elementary.native
  obtain rfl : 6 = count := Except.ok.inj exact.points.1
  exact ⟨made, exact⟩

end Grid
end MercatorGrid
