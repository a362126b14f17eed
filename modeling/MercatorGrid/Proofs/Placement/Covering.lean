import MercatorGrid.Proofs.Placement
import MercatorGrid.Proofs.DegreeBox
import MercatorGrid.Proofs.Longitude.Order

/-! Placements that cover a box.
Of the checks on the way only some can fail. Once the zoom and the box pass, the covering
rectangle lies in the plane, so its far corner never leaves 32 bits; it has a column because
columns rise with the longitude, and it lacks rows only if rows rise with the latitude. -/
namespace MercatorGrid.Placement
open Mercator

theorem withinPlane_range {zoom : ℕ} (shallow : zoom ≤ deepestZoom) (pixel : Int32) :
    0 ≤ withinPlane zoom pixel ∧ withinPlane zoom pixel ≤ 1073741823 := by
  have world := worldPixels_range shallow
  simp only [withinPlane]
  omega

theorem withinPlane_lt {zoom : ℕ} (shallow : zoom ≤ deepestZoom) (pixel : Int32) :
    withinPlane zoom pixel < worldPixels zoom := by
  have world := worldPixels_range shallow
  simp only [withinPlane]
  omega

theorem withinPlane_mono (zoom : ℕ) {x y : Int32} (order : x.toInt ≤ y.toInt) :
    withinPlane zoom x ≤ withinPlane zoom y := by
  simp only [withinPlane]
  omega

theorem span_eq {first last : ℤ} (low : -1073741824 ≤ last - first)
    (high : last - first ≤ 1073741824) : span first last = .ok (last - first + 1) := by
  rw [span, Checked.int64_of_range (by omega) (by omega), ok_bind]
  exact Checked.int64_of_range (by omega) (by omega)

section Rectangle
variable (fns : Elementary Float) (b : DegreeBox) (level : ℕ)

def across : ℤ :=
  withinPlane level (columnOf level b.maxLon) - withinPlane level (columnOf level b.minLon) + 1

def down : ℤ :=
  withinPlane level (rowOf fns level b.minLat) - withinPlane level (rowOf fns level b.maxLat) + 1

def rectangle : Placement :=
  ⟨level, Int32.ofInt (withinPlane level (columnOf level b.minLon)),
    Int32.ofInt (withinPlane level (rowOf fns level b.maxLat)), Int32.ofInt (across b level),
    Int32.ofInt (down fns b level)⟩

end Rectangle

def InPlane (p : Placement) : Prop :=
  0 ≤ p.west.toInt ∧ p.west.toInt + p.width.toInt ≤ worldPixels p.zoom ∧
    0 ≤ p.north.toInt ∧ p.north.toInt + p.height.toInt ≤ worldPixels p.zoom

section Shallow
variable {fns : Elementary Float} {b : DegreeBox} {level : ℕ}

theorem rows_rise_of_down (flipped : down fns b level ≤ 0) :
    rowOf fns level b.minLat < rowOf fns level b.maxLat := by
  rw [Int32.lt_iff_toInt_lt, ← not_le]
  intro order
  have rows := withinPlane_mono level order
  simp only [down] at flipped
  omega

variable (shallow : level ≤ deepestZoom)
include shallow

theorem span_columns : span (withinPlane level (columnOf level b.minLon))
    (withinPlane level (columnOf level b.maxLon)) = .ok (across b level) := by
  have west := withinPlane_range shallow (columnOf level b.minLon)
  have east := withinPlane_range shallow (columnOf level b.maxLon)
  apply span_eq <;> omega

theorem span_rows : span (withinPlane level (rowOf fns level b.maxLat))
    (withinPlane level (rowOf fns level b.minLat)) = .ok (down fns b level) := by
  have north := withinPlane_range shallow (rowOf fns level b.maxLat)
  have south := withinPlane_range shallow (rowOf fns level b.minLat)
  apply span_eq <;> omega

theorem one_le_across (order : b.minLon ≤ b.maxLon) : 1 ≤ across b level := by
  have columns := withinPlane_mono level (columnOf_le shallow order)
  simp only [across]
  omega

variable (fns b)

theorem sides_range : (-2147483648 ≤ across b level ∧ across b level ≤ 2147483647) ∧
    -2147483648 ≤ down fns b level ∧ down fns b level ≤ 2147483647 := by
  have west := withinPlane_range shallow (columnOf level b.minLon)
  have east := withinPlane_range shallow (columnOf level b.maxLon)
  have north := withinPlane_range shallow (rowOf fns level b.maxLat)
  have south := withinPlane_range shallow (rowOf fns level b.minLat)
  simp only [across, down]
  omega

theorem rectangle_edges : (rectangle fns b level).west.toInt =
      withinPlane level (columnOf level b.minLon) ∧
    (rectangle fns b level).north.toInt = withinPlane level (rowOf fns level b.maxLat) ∧
    (rectangle fns b level).width.toInt = across b level ∧
    (rectangle fns b level).height.toInt = down fns b level := by
  have west := withinPlane_range shallow (columnOf level b.minLon)
  have north := withinPlane_range shallow (rowOf fns level b.maxLat)
  obtain ⟨wide, tall⟩ := sides_range fns b shallow
  exact ⟨Checked.toInt_ofInt_of_range (by omega) (by omega),
    Checked.toInt_ofInt_of_range (by omega) (by omega),
    Checked.toInt_ofInt_of_range wide.1 wide.2, Checked.toInt_ofInt_of_range tall.1 tall.2⟩

theorem rectangle_inPlane : (rectangle fns b level).InPlane := by
  obtain ⟨hwest, hnorth, hwidth, hheight⟩ := rectangle_edges fns b shallow
  have west := withinPlane_range shallow (columnOf level b.minLon)
  have east := withinPlane_lt shallow (columnOf level b.maxLon)
  have north := withinPlane_range shallow (rowOf fns level b.maxLat)
  have south := withinPlane_lt shallow (rowOf fns level b.minLat)
  have same : (rectangle fns b level).zoom = level := rfl
  simp only [InPlane, same, hwest, hnorth, hwidth, hheight, across, down]
  omega

end Shallow

theorem covering_eq (fns : Elementary Float) {b : DegreeBox} {zoom : Int32} {level : ℕ}
    (hz : checkZoom zoom = .ok level) (finite : b.isFinite = true) :
    covering fns b zoom =
      if across b level ≤ 0 ∨ down fns b level ≤ 0 then
        Attempt.refuse (.sidesNotPositive (across b level) (down fns b level))
      else make zoom (rectangle fns b level).west (rectangle fns b level).north
        (rectangle fns b level).width (rectangle fns b level).height := by
  have shallow := (checkZoom_eq_ok_iff.mp hz).2
  obtain ⟨wide, tall⟩ := sides_range fns b shallow
  simp only [covering, hz, Attempt.guarded_ok, ok_bind, finite, Bool.not_true,
    Bool.false_eq_true, if_false]
  rw [span_columns shallow, Attempt.checked_ok, ok_bind, span_rows shallow, Attempt.checked_ok,
    ok_bind, Checked.int32, if_pos wide, Checked.int32, if_pos tall]
  rfl

theorem covering_edges {fns : Elementary Float} {b : DegreeBox} {zoom : Int32} {p : Placement}
    (built : covering fns b zoom = .ok p) : zoom.toInt = p.zoom ∧ p.Accepted ∧
      p.west.toInt = withinPlane p.zoom (columnOf p.zoom b.minLon) ∧
      p.west.toInt + p.width.toInt - 1 = withinPlane p.zoom (columnOf p.zoom b.maxLon) ∧
      p.north.toInt = withinPlane p.zoom (rowOf fns p.zoom b.maxLat) ∧
      p.north.toInt + p.height.toInt - 1 = withinPlane p.zoom (rowOf fns p.zoom b.minLat) := by
  cases hz : checkZoom zoom with
  | error r =>
    simp only [covering, hz, Attempt.guarded_error, Attempt.refuse, error_bind] at built
    cases built
  | ok level =>
    cases finite : b.isFinite with
    | false =>
      simp only [covering, hz, finite, Attempt.guarded_ok, ok_bind] at built
      exact absurd built (Attempt.refuse_ne_ok _ _)
    | true =>
      obtain ⟨same, shallow⟩ := checkZoom_eq_ok_iff.mp hz
      obtain ⟨hwest, hnorth, hwidth, hheight⟩ := rectangle_edges fns b shallow
      rw [covering_eq fns hz finite] at built
      split at built
      · exact absurd built (Attempt.refuse_ne_ok _ _)
      · obtain ⟨again, west, north, width, height, accepted⟩ := make_eq_ok_iff.mp built
        obtain rfl : level = p.zoom := by omega
        refine ⟨same, accepted, ?_⟩
        rw [west, north, width, height, hwest, hnorth, hwidth, hheight, across, down]
        omega

theorem covering_eq_rectangle {fns : Elementary Float} {b : DegreeBox} {zoom : Int32} {level : ℕ}
    (hz : checkZoom zoom = .ok level) (finite : b.isFinite = true)
    (wide : 1 ≤ across b level) : covering fns b zoom =
      if down fns b level ≤ 0 then
        Attempt.refuse (.sidesNotPositive (across b level) (down fns b level))
      else if maxPoints < (rectangle fns b level).points then
        Attempt.refuse (.tooManyPoints (rectangle fns b level).points)
      else .ok (rectangle fns b level) := by
  have shallow := (checkZoom_eq_ok_iff.mp hz).2
  obtain ⟨-, -, hwidth, hheight⟩ := rectangle_edges fns b shallow
  obtain ⟨-, east, -, south⟩ := rectangle_inPlane fns b shallow
  have world : 1 ≤ worldPixels (rectangle fns b level).zoom ∧
      worldPixels (rectangle fns b level).zoom ≤ 1073741824 := worldPixels_range shallow
  rw [covering_eq fns hz finite]
  by_cases flipped : down fns b level ≤ 0
  · rw [if_pos (Or.inr flipped), if_pos flipped]
  -- with a column and a row the rectangle is in the plane, so the far corner passes
  · rw [if_neg (by omega), if_neg flipped, make_eq hz, if_neg (by omega), if_neg (by omega)]
    rfl

theorem covering_of_outside (fns : Elementary Float) (b : DegreeBox) {zoom : Int32}
    (outside : ¬ (0 ≤ zoom.toInt ∧ zoom.toInt ≤ deepestZoom)) :
    covering fns b zoom = Attempt.refuse (.zoomOutOfRange zoom) := by
  rw [covering, checkZoom, if_neg outside]
  rfl

theorem covering_of_not_finite (fns : Elementary Float) {b : DegreeBox} {zoom : Int32} {level : ℕ}
    (hz : checkZoom zoom = .ok level) (infinite : ¬ b.isFinite = true) :
    covering fns b zoom = Attempt.refuse (.envelopeInvalid (.notFinite b)) := by
  rw [Bool.not_eq_true] at infinite
  simp only [covering, hz, infinite, Attempt.guarded_ok, ok_bind, Bool.not_false, if_true]

theorem make_ne_fault (zoom west north width height : Int32) (f : Fault) :
    make zoom west north width height ≠ .error (.fault f) := by
  cases hz : checkZoom zoom with
  | error r => simp [make, hz, Attempt.refuse]
  | ok level =>
    rw [make_eq hz]
    split
    · simp [Attempt.refuse]
    · split
      · simp [Attempt.refuse]
      · split <;> simp [Attempt.refuse]

theorem covering_ne_fault (fns : Elementary Float) (b : DegreeBox) (zoom : Int32) (f : Fault) :
    covering fns b zoom ≠ .error (.fault f) := by
  cases hz : checkZoom zoom with
  | error r => simp [covering, hz, Attempt.refuse]
  | ok level =>
    by_cases finite : b.isFinite = true
    · rw [covering_eq fns hz finite]
      split
      · simp [Attempt.refuse]
      · exact make_ne_fault _ _ _ _ _ f
    · rw [covering_of_not_finite fns hz finite]
      simp [Attempt.refuse]

/-- What a finite box at a zoom of the plane can come to: rows that rise with the latitude, too
many points, or a rectangle in the plane. -/
inductive Outcome (fns : Elementary Float) (b : DegreeBox) (level : ℕ) (width height : ℤ) :
    Attempt Placement → Prop
  | flipped (rise : rowOf fns level b.minLat < rowOf fns level b.maxLat) (flat : height ≤ 0) :
    Outcome fns b level width height (Attempt.refuse (.sidesNotPositive width height))
  | crowded (count : ℕ) (product : (count : ℤ) = width * height) (tall : 1 ≤ height)
      (many : maxPoints < count) :
    Outcome fns b level width height (Attempt.refuse (.tooManyPoints count))
  | placed (p : Placement) (zoom : p.zoom = level) (inPlane : p.InPlane)
      (sides : p.width.toInt = width ∧ p.height.toInt = height) (tall : 1 ≤ height)
      (few : width * height ≤ maxPoints) :
    Outcome fns b level width height (.ok p)

theorem outcome_of_finite (fns : Elementary Float) {b : DegreeBox} {zoom : Int32} {level : ℕ}
    (hz : checkZoom zoom = .ok level) (finite : b.isFinite = true) (wide : 1 ≤ across b level) :
    Outcome fns b level (across b level) (down fns b level) (covering fns b zoom) := by
  have shallow := (checkZoom_eq_ok_iff.mp hz).2
  obtain ⟨-, -, hwidth, hheight⟩ := rectangle_edges fns b shallow
  rw [covering_eq_rectangle hz finite wide]
  split
  · rename_i flat
    exact .flipped (rows_rise_of_down flat) flat
  · rename_i tall
    have count := points_eq (p := rectangle fns b level) (by omega) (by omega)
    rw [hwidth, hheight] at count
    split
    · rename_i many
      exact .crowded _ count (by omega) many
    · rename_i few
      exact .placed _ rfl (rectangle_inPlane fns b shallow) ⟨hwidth, hheight⟩ (by omega) (by omega)

theorem Outcome.ne_leavesPlane {fns : Elementary Float} {b : DegreeBox} {level : ℕ}
    {width height : ℤ} {result : Attempt Placement} (h : Outcome fns b level width height result)
    (fault : PlaneFault) : result ≠ Attempt.refuse (.leavesPlane fault) := by
  cases h <;> simp [Attempt.refuse]

/-- Whatever the elementary functions return, a bad zoom is refused first and then a box that is
not finite. After that there is always a column and never a far corner beyond 32 bits. -/
theorem covering_outcomes (fns : Elementary Float) (lon₁ lat₁ lon₂ lat₂ : Float) (zoom : Int32) :
    let b := DegreeBox.ofCorners lon₁ lat₁ lon₂ lat₂
    let finite := lon₁.isFinite = true ∧ lat₁.isFinite = true ∧ lon₂.isFinite = true ∧
      lat₂.isFinite = true
    let level := zoom.toInt.toNat
    (covering fns b zoom = Attempt.refuse (.zoomOutOfRange zoom) ↔
      ¬ (0 ≤ zoom.toInt ∧ zoom.toInt ≤ 22)) ∧
    (covering fns b zoom = Attempt.refuse (.envelopeInvalid (.notFinite b)) ↔
      (0 ≤ zoom.toInt ∧ zoom.toInt ≤ 22) ∧ ¬ finite) ∧
    (∀ fault, covering fns b zoom ≠ Attempt.refuse (.leavesPlane fault)) ∧
    (0 ≤ zoom.toInt ∧ zoom.toInt ≤ 22 → finite → ∃ width height,
      span (withinPlane level (columnOf level b.minLon))
        (withinPlane level (columnOf level b.maxLon)) = .ok width ∧
      span (withinPlane level (rowOf fns level b.maxLat))
        (withinPlane level (rowOf fns level b.minLat)) = .ok height ∧
      1 ≤ width ∧ Outcome fns b level width height (covering fns b zoom)) := by
  intro b finite level
  by_cases inside : 0 ≤ zoom.toInt ∧ zoom.toInt ≤ 22
  · have shallow : level ≤ deepestZoom := by
      change zoom.toInt.toNat ≤ 22
      omega
    have hz : checkZoom zoom = .ok level := checkZoom_eq_ok_iff.mpr ⟨by omega, shallow⟩
    by_cases passes : finite
    · have whole := DegreeBox.ofCorners_isFinite_iff.mpr passes
      have wide := one_le_across shallow (DegreeBox.ofCorners_le whole).1
      have outcome := outcome_of_finite fns hz whole wide
      refine ⟨?_, ?_, outcome.ne_leavesPlane, fun _ _ => ⟨_, _, span_columns shallow,
        span_rows shallow, wide, outcome⟩⟩
      · generalize covering fns b zoom = result at outcome
        cases outcome <;> simp [Attempt.refuse, inside]
      · generalize covering fns b zoom = result at outcome
        cases outcome <;> simp [Attempt.refuse, passes]
    · have refused := covering_of_not_finite fns hz
        fun whole => passes (DegreeBox.ofCorners_isFinite_iff.mp whole)
      simp only [b, refused]
      simp [Attempt.refuse, inside, passes]
  · have refused := covering_of_outside fns b inside
    simp only [refused]
    simp [Attempt.refuse, inside]

end MercatorGrid.Placement
