import MercatorGrid.Proofs.Latitude.Limit

/-! The latitude formulas over the real numbers.
Read without rounding, the two formulas are inverse to one another on the whole plane. Both pass
through the northing. The clamp on latitudes leaves the plane alone because its bound is beyond
the plane's end; the clamp on rows absorbs what lies between the end and the bound. -/
namespace MercatorGrid.Mercator
open Real Set

theorem worldSize_real (zoom : ℕ) : (worldSize zoom : ℝ) = worldPixels zoom := by
  have whole : (OfScientific.ofScientific (worldPixels zoom) false 0 : ℚ) = worldPixels zoom := by
    simp only [OfScientific.ofScientific, Rat.ofScientific_false_def, pow_zero, mul_one]
    rfl
  rw [worldSize, ← Rat.cast_ofScientific, whole, Rat.cast_natCast]

theorem worldSize_pos (zoom : ℕ) : 0 < (worldSize zoom : ℝ) := by
  rw [worldSize_real, worldPixels_eq]
  positivity

theorem clamp_eq {low high : ℝ} (order : low ≤ high) (x : ℝ) :
    clamp low high x = max low (min high x) := by
  simp only [clamp]
  split
  · rename_i below
    rw [max_eq_left (min_le_of_right_le below.le)]
  · rename_i inside
    split
    · rename_i above
      rw [min_eq_left above.le, max_eq_right order]
    · rename_i below
      rw [min_eq_right (not_lt.mp below), max_eq_right (not_lt.mp inside)]

/-- The northing of a continuous row, from `π` in the north to `-π` in the south. -/
noncomputable def northingOf (zoom : ℕ) (y : ℝ) : ℝ := π - 2 * π * y / worldSize zoom

noncomputable def yOfNorthing (zoom : ℕ) (northing : ℝ) : ℝ :=
  (1 - northing / π) / 2 * worldSize zoom

theorem northingOf_yOfNorthing (zoom : ℕ) (n : ℝ) : northingOf zoom (yOfNorthing zoom n) = n := by
  have world := (worldSize_pos zoom).ne'
  rw [northingOf, yOfNorthing]
  field_simp
  ring

theorem yOfNorthing_northingOf (zoom : ℕ) (y : ℝ) : yOfNorthing zoom (northingOf zoom y) = y := by
  have world := (worldSize_pos zoom).ne'
  rw [northingOf, yOfNorthing]
  field_simp
  ring

theorem northingOf_strictAnti (zoom : ℕ) : StrictAnti (northingOf zoom) := by
  intro y z lower
  have world := worldSize_pos zoom
  simp only [northingOf]
  gcongr

@[simp] theorem northingOf_zero (zoom : ℕ) : northingOf zoom 0 = π := by
  simp [northingOf]

@[simp] theorem northingOf_worldSize (zoom : ℕ) : northingOf zoom (worldSize zoom) = -π := by
  have world := (worldSize_pos zoom).ne'
  rw [northingOf]
  field_simp
  ring

theorem yOfNorthing_le_iff {zoom : ℕ} {n y : ℝ} :
    yOfNorthing zoom n ≤ y ↔ northingOf zoom y ≤ n := by
  rw [← (northingOf_strictAnti zoom).le_iff_ge, northingOf_yOfNorthing]

theorem le_yOfNorthing_iff {zoom : ℕ} {n y : ℝ} :
    y ≤ yOfNorthing zoom n ↔ n ≤ northingOf zoom y := by
  rw [← (northingOf_strictAnti zoom).le_iff_ge, northingOf_yOfNorthing]

theorem latitudeOfY_eq (zoom : ℕ) (y : ℝ) :
    latitudeOfY Elementary.exact zoom y = latitudeAt (northingOf zoom y) := by
  simp only [latitudeOfY, Elementary.exact, latitudeAt, northingOf]
  norm_num

theorem latitudeOfY_strictAnti (zoom : ℕ) : StrictAnti (latitudeOfY Elementary.exact zoom) := by
  intro y z lower
  simp only [latitudeOfY_eq]
  exact latitudeAt_strictMono (northingOf_strictAnti zoom lower)

noncomputable def northmost (zoom : ℕ) : ℝ := latitudeOfY Elementary.exact zoom 0

theorem northmost_eq (zoom : ℕ) : northmost zoom = latitudeAt π := by
  rw [northmost, latitudeOfY_eq, northingOf_zero]

theorem latitudeOfY_worldSize (zoom : ℕ) :
    latitudeOfY Elementary.exact zoom (worldSize zoom) = -northmost zoom := by
  rw [latitudeOfY_eq, northingOf_worldSize, latitudeAt_neg, northmost_eq]

theorem northmost_pos (zoom : ℕ) : 0 < northmost zoom := by
  rw [northmost_eq]
  exact latitudeAt_pos pi_pos

theorem northmost_le_edge (zoom : ℕ) : northmost zoom ≤ edge := by
  rw [northmost_eq]
  exact latitudeAt_pi_le

theorem northmost_le (zoom : ℕ) : northmost zoom ≤ edgeLatitude :=
  (northmost_le_edge zoom).trans (by norm_num [edge, edgeLatitude])

theorem edgeLatitude_lt : (edgeLatitude : ℝ) < 90 := by
  norm_num [edgeLatitude]

theorem clamp_latitude_eq (lat : ℝ) :
    clamp (-edgeLatitude) edgeLatitude lat = max (-edgeLatitude) (min edgeLatitude lat) :=
  clamp_eq (by norm_num [edgeLatitude]) lat

theorem clamp_latitude {zoom : ℕ} {lat : ℝ} (h : lat ∈ Icc (-northmost zoom) (northmost zoom)) :
    clamp (-edgeLatitude) edgeLatitude lat = lat := by
  have limit := northmost_le zoom
  rw [clamp_latitude_eq, min_eq_right (h.2.trans limit),
    max_eq_right ((neg_le_neg limit).trans h.1)]

theorem log_tan_add_sec (n : ℝ) :
    log (tan (arctan (sinh n)) + 1 / cos (arctan (sinh n))) = n := by
  rw [tan_arctan, cos_arctan, one_div_one_div]
  exact arsinh_sinh n

theorem yOfLatitude_eq {lat n : ℝ} (zoom : ℕ)
    (h : latitudeAt n = clamp (-edgeLatitude) edgeLatitude lat) :
    yOfLatitude Elementary.exact zoom lat =
      max 0 (min (worldSize zoom) (yOfNorthing zoom n)) := by
  have radians : latitudeAt n * (π / 180.0) = arctan (sinh n) := by
    rw [latitudeAt]
    field_simp
    norm_num
  have numerals : (0.0 : ℝ) = 0 ∧ (1.0 : ℝ) = 1 ∧ (2.0 : ℝ) = 2 := by norm_num
  rw [← clamp_eq (worldSize_pos zoom).le]
  simp only [yOfLatitude, ← h, Elementary.exact, radians, numerals, log_tan_add_sec, yOfNorthing]

theorem exists_northing {lat : ℝ} (h : |lat| < 90) : ∃ n, latitudeAt n = lat := by
  obtain ⟨south, north⟩ := abs_lt.mp h
  refine ⟨arsinh (tan (lat * (π / 180))), ?_⟩
  rw [latitudeAt, sinh_arsinh, arctan_tan]
  · field_simp
  · nlinarith only [south, pi_pos]
  · nlinarith only [north, pi_pos]

theorem exists_clamped_northing (zoom : ℕ) (lat : ℝ) :
    ∃ n, latitudeAt n = max (-edgeLatitude) (min edgeLatitude lat) ∧
      yOfLatitude Elementary.exact zoom lat =
        max 0 (min (worldSize zoom) (yOfNorthing zoom n)) := by
  have positive := (northmost_pos zoom).trans_le (northmost_le zoom)
  have polar := edgeLatitude_lt
  have south : -90 < max (-edgeLatitude) (min edgeLatitude lat) :=
    lt_max_of_lt_left (neg_lt_neg polar)
  have north : max (-edgeLatitude) (min edgeLatitude lat) < 90 :=
    max_lt (by linarith) (min_lt_of_left_lt polar)
  obtain ⟨n, hn⟩ := exists_northing (abs_lt.mpr ⟨south, north⟩)
  exact ⟨n, hn, yOfLatitude_eq zoom (hn.trans (clamp_latitude_eq lat).symm)⟩

theorem yOfLatitude_latitudeOfY (zoom : ℕ) {y : ℝ} (h : y ∈ Icc 0 (worldSize zoom)) :
    yOfLatitude Elementary.exact zoom (latitudeOfY Elementary.exact zoom y) = y := by
  have fall := (latitudeOfY_strictAnti zoom).antitone
  have south := fall h.2
  rw [latitudeOfY_worldSize] at south
  have kept := clamp_latitude ⟨south, fall h.1⟩
  rw [yOfLatitude_eq zoom (kept.trans (latitudeOfY_eq zoom y)).symm, yOfNorthing_northingOf,
    min_eq_right h.2, max_eq_right h.1]

theorem exists_row {zoom : ℕ} {lat : ℝ} (h : lat ∈ Icc (-northmost zoom) (northmost zoom)) :
    ∃ y ∈ Icc 0 (worldSize zoom), latitudeOfY Elementary.exact zoom y = lat := by
  have limit := (northmost_le zoom).trans_lt edgeLatitude_lt
  obtain ⟨n, rfl⟩ := exists_northing ((abs_le.mpr h).trans_lt limit)
  rw [northmost_eq, ← latitudeAt_neg] at h
  have south : -π ≤ n := latitudeAt_strictMono.le_iff_le.mp h.1
  have north : n ≤ π := latitudeAt_strictMono.le_iff_le.mp h.2
  refine ⟨yOfNorthing zoom n, ⟨?_, ?_⟩, ?_⟩
  · rwa [le_yOfNorthing_iff, northingOf_zero]
  · rwa [yOfNorthing_le_iff, northingOf_worldSize]
  · rw [latitudeOfY_eq, northingOf_yOfNorthing]

theorem latitudeOfY_yOfLatitude {zoom : ℕ} {lat : ℝ}
    (h : lat ∈ Icc (-northmost zoom) (northmost zoom)) :
    latitudeOfY Elementary.exact zoom (yOfLatitude Elementary.exact zoom lat) = lat := by
  obtain ⟨y, inside, rfl⟩ := exists_row h
  rw [yOfLatitude_latitudeOfY zoom inside]

theorem yOfLatitude_strictAntiOn (zoom : ℕ) :
    StrictAntiOn (yOfLatitude Elementary.exact zoom) (Icc (-northmost zoom) (northmost zoom)) := by
  intro a ha b hb order
  rw [← latitudeOfY_yOfLatitude ha, ← latitudeOfY_yOfLatitude hb] at order
  exact (latitudeOfY_strictAnti zoom).lt_iff_gt.mp order

theorem yOfLatitude_north {zoom : ℕ} {lat : ℝ} (h : northmost zoom ≤ lat) :
    yOfLatitude Elementary.exact zoom lat = 0 := by
  obtain ⟨n, hn, row⟩ := exists_clamped_northing zoom lat
  have beyond : latitudeAt π ≤ latitudeAt n := by
    rw [hn, ← northmost_eq zoom]
    exact le_max_of_le_right (le_min (northmost_le zoom) h)
  have above : yOfNorthing zoom n ≤ 0 := by
    rw [yOfNorthing_le_iff, northingOf_zero]
    exact latitudeAt_strictMono.le_iff_le.mp beyond
  rw [row, max_eq_left (min_le_of_right_le above)]

theorem yOfLatitude_south {zoom : ℕ} {lat : ℝ} (h : lat ≤ -northmost zoom) :
    yOfLatitude Elementary.exact zoom lat = worldSize zoom := by
  obtain ⟨n, hn, row⟩ := exists_clamped_northing zoom lat
  have beyond : latitudeAt n ≤ latitudeAt (-π) := by
    rw [hn, latitudeAt_neg, ← northmost_eq zoom]
    exact max_le (neg_le_neg (northmost_le zoom)) (min_le_of_right_le h)
  have below : worldSize zoom ≤ yOfNorthing zoom n := by
    rw [le_yOfNorthing_iff, northingOf_worldSize]
    exact latitudeAt_strictMono.le_iff_le.mp beyond
  rw [row, min_eq_left below, max_eq_right (worldSize_pos zoom).le]

theorem row_encloses {zoom : ℕ} {lat : ℝ} (h : lat ∈ Ioc (-northmost zoom) (northmost zoom)) :
    latitudeOfY Elementary.exact zoom (⌊yOfLatitude Elementary.exact zoom lat⌋ + 1) < lat ∧
      lat ≤ latitudeOfY Elementary.exact zoom ⌊yOfLatitude Elementary.exact zoom lat⌋ := by
  have fall := latitudeOfY_strictAnti zoom
  have back := latitudeOfY_yOfLatitude ⟨h.1.le, h.2⟩
  constructor
  · calc _ < latitudeOfY Elementary.exact zoom (yOfLatitude Elementary.exact zoom lat) :=
          fall (Int.lt_floor_add_one _)
      _ = lat := back
  · calc lat = latitudeOfY Elementary.exact zoom (yOfLatitude Elementary.exact zoom lat) :=
          back.symm
      _ ≤ _ := fall.antitone (Int.floor_le _)

/-- On the plane the formulas are inverse and fall strictly; beyond it the row is constant; the
edges of a latitude's row enclose it. The bound on latitudes is beyond the plane, both as
written and as the number of 53 bits that stands for it. -/
theorem latitudes_inverse (zoom : ℕ) :
    (0 < northmost zoom ∧ northmost zoom ≤ edgeLatitude ∧ northmost zoom ≤ edge) ∧
    (∀ y ∈ Icc 0 (worldSize zoom),
      yOfLatitude Elementary.exact zoom (latitudeOfY Elementary.exact zoom y) = y) ∧
    (∀ lat ∈ Icc (-northmost zoom) (northmost zoom),
      latitudeOfY Elementary.exact zoom (yOfLatitude Elementary.exact zoom lat) = lat) ∧
    StrictAntiOn (yOfLatitude Elementary.exact zoom) (Icc (-northmost zoom) (northmost zoom)) ∧
    (∀ lat ≥ northmost zoom, yOfLatitude Elementary.exact zoom lat = 0) ∧
    (∀ lat ≤ -northmost zoom, yOfLatitude Elementary.exact zoom lat = worldSize zoom) ∧
    ∀ lat ∈ Ioc (-northmost zoom) (northmost zoom),
      latitudeOfY Elementary.exact zoom (⌊yOfLatitude Elementary.exact zoom lat⌋ + 1) < lat ∧
      lat ≤ latitudeOfY Elementary.exact zoom ⌊yOfLatitude Elementary.exact zoom lat⌋ :=
  ⟨⟨northmost_pos zoom, northmost_le zoom, northmost_le_edge zoom⟩,
    fun _ => yOfLatitude_latitudeOfY zoom, fun _ => latitudeOfY_yOfLatitude,
    yOfLatitude_strictAntiOn zoom, fun _ => yOfLatitude_north, fun _ => yOfLatitude_south,
    fun _ => row_encloses⟩

theorem latitudeOfY_middle (zoom : ℕ) :
    latitudeOfY Elementary.exact zoom (worldSize zoom / 2) = 0 := by
  have world := (worldSize_pos zoom).ne'
  have middle : northingOf zoom (worldSize zoom / 2) = 0 := by
    rw [northingOf]
    field_simp
    ring
  rw [latitudeOfY_eq, middle, latitudeAt, sinh_zero, arctan_zero, zero_mul]

theorem latitudes_inverse_at_equator_and_pole :
    (536870912 : ℝ) ∈ Icc 0 (worldSize 22) ∧ northmost 22 ≤ 90 ∧
      yOfLatitude Elementary.exact 22 0 = 536870912 ∧
      yOfLatitude Elementary.exact 22 90 = 0 := by
  have half : worldSize 22 / 2 = (536870912 : ℝ) := by
    rw [worldSize_real, worldPixels_eq]
    norm_num
  have inside : (536870912 : ℝ) ∈ Icc 0 (worldSize 22) := by
    have world := worldSize_pos 22
    constructor <;> linarith
  obtain ⟨⟨_, limit, _⟩, rows, _, _, north, _⟩ := latitudes_inverse 22
  have polar : northmost 22 ≤ 90 := limit.trans edgeLatitude_lt.le
  refine ⟨inside, polar, ?_, north 90 polar⟩
  rw [← rows 536870912 inside, ← half, latitudeOfY_middle]

end MercatorGrid.Mercator
