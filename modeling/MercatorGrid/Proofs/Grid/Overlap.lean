import MercatorGrid.Proofs.Grid.Query

namespace MercatorGrid
open FixedPoint Mercator

namespace Mercator

theorem exactColumn_mono (zoom : ℕ) {a b : Int32} (order : a ≤ b) :
    exactColumn zoom a ≤ exactColumn zoom b := by
  have step := Int32.le_iff_toInt_le.mp order
  apply Int.ediv_le_ediv (by norm_num)
  exact mul_le_mul_of_nonneg_right (by omega) (by positivity)

theorem columnOf_mono {zoom : ℕ} (shallow : zoom ≤ deepestZoom) {a b : Int32} (order : a ≤ b) :
    (columnOf zoom (toDegrees a)).toInt ≤ (columnOf zoom (toDegrees b)).toInt := by
  simp only [columnOf_toDegrees shallow]
  exact exactColumn_mono zoom order

end Mercator

namespace Envelope

/-- The larger of the two minima and the smaller of the two maxima on each axis. -/
def overlap (a b : Envelope) : Envelope :=
  ⟨max a.minLon b.minLon, min a.maxLon b.maxLon, max a.minLat b.minLat, min a.maxLat b.maxLat⟩

section Order
variable {f : Int32 → ℤ} (mono : ∀ m n : Int32, m ≤ n → f m ≤ f n) (a b : Int32)
include mono

theorem mono_max : f (max a b) = max (f a) (f b) := by
  change f (if a ≤ b then b else a) = _
  by_cases order : a ≤ b
  · rw [if_pos order, max_eq_right (mono a b order)]
  · rw [if_neg order, max_eq_left (mono b a (Int32.le_of_lt (Int32.not_le.mp order)))]

theorem mono_min : f (min a b) = min (f a) (f b) := by
  change f (if a ≤ b then a else b) = _
  by_cases order : a ≤ b
  · rw [if_pos order, min_eq_left (mono a b order)]
  · rw [if_neg order, min_eq_right (mono b a (Int32.le_of_lt (Int32.not_le.mp order)))]

end Order

theorem toInt_mono (m n : Int32) (order : m ≤ n) : m.toInt ≤ n.toInt :=
  Int32.le_iff_toInt_le.mp order

theorem overlap_valid {a b : Envelope} (va : a.Valid) (vb : b.Valid) (meet : a.meets b = true) :
    (a.overlap b).Valid := by
  simp only [meets, Bool.and_eq_true, decide_eq_true_iff, Int32.le_iff_toInt_le] at meet
  simp only [Valid, Int32.le_iff_toInt_le] at va vb ⊢
  simp only [overlap, mono_max toInt_mono, mono_min toInt_mono]
  omega

theorem overlap_of_encloses {a b : Envelope} (inner : a.encloses b = true) : a.overlap b = b := by
  obtain ⟨minLon, maxLon, minLat, maxLat⟩ := b
  simp only [encloses, Bool.and_eq_true, decide_eq_true_iff, Int32.le_iff_toInt_le] at inner
  simp only [overlap, mk.injEq, ← Int32.toInt_inj, mono_max toInt_mono, mono_min toInt_mono]
  omega

theorem touches_overlap_iff {fns : Elementary Float} {zoom : ℕ} (shallow : zoom ≤ deepestZoom)
    (falls : RowsFall fns zoom) (a b : Envelope) (x y : ℤ) :
    (a.overlap b).Touches fns zoom x y ↔ a.Touches fns zoom x y ∧ b.Touches fns zoom x y := by
  have rises : ∀ m n : Int32, m ≤ n → (columnOf zoom (toDegrees m)).toInt ≤
      (columnOf zoom (toDegrees n)).toInt := fun m n => columnOf_mono shallow
  have sinks : ∀ m n : Int32, m ≤ n → -(rowOf fns zoom (toDegrees m)).toInt ≤
      -(rowOf fns zoom (toDegrees n)).toInt := fun m n order =>
    neg_le_neg (Int32.le_iff_toInt_le.mp (falls m n order))
  have west := mono_max rises a.minLon b.minLon
  have east := mono_min rises a.maxLon b.maxLon
  have south := mono_max sinks a.minLat b.minLat
  have north := mono_min sinks a.maxLat b.maxLat
  simp only [Touches, overlap]
  omega

end Envelope

namespace Grid

theorem mem_touched_overlap_iff {fns : Elementary Float} {g : Grid}
    (accepted : g.placement.Accepted) (falls : RowsFall fns g.placement.zoom) (a b : Envelope)
    (i : ℕ) : i ∈ g.touched fns (a.overlap b) ↔ i ∈ g.touched fns a ∧ i ∈ g.touched fns b := by
  simp only [mem_touched_iff, Envelope.touches_overlap_iff accepted.shallow falls]
  tauto

theorem touched_overlap {fns : Elementary Float} {g : Grid} (accepted : g.placement.Accepted)
    (falls : RowsFall fns g.placement.zoom) (a b : Envelope) :
    g.touched fns (a.overlap b) = (g.touched fns a).filter (· ∈ g.touched fns b) := by
  apply List.Pairwise.eq_of_mem_iff (touched_sorted fns g _) ((touched_sorted fns g a).filter _)
  intro i
  simp only [mem_touched_overlap_iff accepted falls, List.mem_filter, decide_eq_true_iff]

/-- Queries commute with intersection: the overlap of two envelopes that meet is an envelope, and
it returns their common points. An envelope within another has no further points. -/
theorem pointsIn_overlap {zoom west north width height : Int32} {g : Grid}
    (made : Placement.make zoom west north width height = .ok g.placement)
    {fns : Elementary Float} (falls : RowsFall fns g.placement.zoom) {a b : Envelope}
    (va : a.Valid) (vb : b.Valid) :
    (a.meets b = true → (a.overlap b).Valid ∧ ∃ as bs, g.pointsIn fns a = .ok as ∧
      g.pointsIn fns b = .ok bs ∧ g.pointsIn fns (a.overlap b) = .ok (as.filter (· ∈ bs))) ∧
    (a.encloses b = true → ∃ as bs, g.pointsIn fns a = .ok as ∧ g.pointsIn fns b = .ok bs ∧
      ∀ i ∈ bs, i ∈ as) := by
  obtain ⟨-, -, -, -, -, accepted⟩ := Placement.make_eq_ok_iff.mp made
  refine ⟨fun meet => ?_, fun inner => ?_⟩
  · have valid := Envelope.overlap_valid va vb meet
    refine ⟨valid, _, _, pointsIn_of_valid accepted va, pointsIn_of_valid accepted vb, ?_⟩
    simp only [pointsIn_of_valid accepted valid, touched_overlap accepted falls]
  · have common := mem_touched_overlap_iff accepted falls a b
    simp only [Envelope.overlap_of_encloses inner] at common
    exact ⟨_, _, pointsIn_of_valid accepted va, pointsIn_of_valid accepted vb,
      fun i member => ((common i).mp member).1⟩

theorem pointsIn_overlap_on_parallels :
    Placement.make 2 480 290 64 440 = .ok ⟨2, 480, 290, 64, 440⟩ ∧ RowsFall stepped 2 ∧
      ∃ as bs, Grid.pointsIn stepped ⟨⟨2, 480, 290, 64, 440⟩, none⟩
          ⟨-100000000, 100000000, -600000000, 600000000⟩ = .ok as ∧
        Grid.pointsIn stepped ⟨⟨2, 480, 290, 64, 440⟩, none⟩ ⟨0, 200000000, 0, 600000000⟩ =
          .ok bs ∧
        Grid.pointsIn stepped ⟨⟨2, 480, 290, 64, 440⟩, none⟩ ⟨0, 100000000, 0, 600000000⟩ =
          .ok (as.filter (· ∈ bs)) := by
  have made : Placement.make 2 480 290 64 440 = .ok ⟨2, 480, 290, 64, 440⟩ := rfl
  have falls : RowsFall stepped 2 := stepped_rowsFall (by decide)
  obtain ⟨common, -⟩ := pointsIn_overlap (g := ⟨⟨2, 480, 290, 64, 440⟩, none⟩) made falls
    (a := ⟨-100000000, 100000000, -600000000, 600000000⟩) (b := ⟨0, 200000000, 0, 600000000⟩)
    (by decide) (by decide)
  exact ⟨made, falls, (common (by decide)).2⟩

end Grid
end MercatorGrid
