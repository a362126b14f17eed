import MercatorGrid.Proofs.Grid.Overlap
import Mathlib.Data.Set.Basic

namespace MercatorGrid.Envelope

def locations (e : Envelope) : Set (Int32 × Int32) := {q | e.Mem q.1 q.2}

@[simp] theorem mem_locations {e : Envelope} {q : Int32 × Int32} :
    q ∈ e.locations ↔ e.Mem q.1 q.2 := Iff.rfl

theorem valid_of_mem {e : Envelope} {lon lat : Int32} (inside : e.Mem lon lat) : e.Valid := by
  obtain ⟨west, east, south, north⟩ := inside
  exact ⟨Int32.le_trans west east, Int32.le_trans south north⟩

section Valid
variable {e : Envelope} (valid : e.Valid)
include valid

theorem first_corner_mem : (e.minLon, e.minLat) ∈ e.locations :=
  ⟨Int32.le_refl _, valid.1, Int32.le_refl _, valid.2⟩

theorem last_corner_mem : (e.maxLon, e.maxLat) ∈ e.locations :=
  ⟨valid.1, Int32.le_refl _, valid.2, Int32.le_refl _⟩

end Valid

theorem valid_iff_nonempty (e : Envelope) : e.Valid ↔ e.locations.Nonempty := by
  constructor
  · intro valid
    exact ⟨_, first_corner_mem valid⟩
  · rintro ⟨q, inside⟩
    exact valid_of_mem inside

theorem locations_overlap (a b : Envelope) :
    (a.overlap b).locations = a.locations ∩ b.locations := by
  ext ⟨lon, lat⟩
  simp only [Set.mem_inter_iff, mem_locations, Mem, overlap, Int32.le_iff_toInt_le,
    mono_max toInt_mono, mono_min toInt_mono]
  omega

variable {a b c : Envelope}

theorem meets_iff_overlap_valid (va : a.Valid) (vb : b.Valid) :
    a.meets b = true ↔ (a.overlap b).Valid := by
  constructor
  · exact overlap_valid va vb
  · intro valid
    simp only [Valid, overlap, Int32.le_iff_toInt_le, mono_max toInt_mono,
      mono_min toInt_mono] at valid
    simp only [meets, Bool.and_eq_true, decide_eq_true_iff, Int32.le_iff_toInt_le]
    omega

theorem meets_iff (va : a.Valid) (vb : b.Valid) :
    a.meets b = true ↔ (a.locations ∩ b.locations).Nonempty := by
  rw [meets_iff_overlap_valid va vb, valid_iff_nonempty, locations_overlap]

theorem encloses_iff_bounds : a.encloses b = true ↔
    a.minLon ≤ b.minLon ∧ b.maxLon ≤ a.maxLon ∧ a.minLat ≤ b.minLat ∧ b.maxLat ≤ a.maxLat := by
  simp only [encloses, Bool.and_eq_true, decide_eq_true_iff, and_assoc]

theorem encloses_iff (vb : b.Valid) : a.encloses b = true ↔ b.locations ⊆ a.locations := by
  simp only [encloses_iff_bounds]
  constructor
  · rintro ⟨west, east, south, north⟩ q ⟨left, right, below, above⟩
    exact ⟨Int32.le_trans west left, Int32.le_trans right east, Int32.le_trans south below,
      Int32.le_trans above north⟩
  · intro within
    obtain ⟨west, -, south, -⟩ := within (first_corner_mem vb)
    obtain ⟨-, east, -, north⟩ := within (last_corner_mem vb)
    exact ⟨west, east, south, north⟩

theorem encloses_antisymm (outer : a.encloses b = true) (inner : b.encloses a = true) :
    a = b := by
  obtain ⟨west, east, south, north⟩ := encloses_iff_bounds.mp outer
  obtain ⟨west', east', south', north'⟩ := encloses_iff_bounds.mp inner
  cases a
  cases b
  simp only [mk.injEq]
  exact ⟨Int32.le_antisymm west west', Int32.le_antisymm east' east,
    Int32.le_antisymm south south', Int32.le_antisymm north' north⟩

/-- Valid envelopes meet when they have a common location, touching edges included, and one
encloses another when it has each of its locations. So to meet is symmetric and reflexive, to
enclose is a partial order, and what meets an envelope meets all that enclose it. -/
theorem relations_of_locations (va : a.Valid) (vb : b.Valid) (vc : c.Valid) :
    (a.meets b = true ↔ ∃ lon lat, a.Mem lon lat ∧ b.Mem lon lat) ∧
    (a.encloses b = true ↔ ∀ lon lat, b.Mem lon lat → a.Mem lon lat) ∧
    (a.meets b = true ↔ b.meets a = true) ∧ a.meets a = true ∧
    a.encloses a = true ∧ (a.encloses b = true → b.encloses a = true → a = b) ∧
    (a.encloses b = true → b.encloses c = true → a.encloses c = true) ∧
    (a.encloses b = true → a.meets b = true) ∧
    (a.encloses b = true → b.meets c = true → a.meets c = true) := by
  have nonempty := (valid_iff_nonempty b).mp vb
  simp only [meets_iff va vb, meets_iff vb va, meets_iff va va, meets_iff va vc, meets_iff vb vc,
    encloses_iff va, encloses_iff vb, encloses_iff vc]
  refine ⟨Prod.exists, Prod.forall, ?_, ?_, subset_rfl, ?_, ?_, ?_, ?_⟩
  · rw [Set.inter_comm]
  · rw [Set.inter_self]
    exact (valid_iff_nonempty a).mp va
  · intro outer inner
    exact encloses_antisymm ((encloses_iff vb).mpr outer) ((encloses_iff va).mpr inner)
  · intro outer inner
    exact inner.trans outer
  · intro outer
    exact nonempty.mono (Set.subset_inter outer subset_rfl)
  · intro outer common
    exact common.mono (Set.inter_subset_inter_left _ outer)

theorem relations_of_locations_at_corner :
    ((Envelope.mk (-2147483648) 5 (-7) 2147483647).Valid ∧ (Envelope.mk 5 5 (-7) (-7)).Valid ∧
      (Envelope.mk 5 9 (-9) (-7)).Valid) ∧
    (∃ lon lat, (Envelope.mk (-2147483648) 5 (-7) 2147483647).Mem lon lat ∧
      (Envelope.mk 5 5 (-7) (-7)).Mem lon lat) ∧
    Envelope.meets ⟨-2147483648, 5, -7, 2147483647⟩ ⟨5, 9, -9, -7⟩ = true := by
  have outer : (Envelope.mk (-2147483648) 5 (-7) 2147483647).Valid := by decide
  have corner : (Envelope.mk 5 5 (-7) (-7)).Valid := by decide
  have beside : (Envelope.mk 5 9 (-9) (-7)).Valid := by decide
  obtain ⟨common, -, -, -, -, -, -, within, carried⟩ :=
    relations_of_locations outer corner beside
  exact ⟨⟨outer, corner, beside⟩, common.mp (within (by decide)),
    carried (by decide) (by decide)⟩

end MercatorGrid.Envelope
