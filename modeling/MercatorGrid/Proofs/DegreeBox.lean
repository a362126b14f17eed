import MercatorGrid.Proofs.Binary64.Line
import MercatorGrid.DegreeBox

namespace MercatorGrid.DegreeBox
open Binary64

theorem order_isFinite_iff (a b : Float) :
    (order a b).1.isFinite = true ∧ (order a b).2.isFinite = true ↔
      a.isFinite = true ∧ b.isFinite = true := by
  unfold order
  split
  · exact Iff.rfl
  · exact and_comm

theorem order_le {a b : Float} (ha : a.isFinite = true) (hb : b.isFinite = true) :
    (order a b).1 ≤ (order a b).2 := by
  obtain ⟨p, hp⟩ := isFinite_iff.mp ha
  obtain ⟨q, hq⟩ := isFinite_iff.mp hb
  unfold order
  by_cases less : a < b
  · rw [if_pos less, denotes_le hp hq, WithBotTop.coe_le_coe]
    exact ((denotes_lt hp hq).mp less).le
  · rw [if_neg less, denotes_le hq hp, WithBotTop.coe_le_coe]
    exact not_lt.mp fun h => less ((denotes_lt hp hq).mpr h)

theorem within_of_order {low high a b : Float} (first : low ≤ (order a b).1)
    (last : (order a b).2 ≤ high) : (low ≤ a ∧ a ≤ high) ∧ low ≤ b ∧ b ≤ high := by
  unfold order at first last
  by_cases less : a < b
  · rw [if_pos less] at first last
    obtain ⟨_, v, hlow, hv, above⟩ := points_of_le first
    obtain ⟨w, _, hw, hhigh, below⟩ := points_of_le last
    have between := ((lt_iff_of_denotes hv hw).mp less).le
    exact ⟨⟨first, (denotes_le hv hhigh).mpr (between.trans below)⟩,
      (denotes_le hlow hw).mpr (above.trans between), last⟩
  · rw [if_neg less] at first last
    obtain ⟨_, v, hlow, hv, above⟩ := points_of_le first
    obtain ⟨w, _, hw, hhigh, below⟩ := points_of_le last
    rw [lt_iff_of_denotes hw hv, not_lt] at less
    exact ⟨⟨(denotes_le hlow hw).mpr (above.trans less), last⟩, first,
      (denotes_le hv hhigh).mpr (less.trans below)⟩

def Contains (outer inner : DegreeBox) : Prop :=
  outer.minLon ≤ inner.minLon ∧ inner.maxLon ≤ outer.maxLon ∧
    outer.minLat ≤ inner.minLat ∧ inner.maxLat ≤ outer.maxLat

instance (outer inner : DegreeBox) : Decidable (outer.Contains inner) :=
  inferInstanceAs (Decidable (_ ∧ _))

variable {lon₁ lat₁ lon₂ lat₂ : Float}

theorem ofCorners_isFinite_iff : (ofCorners lon₁ lat₁ lon₂ lat₂).isFinite = true ↔
    lon₁.isFinite = true ∧ lat₁.isFinite = true ∧ lon₂.isFinite = true ∧
      lat₂.isFinite = true := by
  have lons := order_isFinite_iff lon₁ lon₂
  have lats := order_isFinite_iff lat₁ lat₂
  simp only [ofCorners, isFinite, Bool.and_eq_true]
  constructor
  · rintro ⟨⟨⟨west, south⟩, east⟩, north⟩
    obtain ⟨first, second⟩ := lons.mp ⟨west, east⟩
    obtain ⟨third, fourth⟩ := lats.mp ⟨south, north⟩
    exact ⟨first, third, second, fourth⟩
  · rintro ⟨first, third, second, fourth⟩
    obtain ⟨west, east⟩ := lons.mpr ⟨first, second⟩
    obtain ⟨south, north⟩ := lats.mpr ⟨third, fourth⟩
    exact ⟨⟨⟨west, south⟩, east⟩, north⟩

theorem ofCorners_le (finite : (ofCorners lon₁ lat₁ lon₂ lat₂).isFinite = true) :
    (ofCorners lon₁ lat₁ lon₂ lat₂).minLon ≤ (ofCorners lon₁ lat₁ lon₂ lat₂).maxLon ∧
      (ofCorners lon₁ lat₁ lon₂ lat₂).minLat ≤ (ofCorners lon₁ lat₁ lon₂ lat₂).maxLat := by
  obtain ⟨west, south, east, north⟩ := ofCorners_isFinite_iff.mp finite
  exact ⟨order_le west east, order_le south north⟩

theorem corners_of_contains {outer : DegreeBox}
    (h : outer.Contains (ofCorners lon₁ lat₁ lon₂ lat₂)) :
    ((outer.minLon ≤ lon₁ ∧ lon₁ ≤ outer.maxLon) ∧ outer.minLon ≤ lon₂ ∧ lon₂ ≤ outer.maxLon) ∧
      (outer.minLat ≤ lat₁ ∧ lat₁ ≤ outer.maxLat) ∧ outer.minLat ≤ lat₂ ∧ lat₂ ≤ outer.maxLat := by
  obtain ⟨west, east, south, north⟩ := h
  exact ⟨within_of_order west east, within_of_order south north⟩

end MercatorGrid.DegreeBox
