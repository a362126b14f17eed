import MercatorGrid.Proofs.Longitude
import MercatorGrid.Proofs.Binary64.Line

namespace MercatorGrid.Mercator
open Binary64

/-- The column of a point of the line, by the same steps as that of a double. -/
def columnAt (zoom : ℕ) (v : Line) : ℤ :=
  floorOn (rounded (· * 2 ^ (zoom + 8)) (rounded (· / 360) (rounded (· + 180) v)))

theorem columnAt_mono (zoom : ℕ) : Monotone (columnAt zoom) := by
  have shifted : Monotone fun q : ℚ => q + 180 := fun p q h => by
    change p + 180 ≤ q + 180
    linarith
  have divided : Monotone fun q : ℚ => q / 360 := fun p q h =>
    div_le_div_of_nonneg_right h (by norm_num)
  have scaled : Monotone fun q : ℚ => q * 2 ^ (zoom + 8) := fun p q h =>
    mul_le_mul_of_nonneg_right h (by positivity)
  exact floorOn_mono.comp
    ((rounded_mono scaled).comp ((rounded_mono divided).comp (rounded_mono shifted)))

theorem columnOf_eq {zoom : ℕ} (shallow : zoom ≤ deepestZoom) {lon : Float} {v : Line}
    (h : Denotes lon v) : (columnOf zoom lon).toInt = columnAt zoom v := by
  have shifted := denotes_add_number h denotes_halfTurn
  have divided := denotes_div_positive shifted denotes_fullTurn (by norm_num)
  have scaled := denotes_mul_positive divided (denotes_worldSize shallow) (by positivity)
  exact floor32_eq scaled

theorem columnOf_le {zoom : ℕ} (shallow : zoom ≤ deepestZoom) {a b : Float} (order : a ≤ b) :
    (columnOf zoom a).toInt ≤ (columnOf zoom b).toInt := by
  obtain ⟨v, w, hv, hw, below⟩ := points_of_le order
  rw [columnOf_eq shallow hv, columnOf_eq shallow hw]
  exact columnAt_mono zoom below

end MercatorGrid.Mercator
