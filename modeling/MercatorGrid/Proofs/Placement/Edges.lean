import MercatorGrid.Proofs.Placement
import MercatorGrid.Proofs.Longitude.Centre

namespace MercatorGrid.Placement
open Mercator

def east (p : Placement) : Int32 := Int32.ofInt (p.west.toInt + p.width.toInt)

def south (p : Placement) : Int32 := Int32.ofInt (p.north.toInt + p.height.toInt)

namespace Accepted
variable {p : Placement} (accepted : p.Accepted)
include accepted

theorem toInt_east : p.east.toInt = p.west.toInt + p.width.toInt := by
  have west := Checked.toInt_range p.west
  obtain ⟨-, wide, -, east, -, -⟩ := accepted
  apply Checked.toInt_ofInt_of_range <;> omega

theorem toInt_south : p.south.toInt = p.north.toInt + p.height.toInt := by
  have north := Checked.toInt_range p.north
  obtain ⟨-, -, tall, -, south, -⟩ := accepted
  apply Checked.toInt_ofInt_of_range <;> omega

theorem bounds_eq (fns : Elementary Float) : p.bounds fns =
    .ok (.ofCorners (westEdge p.zoom p.west) (northEdge fns p.zoom p.south)
      (westEdge p.zoom p.east) (northEdge fns p.zoom p.north)) := by
  have east := Checked.toInt_range p.east
  have south := Checked.toInt_range p.south
  simp only [bounds, level_eq accepted, ok_bind, ← toInt_east accepted, ← toInt_south accepted]
  rw [Checked.int64_of_range (by omega) (by omega), Checked.int64_of_range (by omega) (by omega)]
  rfl

end Accepted
end MercatorGrid.Placement
