import MercatorGrid.Grid.Basic
import MercatorGrid.Envelope

/-! Range queries: the points whose pixels an envelope touches.
The envelope's edges are projected to pixels, which count as touched on all four sides, and
clipped to the grid; the points are then read off row by row, in increasing order. -/
namespace MercatorGrid

/-- A rectangle of cells, counted from the grid's corner, all sides included. It is empty when
a first side lies beyond the last. -/
structure Window where
  minCol : Int
  maxCol : Int
  minRow : Int
  maxRow : Int
deriving DecidableEq

namespace Window

def isEmpty (w : Window) : Bool := w.maxCol < w.minCol || w.maxRow < w.minRow

def columns (w : Window) : Nat := (w.maxCol - w.minCol + 1).toNat

def rows (w : Window) : Nat := (w.maxRow - w.minRow + 1).toNat

def capacity (w : Window) : Checked Nat := do
  let count ← Checked.word (w.columns * w.rows)
  Checked.reserve count

/-- The points of one row. Only the last number is checked, the others being smaller. -/
def rowIndices (w : Window) (width row : Nat) : Checked (List Nat) := do
  let start ← Checked.word (row * width)
  let _ ← Checked.word (start + w.maxCol.toNat)
  return (List.range' w.minCol.toNat w.columns).map (start + ·)

def indices (w : Window) (width : Nat) : Checked (List Nat) := do
  let _ ← w.capacity
  let rows ← (List.range' w.minRow.toNat w.rows).mapM (w.rowIndices width)
  return rows.flatten

end Window

namespace Grid

def window (fns : Elementary Float) (g : Grid) (b : DegreeBox) : Checked Window := do
  let p := g.placement
  let west ← g.columnOf b.minLon
  let west ← Checked.int64 (west.toInt - p.west.toInt)
  let east ← g.columnOf b.maxLon
  let east ← Checked.int64 (east.toInt - p.west.toInt)
  let north ← g.rowOf fns b.maxLat
  let north ← Checked.int64 (north.toInt - p.north.toInt)
  let south ← g.rowOf fns b.minLat
  let south ← Checked.int64 (south.toInt - p.north.toInt)
  let lastCol ← Checked.int64 (p.width.toInt - 1)
  let lastRow ← Checked.int64 (p.height.toInt - 1)
  return ⟨max west 0, min east lastCol, max north 0, min south lastRow⟩

def pointsIn (fns : Elementary Float) (g : Grid) (e : Envelope) : Attempt (List Nat) := do
  e.check
  let w ← g.window fns e.toBox
  if w.isEmpty then return []
  else w.indices (wrap64 g.placement.width.toInt)

end Grid
end MercatorGrid
