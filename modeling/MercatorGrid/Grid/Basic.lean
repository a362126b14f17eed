import MercatorGrid.Placement

namespace MercatorGrid

def standardZoom : Int32 := 9

structure Grid where
  placement : Placement
  counts : Option (List Float)

namespace Grid

def ofPlacement (p : Placement) : Grid := ⟨p, none⟩

def covering (fns : Elementary Float) (b : DegreeBox) (zoom : Int32) : Attempt Grid := do
  let p ← Placement.covering fns b zoom
  return ofPlacement p

def pointCount (g : Grid) : Checked Nat := g.placement.pointCount

/-- The grid with one value for each point, in the order of the points; there must be exactly
as many. -/
def attach (g : Grid) (counts : List Float) : Attempt Grid := do
  let expected ← g.pointCount
  if counts.length = expected then return { g with counts := some counts }
  else Attempt.refuse (.countsMismatch expected counts.length)

def countAt (g : Grid) (index : Nat) : Checked (Option Float) := do
  let count ← g.pointCount
  if count ≤ index then return none
  else
    match g.counts with
    | none => return some 0.0
    | some counts =>
      let c ← Checked.item counts index
      return some c

/-- The sum of all values from the first to the last. An empty list of values has the negative
zero for its sum, and a grid without values the positive one. -/
def total (g : Grid) : Float :=
  match g.counts with
  | none => 0.0
  | some counts => counts.foldl (· + ·) (-0.0)

/-- Equal placements and numerically equal values, so not-a-number differs from itself. -/
def same (g h : Grid) : Bool := g.placement = h.placement && g.counts == h.counts

def columnOf (g : Grid) (lon : Float) : Checked Int32 := do
  let zoom ← g.placement.level
  return Mercator.columnOf zoom lon

def rowOf (fns : Elementary Float) (g : Grid) (lat : Float) : Checked Int32 := do
  let zoom ← g.placement.level
  return Mercator.rowOf fns zoom lat

def longitude (g : Grid) (index : Nat) : Checked (Option Float) := do
  match ← g.placement.cell? index with
  | none => return none
  | some (column, _) =>
    let x ← Checked.int32 (g.placement.west.toInt + column.toInt)
    let zoom ← g.placement.level
    return some (Mercator.columnCentre zoom x)

def latitude (fns : Elementary Float) (g : Grid) (index : Nat) : Checked (Option Float) := do
  match ← g.placement.cell? index with
  | none => return none
  | some (_, row) =>
    let y ← Checked.int32 (g.placement.north.toInt + row.toInt)
    let zoom ← g.placement.level
    return some (Mercator.rowCentre fns zoom y)

def locate (fns : Elementary Float) (g : Grid) (lon lat : Float) : Checked (Option Nat) := do
  let x ← g.columnOf lon
  let y ← g.rowOf fns lat
  g.placement.pointAt x y

def returns (fns : Elementary Float) (g : Grid) (index : Nat) : Checked Bool := do
  match ← g.longitude index, ← g.latitude fns index with
  | some lon, some lat =>
    let found ← g.locate fns lon lat
    return found == some index
  | _, _ => return false

def returning (fns : Elementary Float) (g : Grid) : Checked Nat := do
  let count ← g.pointCount
  (List.range count).foldlM (fun n i => do return if ← g.returns fns i then n + 1 else n) 0

end Grid
end MercatorGrid
