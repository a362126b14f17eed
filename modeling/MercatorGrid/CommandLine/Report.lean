import MercatorGrid.CommandLine.Options
import MercatorGrid.Document.Text
import MercatorGrid.Grid.Batch

namespace MercatorGrid.CommandLine

structure Entry where
  envelope : Envelope
  indices : List Nat

structure Report where
  placement : Placement
  points : Nat
  bounds : DegreeBox
  entries : List Entry

namespace Report

def grid (fns : Elementary Float) (o : Options) : Attempt Grid :=
  Grid.covering fns o.box o.zoom

def ofOptions (fns : Elementary Float) (o : Options) : Attempt Report := do
  let g ← grid fns o
  let points ← g.pointCount
  let found ← g.pointsInEach fns (.standard o.queries.length) o.queries
  let bounds ← g.placement.bounds fns
  return ⟨g.placement, points, bounds, List.zipWith Entry.mk o.queries found⟩

def entryDocument (e : Entry) : Document :=
  .object [("envelope", e.envelope.toDocument), ("count", .ofInt e.indices.length),
    ("indices", .list (e.indices.map fun (i : Nat) => .ofInt i))]

def document (r : Report) : Document := .list (r.entries.map entryDocument)

def gridLine (r : Report) : String :=
  let p := r.placement
  let b := r.bounds
  let text := Decimal.writeFixed 5
  s!"grid: zoom {p.zoom} origin ({p.west.toInt}, {p.north.toInt}) " ++
    s!"size {p.width.toInt}x{p.height.toInt} ({r.points} points), " ++
    "lon " ++ text b.minLon ++ ".." ++ text b.maxLon ++
    " lat " ++ text b.minLat ++ ".." ++ text b.maxLat

def queryLine (e : Entry) : String :=
  let b := e.envelope.toBox
  let text := Decimal.Layout.plain.write
  "query lon " ++ text b.minLon ++ ".." ++ text b.maxLon ++
    " lat " ++ text b.minLat ++ ".." ++ text b.maxLat ++
    ": " ++ toString e.indices.length ++ " points"

def render (printer : Document.Printer) (json : Bool) (r : Report) : Except String String :=
  if json then (printer r.document).map (· ++ "\n")
  else .ok (String.join ((r.gridLine :: r.entries.map queryLine).map (· ++ "\n")))

end Report
end MercatorGrid.CommandLine
