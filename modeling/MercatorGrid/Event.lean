import MercatorGrid.Grid.Query

namespace MercatorGrid

inductive Severity where
  | error
  | warn
  | info
  | debug
  | trace
deriving DecidableEq

def Severity.label : Severity → String
  | .error => "ERROR"
  | .warn => "WARN"
  | .info => "INFO"
  | .debug => "DEBUG"
  | .trace => "TRACE"

def Severity.rank : Severity → Nat
  | .error => 0
  | .warn => 1
  | .info => 2
  | .debug => 3
  | .trace => 4

inductive Event where
  | clamped (minLat maxLat : Float)
  | created (placement : Placement)
  | noOverlap (envelope : Envelope)
  | matched (envelope : Envelope) (count : Nat)

namespace Event

def severity : Event → Severity
  | .clamped .. => .warn
  | .created _ => .debug
  | .noOverlap _ => .trace
  | .matched .. => .trace

def message : Event → String
  | .clamped minLat maxLat =>
    "Envelope latitudes (" ++ Decimal.Layout.plain.write minLat ++ ", " ++
      Decimal.Layout.plain.write maxLat ++ ") exceed the Web Mercator range and will be clamped"
  | .created p =>
    s!"Created {p.width.toInt}x{p.height.toInt} grid at zoom {p.zoom} with origin pixel ({p.west.toInt}, {p.north.toInt})"
  | .noOverlap e => "Envelope " ++ e.describe ++ " does not overlap the grid"
  | .matched e count => "Envelope " ++ e.describe ++ " matched " ++ toString count ++ " points"

def ofBuild : Attempt Grid → List Event
  | .ok g => [.created g.placement]
  | .error _ => []

/-- Latitudes beyond the plane are reported before the grid, also when none is built. -/
def ofCovering (b : DegreeBox) (built : Attempt Grid) : List Event :=
  (if Mercator.inRange b.minLat && Mercator.inRange b.maxLat then []
    else [.clamped b.minLat b.maxLat]) ++ ofBuild built

/-- An answered query is reported with the number of its points; an empty answer comes from an
envelope that misses the grid. -/
def ofQuery (e : Envelope) : Attempt (List Nat) → List Event
  | .ok found => if found.isEmpty then [.noOverlap e] else [.matched e found.length]
  | .error _ => []

end Event
end MercatorGrid
