import MercatorGrid.DegreeBox
import MercatorGrid.FixedPoint
import MercatorGrid.Mercator

namespace MercatorGrid

inductive EnvelopeFault where
  | invertedLongitude (min max : Int32)
  | invertedLatitude (min max : Int32)
  | unrepresentable (degrees : Float)
  | notFinite (box : DegreeBox)

inductive PlaneFault where
  | farEdge (width height west north : Int32)
  | tooWide (width : Int) (zoom : Int32)
  | tooHigh (height : Int) (zoom : Int32)

inductive Refusal where
  | zoomOutOfRange (zoom : Int32)
  | sidesNotPositive (width height : Int)
  | leavesPlane (fault : PlaneFault)
  | tooManyPoints (count : Nat)
  | countsMismatch (expected actual : Nat)
  | envelopeInvalid (fault : EnvelopeFault)

def maxPoints : Nat := 2147483647

def EnvelopeFault.message : EnvelopeFault → String
  | .invertedLongitude min max => inverted "longitude" min max
  | .invertedLatitude min max => inverted "latitude" min max
  | .unrepresentable degrees =>
    "coordinate " ++ Decimal.Layout.plain.write degrees ++
      " cannot be represented in fixed-point degrees"
  | .notFinite box => "non-finite coordinates in " ++ box.describe
where
  inverted (axis : String) (min max : Int32) : String :=
    let text := fun n => Decimal.Layout.plain.write (FixedPoint.toDegrees n)
    "min " ++ axis ++ " " ++ text min ++ " exceeds max " ++ axis ++ " " ++ text max

def PlaneFault.message : PlaneFault → String
  | .farEdge width height west north =>
    s!"{width.toInt}x{height.toInt} grid at ({west.toInt}, {north.toInt})"
  | .tooWide width zoom => s!"width {width} at zoom {zoom.toInt}"
  | .tooHigh height zoom => s!"height {height} at zoom {zoom.toInt}"

namespace Refusal

def message : Refusal → String
  | .zoomOutOfRange zoom =>
    s!"Invalid zoom level {zoom.toInt}: must be between 0 and {Mercator.deepestZoom}"
  | .sidesNotPositive width height =>
    s!"Invalid grid dimensions {width}x{height}: both must be at least 1"
  | .leavesPlane fault => "Grid does not fit in the pixel plane: " ++ fault.message
  | .tooManyPoints count => s!"Grid has {count} points, more than the limit of {maxPoints}"
  | .countsMismatch expected actual =>
    s!"Opportunity counts have {actual} values but the grid has {expected} points"
  | .envelopeInvalid fault => "Invalid envelope: " ++ fault.message

def concernsGrid : Refusal → Bool
  | .envelopeInvalid _ => false
  | _ => true

end Refusal
end MercatorGrid
