import MercatorGrid.Checked
import MercatorGrid.Binary64

/-! Degrees as signed 32-bit counts of 1e-7 degree. -/
namespace MercatorGrid.FixedPoint

def unitsPerDegree : Float := 1e7

def limit : Float := Binary64.ofInt32 Int32.maxValue / unitsPerDegree

/-- The nearest unit, halves away from zero, if it fits. -/
def ofDegrees? (degrees : Float) : Option Int32 :=
  (Binary64.nearest? (degrees * unitsPerDegree)).bind fun n => (Checked.int32 n).toOption

def toDegrees (n : Int32) : Float := Binary64.ofInt32 n / unitsPerDegree

end MercatorGrid.FixedPoint
