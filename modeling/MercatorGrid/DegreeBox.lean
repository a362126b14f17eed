import MercatorGrid.Decimal.Text

namespace MercatorGrid

structure DegreeBox where
  minLon : Float
  minLat : Float
  maxLon : Float
  maxLat : Float

namespace DegreeBox

/-- Two coordinates in order; they are exchanged unless the first is below the second. -/
def order (a b : Float) : Float × Float := if a < b then (a, b) else (b, a)

def ofCorners (lon₁ lat₁ lon₂ lat₂ : Float) : DegreeBox :=
  let (minLon, maxLon) := order lon₁ lon₂
  let (minLat, maxLat) := order lat₁ lat₂
  ⟨minLon, minLat, maxLon, maxLat⟩

def isFinite (b : DegreeBox) : Bool :=
  b.minLon.isFinite && b.minLat.isFinite && b.maxLon.isFinite && b.maxLat.isFinite

def describe (b : DegreeBox) : String :=
  let text := Decimal.Layout.detailed.write
  "RECT(" ++ text b.minLon ++ " " ++ text b.minLat ++ "," ++ text b.maxLon ++ " " ++
    text b.maxLat ++ ")"

end DegreeBox
end MercatorGrid
