import MercatorGrid.Binary64

/-! The Web Mercator pixel plane.
At zoom `z` the world is a square of `256 · 2^z` pixels with pixel (0, 0) in its north-west
corner. Longitudes need only the four operations of arithmetic and are given on doubles. The
latitude formulas are given over any number type and any choice of the elementary functions,
so that the same text can be read over the reals. Nothing is assumed of those functions. -/
namespace MercatorGrid

structure Elementary (α : Type) where
  pi : α
  degreesPerRadian : α
  tan : α → α
  cos : α → α
  log : α → α
  sinh : α → α
  atan : α → α

def Elementary.native : Elementary Float where
  pi := 3.141592653589793
  degreesPerRadian := 57.29577951308232
  tan := Float.tan
  cos := Float.cos
  log := Float.log
  sinh := Float.sinh
  atan := Float.atan

namespace Mercator

def tilePixels : Nat := 256

def deepestZoom : Nat := 22

def worldPixels (zoom : Nat) : Nat := tilePixels <<< zoom

section Latitude
variable {α : Type} [Add α] [Sub α] [Mul α] [Div α] [Neg α] [LT α] [DecidableLT α] [OfScientific α]

/-- The latitude at which the plane ends, rounded up. -/
def edgeLatitude : α := 85.05112878

def worldSize (zoom : Nat) : α := OfScientific.ofScientific (worldPixels zoom) false 0

/-- What compares with neither bound is kept. -/
def clamp (low high x : α) : α := if x < low then low else if high < x then high else x

/-- Continuous pixel row of a latitude in degrees. Latitudes beyond the plane are moved to its
edge first, and the result is kept within the plane. -/
def yOfLatitude (fns : Elementary α) (zoom : Nat) (lat : α) : α :=
  let radians := clamp (-edgeLatitude) edgeLatitude lat * (fns.pi / 180.0)
  let northing := fns.log (fns.tan radians + 1.0 / fns.cos radians)
  clamp 0.0 (worldSize zoom) ((1.0 - northing / fns.pi) / 2.0 * worldSize zoom)

def latitudeOfY (fns : Elementary α) (zoom : Nat) (y : α) : α :=
  fns.atan (fns.sinh (fns.pi - 2.0 * fns.pi * y / worldSize zoom)) * fns.degreesPerRadian

end Latitude

def inRange (lat : Float) : Bool := -edgeLatitude ≤ lat && lat ≤ edgeLatitude

def xOfLongitude (zoom : Nat) (lon : Float) : Float := (lon + 180.0) / 360.0 * worldSize zoom

def longitudeOfX (zoom : Nat) (x : Float) : Float := x / worldSize zoom * 360.0 - 180.0

def columnOf (zoom : Nat) (lon : Float) : Int32 := Binary64.floor32 (xOfLongitude zoom lon)

def rowOf (fns : Elementary Float) (zoom : Nat) (lat : Float) : Int32 :=
  Binary64.floor32 (yOfLatitude fns zoom lat)

def westEdge (zoom : Nat) (column : Int32) : Float :=
  longitudeOfX zoom (Binary64.ofInt32 column)

def northEdge (fns : Elementary Float) (zoom : Nat) (row : Int32) : Float :=
  latitudeOfY fns zoom (Binary64.ofInt32 row)

def columnCentre (zoom : Nat) (column : Int32) : Float :=
  longitudeOfX zoom (Binary64.ofInt32 column + 0.5)

def rowCentre (fns : Elementary Float) (zoom : Nat) (row : Int32) : Float :=
  latitudeOfY fns zoom (Binary64.ofInt32 row + 0.5)

end Mercator
end MercatorGrid
