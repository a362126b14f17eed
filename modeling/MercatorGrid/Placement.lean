import MercatorGrid.Attempt

/-! Where a grid lies in the pixel plane.
A placement is a rectangle of pixels at a zoom, with its cells numbered row by row from the
north-west corner. `Accepted` states in exact integers what `make` checks; a placement read
from a document has not been checked, so the type does not carry it. -/
namespace MercatorGrid

structure Placement where
  zoom : Nat
  west : Int32
  north : Int32
  width : Int32
  height : Int32
deriving DecidableEq

namespace Placement

/-- What the checks of `make` ask of a placement, in exact integers. -/
def Accepted (p : Placement) : Prop :=
  p.zoom ≤ Mercator.deepestZoom ∧ 1 ≤ p.width.toInt ∧ 1 ≤ p.height.toInt ∧
    p.west.toInt + p.width.toInt ≤ 2147483647 ∧
    p.north.toInt + p.height.toInt ≤ 2147483647 ∧
    p.width.toInt * p.height.toInt ≤ maxPoints

instance (p : Placement) : Decidable p.Accepted := inferInstanceAs (Decidable (_ ∧ _))

def Covers (p : Placement) (x y : Int) : Prop :=
  p.west.toInt ≤ x ∧ x < p.west.toInt + p.width.toInt ∧
    p.north.toInt ≤ y ∧ y < p.north.toInt + p.height.toInt

def checkZoom (zoom : Int32) : Except Refusal Nat :=
  if 0 ≤ zoom.toInt ∧ zoom.toInt ≤ Mercator.deepestZoom then .ok zoom.toInt.toNat
  else .error (.zoomOutOfRange zoom)

/-- The number of points; a negative side counts as the word it wraps to. -/
def pointCount (p : Placement) : Checked Nat :=
  Checked.word (wrap64 p.width.toInt * wrap64 p.height.toInt)

/-- The placement with these fields. The zoom is checked first, then the sides, then the far
corner, and last the number of points. -/
def make (zoom west north width height : Int32) : Attempt Placement := do
  let level ← checkZoom zoom
  let p : Placement := ⟨level, west, north, width, height⟩
  if width ≤ 0 ∨ height ≤ 0 then
    Attempt.refuse (.sidesNotPositive width.toInt height.toInt)
  else
    match Checked.int32 (west.toInt + width.toInt), Checked.int32 (north.toInt + height.toInt) with
    | .ok _, .ok _ =>
      let count ← p.pointCount
      if maxPoints < count then Attempt.refuse (.tooManyPoints count) else return p
    | _, _ => Attempt.refuse (.leavesPlane (.farEdge width height west north))

def withinPlane (zoom : Nat) (pixel : Int32) : Int :=
  max 0 (min (Mercator.worldPixels zoom - 1) pixel.toInt)

def span (first last : Int) : Checked Int := do
  let distance ← Checked.int64 (last - first)
  Checked.int64 (distance + 1)

/-- The smallest placement that covers every pixel a box touches; what lies outside the plane
is moved to its outermost pixels. -/
def covering (fns : Elementary Float) (b : DegreeBox) (zoom : Int32) : Attempt Placement := do
  let level ← checkZoom zoom
  if !b.isFinite then Attempt.refuse (.envelopeInvalid (.notFinite b))
  else
    let west := withinPlane level (Mercator.columnOf level b.minLon)
    let east := withinPlane level (Mercator.columnOf level b.maxLon)
    let north := withinPlane level (Mercator.rowOf fns level b.maxLat)
    let south := withinPlane level (Mercator.rowOf fns level b.minLat)
    let width ← span west east
    let height ← span north south
    if width ≤ 0 ∨ height ≤ 0 then Attempt.refuse (.sidesNotPositive width height)
    else
      match Checked.int32 width, Checked.int32 height with
      | .ok w, .ok h => make zoom (Int32.ofInt west) (Int32.ofInt north) w h
      | .ok _, .error _ => Attempt.refuse (.leavesPlane (.tooHigh height zoom))
      | .error _, _ => Attempt.refuse (.leavesPlane (.tooWide width zoom))

def cell? (p : Placement) (index : Nat) : Checked (Option (Int32 × Int32)) := do
  let count ← p.pointCount
  if count ≤ index then return none
  else
    let width := wrap64 p.width.toInt
    let column ← Checked.remainder index width
    let row ← Checked.quotient index width
    return some (wrap32 column, wrap32 row)

def numberOf (p : Placement) (column row : Nat) : Checked Nat := do
  let start ← Checked.word (row * wrap64 p.width.toInt)
  Checked.word (start + column)

def pointAt (p : Placement) (x y : Int32) : Checked (Option Nat) := do
  let column ← Checked.int64 (x.toInt - p.west.toInt)
  let row ← Checked.int64 (y.toInt - p.north.toInt)
  if column < 0 ∨ row < 0 ∨ p.width.toInt ≤ column ∨ p.height.toInt ≤ row then return none
  else
    let index ← p.numberOf column.toNat row.toNat
    return some index

def level (p : Placement) : Checked Nat := Checked.shiftAmount p.zoom

def bounds (fns : Elementary Float) (p : Placement) : Checked DegreeBox := do
  let zoom ← p.level
  let east ← Checked.int64 (p.west.toInt + p.width.toInt)
  let south ← Checked.int64 (p.north.toInt + p.height.toInt)
  return .ofCorners (Mercator.longitudeOfX zoom (Float.ofInt p.west.toInt))
    (Mercator.latitudeOfY fns zoom (Float.ofInt south))
    (Mercator.longitudeOfX zoom (Float.ofInt east))
    (Mercator.latitudeOfY fns zoom (Float.ofInt p.north.toInt))

def describe (p : Placement) : String :=
  "WebMercatorExtents \x7b zoom: " ++ toString p.zoom ++ ", west: " ++ toString p.west.toInt ++
    ", north: " ++ toString p.north.toInt ++ ", width: " ++ toString p.width.toInt ++
    ", height: " ++ toString p.height.toInt ++ " \x7d"

end Placement
end MercatorGrid
