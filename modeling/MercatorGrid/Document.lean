import MercatorGrid.Envelope
import MercatorGrid.Placement

/-! Structured documents and the values read from them.
A record is read from an object that has all its fields, in any order and among others, or
from a list of exactly its fields. Reading checks that each number is whole and fits its
field, and nothing else: bounds may be inverted and sides negative. -/
namespace MercatorGrid

/-- A number is `mantissa / 10^places`, kept as it was written, so `1.0` is not a whole one. -/
inductive Document where
  | null
  | bool (value : Bool)
  | number (mantissa : Int) (places : Nat)
  | text (value : String)
  | list (items : List Document)
  | object (fields : List (String × Document))
deriving Inhabited

namespace Document

def ofInt (n : Int) : Document := .number n 0

def whole? : Document → Option Int
  | .number mantissa 0 => some mantissa
  | _ => none

def int32? (d : Document) : Option Int32 :=
  d.whole?.bind fun n => (Checked.int32 n).toOption

def level? (d : Document) : Option Nat :=
  d.whole?.bind fun n => if 0 ≤ n ∧ n ≤ 4294967295 then some n.toNat else none

def fields? (names : List String) : Document → Option (List Document)
  | .object fields => names.mapM fun name => fields.lookup name
  | .list items => if items.length = names.length then some items else none
  | _ => none

end Document

namespace Envelope

def fieldNames : List String := ["min_lon", "max_lon", "min_lat", "max_lat"]

def ofDocument? (d : Document) : Option Envelope := do
  match (← d.fields? fieldNames) with
  | [minLon, maxLon, minLat, maxLat] =>
    return ⟨← minLon.int32?, ← maxLon.int32?, ← minLat.int32?, ← maxLat.int32?⟩
  | _ => none

def toDocument (e : Envelope) : Document :=
  .object (fieldNames.zip
    ([e.minLon, e.maxLon, e.minLat, e.maxLat].map fun n => .ofInt n.toInt))

end Envelope

namespace Placement

def fieldNames : List String := ["zoom", "west", "north", "width", "height"]

def ofDocument? (d : Document) : Option Placement := do
  match (← d.fields? fieldNames) with
  | [zoom, west, north, width, height] =>
    return ⟨← zoom.level?, ← west.int32?, ← north.int32?, ← width.int32?, ← height.int32?⟩
  | _ => none

def toDocument (p : Placement) : Document :=
  .object (fieldNames.zip (.ofInt p.zoom ::
    [p.west, p.north, p.width, p.height].map fun n => .ofInt n.toInt))

end Placement
end MercatorGrid
