/-! Doubles read exactly.
A double is `±m · 2^e`, an infinity, or not a number. Every conversion to an integer goes
through that reading and exact integer arithmetic; none of them rounds twice. -/
namespace MercatorGrid.Binary64

/-- What a double denotes. A finite one is `±m · 2^e`, with `m = 0` for the two zeros. -/
inductive Reading where
  | nan
  | infinite (negative : Bool)
  | finite (negative : Bool) (m : Nat) (e : Int)
deriving DecidableEq

/-- The reading of a double. A nonzero `m` is below `2^53`, and at least `2^52` unless
`e = -1074`, so the reading is unique. -/
def read (x : Float) : Reading :=
  match x.toModel.unpack with
  | .notANumber => .nan
  | .infinity s => .infinite (s == .negative)
  | .zero s => .finite (s == .negative) 0 0
  | .finite s m e _ => .finite (s == .negative) m e

def infinity : Float := 1.0 / 0.0
def notANumber : Float := 0.0 / 0.0

def signed (negative : Bool) (n : Nat) : Int := if negative then -(n : Int) else n

def floorOf (negative : Bool) (m : Nat) (e : Int) : Int :=
  if 0 ≤ e then signed negative (m <<< e.toNat)
  else (signed negative m).fdiv (1 <<< (-e).toNat : Nat)

/-- The integer nearest to `±m · 2^e`; a half goes away from zero. -/
def nearestOf (negative : Bool) (m : Nat) (e : Int) : Int :=
  if 0 ≤ e then signed negative (m <<< e.toNat)
  else
    let unit := 1 <<< (-e).toNat
    signed negative ((2 * m + unit) / (2 * unit))

def saturate32 (n : Int) : Int32 :=
  Int32.ofInt (max Int32.minValue.toInt (min Int32.maxValue.toInt n))

/-- The floor as a 32-bit integer, saturating; what is not a number goes to 0. -/
def floor32 (x : Float) : Int32 :=
  match read x with
  | .nan => 0
  | .infinite negative => if negative then Int32.minValue else Int32.maxValue
  | .finite negative m e => saturate32 (floorOf negative m e)

def nearest? (x : Float) : Option Int :=
  match read x with
  | .finite negative m e => some (nearestOf negative m e)
  | _ => none

def ofInt32 (n : Int32) : Float := Float.ofInt n.toInt

end MercatorGrid.Binary64
