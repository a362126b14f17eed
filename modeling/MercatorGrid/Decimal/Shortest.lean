import MercatorGrid.Binary64

/-! The shortest decimal that reads back as a given double.
A double stands for an interval of reals. Among the grids of multiples of `10^k` the coarsest
one with a point in that interval gives the fewest digits, and of the value's two neighbours
on it the nearer is taken, the upper one at equal distance. Only exact integers are compared. -/
namespace MercatorGrid

structure Decimal where
  digits : Nat
  exponent : Int
deriving DecidableEq

namespace Decimal

/-- The reals that round to one double, in units of `2^scale`: from `low` to `high` around
`mid`, both ends included exactly when the double's significand is even. -/
structure Interval where
  low : Nat
  mid : Nat
  high : Nat
  closed : Bool
  scale : Int

/-- The interval of `m · 2^e`. Below a power of two the doubles lie twice as dense, so there the
lower half is half as wide. -/
def Interval.of (m : Nat) (e : Int) : Interval where
  low := if m = 4503599627370496 ∧ -1074 < e then 4 * m - 1 else 4 * m - 2
  mid := 4 * m
  high := 4 * m + 2
  closed := m % 2 = 0
  scale := e - 2

/-- Size of the grid step `10^k` and of the unit `2^scale` in a common integer unit. -/
def Interval.measure (i : Interval) (k : Int) : Nat × Nat :=
  (Nat.pow 10 k.toNat <<< (-i.scale).toNat, Nat.pow 10 (-k).toNat <<< i.scale.toNat)

/-- The multiple of `10^k` to take for `mid`, if one of its two neighbours lies inside. -/
def Interval.onGrid (i : Interval) (k : Int) : Option Nat :=
  let (step, unit) := i.measure k
  let value := i.mid * unit
  let c := value / step
  let below := i.low * unit < c * step || (i.closed && i.low * unit == c * step)
  let above := (c + 1) * step < i.high * unit || (i.closed && (c + 1) * step == i.high * unit)
  match below, above with
  | true, true => some (if 2 * value < (2 * c + 1) * step then c else c + 1)
  | true, false => some c
  | false, true => some (c + 1)
  | false, false => none

def Interval.exact (i : Interval) : Decimal :=
  ⟨(i.mid * Nat.pow 5 (-i.scale).toNat) <<< i.scale.toNat, min i.scale 0⟩

/-- The first grid from `10^k` downwards with a point inside, looking at most `fuel` grids. -/
def Interval.descend (i : Interval) : Nat → Int → Decimal
  | 0, _ => i.exact
  | fuel + 1, k =>
    match i.onGrid k with
    | some c => ⟨c, k⟩
    | none => i.descend fuel (k - 1)

def aboveTwoPower (s : Int) : Int := if 0 ≤ s then s / 3 + 1 else 1 - (-s) / 4

/-- The shortest decimal for `m · 2^e`, `m > 0`. The search ends at the latest on the grid that
contains the value itself. -/
def shortest (m : Nat) (e : Int) : Decimal :=
  let i := Interval.of m e
  let top := aboveTwoPower (m.log2 + 1 + e)
  i.descend (top - min i.scale 0 + 1).toNat top

end Decimal
end MercatorGrid
