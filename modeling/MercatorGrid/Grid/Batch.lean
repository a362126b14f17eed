import MercatorGrid.Grid.Query

namespace MercatorGrid

/-- How a list is cut up. A split also says whether the left part's failure is kept when both
parts fail. -/
inductive Plan where
  | whole
  | split (cut : Nat) (leftFirst : Bool) (left right : Plan)

namespace Plan
variable {α β ε : Type}

def run (ask : α → Except ε β) : Plan → List α → Except ε (List β)
  | .whole, xs => xs.mapM ask
  | .split cut leftFirst left right, xs =>
    match left.run ask (xs.take cut), right.run ask (xs.drop cut) with
    | .ok as, .ok bs => .ok (as ++ bs)
    | .error e, .ok _ => .error e
    | .ok _, .error f => .error f
    | .error e, .error f => .error (if leftFirst then e else f)

def halves : Nat → Nat → Plan
  | 0, _ => .whole
  | depth + 1, length =>
    .split (length / 2) true (halves depth (length / 2)) (halves depth (length - length / 2))

def standard (length : Nat) : Plan := halves 2 length

end Plan

def Grid.pointsInEach (fns : Elementary Float) (g : Grid) (plan : Plan) (es : List Envelope) :
    Attempt (List (List Nat)) :=
  plan.run (g.pointsIn fns) es

end MercatorGrid
