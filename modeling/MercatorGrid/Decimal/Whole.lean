import MercatorGrid.Checked

namespace MercatorGrid

inductive WholeFault where
  | empty
  | invalidDigit
  | tooLarge
  | tooSmall
deriving DecidableEq

def WholeFault.message : WholeFault → String
  | .empty => "cannot parse integer from empty string"
  | .invalidDigit => "invalid digit found in string"
  | .tooLarge => "number too large to fit in target type"
  | .tooSmall => "number too small to fit in target type"

namespace Whole

def push (negative : Bool) (n : Int) (c : Char) : Except WholeFault Int :=
  if c.isDigit then
    let d : Int := (c.toNat - '0'.toNat : Nat)
    let next := if negative then 10 * n - d else 10 * n + d
    match Checked.int64 next with
    | .ok next => .ok next
    | .error _ => .error (if negative then .tooSmall else .tooLarge)
  else .error .invalidDigit

def magnitude (negative : Bool) (cs : List Char) : Except WholeFault Int :=
  if cs.isEmpty then .error .invalidDigit else cs.foldlM (push negative) 0

def parse : List Char → Except WholeFault Int
  | [] => .error .empty
  | c :: cs =>
    if c = '-' then magnitude true cs
    else if c = '+' then magnitude false cs
    else magnitude false (c :: cs)

end Whole
end MercatorGrid
