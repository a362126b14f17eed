import MercatorGrid.Decimal.Shortest

namespace MercatorGrid

inductive NumeralFault where
  | empty
  | invalid
deriving DecidableEq

def NumeralFault.message : NumeralFault → String
  | .empty => "cannot parse float from empty string"
  | .invalid => "invalid float literal"

inductive Numeral where
  | nan
  | infinite (negative : Bool)
  | decimal (negative : Bool) (value : Decimal)
deriving DecidableEq

namespace Numeral

def splitSign : List Char → Bool × List Char
  | [] => (false, [])
  | c :: cs => if c = '-' then (true, cs) else if c = '+' then (false, cs) else (false, c :: cs)

def digits? (cs : List Char) : Option Nat :=
  if cs.isEmpty || !cs.all Char.isDigit then none else some (Nat.ofDigitChars 10 cs 0)

def exponent? : List Char → Option Int
  | [] => some 0
  | c :: cs =>
    if c = 'e' ∨ c = 'E' then
      let (negative, ds) := splitSign cs
      (digits? ds).map (Binary64.signed negative)
    else none

def fraction : List Char → List Char × List Char
  | [] => ([], [])
  | c :: cs => if c = '.' then (cs.takeWhile Char.isDigit, cs.dropWhile Char.isDigit) else ([], c :: cs)

/-- Digits with an optional point among or around them, then an optional exponent. -/
def decimal? (cs : List Char) : Option Decimal :=
  let whole := cs.takeWhile Char.isDigit
  let (places, rest) := fraction (cs.dropWhile Char.isDigit)
  if whole.isEmpty && places.isEmpty then none
  else (exponent? rest).map fun e => ⟨Nat.ofDigitChars 10 (whole ++ places) 0, e - places.length⟩

def word? (negative : Bool) (cs : List Char) : Option Numeral :=
  let w := cs.map Char.toLower
  if w = ['n', 'a', 'n'] then some .nan
  else if w = ['i', 'n', 'f'] ∨ w = ['i', 'n', 'f', 'i', 'n', 'i', 't', 'y'] then some (.infinite negative)
  else none

def parse (cs : List Char) : Except NumeralFault Numeral :=
  if cs.isEmpty then .error .empty
  else
    let (negative, body) := splitSign cs
    match decimal? body with
    | some d => .ok (.decimal negative d)
    | none =>
      match word? negative body with
      | some n => .ok n
      | none => .error .invalid

end Numeral

namespace Decimal

def trim (d : Decimal) : Decimal :=
  if h : 0 < d.digits ∧ d.digits % 10 = 0 then trim ⟨d.digits / 10, d.exponent + 1⟩ else d
termination_by d.digits
decreasing_by omega

/-- The double nearest to a decimal. At `10^309` all doubles are passed, and below `10^-324`
the nearest one is zero; the bounds keep the powers of ten small. -/
def toFloat (d : Decimal) : Float :=
  let t := d.trim
  let size : Int := (Nat.toDigits 10 t.digits).length + t.exponent
  if t.digits = 0 then 0.0
  else if 309 < size then Binary64.infinity
  else if size < -323 then 0.0
  else Float.ofScientific t.digits (t.exponent < 0) t.exponent.natAbs

end Decimal

def Numeral.toFloat : Numeral → Float
  | .nan => Binary64.notANumber
  | .infinite negative => if negative then -Binary64.infinity else Binary64.infinity
  | .decimal negative d => if negative then -d.toFloat else d.toFloat

def Numeral.parseDouble (cs : List Char) : Except NumeralFault Float :=
  (Numeral.parse cs).map Numeral.toFloat

end MercatorGrid
