import MercatorGrid.Decimal.Shortest

namespace MercatorGrid.Decimal

def positional (d : Decimal) (wholePoint : Bool) : List Char :=
  let ds := Nat.toDigits 10 d.digits
  if 0 ≤ d.exponent then
    ds ++ List.replicate d.exponent.toNat '0' ++ (if wholePoint then ['.', '0'] else [])
  else
    let places := (-d.exponent).toNat
    let padded := List.replicate (places + 1 - ds.length) '0' ++ ds
    let whole := padded.length - places
    padded.take whole ++ '.' :: padded.drop whole

def leading (d : Decimal) : Int := (Nat.toDigits 10 d.digits).length - 1 + d.exponent

def scientific (d : Decimal) : List Char :=
  let ds := Nat.toDigits 10 d.digits
  let rest := ds.drop 1
  ds.take 1 ++ (if rest.isEmpty then [] else '.' :: rest) ++
    'e' :: (toString d.leading).toList

/-- Where positional notation ends and whether whole values keep `.0`. -/
structure Layout where
  wholePoint : Bool
  /-- Leading exponents from the first up to, not including, the second are positional;
  without limits all are. -/
  limits : Option (Int × Int)

def Layout.plain : Layout := ⟨false, none⟩

/-- An exponent from `1e16` on and below `0.0001`; whole values end in `.0`. -/
def Layout.detailed : Layout := ⟨true, some (-4, 16)⟩

def Layout.magnitude (l : Layout) (d : Decimal) : List Char :=
  match l.limits with
  | none => d.positional l.wholePoint
  | some (low, high) =>
    if d.digits = 0 ∨ (low ≤ d.leading ∧ d.leading < high) then d.positional l.wholePoint
    else d.scientific

def withSign (negative : Bool) (cs : List Char) : List Char :=
  if negative then '-' :: cs else cs

/-- The text of a double: its shortest decimal, with the sign of a negative zero kept. -/
def Layout.write (l : Layout) (x : Float) : String :=
  match Binary64.read x with
  | .nan => "NaN"
  | .infinite negative => String.ofList (withSign negative ['i', 'n', 'f'])
  | .finite negative m e =>
    let d := if m = 0 then ⟨0, 0⟩ else shortest m e
    String.ofList (withSign negative (l.magnitude d))

def divideToEven (a b : Nat) : Nat :=
  let q := a / b
  let r := a % b
  if 2 * r < b ∨ (2 * r = b ∧ q % 2 = 0) then q else q + 1

def toPlaces (places m : Nat) (e : Int) : Decimal :=
  ⟨divideToEven ((m * Nat.pow 10 places) <<< e.toNat) (1 <<< (-e).toNat), -places⟩

def writeFixed (places : Nat) (x : Float) : String :=
  match Binary64.read x with
  | .nan => "NaN"
  | .infinite negative => String.ofList (withSign negative ['i', 'n', 'f'])
  | .finite negative m e =>
    String.ofList (withSign negative ((toPlaces places m e).positional false))

end MercatorGrid.Decimal
