import MercatorGrid.Decimal.Numeral
import MercatorGrid.Text.Blank
import MercatorGrid.Envelope

namespace MercatorGrid.CommandLine

inductive QueryFault where
  | part (text : List Char) (fault : NumeralFault)
  | partCount (count : Nat)
  | refused (refusal : Refusal)

def QueryFault.message : QueryFault → String
  | .part text fault => "'" ++ String.ofList text ++ "': " ++ fault.message
  | .partCount count => s!"expected 4 comma-separated values, got {count}"
  | .refused refusal => refusal.message

def readPart (text : List Char) : Except QueryFault Float :=
  (Numeral.parseDouble (Text.trim text)).mapError (.part text)

def readQuery (text : List Char) : Except QueryFault Envelope := do
  let values ← (Text.splitAt ',' text).mapM readPart
  match values with
  | [minLon, maxLon, minLat, maxLat] =>
    (Envelope.ofDegrees minLon maxLon minLat maxLat).mapError .refused
  | _ => .error (.partCount values.length)

end MercatorGrid.CommandLine
