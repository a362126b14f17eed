import MercatorGrid.Document

namespace MercatorGrid.Document

inductive Form where
  | compact
  | spread
deriving DecidableEq

def Form.newline (form : Form) (level : Nat) (acc : String) : String :=
  match form with
  | .compact => acc
  | .spread => acc ++ "\n" ++ String.ofList (List.replicate (2 * level) ' ')

def Form.colon : Form → String
  | .compact => ":"
  | .spread => ": "

def hexDigit (n : Nat) : Char := (Nat.toDigits 16 n).headD '0'

def escape (c : Char) : List Char :=
  if c = '"' then ['\\', '"']
  else if c = '\\' then ['\\', '\\']
  else if c = '\n' then ['\\', 'n']
  else if c = '\r' then ['\\', 'r']
  else if c = '\t' then ['\\', 't']
  else if c.toNat = 8 then ['\\', 'b']
  else if c.toNat = 12 then ['\\', 'f']
  else if c.toNat < 32 then
    ['\\', 'u', '0', '0', hexDigit (c.toNat / 16), hexDigit (c.toNat % 16)]
  else [c]

def quote (s : String) : String := "\"" ++ String.ofList (s.toList.flatMap escape) ++ "\""

def numberText (mantissa : Int) (places : Nat) : String :=
  if places = 0 then toString mantissa
  else
    let ds := Nat.toDigits 10 mantissa.natAbs
    let padded := List.replicate (places + 1 - ds.length) '0' ++ ds
    let whole := padded.length - places
    (if mantissa < 0 then "-" else "") ++
      String.ofList (padded.take whole ++ '.' :: padded.drop whole)

mutual

def write (form : Form) (level : Nat) (acc : String) : Document → String
  | .null => acc ++ "null"
  | .bool b => acc ++ (if b then "true" else "false")
  | .number mantissa places => acc ++ numberText mantissa places
  | .text s => acc ++ quote s
  | .list [] => acc ++ "[]"
  | .list (item :: items) =>
    let first := write form (level + 1) (form.newline (level + 1) (acc ++ "[")) item
    form.newline level (writeItems form (level + 1) first items) ++ "]"
  | .object [] => acc ++ "\x7b\x7d"
  | .object ((name, value) :: fields) =>
    let opened := form.newline (level + 1) (acc ++ "\x7b") ++ quote name ++ form.colon
    let first := write form (level + 1) opened value
    form.newline level (writeFields form (level + 1) first fields) ++ "\x7d"

def writeItems (form : Form) (level : Nat) (acc : String) : List Document → String
  | [] => acc
  | item :: items =>
    writeItems form level (write form level (form.newline level (acc ++ ",")) item) items

def writeFields (form : Form) (level : Nat) (acc : String) : List (String × Document) → String
  | [] => acc
  | (name, value) :: fields =>
    let opened := form.newline level (acc ++ ",") ++ quote name ++ form.colon
    writeFields form level (write form level opened value) fields

end

def compact (d : Document) : String := d.write .compact 0 ""

def spread (d : Document) : String := d.write .spread 0 ""

/-- Writes a document, or says why it cannot be written. -/
abbrev Printer := Document → Except String String

def Printer.spread : Printer := fun d => .ok d.spread

end MercatorGrid.Document
