import MercatorGrid.CommandLine.QueryText
import MercatorGrid.Decimal.Whole
import MercatorGrid.Grid.Basic

/-! Options given as command-line arguments.
Four options give the edges of the grid, one its zoom, one a query and may be repeated; the
last is a flag. The value of an option is whatever follows it, even if it looks like an option.
A value in an argument of its own is looked at only when the next option is recognised or the
arguments end, so an unknown argument after it is reported instead of a fault in it. -/
namespace MercatorGrid.CommandLine

inductive Edge where
  | west
  | east
  | south
  | north
deriving DecidableEq

inductive OptionName where
  | edge (edge : Edge)
  | zoom
  | query
deriving DecidableEq

inductive ValueFault where
  | degrees (fault : NumeralFault)
  | whole (fault : WholeFault)
  | zoomRange (value : Int)
  | query (fault : QueryFault)

def ValueFault.message : ValueFault → String
  | .degrees fault => fault.message
  | .whole fault => fault.message
  | .zoomRange value => s!"{value} is not in -2147483648..=2147483647"
  | .query fault => fault.message

inductive ArgumentFault where
  | unknown
  | missingValue
  | unexpectedValue
  | repeated
  | invalidValue (option : OptionName) (fault : ValueFault)
  | missingEdge
  | helpAsked
  | versionAsked

structure Options where
  west : Float
  east : Float
  south : Float
  north : Float
  zoom : Int32
  queries : List Envelope
  json : Bool

def Options.box (o : Options) : DegreeBox := .ofCorners o.west o.south o.east o.north

structure Draft where
  edges : List (Edge × Float)
  zoom : Option Int32
  queries : List Envelope
  json : Bool

def Draft.empty : Draft := ⟨[], none, [], false⟩

/-- What an argument that is not a value stands for. -/
inductive Argument where
  | option (name : OptionName) (value : Option (List Char))
  | json
  | help
  | version
  | valueOfFlag
  | separator
  | unknown
deriving DecidableEq

namespace Argument

def long (name : List Char) (value : Option (List Char)) : Argument :=
  let flag (a : Argument) := if value.isSome then valueOfFlag else a
  match String.ofList name with
  | "west" => option (.edge .west) value
  | "east" => option (.edge .east) value
  | "south" => option (.edge .south) value
  | "north" => option (.edge .north) value
  | "zoom" => option .zoom value
  | "query" => option .query value
  | "json" => flag json
  | "help" => flag help
  | "version" => flag version
  | _ => unknown

def attached : List Char → Option (List Char)
  | [] => none
  | c :: cs => if c = '=' then some cs else some (c :: cs)

def short (letter : Char) (rest : List Char) : Argument :=
  if letter = 'z' then option .zoom (attached rest)
  else if letter = 'q' then option .query (attached rest)
  else if letter = 'h' then help
  else if letter = 'V' then version
  else unknown

def ofText : List Char → Argument
  | '-' :: '-' :: [] => separator
  | '-' :: '-' :: text =>
    long (text.takeWhile (· ≠ '=')) (match text.dropWhile (· ≠ '=') with
      | [] => none
      | _ :: value => some value)
  | '-' :: letter :: rest => short letter rest
  | _ => unknown

end Argument

def readEdge (text : List Char) : Except ValueFault Float :=
  (Numeral.parseDouble text).mapError .degrees

def readZoom (text : List Char) : Except ValueFault Int32 := do
  let n ← (Whole.parse text).mapError .whole
  (Checked.int32 n).mapError fun _ => .zoomRange n

namespace Draft

/-- Gives an option its value. That it has one already is found before the value is read. -/
def assign (d : Draft) (name : OptionName) (text : List Char) : Except ArgumentFault Draft :=
  let reading {α : Type} (value : Except ValueFault α) : Except ArgumentFault α :=
    value.mapError (.invalidValue name)
  match name with
  | .edge edge =>
    if (d.edges.lookup edge).isSome then .error .repeated
    else do
      let value ← reading (readEdge text)
      return { d with edges := (edge, value) :: d.edges }
  | .zoom =>
    if d.zoom.isSome then .error .repeated
    else do
      let value ← reading (readZoom text)
      return { d with zoom := some value }
  | .query => do
    let value ← reading ((readQuery text).mapError .query)
    return { d with queries := d.queries ++ [value] }

def settle (d : Draft) : Option (OptionName × List Char) → Except ArgumentFault Draft
  | none => .ok d
  | some (name, text) => d.assign name text

def setJson (d : Draft) : Except ArgumentFault Draft :=
  if d.json then .error .repeated else .ok { d with json := true }

/-- Takes the arguments from the left; `waiting` is the last option's value if it has not been
looked at. -/
def take (d : Draft) (waiting : Option (OptionName × List Char)) :
    List String → Except ArgumentFault Draft
  | [] => d.settle waiting
  | arg :: rest =>
    match Argument.ofText arg.toList, rest with
    | .option _ none, [] => do
      let _ ← d.settle waiting
      throw .missingValue
    | .option name none, value :: rest => do
      let d ← d.settle waiting
      take d (some (name, value.toList)) rest
    | .option name (some value), rest => do
      let d ← d.settle waiting
      let d ← d.assign name value
      take d none rest
    | .json, rest => do
      let d ← d.settle waiting
      let d ← d.setJson
      take d none rest
    | .help, _ => do
      let _ ← d.settle waiting
      throw .helpAsked
    | .version, _ => do
      let _ ← d.settle waiting
      throw .versionAsked
    | .valueOfFlag, _ => throw .unexpectedValue
    | .separator, [] => d.settle waiting
    | .separator, _ :: _ => throw .unknown
    | .unknown, _ => throw .unknown

def finish (d : Draft) : Except ArgumentFault Options :=
  match d.edges.lookup .west, d.edges.lookup .east, d.edges.lookup .south,
    d.edges.lookup .north with
  | some west, some east, some south, some north =>
    .ok ⟨west, east, south, north, d.zoom.getD standardZoom, d.queries, d.json⟩
  | _, _, _, _ => .error .missingEdge

end Draft

def Options.ofArguments (args : List String) : Except ArgumentFault Options := do
  let d ← Draft.empty.take none args
  d.finish

end MercatorGrid.CommandLine
