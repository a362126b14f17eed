import MercatorGrid.Document
import MercatorGrid.Grid.Batch
import MercatorGrid.Event

/-! Sessions: a current grid, saved grids under names, and commands on them.
Envelopes, placements and grids are given by their sources and made when a command runs. A
command that fails leaves the session as it was. -/
namespace MercatorGrid

inductive EnvelopeSource where
  | bounds (minLon maxLon minLat maxLat : Int32)
  | degrees (box : DegreeBox)
  | document (document : Document)

inductive PlacementSource where
  | fields (zoom west north width height : Int32)
  | covering (box : DegreeBox) (zoom : Int32)
  | document (document : Document)

inductive GridSource where
  | covering (box : DegreeBox) (zoom : Int32)
  | placement (source : PlacementSource)

inductive CommandFailure where
  | failed (failure : Failure)
  | undecodable
  | unknownSlot (name : String)

abbrev Outcome := Except CommandFailure

namespace Outcome

def ofAttempt {α : Type} : Attempt α → Outcome α
  | .ok a => .ok a
  | .error f => .error (.failed f)

def ofDecoded {α : Type} : Option α → Outcome α
  | some a => .ok a
  | none => .error .undecodable

end Outcome

instance : MonadLift Attempt Outcome := ⟨Outcome.ofAttempt⟩

instance : MonadLift Checked Outcome := ⟨fun c => Outcome.ofAttempt (.ofChecked c)⟩

def EnvelopeSource.make : EnvelopeSource → Outcome Envelope
  | .bounds minLon maxLon minLat maxLat =>
    .ofAttempt (.ofGuarded (Envelope.make minLon maxLon minLat maxLat))
  | .degrees box => .ofAttempt (.ofGuarded (Envelope.ofBox box))
  | .document d => .ofDecoded (Envelope.ofDocument? d)

def PlacementSource.make (fns : Elementary Float) : PlacementSource → Outcome Placement
  | .fields zoom west north width height =>
    .ofAttempt (Placement.make zoom west north width height)
  | .covering box zoom => .ofAttempt (Placement.covering fns box zoom)
  | .document d => .ofDecoded (Placement.ofDocument? d)

def GridSource.make (fns : Elementary Float) : GridSource → Outcome Grid
  | .covering box zoom => .ofAttempt (Grid.covering fns box zoom)
  | .placement source => (source.make fns).map Grid.ofPlacement

def GridSource.events (fns : Elementary Float) : GridSource → List Event
  | .covering box zoom => Event.ofCovering box (Grid.covering fns box zoom)
  | .placement source =>
    match source.make fns with
    | .ok p => Event.ofBuild (.ok (Grid.ofPlacement p))
    | .error _ => []

inductive Command where
  | describe
  | bounds
  | query (envelope : EnvelopeSource)
  | batch (envelopes : List EnvelopeSource)
  | locate (lon lat : Float)
  | centre (index : Nat)
  | pixelOf (lon lat : Float)
  | cornerOf (x y : Int32)
  | countReturning
  | attach (counts : List Float)
  | countAt (index : Nat)
  | total
  | rebuild (source : GridSource)
  | save (slot : String)
  | load (slot : String)
  | same (slot : String)

inductive Answer where
  | done
  | description (placement : Placement) (points : Nat) (hasCounts : Bool)
  | box (box : DegreeBox)
  | points (indices : List Nat)
  | batch (answers : List (List Nat))
  | index (index : Option Nat)
  | centre (lon lat : Option Float)
  | pixel (x y : Int32)
  | corner (lon lat : Float)
  | number (n : Nat)
  | count (count : Option Float)
  | total (total : Float)
  | truth (value : Bool)

structure Session where
  grid : Grid
  slots : List (String × Grid)

namespace Session

def start (fns : Elementary Float) (source : GridSource) : Outcome Session := do
  let grid ← source.make fns
  return ⟨grid, []⟩

def saved (s : Session) (slot : String) : Outcome Grid :=
  match s.slots.lookup slot with
  | some g => .ok g
  | none => .error (.unknownSlot slot)

def step (fns : Elementary Float) (s : Session) : Command → Outcome (Session × Answer)
  | .describe => do
    let points ← s.grid.pointCount
    return (s, .description s.grid.placement points s.grid.counts.isSome)
  | .bounds => do
    let b ← s.grid.placement.bounds fns
    return (s, .box b)
  | .query source => do
    let e ← source.make
    let found ← s.grid.pointsIn fns e
    return (s, .points found)
  | .batch sources => do
    let es ← sources.mapM EnvelopeSource.make
    let found ← s.grid.pointsInEach fns (.standard es.length) es
    return (s, .batch found)
  | .locate lon lat => do
    let found ← s.grid.locate fns lon lat
    return (s, .index found)
  | .centre index => do
    let lon ← s.grid.longitude index
    let lat ← s.grid.latitude fns index
    return (s, .centre lon lat)
  | .pixelOf lon lat => do
    let x ← s.grid.columnOf lon
    let y ← s.grid.rowOf fns lat
    return (s, .pixel x y)
  | .cornerOf x y => do
    let zoom ← s.grid.placement.level
    return (s, .corner (Mercator.westEdge zoom x) (Mercator.northEdge fns zoom y))
  | .countReturning => do
    let n ← s.grid.returning fns
    return (s, .number n)
  | .attach counts => do
    let grid ← s.grid.attach counts
    return ({ s with grid }, .done)
  | .countAt index => do
    let c ← s.grid.countAt index
    return (s, .count c)
  | .total => return (s, .total s.grid.total)
  | .rebuild source => do
    let grid ← source.make fns
    return ({ s with grid }, .done)
  | .save slot => return ({ s with slots := (slot, s.grid) :: s.slots }, .done)
  | .load slot => do
    let grid ← s.saved slot
    return ({ s with grid }, .done)
  | .same slot => do
    let grid ← s.saved slot
    return (s, .truth (s.grid.same grid))

def queryEvents (fns : Elementary Float) (s : Session) (source : EnvelopeSource) : List Event :=
  match source.make with
  | .ok e => Event.ofQuery e (s.grid.pointsIn fns e)
  | .error _ => []

/-- What a command reports. The parts of a batch are answered in silence, but a batch of one
query is not cut into parts and reports as the query does. -/
def events (fns : Elementary Float) (s : Session) : Command → List Event
  | .query source => s.queryEvents fns source
  | .batch [source] => s.queryEvents fns source
  | .rebuild source => source.events fns
  | _ => []

def next (fns : Elementary Float) (s : Session) (c : Command) : Session :=
  match s.step fns c with
  | .ok (s', _) => s'
  | .error _ => s

def after (fns : Elementary Float) (s : Session) (cs : List Command) : Session :=
  cs.foldl (next fns) s

end Session
end MercatorGrid
