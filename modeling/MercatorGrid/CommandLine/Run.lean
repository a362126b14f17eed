import MercatorGrid.CommandLine.Report
import MercatorGrid.Event

namespace MercatorGrid.CommandLine

structure LogLine where
  severity : Severity
  target : String
  message : String

def LogLine.text (l : LogLine) : String := l.severity.label ++ " " ++ l.target ++ ": " ++ l.message

/-- The least urgent severity that is logged; none logs nothing. -/
abbrev Threshold := Option Severity

def Threshold.admits (t : Threshold) (s : Severity) : Bool :=
  match t with
  | none => false
  | some least => s.rank ≤ least.rank

def Threshold.ofName : Option String → Threshold
  | some "off" => none
  | some "error" => some .error
  | some "warn" => some .warn
  | some "debug" => some .debug
  | some "trace" => some .trace
  | _ => some .info

def programTarget : String := "grid_point"

def ofEvent (e : Event) : LogLine := ⟨e.severity, "grid_point_lib::grid", e.message⟩

structure Run where
  code : Nat
  output : String
  log : List LogLine

def builtLine (g : Grid) (points : Nat) : LogLine :=
  let p := g.placement
  ⟨.info, programTarget,
    s!"Grid at zoom {p.zoom}: {p.width.toInt}x{p.height.toInt} = {points} points"⟩

/-- What is logged about the grid and, if it was built, about each query. -/
def runLog (fns : Elementary Float) (o : Options) : List LogLine :=
  let built := Report.grid fns o
  let first : LogLine := ⟨.debug, programTarget ++ "::logging", "Logging initialized"⟩
  first :: (Event.ofCovering o.box built).map ofEvent ++
    match built with
    | .error _ => []
    | .ok g =>
      (match g.pointCount with
        | .ok points => [builtLine g points]
        | .error _ => []) ++
      o.queries.flatMap fun e => (Event.ofQuery e (g.pointsIn fns e)).map ofEvent

def faultCode : Nat := 101

def errorLine (text : String) : LogLine := ⟨.error, programTarget, text⟩

/-- A refused grid is reported in the log alone, and so is a document that cannot be written. -/
def runWith (printer : Document.Printer) (fns : Elementary Float) (o : Options) : Run :=
  let log := runLog fns o
  match Report.ofOptions fns o with
  | .ok report =>
    match report.render printer o.json with
    | .ok output => ⟨0, output, log⟩
    | .error reason => ⟨1, "", log ++ [errorLine ("JSON error: " ++ reason)]⟩
  | .error (.refused e) => ⟨1, "", log ++ [errorLine ("Grid error: " ++ e.message)]⟩
  | .error (.fault _) => ⟨faultCode, "", log⟩

def run (fns : Elementary Float) (o : Options) : Run := runWith .spread fns o

def Run.logged (r : Run) (t : Threshold) : List LogLine :=
  r.log.filter fun l => t.admits l.severity

end MercatorGrid.CommandLine
