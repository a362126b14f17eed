import MercatorGrid.Proofs.CommandLine.Options
import MercatorGrid.Proofs.Decimal.Written
import MercatorGrid.Proofs.Document.Text
import MercatorGrid.Proofs.Grid.Batch
import MercatorGrid.Proofs.Grid.Covering
import MercatorGrid.Proofs.Placement.Edges
import MercatorGrid.CommandLine.Run

/-! What a run comes to.
Only the grid can be refused: every query that was read has its bounds in order, so no query can
fail once there is a grid, and the report has an entry for each of them. -/
namespace MercatorGrid.CommandLine
open FixedPoint

def Run.errors (r : Run) (t : Threshold) : List LogLine :=
  (r.logged t).filter fun l => l.severity = .error

/-- Nothing on the standard output, and the text as the one error if anything is logged. -/
structure Failed (r : Run) (text : String) : Prop where
  code : r.code = 1
  output : r.output = ""
  errors : ∀ least, r.errors (some least) = [⟨.error, "grid_point", text⟩]

/-- Why there is no grid for the edges and the zoom, and the text that says so. -/
inductive Unbuilt (o : Options) : Refusal → String → Prop
  | zoom (outside : ¬ (0 ≤ o.zoom.toInt ∧ o.zoom.toInt ≤ 22)) : Unbuilt o (.zoomOutOfRange o.zoom)
    ("Invalid zoom level " ++ toString o.zoom.toInt ++ ": must be between 0 and 22")
  | edges {west south east north : String} (infinite : ¬ ∀ edge, (o.edge edge).isFinite = true)
    (atWest : Decimal.Shows .detailed o.box.minLon west)
    (atSouth : Decimal.Shows .detailed o.box.minLat south)
    (atEast : Decimal.Shows .detailed o.box.maxLon east)
    (atNorth : Decimal.Shows .detailed o.box.maxLat north) :
    Unbuilt o (.envelopeInvalid (.notFinite o.box))
      ("Invalid envelope: non-finite coordinates in RECT(" ++ west ++ " " ++ south ++ "," ++ east ++
        " " ++ north ++ ")")
  | sides {width height : ℤ} (flat : height ≤ 0) : Unbuilt o (.sidesNotPositive width height)
    ("Invalid grid dimensions " ++ toString width ++ "x" ++ toString height ++
      ": both must be at least 1")
  | points {count : ℕ} (many : 2147483647 < count) : Unbuilt o (.tooManyPoints count)
    ("Grid has " ++ toString count ++ " points, more than the limit of 2147483647")

/-- The entry as an object on lines of its own. -/
def Entry.text (e : Entry) : String :=
  Document.block "\x7b" "\x7d" 1
    ["\"envelope\": " ++ Document.block "\x7b" "\x7d" 2
      ["\"min_lon\": " ++ toString e.envelope.minLon.toInt,
        "\"max_lon\": " ++ toString e.envelope.maxLon.toInt,
        "\"min_lat\": " ++ toString e.envelope.minLat.toInt,
        "\"max_lat\": " ++ toString e.envelope.maxLat.toInt],
      "\"count\": " ++ toString e.indices.length,
      "\"indices\": " ++ Document.block "[" "]" 2 (e.indices.map toString)]

def Entry.line (e : Entry) : String :=
  "query lon " ++ expand e.envelope.minLon ++ ".." ++ expand e.envelope.maxLon ++
    " lat " ++ expand e.envelope.minLat ++ ".." ++ expand e.envelope.maxLat ++
    ": " ++ toString e.indices.length ++ " points"

/-- The grid's zoom, corner, size and number of points, and its edges with five places. -/
inductive Heads (report : Report) : String → Prop
  | mk {west east south north : String} (atWest : Decimal.ShowsPlaces 5 report.bounds.minLon west)
    (atEast : Decimal.ShowsPlaces 5 report.bounds.maxLon east)
    (atSouth : Decimal.ShowsPlaces 5 report.bounds.minLat south)
    (atNorth : Decimal.ShowsPlaces 5 report.bounds.maxLat north) :
    Heads report ("grid: zoom " ++ toString report.placement.zoom ++
      " origin (" ++ toString report.placement.west.toInt ++ ", " ++
      toString report.placement.north.toInt ++ ") size " ++
      toString report.placement.width.toInt ++ "x" ++ toString report.placement.height.toInt ++
      " (" ++ toString report.points ++ " points), lon " ++ west ++ ".." ++ east ++
      " lat " ++ south ++ ".." ++ north)

inductive Prints (report : Report) : Bool → String → Prop
  | document : Prints report true
    (Document.block "[" "]" 0 (report.entries.map Entry.text) ++ "\n")
  | summary {heading : String} (heads : Heads report heading) : Prints report false
    (String.join ((heading :: report.entries.map Entry.line).map (· ++ "\n")))

/-- The report has an entry for each query, in their order, with the points of that query, and it
is printed whole. -/
structure Answered (fns : Elementary Float) (o : Options) (g : Grid) (report : Report) (r : Run) :
    Prop where
  placement : report.placement = g.placement
  points : g.pointCount = .ok report.points
  bounds : g.placement.bounds fns = .ok report.bounds
  envelopes : report.entries.map (·.envelope) = o.queries
  indices : ∀ e ∈ report.entries, g.pointsIn fns e.envelope = .ok e.indices
  batch : ∀ plan, g.pointsInEach fns plan o.queries = .ok (report.entries.map (·.indices))
  code : r.code = 0
  errors : ∀ t, r.errors t = []
  output : Prints report o.json r.output

def entries (fns : Elementary Float) (g : Grid) (queries : List Envelope) : List Entry :=
  queries.map fun e => ⟨e, g.touched fns e⟩

section Log

theorem severity_ne_error (e : Event) : e.severity ≠ .error := by
  cases e <;> simp [Event.severity]

theorem severity_of_mem_runLog {fns : Elementary Float} {o : Options} {l : LogLine}
    (member : l ∈ runLog fns o) : l.severity ≠ .error := by
  simp only [runLog, List.cons_append, List.mem_cons, List.mem_append, List.mem_map] at member
  rcases member with rfl | ⟨e, -, rfl⟩ | later
  · simp
  · exact severity_ne_error e
  · split at later
    · cases later
    · simp only [List.mem_append, List.mem_flatMap, List.mem_map] at later
      rcases later with built | ⟨-, -, e, -, rfl⟩
      · split at built
        · cases List.mem_singleton.mp built
          simp [builtLine]
        · cases built
      · exact severity_ne_error e

theorem runLog_calm (fns : Elementary Float) (o : Options) :
    (runLog fns o).filter (fun l => l.severity = .error) = [] := by
  simp only [List.filter_eq_nil_iff, decide_eq_true_iff]
  exact fun _ => severity_of_mem_runLog

theorem errors_eq (r : Run) (t : Threshold) : r.errors t =
    (r.log.filter fun l => l.severity = .error).filter fun l => t.admits l.severity :=
  List.filter_comm _ _ _

theorem admits_error (least : Severity) : Threshold.admits (some least) .error = true := by
  cases least <;> rfl

theorem failed_of_last (fns : Elementary Float) (o : Options) {r : Run} {text : String}
    (same : r = ⟨1, "", runLog fns o ++ [errorLine text]⟩) : Failed r text := by
  refine ⟨by rw [same], by rw [same], fun least => ?_⟩
  rw [errors_eq, same, List.filter_append, runLog_calm]
  simp [errorLine, programTarget, admits_error]

end Log

section Texts

theorem layouts_eq_map (level : ℕ) (items : List Document) :
    Document.layouts level items = items.map (Document.layout level) := by
  induction items with
  | nil => rfl
  | cons item items ih => rw [Document.layouts, ih, List.map_cons]

theorem layout_ofInt (level : ℕ) (n : ℤ) : (Document.ofInt n).layout level = toString n := rfl

theorem layout_entryDocument (e : Entry) : (Report.entryDocument e).layout 1 = e.text := by
  have key : ∀ name ∈ [("envelope", "\"envelope\": "), ("count", "\"count\": "),
      ("indices", "\"indices\": "), ("min_lon", "\"min_lon\": "), ("max_lon", "\"max_lon\": "),
      ("min_lat", "\"min_lat\": "), ("max_lat", "\"max_lat\": ")],
      Document.quote name.1 ++ ": " = name.2 := by decide
  simp only [List.forall_mem_cons] at key
  obtain ⟨envelope, count, indices, minLon, maxLon, minLat, maxLat, -⟩ := key
  simp only [Report.entryDocument, Envelope.toDocument, Envelope.fieldNames, List.map_cons,
    List.map_nil, List.zip_cons_cons, List.zip_nil_left, Document.layout, Document.fieldLayouts,
    layouts_eq_map, List.map_map, layout_ofInt, envelope, count, indices, minLon, maxLon, minLat,
    maxLat, Entry.text]
  rfl

theorem layout_document (report : Report) :
    report.document.layout 0 = Document.block "[" "]" 0 (report.entries.map Entry.text) := by
  rw [Report.document, Document.layout, layouts_eq_map, List.map_map]
  exact congrArg _ (List.map_congr_left fun e _ => layout_entryDocument e)

theorem toString_text (text : String) : toString text = text := rfl

theorem heads_gridLine (report : Report) : Heads report report.gridLine := by
  have shows (x : Float) : Decimal.ShowsPlaces 5 x (Decimal.writeFixed 5 x) :=
    Decimal.writeFixed_shows (by norm_num) x
  have heading := Heads.mk (shows report.bounds.minLon) (shows report.bounds.maxLon)
    (shows report.bounds.minLat) (shows report.bounds.maxLat)
  have size : ") size " = ") " ++ "size " := by decide
  have edges : " points), lon " = " points), " ++ "lon " := by decide
  unfold Report.gridLine
  dsimp only
  rw [size, edges] at heading
  convert heading using 1
  simp only [-String.reduceAppend, toString_text, String.append_assoc]

theorem queryLine_eq {e : Entry} (valid : e.envelope.Valid) : Report.queryLine e = e.line := by
  unfold Report.queryLine Entry.line
  simp only [Envelope.toBox_eq valid, write_toDegrees]

theorem exists_rendered {printer : Document.Printer} (faithful : printer.Faithful) (json : Bool)
    (report : Report) (valid : ∀ e ∈ report.entries, e.envelope.Valid) :
    ∃ output, report.render printer json = .ok output ∧ Prints report json output := by
  cases json with
  | true =>
    refine ⟨_, ?_, .document⟩
    simp only [Report.render, faithful report.document, layout_document, if_true, Except.map]
  | false =>
    have lines : report.entries.map Report.queryLine = report.entries.map Entry.line :=
      List.map_congr_left fun e member => queryLine_eq (valid e member)
    refine ⟨_, ?_, .summary (heads_gridLine report)⟩
    simp only [Report.render, lines, Bool.false_eq_true, if_false]

theorem unbuilt_message {o : Options} {reason : Refusal} {text : String}
    (unbuilt : Unbuilt o reason text) : Unbuilt o reason reason.message := by
  cases unbuilt with
  | zoom outside =>
    have closing : ": must be between 0 and 22" = ": must be between 0 and " ++ "22" := by decide
    have deepest : toString Mercator.deepestZoom = "22" := by decide
    convert Unbuilt.zoom outside using 1
    unfold Refusal.message
    dsimp only
    rw [closing, deepest]
    simp only [-String.reduceAppend, toString_text, String.append_assoc]
  | edges infinite =>
    have opening : "Invalid envelope: non-finite coordinates in RECT(" =
      "Invalid envelope: " ++ ("non-finite coordinates in " ++ "RECT(") := by decide
    have shows (x : Float) := Decimal.write_shows .detailed x
    convert Unbuilt.edges infinite (shows _) (shows _) (shows _) (shows _) using 1
    unfold Refusal.message EnvelopeFault.message DegreeBox.describe
    dsimp only
    rw [opening]
    simp only [-String.reduceAppend, String.append_assoc]
  | sides flat => exact .sides flat
  | points many =>
    have closing : " points, more than the limit of 2147483647" =
      " points, more than the limit of " ++ "2147483647" := by decide
    have limit : toString maxPoints = "2147483647" := by decide
    convert Unbuilt.points many using 1
    unfold Refusal.message
    dsimp only
    rw [closing, limit]
    simp only [-String.reduceAppend, toString_text, String.append_assoc]

end Texts

section Outcome
variable {fns : Elementary Float} {o : Options} {printer : Document.Printer}

theorem exists_unbuilt {failure : Failure}
    (failed : Grid.covering fns o.box o.zoom = .error failure) :
    ∃ reason text, failure = .refused reason ∧ Unbuilt o reason text := by
  by_cases inside : 0 ≤ o.zoom.toInt ∧ o.zoom.toInt ≤ 22
  · have shallow : o.zoom.toInt.toNat ≤ Mercator.deepestZoom := by
      change o.zoom.toInt.toNat ≤ 22
      omega
    have hz : Placement.checkZoom o.zoom = .ok o.zoom.toInt.toNat :=
      Placement.checkZoom_eq_ok_iff.mpr ⟨by omega, shallow⟩
    by_cases finite : o.box.isFinite = true
    · have wide := Placement.one_le_across shallow (DegreeBox.ofCorners_le finite).1
      have outcome := Placement.outcome_of_finite fns hz finite wide
      rw [Grid.covering] at failed
      generalize Placement.covering fns o.box o.zoom = result at failed outcome
      cases outcome with
      | flipped rise flat =>
        cases failed
        exact ⟨_, _, rfl, .sides flat⟩
      | crowded count _ _ many =>
        cases failed
        exact ⟨_, _, rfl, .points many⟩
      | placed => cases failed
    · rw [Grid.covering, Placement.covering_of_not_finite fns hz finite] at failed
      cases failed
      have shows (x : Float) := Decimal.write_shows .detailed x
      refine ⟨_, _, rfl, .edges (fun all => finite ?_) (shows _) (shows _) (shows _) (shows _)⟩
      exact DegreeBox.ofCorners_isFinite_iff.mpr
        ⟨all .west, all .south, all .east, all .north⟩
  · rw [Grid.covering, Placement.covering_of_outside fns _ inside] at failed
    cases failed
    exact ⟨_, _, rfl, .zoom inside⟩

theorem failed_of_refused (printer : Document.Printer) {reason : Refusal}
    (refused : Grid.covering fns o.box o.zoom = .error (.refused reason)) :
    Failed (runWith printer fns o) ("Grid error: " ++ reason.message) := by
  refine failed_of_last fns o ?_
  simp only [runWith, Report.ofOptions, Report.grid, refused, error_bind]

theorem ofOptions_of_built {g : Grid} (built : Grid.covering fns o.box o.zoom = .ok g)
    (valid : ∀ e ∈ o.queries, e.Valid) :
    ∃ bounds, g.placement.bounds fns = .ok bounds ∧ Report.ofOptions fns o =
      .ok ⟨g.placement, g.placement.points, bounds, entries fns g o.queries⟩ := by
  have accepted := Grid.accepted_of_covering built
  have bounds := accepted.bounds_eq fns
  refine ⟨_, bounds, ?_⟩
  simp only [Report.ofOptions, Report.grid, built, ok_bind, Grid.pointCount,
    accepted.pointCount_eq, Attempt.checked_ok, Grid.pointsInEach_of_valid accepted _ valid,
    bounds, pure_ok, entries, List.zipWith_map_right, List.zipWith_self]

/-- A document that cannot be written is the other reason for a run to fail. -/
theorem failed_of_unwritten {g : Grid} (built : Grid.covering fns o.box o.zoom = .ok g)
    (valid : ∀ e ∈ o.queries, e.Valid) (asked : o.json = true) {reason : String}
    (unwritten : ∀ d, printer d = .error reason) :
    Failed (runWith printer fns o) ("JSON error: " ++ reason) := by
  obtain ⟨bounds, -, made⟩ := ofOptions_of_built built valid
  refine failed_of_last fns o ?_
  simp only [runWith, made, Report.render, asked, if_true, unwritten, Except.map]

theorem answered {g : Grid} (faithful : printer.Faithful)
    (built : Grid.covering fns o.box o.zoom = .ok g) (valid : ∀ e ∈ o.queries, e.Valid) :
    ∃ report, Answered fns o g report (runWith printer fns o) := by
  have accepted := Grid.accepted_of_covering built
  obtain ⟨bounds, outer, made⟩ := ofOptions_of_built built valid
  have each : ∀ entry ∈ entries fns g o.queries, entry.envelope.Valid := by
    intro entry member
    obtain ⟨e, asked, rfl⟩ := List.mem_map.mp member
    exact valid e asked
  obtain ⟨output, rendered, prints⟩ := exists_rendered faithful o.json
    ⟨g.placement, g.placement.points, bounds, entries fns g o.queries⟩ each
  have outcome : runWith printer fns o = ⟨0, output, runLog fns o⟩ := by
    simp only [runWith, made, rendered]
  refine ⟨⟨g.placement, g.placement.points, bounds, entries fns g o.queries⟩, ?_⟩
  constructor
  case placement => rfl
  case points => exact accepted.pointCount_eq
  case bounds => exact outer
  case envelopes => simp [entries, Function.comp_def]
  case indices =>
    intro entry member
    obtain ⟨e, asked, rfl⟩ := List.mem_map.mp member
    exact Grid.pointsIn_of_valid accepted (valid e asked)
  case batch =>
    intro plan
    rw [Grid.pointsInEach_of_valid accepted plan valid]
    simp [entries, Function.comp_def]
  case code => rw [outcome]
  case errors =>
    intro t
    rw [errors_eq, outcome, runLog_calm]
    rfl
  case output => rwa [outcome]

end Outcome

/-- Arguments that are accepted ask for the edges, the zoom, the queries and the form of the report
that a run goes by, and none of the queries is inverted. The run fails exactly when there is no grid
for the edges and the zoom, and says why; otherwise every query is answered. -/
theorem run_of_arguments {printer : Document.Printer} (faithful : printer.Faithful)
    (fns : Elementary Float) {args : List String} {o : Options}
    (parsed : Options.ofArguments args = .ok o) :
    (∃ rs, (∀ other, Asks args other ↔ other = rs) ∧ o.Follows rs) ∧
    (∀ e ∈ o.queries, e.check = .ok ()) ∧
    ((runWith printer fns o).code ≠ 0 ↔
      ∃ failure, Grid.covering fns (.ofCorners o.west o.south o.east o.north) o.zoom =
        .error failure) ∧
    (∀ failure, Grid.covering fns (.ofCorners o.west o.south o.east o.north) o.zoom =
        .error failure → ∃ reason text, failure = .refused reason ∧ Unbuilt o reason text ∧
      Failed (runWith printer fns o) ("Grid error: " ++ text)) ∧
    (∀ g, Grid.covering fns (.ofCorners o.west o.south o.east o.north) o.zoom = .ok g →
      ∃ report, Answered fns o g report (runWith printer fns o)) := by
  obtain ⟨rs, asks, follows⟩ := Options.exists_requests parsed
  have valid := valid_of_reads follows.queries
  refine ⟨⟨rs, asks, follows⟩, fun e asked => (Envelope.check_eq_ok_iff e).mpr (valid e asked), ?_⟩
  change (_ ↔ ∃ failure, Grid.covering fns o.box o.zoom = .error failure) ∧
    (∀ failure, Grid.covering fns o.box o.zoom = .error failure → _) ∧
    (∀ g, Grid.covering fns o.box o.zoom = .ok g → _)
  cases built : Grid.covering fns o.box o.zoom with
  | ok g =>
    obtain ⟨report, success⟩ := answered faithful built valid
    refine ⟨by simp [success.code], by simp, ?_⟩
    rintro _ ⟨⟩
    exact ⟨report, success⟩
  | error failure =>
    obtain ⟨reason, text, rfl, unbuilt⟩ := exists_unbuilt built
    have failed := failed_of_refused printer built
    refine ⟨by simp [failed.code], ?_, by simp⟩
    rintro _ ⟨⟩
    exact ⟨reason, reason.message, rfl, unbuilt_message unbuilt, failed⟩

def twoQueries (zoom : String) : List String :=
  ["--west=-10", "--east=10", "--json", "--south", "0", "--north", "60", "-z", zoom,
    "--query", "5,5,60,60", "-q=20,30,-60,0"]

theorem run_of_arguments_two_queries :
    Document.Printer.spread.Faithful ∧
    (∃ o report, Options.ofArguments (twoQueries "2") = .ok o ∧
      Answered Mercator.stepped o ⟨⟨2, 483, 297, 58, 216⟩, none⟩ report (run Mercator.stepped o) ∧
      (run Mercator.stepped o).output =
        "[\n  \x7b\n    \"envelope\": \x7b\n      \"min_lon\": 50000000,\n" ++
        "      \"max_lon\": 50000000,\n      \"min_lat\": 600000000,\n" ++
        "      \"max_lat\": 600000000\n    \x7d,\n    \"count\": 1,\n" ++
        "    \"indices\": [\n      43\n    ]\n  \x7d,\n  \x7b\n    \"envelope\": \x7b\n" ++
        "      \"min_lon\": 200000000,\n      \"max_lon\": 300000000,\n" ++
        "      \"min_lat\": -600000000,\n      \"max_lat\": 0\n    \x7d,\n" ++
        "    \"count\": 0,\n    \"indices\": []\n  \x7d\n]\n") ∧
    ∃ o, Options.ofArguments (twoQueries "30") = .ok o ∧ Failed (run Mercator.stepped o)
      "Grid error: Invalid zoom level 30: must be between 0 and 22" := by
  have faithful := Document.Printer.spread_faithful
  refine ⟨faithful, ?_, ?_⟩
  · have read : (Options.ofArguments (twoQueries "2")).toOption.map (fun o =>
        (o.json, o.queries, (Placement.covering Mercator.stepped o.box o.zoom).toOption)) =
          some (true, [⟨50000000, 50000000, 600000000, 600000000⟩,
            ⟨200000000, 300000000, -600000000, 0⟩], some ⟨2, 483, 297, 58, 216⟩) := by
      decide +kernel
    obtain ⟨o, parsed, parts⟩ := ok_of_map_toOption read
    obtain ⟨json, parts⟩ := Prod.mk.inj parts
    obtain ⟨queries, placed⟩ := Prod.mk.inj parts
    have built : Grid.covering Mercator.stepped o.box o.zoom = .ok ⟨⟨2, 483, 297, 58, 216⟩, none⟩ :=
      Grid.covering_of_placement (eq_ok_of_toOption placed)
    obtain ⟨-, -, -, -, answered⟩ := run_of_arguments faithful Mercator.stepped parsed
    obtain ⟨report, success⟩ := answered _ built
    have found : (Grid.pointsInEach Mercator.stepped ⟨⟨2, 483, 297, 58, 216⟩, none⟩ .whole
        o.queries).toOption = some [[43], []] := by
      rw [queries]
      decide +kernel
    have indices : report.entries.map (·.indices) = [[43], []] :=
      Except.ok.inj ((success.batch .whole).symm.trans (eq_ok_of_toOption found))
    have envelopes := success.envelopes.trans queries
    have entries : report.entries =
        [⟨⟨50000000, 50000000, 600000000, 600000000⟩, [43]⟩,
          ⟨⟨200000000, 300000000, -600000000, 0⟩, []⟩] := by
      generalize report.entries = es at indices envelopes
      rcases es with _ | ⟨⟨_, _⟩, _ | ⟨⟨_, _⟩, _ | _⟩⟩ <;> simp_all
    have prints := success.output
    rw [json] at prints
    refine ⟨o, report, parsed, success, ?_⟩
    change (runWith .spread Mercator.stepped o).output = _
    generalize (runWith .spread Mercator.stepped o).output = output at prints
    cases prints
    rw [entries]
    decide +kernel
  · have read : (Options.ofArguments (twoQueries "30")).toOption.map (·.zoom) = some 30 := by
      decide +kernel
    obtain ⟨o, parsed, deep⟩ := ok_of_map_toOption read
    have failed : Grid.covering Mercator.stepped o.box o.zoom =
        .error (.refused (.zoomOutOfRange o.zoom)) := by
      rw [Grid.covering, Placement.covering_of_outside _ _ (by rw [deep]; decide)]
      rfl
    obtain ⟨-, -, -, refused, -⟩ := run_of_arguments faithful Mercator.stepped parsed
    obtain ⟨reason, text, same, unbuilt, failure⟩ := refused _ failed
    cases same
    refine ⟨o, parsed, ?_⟩
    cases unbuilt
    rw [deep] at failure
    have whole : "Grid error: " ++ ("Invalid zoom level " ++ toString (30 : Int32).toInt ++
      ": must be between 0 and 22") =
        "Grid error: Invalid zoom level 30: must be between 0 and 22" := by decide +kernel
    rwa [whole] at failure

end MercatorGrid.CommandLine
