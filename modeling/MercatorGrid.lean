import MercatorGrid.Main
import MercatorGrid.Session
import MercatorGrid.Proofs.Binary64.Nearest
import MercatorGrid.Proofs.Binary64.Rounding
import MercatorGrid.Proofs.Binary64.Arithmetic
import MercatorGrid.Proofs.Binary64.Conversion
import MercatorGrid.Proofs.Binary64.Line
import MercatorGrid.Proofs.Binary64.NearestInteger
import MercatorGrid.Proofs.Binary64.Preimage
import MercatorGrid.Proofs.Binary64.NotANumber
import MercatorGrid.Proofs.FixedPoint
import MercatorGrid.Proofs.Longitude
import MercatorGrid.Proofs.Longitude.Order
import MercatorGrid.Proofs.Longitude.Centre
import MercatorGrid.Proofs.Longitude.Globe
import MercatorGrid.Proofs.Latitude
import MercatorGrid.Proofs.Latitude.Limit
import MercatorGrid.Proofs.Latitude.Inverse
import MercatorGrid.Proofs.Attempt
import MercatorGrid.Proofs.Decimal.Grammar
import MercatorGrid.Proofs.Decimal.Rounding
import MercatorGrid.Proofs.Decimal.Shortest
import MercatorGrid.Proofs.Decimal.Text
import MercatorGrid.Proofs.Decimal.Whole
import MercatorGrid.Proofs.Decimal.Written
import MercatorGrid.Proofs.Document.Text
import MercatorGrid.Proofs.Text.Parts
import MercatorGrid.Proofs.Envelope
import MercatorGrid.Proofs.Envelope.Conversion
import MercatorGrid.Proofs.Envelope.Locations
import MercatorGrid.Proofs.Placement.Covering
import MercatorGrid.Proofs.Placement.Numbering
import MercatorGrid.Proofs.Placement.Requirements
import MercatorGrid.Proofs.Grid.Batch
import MercatorGrid.Proofs.Grid.Covering
import MercatorGrid.Proofs.Grid.Overlap
import MercatorGrid.Proofs.Grid.Locate
import MercatorGrid.Proofs.Grid.Tiling
import MercatorGrid.Proofs.Grid.Location
import MercatorGrid.Proofs.Grid.Centre
import MercatorGrid.Proofs.Placement.Edges
import MercatorGrid.Proofs.Grid.Exact
import MercatorGrid.Proofs.Grid.Meridians
import MercatorGrid.Proofs.Grid.Converted
import MercatorGrid.Proofs.Grid.Containing
import MercatorGrid.Proofs.Grid.NotANumber
import MercatorGrid.Proofs.Grid.Unchecked
import MercatorGrid.Proofs.Session
import MercatorGrid.Proofs.Session.Counts
import MercatorGrid.Proofs.CommandLine.Arguments
import MercatorGrid.Proofs.CommandLine.Options
import MercatorGrid.Proofs.CommandLine.Run
import MercatorGrid.Proofs.CommandLine.QueryText
import MercatorGrid.Proofs.CommandLine.QueryLine
