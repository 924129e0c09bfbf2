import SolidScript.Digest.Sha256
import SolidScript.Document.Lines
import SolidScript.Extent.Basic
import SolidScript.Fault
import SolidScript.Motion.Apply
import SolidScript.Motion.Basic
import SolidScript.Named
import SolidScript.Number.Fixed
import SolidScript.Number.Numeral
import SolidScript.Number.Shortest
import SolidScript.Part.Build
import SolidScript.Part.Cylinder
import SolidScript.Part.Group
import SolidScript.Part.Inspect
import SolidScript.Part.Search
import SolidScript.Part.Walk
import SolidScript.Proofs.Document.Lines
import SolidScript.Proofs.Document.Numbers
import SolidScript.Proofs.Extent.Centering
import SolidScript.Proofs.Extent.Centroid
import SolidScript.Proofs.Extent.Faults
import SolidScript.Proofs.Extent.Grouped
import SolidScript.Proofs.Extent.Ordered
import SolidScript.Proofs.Extent.Pivots
import SolidScript.Proofs.Extent.Reshaped
import SolidScript.Proofs.Extent.Smallest
import SolidScript.Proofs.Group.Bracketing
import SolidScript.Proofs.Group.Kept
import SolidScript.Proofs.Group.Solid
import SolidScript.Proofs.Heap.Equality
import SolidScript.Proofs.Motion.Chain
import SolidScript.Proofs.Number.Canonical
import SolidScript.Proofs.Number.Decimal
import SolidScript.Proofs.Number.Encoded
import SolidScript.Proofs.Number.Nearest
import SolidScript.Proofs.Number.Numeral
import SolidScript.Proofs.Number.Order
import SolidScript.Proofs.Number.Rounding
import SolidScript.Proofs.Number.Shortest
import SolidScript.Proofs.Number.Written
import SolidScript.Proofs.Part.Cylinder
import SolidScript.Proofs.Script.Decoding
import SolidScript.Proofs.Script.Grammar
import SolidScript.Proofs.Script.Unwritable
import SolidScript.Proofs.Search.Deepest
import SolidScript.Proofs.Search.Labelled
import SolidScript.Proofs.Search.Places
import SolidScript.Proofs.Session.Coherence
import SolidScript.Proofs.Session.Counting
import SolidScript.Proofs.Session.Depths
import SolidScript.Proofs.Session.Equality
import SolidScript.Proofs.Session.Extents
import SolidScript.Proofs.Session.Faults
import SolidScript.Proofs.Session.Replay
import SolidScript.Proofs.Session.Rows
import SolidScript.Proofs.Settings.Saved
import SolidScript.Proofs.Settings.WellFormed
import SolidScript.Proofs.Space.Bounds
import SolidScript.Proofs.Space.Smallest
import SolidScript.Script.Arguments
import SolidScript.Script.Text
import SolidScript.Script.Writer
import SolidScript.Session.Basic
import SolidScript.Session.Memo
import SolidScript.Settings.Basic
import SolidScript.Settings.Document
import SolidScript.Space.Box
import SolidScript.Space.Text
import SolidScript.Text.Blank
import SolidScript.Text.Inspected
import SolidScript.Text.Quoted
import SolidScript.Text.Word
import SolidScript.Value.Basic
