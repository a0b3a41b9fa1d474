import CaptureFormat.Arguments
import CaptureFormat.Binary64
import CaptureFormat.Captures
import CaptureFormat.Conversion.Bytes
import CaptureFormat.Conversion.Characters
import CaptureFormat.Conversion.CodePoint
import CaptureFormat.Conversion.Field
import CaptureFormat.Conversion.Integer
import CaptureFormat.Conversion.Radix
import CaptureFormat.Conversion.Real
import CaptureFormat.Decimal.Basic
import CaptureFormat.Decimal.Layout
import CaptureFormat.Decimal.Shortest
import CaptureFormat.Destination.Basic
import CaptureFormat.Destination.Metered
import CaptureFormat.Destination.Writer
import CaptureFormat.Directive
import CaptureFormat.Fault
import CaptureFormat.Format
import CaptureFormat.Formatter
import CaptureFormat.Numeral
import CaptureFormat.Observation
import CaptureFormat.Output
import CaptureFormat.Proofs.Conversion.CodePoint
import CaptureFormat.Proofs.Conversion.Field
import CaptureFormat.Proofs.Conversion.Real
import CaptureFormat.Proofs.Decimal.Digits
import CaptureFormat.Proofs.Decimal.Fixed
import CaptureFormat.Proofs.Decimal.Layout
import CaptureFormat.Proofs.Decimal.Reading
import CaptureFormat.Proofs.Decimal.Rounding
import CaptureFormat.Proofs.Destination.Bounded
import CaptureFormat.Proofs.Destination.Contents
import CaptureFormat.Proofs.Format.Basic
import CaptureFormat.Proofs.Format.Capacity
import CaptureFormat.Proofs.Format.Concatenation
import CaptureFormat.Proofs.Format.Escapes
import CaptureFormat.Proofs.Format.Labels
import CaptureFormat.Proofs.Formatter.Chunks
import CaptureFormat.Proofs.Formatter.Concatenation
import CaptureFormat.Proofs.Formatter.Course
import CaptureFormat.Proofs.Formatter.Names
import CaptureFormat.Proofs.Formatter.Observations
import CaptureFormat.Proofs.Formatter.Verbs
import CaptureFormat.Proofs.Numeral.Reading
import CaptureFormat.Proofs.Output.Answers
import CaptureFormat.Proofs.Output.Delivery
import CaptureFormat.Proofs.Output.Recasting
import CaptureFormat.Proofs.Rendering.Applicability
import CaptureFormat.Proofs.Rendering.Bytes
import CaptureFormat.Proofs.Rendering.CodePoints
import CaptureFormat.Proofs.Rendering.Dumps
import CaptureFormat.Proofs.Rendering.General
import CaptureFormat.Proofs.Rendering.Integers
import CaptureFormat.Proofs.Rendering.Items
import CaptureFormat.Proofs.Rendering.Markers
import CaptureFormat.Proofs.Rendering.Precision
import CaptureFormat.Proofs.Rendering.Quotes
import CaptureFormat.Proofs.Rendering.Real
import CaptureFormat.Proofs.Rendering.RealValues
import CaptureFormat.Proofs.Rendering.Width
import CaptureFormat.Proofs.Template.Bare
import CaptureFormat.Proofs.Template.Block
import CaptureFormat.Proofs.Template.BytePlace
import CaptureFormat.Proofs.Template.ByteReader
import CaptureFormat.Proofs.Template.Concatenation
import CaptureFormat.Proofs.Template.Count
import CaptureFormat.Proofs.Template.Delimitation
import CaptureFormat.Proofs.Template.Labels
import CaptureFormat.Proofs.Template.Lookahead
import CaptureFormat.Proofs.Template.Modifiers
import CaptureFormat.Proofs.Template.Moves
import CaptureFormat.Proofs.Template.Names
import CaptureFormat.Proofs.Template.Place
import CaptureFormat.Proofs.Template.Reading
import CaptureFormat.Proofs.Template.Requests
import CaptureFormat.Proofs.Template.Segmentation
import CaptureFormat.Proofs.Template.Verbs
import CaptureFormat.Proofs.Template.WellFormed
import CaptureFormat.Proofs.Text.Encoding
import CaptureFormat.Proofs.Text.HexDump
import CaptureFormat.Proofs.Text.Pieces
import CaptureFormat.Proofs.Text.Quoted
import CaptureFormat.Proofs.Text.Utf8
import CaptureFormat.Proofs.VerbMask.Membership
import CaptureFormat.Proofs.VerbMask.Sets
import CaptureFormat.Rendering.Basic
import CaptureFormat.Rendering.Standard
import CaptureFormat.Template.BytePlace
import CaptureFormat.Template.ByteReader
import CaptureFormat.Template.Count
import CaptureFormat.Template.Event
import CaptureFormat.Template.Events
import CaptureFormat.Template.Modifiers
import CaptureFormat.Template.Place
import CaptureFormat.Template.Segment
import CaptureFormat.Text.HexDump
import CaptureFormat.Text.Printable
import CaptureFormat.Text.Quoted
import CaptureFormat.Text.Utf8
import CaptureFormat.Value
import CaptureFormat.VerbMask
