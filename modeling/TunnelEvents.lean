import TunnelEvents.Json.Grammar
import TunnelEvents.Json.Syntax
import TunnelEvents.Json.Syntax.Written
import TunnelEvents.Line.Agreement
import TunnelEvents.Line.Canonical
import TunnelEvents.Log
import TunnelEvents.Record.Choice
import TunnelEvents.Record.Event
import TunnelEvents.Record.Members
import TunnelEvents.Record.Named
import TunnelEvents.Text.Quoted.Reading
import TunnelEvents.Text.Quoted.Grammar
import TunnelEvents.Text.Utf8.WellFormed
import TunnelEvents.Proofs.Text.Utf8.Encoding
import TunnelEvents.Proofs.Text.Utf8.Scan
import TunnelEvents.Proofs.Text.Utf8.Boundary
import TunnelEvents.Proofs.Text.Utf8.RoundTrip
import TunnelEvents.Proofs.Text.Utf8.Sanitized
import TunnelEvents.Proofs.Text.Utf8.WellFormed
import TunnelEvents.Proofs.Text.Utf8.Decoding
import TunnelEvents.Proofs.Text.Decimal
import TunnelEvents.Proofs.Text.Hexadecimal
import TunnelEvents.Proofs.Text.Fields
import TunnelEvents.Proofs.Text.Quoted
import TunnelEvents.Proofs.Diagnostic
import TunnelEvents.Proofs.Line.Shape
import TunnelEvents.Proofs.Line.Image
import TunnelEvents.Proofs.Line.Slices
import TunnelEvents.Proofs.Line.Agreement
import TunnelEvents.Proofs.Log
import TunnelEvents.Proofs.Line.Marker
import TunnelEvents.Proofs.Line.Sanitized
import TunnelEvents.Proofs.Json.Numeral
import TunnelEvents.Proofs.Json.StringLiteral
import TunnelEvents.Proofs.Json.Token
import TunnelEvents.Proofs.Json.Token.Sound
import TunnelEvents.Proofs.Json.Document
import TunnelEvents.Proofs.Json.Document.Sound
import TunnelEvents.Proofs.Json.Syntax
import TunnelEvents.Proofs.Json.Syntax.Spelled
import TunnelEvents.Proofs.Json.Syntax.Written
import TunnelEvents.Proofs.Record.Members
import TunnelEvents.Proofs.Record.Event
import TunnelEvents.Proofs.Record.Choice
import TunnelEvents.Proofs.Record.Strict
import TunnelEvents.Proofs.Text.Decimal.Grammar
import TunnelEvents.Proofs.Text.Counter
import TunnelEvents.Proofs.Line.ByteCounts
import TunnelEvents.Proofs.Line.Timestamps
import TunnelEvents.Proofs.Time.Calendar
import TunnelEvents.Time.Calendar.Succession
import TunnelEvents.Proofs.Time.Calendar.Succession
import TunnelEvents.Proofs.Time.CivilTime
import TunnelEvents.Proofs.Line.FieldCount
import TunnelEvents.Proofs.Line.EchoFields
import TunnelEvents.Proofs.Text.Quoted.Text
import TunnelEvents.Proofs.UnknownTag
import TunnelEvents.Proofs.ConnectionState
import TunnelEvents.Proofs.Json.Document.Unique
import TunnelEvents.Record.Row
import TunnelEvents.Proofs.Record.Row
