import MotionImagery.Attribute.Map
import MotionImagery.Attribute.Name
import MotionImagery.Attribute.Value
import MotionImagery.Bits.Reader
import MotionImagery.Buffer.FrameBuffer
import MotionImagery.Buffer.Rollover
import MotionImagery.Bytes
import MotionImagery.Checksum.Crc32
import MotionImagery.Checksum.RunningSum
import MotionImagery.Config.Arguments
import MotionImagery.Config.File
import MotionImagery.Config.Monitor
import MotionImagery.Decimal.Binary
import MotionImagery.Decimal.Layout
import MotionImagery.Decimal.Read
import MotionImagery.Decimal.Shortest
import MotionImagery.Geometry.Basic
import MotionImagery.Geometry.Boundary
import MotionImagery.Geometry.Distance
import MotionImagery.Geometry.Edge
import MotionImagery.Geometry.Exact
import MotionImagery.Geometry.Hull
import MotionImagery.Geometry.Merge
import MotionImagery.Geometry.Normalize
import MotionImagery.Geometry.Operator
import MotionImagery.Geometry.Order
import MotionImagery.Geometry.Rings
import MotionImagery.Geometry.Simplify
import MotionImagery.Geometry.Subsample
import MotionImagery.Geometry.Validity
import MotionImagery.Geometry.WellKnownText
import MotionImagery.Keyed
import MotionImagery.Log.Filter
import MotionImagery.Log.Level
import MotionImagery.Monitor
import MotionImagery.Network.Address
import MotionImagery.Output.Directory
import MotionImagery.Output.NameTemplate
import MotionImagery.Output.Record
import MotionImagery.Output.Store
import MotionImagery.Program.FileTree
import MotionImagery.Program.Rehearsal
import MotionImagery.Program.Run
import MotionImagery.Session
import MotionImagery.Summary.Collector
import MotionImagery.Summary.CollectorSet
import MotionImagery.Summary.Derivation
import MotionImagery.Summary.Settings
import MotionImagery.Summary.Window
import MotionImagery.Telemetry.FieldName
import MotionImagery.Telemetry.FieldTable
import MotionImagery.Telemetry.Length
import MotionImagery.Telemetry.LocalSet
import MotionImagery.Telemetry.Packet
import MotionImagery.Telemetry.Scaling
import MotionImagery.Telemetry.Unit
import MotionImagery.Telemetry.Value
import MotionImagery.Text.Blank
import MotionImagery.Text.Json
import MotionImagery.Text.Numeral
import MotionImagery.Text.Quoted
import MotionImagery.Text.Split
import MotionImagery.Text.Utf8
import MotionImagery.Time.Calendar
import MotionImagery.Time.Moment
import MotionImagery.Time.Pattern
import MotionImagery.Toml.Date
import MotionImagery.Toml.Number
import MotionImagery.Toml.Quoted
import MotionImagery.Toml.Read
import MotionImagery.Toml.Value
import MotionImagery.Transport.Demux
import MotionImagery.Transport.Packet
import MotionImagery.Transport.Pes
import MotionImagery.Transport.ProgramTable
import MotionImagery.Transport.Reassembly
import MotionImagery.Transport.Section
import MotionImagery.Transport.StreamKind
import MotionImagery.Video.FrameType
import MotionImagery.Main
import MotionImagery.Proofs.Transport.Cutting
import MotionImagery.Proofs.Transport.Tables
import MotionImagery.Proofs.Transport.Lane
import MotionImagery.Proofs.Transport.Sending
import MotionImagery.Proofs.Transport.Multiplex
import MotionImagery.Proofs.Transport.DamagedTables
import MotionImagery.Proofs.Transport.RoundTrip
import MotionImagery.Proofs.Transport.PacketLoss
import MotionImagery.Proofs.Transport.Independence
import MotionImagery.Proofs.Transport.LossCount
import MotionImagery.Proofs.Buffer.Conservation
import MotionImagery.Proofs.Session.Steps
import MotionImagery.Proofs.Transport.Datagrams
import MotionImagery.Proofs.Session.Conservation
import MotionImagery.Proofs.Buffer.Alignment
import MotionImagery.Proofs.Session.VideoStream
import MotionImagery.Proofs.Session.Boundaries
import MotionImagery.Proofs.Buffer.Ledger
import MotionImagery.Proofs.Telemetry.Framing
import MotionImagery.Proofs.Telemetry.Corruption
import MotionImagery.Proofs.Transport.Reassembly
import MotionImagery.Proofs.Summary.Tracks
import MotionImagery.Proofs.Summary.Gathering
import MotionImagery.Proofs.Summary.Isolation
import MotionImagery.Proofs.Summary.Provenance
import MotionImagery.Proofs.Buffer.FrameList
import MotionImagery.Proofs.Telemetry.Grammar
import MotionImagery.Proofs.Telemetry.Carriage
import MotionImagery.Proofs.Telemetry.Decoded
import MotionImagery.Proofs.Telemetry.Sealing
import MotionImagery.Proofs.Summary.Serving
import MotionImagery.Proofs.Summary.Listing
import MotionImagery.Proofs.Session.Reporting
import MotionImagery.Proofs.Access.Basic
import MotionImagery.Proofs.Access.Transport
import MotionImagery.Proofs.Access.Video
import MotionImagery.Proofs.Access.Telemetry
import MotionImagery.Proofs.Session.Resilience
import MotionImagery.Proofs.Summary.Dates
import MotionImagery.Proofs.Output.Record
import MotionImagery.Proofs.Checksum.Bursts
import MotionImagery.Proofs.Transport.DamagedSections
import MotionImagery.Proofs.Buffer.Occupancy
import MotionImagery.Proofs.Transport.Reading
import MotionImagery.Proofs.Transport.Refusals
import MotionImagery.Proofs.Transport.WrittenTables
import MotionImagery.Proofs.Summary.Identifiers
import MotionImagery.Proofs.Summary.Marking
import MotionImagery.Proofs.Summary.Timestamps
import MotionImagery.Proofs.Geometry.Subsampling
import MotionImagery.Proofs.Geometry.Ways
import MotionImagery.Proofs.Summary.Density
import MotionImagery.Proofs.Geometry.Numbers
import MotionImagery.Proofs.Geometry.Ordering
import MotionImagery.Proofs.Geometry.Turning
import MotionImagery.Proofs.Geometry.Canonical
import MotionImagery.Proofs.Video.StartCodes
import MotionImagery.Proofs.Video.FrameTypes
import MotionImagery.Proofs.Geometry.ListText
import MotionImagery.Proofs.Geometry.Unambiguous
import MotionImagery.Proofs.Geometry.FixedPoints
import MotionImagery.Proofs.Output.MemberOrder
import MotionImagery.Proofs.Summary.Adjustments
import MotionImagery.Proofs.Config.Thresholds
import MotionImagery.Proofs.Output.Expansion
import MotionImagery.Proofs.Output.Persisting
import MotionImagery.Proofs.Bits.Reading
import MotionImagery.Proofs.Checksum.ShiftRegister
import MotionImagery.Proofs.Telemetry.Measures
