import GalvoWeld.Card.Call
import GalvoWeld.Card.Lowering
import GalvoWeld.Card.Units
import GalvoWeld.Cell.Job
import GalvoWeld.Cell.Schedule
import GalvoWeld.Cell.State
import GalvoWeld.Cell.Step
import GalvoWeld.Config
import GalvoWeld.Contour.Command
import GalvoWeld.Contour.Plot
import GalvoWeld.Contour.PlotReader
import GalvoWeld.Device.Card
import GalvoWeld.Device.Network
import GalvoWeld.Device.Welder
import GalvoWeld.Disk
import GalvoWeld.Draft
import GalvoWeld.DryRun.Listing
import GalvoWeld.DryRun.Options
import GalvoWeld.DryRun.Program
import GalvoWeld.Fault
import GalvoWeld.Figure
import GalvoWeld.Figure.Document
import GalvoWeld.Gate.Phase
import GalvoWeld.Gate.State
import GalvoWeld.Json.Reader
import GalvoWeld.Link.Address
import GalvoWeld.Link.Checksum
import GalvoWeld.Link.Frame
import GalvoWeld.Link.Session
import GalvoWeld.Link.Stream
import GalvoWeld.Main
import GalvoWeld.Number.Decimal
import GalvoWeld.Number.Exact
import GalvoWeld.Number.Fixed
import GalvoWeld.Number.Layout
import GalvoWeld.Number.Shortest
import GalvoWeld.Point
import GalvoWeld.Seam.Contour
import GalvoWeld.Seam.Data
import GalvoWeld.Seam.Stage
import GalvoWeld.Seam.State
import GalvoWeld.Setting.Command
import GalvoWeld.Setting.Line
import GalvoWeld.Setting.Reply
import GalvoWeld.Text.Blank
import GalvoWeld.Text.Utf8
import GalvoWeld.Wobble.Compensation
import GalvoWeld.Wobble.Delay
import GalvoWeld.Wobble.Divisor
import GalvoWeld.Wobble.MicroPoints
import GalvoWeld.Wobble.Mode
import GalvoWeld.Wobble.PowerShift
import GalvoWeld.Proofs.Cell.Acts
import GalvoWeld.Proofs.Cell.Generations
import GalvoWeld.Proofs.Cell.Clearance
import GalvoWeld.Proofs.Cell.Abandoned
import GalvoWeld.Proofs.Card.Memory
import GalvoWeld.Proofs.Card.WeldingList
import GalvoWeld.Proofs.Cell.ListOrder
import GalvoWeld.Proofs.Cell.Preview
import GalvoWeld.Proofs.Wobble.Segments
import GalvoWeld.Proofs.Device.Operations
import GalvoWeld.Proofs.Seam.Wobbling
import GalvoWeld.Proofs.Card.Vectors
import GalvoWeld.Proofs.Card.ListSize
import GalvoWeld.Proofs.Device.Preview
import GalvoWeld.Proofs.Contour.Preview
import GalvoWeld.Proofs.Device.FreshList
import GalvoWeld.Proofs.Cell.ListMemory
import GalvoWeld.Proofs.Cell.ListAtStart
import GalvoWeld.Proofs.Card.Elision
import GalvoWeld.Proofs.Setting.Packing
import GalvoWeld.Proofs.Wobble.Vectors
import GalvoWeld.Proofs.Seam.Decisions
import GalvoWeld.Proofs.Device.Reloading
import GalvoWeld.Proofs.Number.Unpacked
import GalvoWeld.Proofs.Number.Rounding
import GalvoWeld.Proofs.Number.Nearest
import GalvoWeld.Proofs.Number.Decimals
import GalvoWeld.Proofs.Number.Numerals
import GalvoWeld.Proofs.Number.Places
import GalvoWeld.Proofs.Cell.Admission
import GalvoWeld.Proofs.Contour.Grammar
import GalvoWeld.Proofs.Contour.RoundTrip
import GalvoWeld.Proofs.Device.ResetSeam
import GalvoWeld.Proofs.Gate.Histories
import GalvoWeld.Proofs.Device.Transfers
import GalvoWeld.Proofs.Device.Passes
import GalvoWeld.Proofs.Cell.Announcements
import GalvoWeld.Proofs.Device.Passages
import GalvoWeld.Proofs.Device.StandingList
import GalvoWeld.Proofs.Device.Retries
import GalvoWeld.Proofs.Cell.LastRequest
import GalvoWeld.Proofs.Cell.Fatal
import GalvoWeld.Proofs.Cell.DryRun
import GalvoWeld.Proofs.Wobble.Divisors
import GalvoWeld.Proofs.Wobble.Entries
import GalvoWeld.Proofs.Seam.FreeWobbling
import GalvoWeld.Proofs.Seam.SpecialValues
import GalvoWeld.Proofs.Link.Replies
import GalvoWeld.Proofs.Link.Remainder
import GalvoWeld.Proofs.Link.Bursts
import GalvoWeld.Proofs.Seam.Delays
import GalvoWeld.Proofs.Card.VectorCalls
import GalvoWeld.Proofs.Wobble.Steps
