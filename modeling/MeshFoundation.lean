import MeshFoundation.Bytes.Order
import MeshFoundation.Bytes.Hex
import MeshFoundation.Text.Blank
import MeshFoundation.Text.Numeral
import MeshFoundation.Text.Quoted
import MeshFoundation.Text.Span
import MeshFoundation.Opcode.Basic
import MeshFoundation.Opcode.Codec
import MeshFoundation.Opcode.Stream
import MeshFoundation.Message.Status
import MeshFoundation.Message.Request
import MeshFoundation.Parameter.Fault
import MeshFoundation.Parameter.KeyIndex
import MeshFoundation.Parameter.TimeToLive
import MeshFoundation.Parameter.FeatureState
import MeshFoundation.Parameter.Retransmit
import MeshFoundation.Parameter.Model
import MeshFoundation.Parameter.StatusCode
import MeshFoundation.Composition.Basic
import MeshFoundation.Composition.Decode
import MeshFoundation.Composition.Encode
import MeshFoundation.Report.Basic
import MeshFoundation.Report.Decode
import MeshFoundation.Transport
import MeshFoundation.Failure
import MeshFoundation.Notice
import MeshFoundation.Settings
import MeshFoundation.Counter
import MeshFoundation.Operation
import MeshFoundation.Pending.Entry
import MeshFoundation.Pending.Table
import MeshFoundation.Pending.Timers
import MeshFoundation.Pending.Timeline
import MeshFoundation.Pending.Action
import MeshFoundation.Pending.Rehearsal
import MeshFoundation.Client.Basic
import MeshFoundation.Client.Step
import MeshFoundation.Client.Timeline
import MeshFoundation.Client.Rehearsal
import MeshFoundation.CommandLine.Arguments
import MeshFoundation.CommandLine.Listing
import MeshFoundation.Main
import MeshFoundation.Proofs.Pending.Slots
import MeshFoundation.Proofs.Pending.Balance
import MeshFoundation.Proofs.Pending.Wakeup
import MeshFoundation.Proofs.Pending.Clock
import MeshFoundation.Proofs.Pending.Deadline
import MeshFoundation.Proofs.Client.Transition
import MeshFoundation.Proofs.Client.History
import MeshFoundation.Proofs.Client.Balance
import MeshFoundation.Proofs.Client.Standing
import MeshFoundation.Proofs.Client.SendFailure
import MeshFoundation.Proofs.Client.Reply
import MeshFoundation.Proofs.Client.Transmission
import MeshFoundation.Proofs.Client.Returning
import MeshFoundation.Proofs.Client.Turn
import MeshFoundation.Proofs.Client.Calls
import MeshFoundation.Proofs.Client.Moves
import MeshFoundation.Proofs.Client.Lane
import MeshFoundation.Proofs.Client.Projection
import MeshFoundation.Proofs.Client.Isolation
import MeshFoundation.Proofs.Composition.Record
import MeshFoundation.Proofs.Composition.Grammar
import MeshFoundation.Proofs.Report.Format
import MeshFoundation.Proofs.Client.Echo
import MeshFoundation.Trapping.Basic
import MeshFoundation.Trapping.Readers
import MeshFoundation.Proofs.Trapping.Parameters
import MeshFoundation.Proofs.Trapping.Composition
import MeshFoundation.Proofs.Trapping.Message
import MeshFoundation.Proofs.Opcode.Inverse
import MeshFoundation.Proofs.Operation.Reading
import MeshFoundation.Proofs.Operation.Objection
import MeshFoundation.Proofs.Settings.Setters
import MeshFoundation.Proofs.Client.Outbound
import MeshFoundation.Proofs.Client.Outcome
import MeshFoundation.Proofs.Client.Counting
import MeshFoundation.Proofs.Pending.Query
import MeshFoundation.Proofs.Report.KeyIndices
import MeshFoundation.Proofs.CommandLine.Payload
import MeshFoundation.Proofs.CommandLine.Classification
import MeshFoundation.Proofs.Client.Repetition
import MeshFoundation.Proofs.Report.KeyList
import MeshFoundation.Proofs.Pending.Tickets
import MeshFoundation.Proofs.Pending.Reentry
import MeshFoundation.Proofs.Pending.Splitting
import MeshFoundation.Proofs.Client.Flag
import MeshFoundation.Proofs.Composition.Continuation
import MeshFoundation.Proofs.Opcode.Framing
import MeshFoundation.Proofs.Client.Binding
import MeshFoundation.Proofs.CommandLine.Strictness
