import BeeProtocol.Config
import BeeProtocol.Frame.Scanner
import BeeProtocol.Link.Desk
import BeeProtocol.Message.Decoding
import BeeProtocol.Promise.Basic
import BeeProtocol.Promise.ReplyHandler
import BeeProtocol.Promise.Session
import BeeProtocol.Proofs.Bytes
import BeeProtocol.Proofs.Frame.CheckedReads
import BeeProtocol.Proofs.Frame.Chunks
import BeeProtocol.Proofs.Frame.Inspection
import BeeProtocol.Proofs.Frame.Scanning
import BeeProtocol.Proofs.Link.Account
import BeeProtocol.Proofs.Link.Calls
import BeeProtocol.Proofs.Link.Custody
import BeeProtocol.Proofs.Link.Demultiplexing
import BeeProtocol.Proofs.Link.Reader
import BeeProtocol.Proofs.Link.Run
import BeeProtocol.Proofs.Link.Standing
import BeeProtocol.Proofs.Link.Steps
import BeeProtocol.Proofs.Message.StatementResponse
import BeeProtocol.Proofs.Statement.Channel
import BeeProtocol.Proofs.Statement.Delivery
import BeeProtocol.Proofs.Statement.Filtering
import BeeProtocol.Proofs.Statement.Log
import BeeProtocol.Proofs.Statement.Pull
import BeeProtocol.Proofs.Statement.Run
import BeeProtocol.Row
import BeeProtocol.Statement.Session
import BeeProtocol.Time.Duration
import BeeProtocol.Value.BlobReader
import BeeProtocol.Value.Cursor
import BeeProtocol.Proofs.Statement.Backpressure
import BeeProtocol.Proofs.Statement.Waking
import BeeProtocol.Proofs.Statement.Finality
import BeeProtocol.Proofs.Link.Roster
import BeeProtocol.Proofs.Link.Moves
import BeeProtocol.Proofs.Link.Turns
import BeeProtocol.Proofs.Link.Journal
import BeeProtocol.Proofs.Link.Tenure
import BeeProtocol.Proofs.Link.Registration
import BeeProtocol.Proofs.Link.Queueing
import BeeProtocol.Proofs.Link.Replies
import BeeProtocol.Proofs.Link.PendingQueue
import BeeProtocol.Proofs.Link.Alertness
import BeeProtocol.Proofs.Link.Closing
import BeeProtocol.Proofs.Frame.Recovery
import BeeProtocol.Proofs.Link.Ledger
import BeeProtocol.Proofs.Link.Courses
import BeeProtocol.Proofs.Link.Lifecycle
import BeeProtocol.Proofs.Link.AllocatedIds
import BeeProtocol.Proofs.Link.Ownership
import BeeProtocol.Proofs.Link.Exchanges
import BeeProtocol.Proofs.Link.Asking
import BeeProtocol.Proofs.Link.Answering
import BeeProtocol.Proofs.Link.Hearing
import BeeProtocol.Proofs.Link.OwnReplies
import BeeProtocol.Proofs.Text.Utf8
import BeeProtocol.Proofs.Value.Spelling
import BeeProtocol.Proofs.Message.Spelling
import BeeProtocol.Proofs.Message.RoundTrip
import BeeProtocol.Proofs.Message.Canonical
import BeeProtocol.Proofs.Promise.AssignedOnce
import BeeProtocol.Proofs.Statement.Deadlines
import BeeProtocol.Proofs.Frame.RoundTrip
import BeeProtocol.Proofs.Value.Cursor
import BeeProtocol.Proofs.Value.Failures
import BeeProtocol.Proofs.Frame.Drawing
import BeeProtocol.Proofs.Link.Sparing
import BeeProtocol.Proofs.Link.Intake
import BeeProtocol.Proofs.Link.Draining
import BeeProtocol.Proofs.Link.Docket
import BeeProtocol.Proofs.Link.Dispatch
import BeeProtocol.Proofs.Link.Fairness
import BeeProtocol.Proofs.Link.EndOfStream
import BeeProtocol.Proofs.Link.Outgoing
import BeeProtocol.Proofs.Statement.DrainsAgree
import BeeProtocol.Proofs.Link.DroppedResponses
import BeeProtocol.Proofs.Link.Handshakes
import BeeProtocol.Proofs.Message.Truncation
import BeeProtocol.Proofs.Message.Refusal
import BeeProtocol.Proofs.Link.Truncation
import BeeProtocol.Proofs.Link.RefusedSends
import BeeProtocol.Proofs.Link.PingSchedule
import BeeProtocol.Proofs.Promise.FirstCause
import BeeProtocol.Proofs.Link.HandshakeLimits
import BeeProtocol.Proofs.Value.SteadyReading
import BeeProtocol.Proofs.Link.Executions
import BeeProtocol.Proofs.Row
import BeeProtocol.Proofs.Link.DeliveredRows
import BeeProtocol.Proofs.Link.IdSequence
