import Parley.Conversation.Compressed
import Parley.Conversation.Memory
import Parley.Conversation.Oneshot
import Parley.Conversation.Peer
import Parley.Conversation.Pipe
import Parley.Deflate.Codec
import Parley.Script.Call
import Parley.Proofs.Delivery
import Parley.Proofs.Pipe.History
import Parley.Proofs.Framing
import Parley.Proofs.Traffic.Conservation
import Parley.Proofs.Traffic.Room
import Parley.Proofs.Traffic.Wakeups
import Parley.Proofs.Traffic.EndOfStream
import Parley.Proofs.Traffic.Timeouts
import Parley.Proofs.Config.Durations
import Parley.Proofs.Dialogue.Session
import Parley.Proofs.Dialogue.RoundTrip
import Parley.Proofs.Outflow.Surrogate
import Parley.Proofs.Outflow.Compressed
import Parley.Proofs.Outflow.ShortWrites
import Parley.Proofs.Engine.Protocol
import Parley.Proofs.Engine.Scheduling
import Parley.Proofs.Engine.Meeting
import Parley.Proofs.Engine.Rejection
import Parley.Proofs.Engine.Splitting
import Parley.Proofs.Transcript.Walk
import Parley.Proofs.Transcript.Closed
import Parley.Proofs.Transcript.Reading
import Parley.Proofs.Transcript.Mismatch
import Parley.Proofs.Compression.Transfer
import Parley.Proofs.Inflating.Reading
import Parley.Proofs.Upgrade.Onset
import Parley.Proofs.Upgrade.Stack
import Parley.Proofs.Switch.Session
import Parley.Proofs.Shutdown.Close
