import Footage.Channel.Direct
import Footage.Channel.Replay
import Footage.Journal
import Footage.Main
import Footage.Program
import Footage.RequestId
import Footage.Resource.Capability
import Footage.Service
import Footage.Proofs.Client.Addressing
import Footage.Proofs.Client.Cancelling
import Footage.Proofs.Client.Counting
import Footage.Proofs.Client.Delivery
import Footage.Proofs.Client.Hooking
import Footage.Proofs.Client.Tracing
import Footage.Proofs.Concurrent.Independence
import Footage.Proofs.Number.Nearest
import Footage.Proofs.Program.Agreement
import Footage.Proofs.Program.Deadline
import Footage.Proofs.Program.Ending
import Footage.Proofs.Program.Leftover
import Footage.Proofs.Program.Logging
import Footage.Proofs.Program.Output
import Footage.Proofs.Program.Release
import Footage.Proofs.Program.Request
import Footage.Proofs.Remote.Chain
import Footage.Proofs.Resource.Spelling
import Footage.Proofs.Service.Command
import Footage.Proofs.Service.Dispatch
import Footage.Proofs.Service.Relaying
import Footage.Proofs.Timestamp.Range
import Footage.Proofs.Timestamp.Sorting
import Footage.Proofs.Wire.Canonical
import Footage.Proofs.Wire.Converting
import Footage.Proofs.Wire.Plain
import Footage.Proofs.Wire.Rearranging
