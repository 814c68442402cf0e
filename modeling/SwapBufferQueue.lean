import SwapBufferQueue.Words
import SwapBufferQueue.Buffer
import SwapBufferQueue.Lib.Runs
import SwapBufferQueue.Lib.Tiling
import SwapBufferQueue.Lib.Calls
import SwapBufferQueue.Machine
import SwapBufferQueue.Ledger
import SwapBufferQueue.Simulation
import SwapBufferQueue.Preservation
import SwapBufferQueue.Holder
import SwapBufferQueue.Reachable
import SwapBufferQueue.CellBuffer
import SwapBufferQueue.Frame
import SwapBufferQueue.Arguments
import SwapBufferQueue.PackedWords
import SwapBufferQueue.Delivery
import SwapBufferQueue.Closing
import SwapBufferQueue.Drop
import SwapBufferQueue.Conservation
import SwapBufferQueue.TotalSize
import SwapBufferQueue.DequeueAndResize
import SwapBufferQueue.RecipeInvariant
import SwapBufferQueue.Unbounded
import SwapBufferQueue.FrameDrop
import SwapBufferQueue.Reservation
import SwapBufferQueue.VectoredUse
import SwapBufferQueue.BatchIdentity
import SwapBufferQueue.CapacityField
import SwapBufferQueue.Alone
import SwapBufferQueue.TryDequeue
import SwapBufferQueue.ClosedResize
import SwapBufferQueue.StagedInsertion
import SwapBufferQueue.WriteBytes
import SwapBufferQueue.IterDelivery
import SwapBufferQueue.Retrieval
import SwapBufferQueue.ArgumentChecks
import SwapBufferQueue.Growth
import SwapBufferQueue.ZeroCapacity
import SwapBufferQueue.Progress
import SwapBufferQueue.Outcomes
import SwapBufferQueue.AtomicWaker
import SwapBufferQueue.WakerList
import SwapBufferQueue.Synchronized
import SwapBufferQueue.LostWakeup
import SwapBufferQueue.AtomicWakerProtocol
import SwapBufferQueue.WakerListProtocol
import SwapBufferQueue.Deadlines
import SwapBufferQueue.CallSteps
import SwapBufferQueue.CallResults
import SwapBufferQueue.ValueIter
import SwapBufferQueue.AbortedInsertion
import SwapBufferQueue.AbortedDrop
import SwapBufferQueue.Lib.Framing
import SwapBufferQueue.ByteQueue
import SwapBufferQueue.Wire
import SwapBufferQueue.Combinators
import SwapBufferQueue.Stream
import SwapBufferQueue.StreamSimulation
import SwapBufferQueue.StreamDelivery
