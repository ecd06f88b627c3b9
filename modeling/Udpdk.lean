import Udpdk.Foundation.Program
import Udpdk.Foundation.Run
import Udpdk.Foundation.DoublyLinked
import Udpdk.Foundation.BoundedQueue
import Udpdk.Types
import Udpdk.Shmalloc.LiveSlots
import Udpdk.Shmalloc.Separation
import Udpdk.Shmalloc.Refinement
import Udpdk.List.Basic
import Udpdk.List.Representation
import Udpdk.BindTable.Basic
import Udpdk.List.Insertion
import Udpdk.BindTable.Table
import Udpdk.BindTable.Representation
import Udpdk.BindTable.Refinement
import Udpdk.BindTable.Exclusivity
import Udpdk.Mbuf
import Udpdk.Syscall.Basic
import Udpdk.Syscall.Transfer
import Udpdk.Syscall.View
import Udpdk.Syscall.Sockets
import Udpdk.Syscall.Accounting
import Udpdk.Syscall.Options
import Udpdk.Poller.Basic
import Udpdk.Poller.Demux
import Udpdk.Poller.System
import Udpdk.Poller.Delivery
import Udpdk.BindTable.Acceptance
import Udpdk.Syscall.ImplicitBind
import Udpdk.Syscall.Undo
import Udpdk.Syscall.Shutdown
import Udpdk.Syscall.Receive
import Udpdk.Syscall.Interrupt
import Udpdk.Poller.Hostile
import Udpdk.Foundation.Conservation
import Udpdk.Foundation.Tiling
import Udpdk.Foundation.OneMore
import Udpdk.Foundation.StagedFifo
import Udpdk.Poller.Transmit
import Udpdk.Syscall.Send
import Udpdk.Syscall.Descriptors
import Udpdk.Poller.Loop
import Udpdk.Poller.Staging
import Udpdk.Poller.DeathRow
import Udpdk.Poller.Exchange
import Udpdk.Poller.Headers
import Udpdk.Poller.Ownership
import Udpdk.Poller.EndToEnd
import Udpdk.Poller.Conservation
import Udpdk.Network.Hosts
import Udpdk.Network.Splice
import Udpdk.Sync.Basic
import Udpdk.Sync.Handshake
import Udpdk.Poller.Progress
import Udpdk.Sync.Cleanup
import Udpdk.Sync.Registry
import Udpdk.Sync.Attach
import Udpdk.Sync.Setup
import Udpdk.Foundation.Simulation
import Udpdk.Syscall.Machine
import Udpdk.Syscall.Refinement
import Udpdk.List.Deque
import Udpdk.Foundation.CString
import Udpdk.Args
import Udpdk.Syscall.Wakeup
import Udpdk.Dump
import Udpdk.Pktgen
import Udpdk.Poller.Flushing
import Udpdk.Foundation.ByteMemory
import Udpdk.Packed.Memory
import Udpdk.Packed.BindTable
import Udpdk.Packed.Sockets
