import IrohBle.Lib.System
import IrohBle.Lib.SlidingWindow
import IrohBle.Lib.Stream
import IrohBle.Reliable.Channel
import IrohBle.Reliable.Spec
import IrohBle.Reliable.Reassembly
import IrohBle.Reliable.Duplex
import IrohBle.Reliable.AckSoundness
import IrohBle.Reliable.Delivery
import IrohBle.Reliable.LinkDead
import IrohBle.Reliable.Silence
import IrohBle.Reliable.Arrivals
import IrohBle.Reliable.Invariant
import IrohBle.Reliable.Truncated
import IrohBle.Reliable.Mtu
import IrohBle.Reliable.Lossless
import IrohBle.Reliable.Progress
import IrohBle.Pipe.L2cap
import IrohBle.Pipe.Worker
import IrohBle.Pipe.Framing
import IrohBle.Pipe.Carriage
import IrohBle.Pipe.Gatt
import IrohBle.Registry.Role
import IrohBle.Registry.Backlog
import IrohBle.Registry.Close
import IrohBle.Registry.Winner
import IrohBle.Registry.SingleLive
import IrohBle.Registry.Order
import IrohBle.Registry.Answered
import IrohBle.Registry.Fifo
import IrohBle.Registry.Version
import IrohBle.Registry.Forgotten
import IrohBle.Registry.Intent
import IrohBle.Registry.Resume
import IrohBle.Registry.Retry
import IrohBle.Registry.Deadlines
import IrohBle.Registry.Identity
import IrohBle.Registry.Recovery
import IrohBle.Actor
import IrohBle.Node.Model
import IrohBle.Node.Zombie
import IrohBle.Node.Paths
import IrohBle.Routing.Agreement
import IrohBle.Routing.Dangling
import IrohBle.Routing.Resolver
import IrohBle.Routing.Reserved
import IrohBle.Tombstones.Bounds
import IrohBle.Tombstones.Stages
import IrohBle.Conns
import IrohBle.Hook.Accounts
import IrohBle.Hook.HangUp
import IrohBle.Hook.Stranded
import IrohBle.Transport.Model
import IrohBle.Transport.Stalled
import IrohBle.Transport.Survivor
import IrohBle.Transport.Sends
import IrohBle.Transport.Backpressure
import IrohBle.Transport.Recv
import IrohBle.Lanes.Awaited
import IrohBle.Lanes.Teardown
import IrohBle.Lanes.Psm
import IrohBle.Restore
