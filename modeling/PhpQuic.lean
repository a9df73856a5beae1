import PhpQuic.Outgoing.Retention
import PhpQuic.Outgoing.Fin
import PhpQuic.Opening.Distinct
import PhpQuic.Opening.Deferred
import PhpQuic.Closing
import PhpQuic.Outgoing.Blocked
import PhpQuic.Server.Events
import PhpQuic.Server.Finishing
import PhpQuic.Outgoing.Packets
import PhpQuic.Outgoing.HalfBuilt
import PhpQuic.Outgoing.CloseFrame
import PhpQuic.Incoming.Credit
import PhpQuic.Events.Streams
import PhpQuic.Server.Delivery
import PhpQuic.Server.Deadlines
import PhpQuic.Server.References
import PhpQuic.Outgoing.Termination
import PhpQuic.Outgoing.Writable
import PhpQuic.Incoming.PeerReset
import PhpQuic.Incoming.Readable
import PhpQuic.Incoming.PeerFin
import PhpQuic.Server.Keys
import PhpQuic.Opening.Counters
import PhpQuic.Events.Queue
import PhpQuic.Outgoing.Addresses
import PhpQuic.Peers.EndToEnd
import PhpQuic.Connection.Independence
import PhpQuic.Outgoing.Flush
import PhpQuic.Events.Objects
import PhpQuic.Outgoing.Offers
import PhpQuic.Server.Projection
import PhpQuic.Native.Life
import PhpQuic.Memory.Entries
import PhpQuic.Memory.Texts
import PhpQuic.Memory.Connections
