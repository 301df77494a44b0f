import ByteStacker.Transition
import ByteStacker.Simulation
import ByteStacker.Possibility
import ByteStacker.Passage
import ByteStacker.LockOrder
import ByteStacker.Locks
import ByteStacker.SortedMap
import ByteStacker.Enumeration
import ByteStacker.Accumulation
import ByteStacker.ResendQueue
import ByteStacker.Numeral
import ByteStacker.Data
import ByteStacker.OutLink
import ByteStacker.OutLinkLoops
import ByteStacker.OutLinkChunks
import ByteStacker.OutLinkDrain
import ByteStacker.OutLinkReassembly
import ByteStacker.OutLinkStop
import ByteStacker.OutLinkWakeup
import ByteStacker.OutLinkOrderlyClose
import ByteStacker.OutLinkClose
import ByteStacker.OutLinkCloseOnce
import ByteStacker.OutLinkCalls
import ByteStacker.OutLinkSingleOwner
import ByteStacker.OutLinkArrival
import ByteStacker.OutLinkDial
import ByteStacker.OutLinkFlush
import ByteStacker.OutLinkEnd
import ByteStacker.ByteFields
import ByteStacker.Packet
import ByteStacker.Dispatch
import ByteStacker.Wire
import ByteStacker.TrunkLink
import ByteStacker.TrunkSides
import ByteStacker.Format
import ByteStacker.Parser
import ByteStacker.ParserFormat
import ByteStacker.Arguments
import ByteStacker.System
import ByteStacker.Registrations
import ByteStacker.TrunkSteps
import ByteStacker.TrunkCalls
import ByteStacker.OneRelease
import ByteStacker.SideRuns
import ByteStacker.Retransmission
import ByteStacker.Routing
import ByteStacker.Projection
import ByteStacker.Connection
import ByteStacker.ClientConnection
import ByteStacker.ServerConnection
import ByteStacker.Statistics
import ByteStacker.Isolation
import ByteStacker.SystemSteps
import ByteStacker.Provenance
import ByteStacker.StreamIntegrity
import ByteStacker.AtMostOnce
import ByteStacker.AssertStop
import ByteStacker.NoSilentLoss
import ByteStacker.GracefulEnd
import ByteStacker.Destination
import ByteStacker.Keepalive
import ByteStacker.Census
import ByteStacker.CatchUp
import ByteStacker.Lifetime
import ByteStacker.Tunnel
