import ByteStacker.Transition
import ByteStacker.TrunkSides

/-!
# A client and a server over UDP

The network is the list of all datagrams ever sent in a direction.  Delivering
one leaves it in the list, so it can be delivered again, late, out of order or
never; nothing else is ever delivered.  The server may see a datagram on any of
its trunk sockets and from any address.

An event is a handler of one side: a new connection accepted by the client, an
asio completion of a link, the update timer, a datagram received, or a query of
the statistics.  Events carry the times at which the handler reads the clock;
nothing is assumed about them.
-/

structure System where
  client : TrunkClient
  server : TrunkServer
  up : List Bytes := []
  down : List ServerDatagram := []

inductive SystemEvent
  | addConnect (cnt : ConnectID) (point : PointID) (registered cached : Time)
  | clientAsio (k : Nat) (e : AsioEvent) (now : Time)
  | serverAsio (k : Nat) (e : AsioEvent) (now : Time)
  | clientTick (live resend connects : Time)
  | serverTick (live resend : Time)
  | toServer (n index : Nat) (sender : Endpoint) (now : Time)
  | toClient (n : Nat) (now : Time)
  | getStat
  deriving DecidableEq

namespace System

/-- The client has acted and sent datagrams. -/
def setClient (s : System) (r : TrunkClient × List Bytes) : System :=
  { s with client := r.1, up := s.up ++ r.2 }

/-- The server has acted and sent datagrams. -/
def setServer (s : System) (r : TrunkServer × List ServerDatagram) : System :=
  { s with server := r.1, down := s.down ++ r.2 }

def step (s : System) : SystemEvent → Option System
  | .addConnect cnt point registered cached =>
    some (s.setClient (s.client.addConnect cnt point registered cached))
  | .clientAsio k e now => (s.client.asioStep k e now).map s.setClient
  | .serverAsio k e now => (s.server.asioStep k e now).map s.setServer
  | .clientTick live resend connects => some (s.setClient (s.client.tick live resend connects))
  | .serverTick live resend => some (s.setServer (s.server.tick live resend))
  | .toServer n index sender now =>
    match s.up[n]? with
    | none => none
    | some data =>
      if index < s.server.trunkSockets then
        some (s.setServer (s.server.receiveTrunkData index sender data now))
      else none
  | .toClient n now =>
    match s.down[n]? with
    | none => none
    | some d => some (s.setClient (s.client.receiveTrunkData d.data now))
  | .getStat => some { s with server := s.server.getStat.1 }

/-- The two processes right after their start. -/
def launch (clientTime serverTime : Time) (trunkSockets : Nat)
    (linkFabric : PointID → Option AddressPortPoint) : System where
  client := TrunkClient.create clientTime
  server := TrunkServer.create trunkSockets linkFabric serverTime

/-- Both processes have just started. -/
def Start (s : System) : Prop :=
  ∃ clientTime serverTime trunkSockets linkFabric,
    s = { client := TrunkClient.create clientTime
          server := TrunkServer.create trunkSockets linkFabric serverTime }

/-- The system is in a state some run from the start leads to. -/
def Reachable (ok : System → SystemEvent → Prop) : System → Prop :=
  Transition.Reach step ok Start

end System
