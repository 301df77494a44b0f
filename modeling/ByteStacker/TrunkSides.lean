import ByteStacker.TrunkLink

/-!
# The two sides of the trunk (`TrunkClient`, `TrunkServer`)

The client adds accepted connections and repeats `CreateConnect` until it is
acknowledged or its deadline has passed.  The server creates the outgoing
connections and keeps, for each connection id, the socket and the address its
last datagram came from; packets for ids it has not heard of are dropped.

Functions return the datagrams they send: the client sends to its first trunk
point, the server to the recorded address.
-/

/-- `struct PacketConnectCache`. -/
structure PacketConnectCache where
  info : PacketInfo
  deadline : Time
  nextSend : Time
  deriving DecidableEq

/-- `class TrunkClient`. -/
structure TrunkClient where
  base : TrunkLink
  connectCache : List PacketConnectCache := []
  deriving DecidableEq

namespace TrunkClient

def create (now : Time) : TrunkClient where
  base := TrunkLink.create false now

def sendPacket (pkt : PacketInfo) : Bytes := pkt.datagram

def sendConnectInformation (c : TrunkClient) (cnt : ConnectID) (point : PointID) (timeout : UInt32)
    (now : Time) : TrunkClient × List Bytes :=
  let info := connectPacket cnt point timeout
  let pc : PacketConnectCache :=
    { info := info
      deadline := now + milliseconds kDeadlineTimeout
      nextSend := now + milliseconds kResendTimeout }
  ({ c with connectCache := c.connectCache ++ [pc] }, [sendPacket info])

/-- `AddConnect` of an accepted socket, with the generated id.  The clock is
read when the link is registered and when the packet is cached. -/
def addConnect (c : TrunkClient) (cnt : ConnectID) (point : PointID) (registered cached : Time) :
    TrunkClient × List Bytes :=
  match c.base.getOutLink cnt with
  | some _ => (c, [])
  | none =>
    ({ c with base := c.base.intAddOutLink cnt OutLink.createAccepted registered } :
      TrunkClient).sendConnectInformation cnt point (UInt32.ofNat kResendTimeout) cached

/-- The part of `TrunkClient::OnCacheResend` behind the one of `TrunkLink`. -/
def resendConnects (c : TrunkClient) (curt : Time) : TrunkClient × List Bytes :=
  let kept := c.connectCache.filter fun item => ¬ curt > item.deadline
  ({ c with
      connectCache := kept.map fun item =>
        if item.nextSend > curt then item
        else { item with nextSend := curt + milliseconds kResendTimeout } },
    (kept.filter fun item => ¬ item.nextSend > curt).map fun item => sendPacket item.info)

/-- The update timer: live packets, the data cache and the connect cache, each
with its own reading of the clock. -/
def tick (c : TrunkClient) (live resend connects : Time) : TrunkClient × List Bytes :=
  let (base, lives) := c.base.sendLivePacket live
  let (base, resent) := base.onCacheResend resend
  let (c, connected) := { c with base := base }.resendConnects connects
  (c, lives.map sendPacket ++ resent.map sendPacket ++ connected)

def processAckConnectData (c : TrunkClient) (cnt : ConnectID) : TrunkClient :=
  { c with connectCache := c.connectCache.filter fun item => item.info.ctxId ≠ cnt }

def handle (c : TrunkClient) (now : Time) : HandlerCall → TrunkClient × List Bytes
  | .processAckConnectData cnt => (c.processAckConnectData cnt, [])
  | call =>
    let (base, pkts) := c.base.handle now call
    ({ c with base := base }, pkts.map sendPacket)

/-- A received datagram; `async_receive_from` cuts it to the buffer. -/
def receiveTrunkData (c : TrunkClient) (data : Bytes) (now : Time) : TrunkClient × List Bytes :=
  match processTrunkData false (data.take kPacketBufferSize) with
  | some (some call) => c.handle now call
  | _ => (c, [])

/-- An asio event of a link. -/
def asioStep (c : TrunkClient) (k : Nat) (e : AsioEvent) (now : Time) :
    Option (TrunkClient × List Bytes) :=
  (c.base.asioStep k e now).map fun (base, pkts) =>
    ({ c with base := base }, pkts.map sendPacket)

/-- `TrunkClient` itself handles the acknowledgement of a connection only. -/
theorem handle_base {c : TrunkClient} {now : Time} {call : HandlerCall}
    (hother : ∀ cnt, call ≠ .processAckConnectData cnt) :
    c.handle now call = ({ c with base := (c.base.handle now call).1 },
      (c.base.handle now call).2.map sendPacket) := by
  cases call with
  | processAckConnectData cnt => exact absurd rfl (hother cnt)
  | processConnectData cnt pointId timeout => rfl
  | processDataToOutlink cnt packetIndex data => rfl
  | processAckData cnt packetIndex => rfl
  | processReleaseConnect cnt packetId => rfl
  | processLive cnt => rfl

end TrunkClient

/-- `struct ConnectInfo`. -/
structure ConnectInfo where
  connect : ConnectID
  socketIndex : Nat
  client : Endpoint
  deriving DecidableEq

/-- A datagram of the server: the trunk socket, the address and the bytes. -/
structure ServerDatagram where
  socketIndex : Nat
  client : Endpoint
  data : Bytes
  deriving DecidableEq

/-- `class TrunkServer`; `trunkSockets` is the number of its trunk sockets. -/
structure TrunkServer where
  base : TrunkLink
  trunkSockets : Nat
  clientsLink : List ConnectInfo := []
  linkFabric : PointID → Option AddressPortPoint

namespace TrunkServer

def create (trunkSockets : Nat) (linkFabric : PointID → Option AddressPortPoint) (now : Time) :
    TrunkServer where
  base := TrunkLink.create true now
  trunkSockets := trunkSockets
  linkFabric := linkFabric

def getPacketConnectID (data : Bytes) : Option ConnectID :=
  if data.length < sizeofPacketHeader then none else connectIdAt data

/-- The loop of `AddClientLink`: the first record of the id is replaced. -/
def replaceClientLink (info : ConnectInfo) : List ConnectInfo → List ConnectInfo
  | [] => [info]
  | item :: rest =>
    if item.connect = info.connect then info :: rest else item :: replaceClientLink info rest

def addClientLink (s : TrunkServer) (info : ConnectInfo) : TrunkServer :=
  { s with clientsLink := replaceClientLink info s.clientsLink }

def getClientLink (s : TrunkServer) (cnt : ConnectID) : Option ConnectInfo :=
  s.clientsLink.find? fun item => item.connect = cnt

/-- Nothing is sent for an id without a record. -/
def sendPacket (s : TrunkServer) (pkt : PacketInfo) : Option ServerDatagram :=
  (s.getClientLink pkt.ctxId).map fun info =>
    { socketIndex := info.socketIndex, client := info.client, data := pkt.datagram }

def tick (s : TrunkServer) (live resend : Time) : TrunkServer × List ServerDatagram :=
  let (base, lives) := s.base.sendLivePacket live
  let (base, resent) := base.onCacheResend resend
  ({ s with base := base }, (lives ++ resent).filterMap s.sendPacket)

/-- The acknowledgement is sent first; a link that exists stays, and the fabric
may refuse the point. -/
def processConnectData (s : TrunkServer) (cnt : ConnectID) (pointId : PointID) (now : Time) :
    TrunkServer × List ServerDatagram :=
  let sent := [ackCreatePacket cnt].filterMap s.sendPacket
  match s.base.getOutLink cnt with
  | some _ => (s, sent)
  | none =>
    match s.linkFabric pointId with
    | none => (s, sent)
    | some point =>
      ({ s with
          base := s.base.intAddOutLink cnt
            (OutLink.createAddress point.address point.port) now }, sent)

def handle (s : TrunkServer) (now : Time) : HandlerCall → TrunkServer × List ServerDatagram
  | .processConnectData cnt pointId _ => s.processConnectData cnt pointId now
  | call =>
    let (base, pkts) := s.base.handle now call
    ({ s with base := base }, pkts.filterMap s.sendPacket)

/-- A datagram received on socket `index` from `client`. -/
def receiveTrunkData (s : TrunkServer) (index : Nat) (client : Endpoint) (data : Bytes)
    (now : Time) : TrunkServer × List ServerDatagram :=
  let data := data.take kPacketBufferSize
  match getPacketConnectID data with
  | none => (s, [])
  | some cnt =>
    let s := s.addClientLink { connect := cnt, socketIndex := index, client := client }
    match processTrunkData true data with
    | some (some call) => s.handle now call
    | _ => (s, [])

def asioStep (s : TrunkServer) (k : Nat) (e : AsioEvent) (now : Time) :
    Option (TrunkServer × List ServerDatagram) :=
  (s.base.asioStep k e now).map fun (base, pkts) =>
    ({ s with base := base }, pkts.filterMap s.sendPacket)

def getStat (s : TrunkServer) : TrunkServer × StatInfo :=
  let (base, stat) := s.base.getStat
  ({ s with base := base }, stat)

/-- `TrunkServer` itself handles the creation of a connection only. -/
theorem handle_base {s : TrunkServer} {now : Time} {call : HandlerCall}
    (hother : ∀ cnt pointId timeout, call ≠ .processConnectData cnt pointId timeout) :
    s.handle now call = ({ s with base := (s.base.handle now call).1 },
      (s.base.handle now call).2.filterMap s.sendPacket) := by
  cases call with
  | processConnectData cnt pointId timeout => exact absurd rfl (hother cnt pointId timeout)
  | processAckConnectData cnt => rfl
  | processDataToOutlink cnt packetIndex data => rfl
  | processAckData cnt packetIndex => rfl
  | processReleaseConnect cnt packetId => rfl
  | processLive cnt => rfl

end TrunkServer
