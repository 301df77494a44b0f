import ByteStacker.Dispatch
import ByteStacker.OutLink

/-!
# The common part of a trunk side (`class TrunkLink`)

A `TrunkLink` keeps the registered connections (`out_links_`), the cache of data
packets that are sent again until their deadline, and two byte counters of type
`atomic_size_t`.  The packets its functions hand to the virtual `SendPacket` are
their second result, in order; the client and the server decide where they go.

`shared_ptr<OutLink>` is an index into `objects`: a link outlives its
registration as long as one of its handlers is pending.  Next to each link
stands what the trunk did with it, which the source does not record: how many
packet indices were given out for it, which data packets and which Release were
created, which chunks it was handed and which stops it was told.

Each function runs atomically and gets the value of the clock it reads.
-/

def kLiveUpdateTick : Nat := 1000
def kDeadLinkTimeout : Nat := 5000

/-- The two places that call `OutLink::Stop`. -/
inductive StopCall
  | release (packetId : UInt32)
  | deadLink
  deriving DecidableEq

/-- The argument of the call. -/
def StopCall.chunk : StopCall → UInt32
  | release packetId => packetId
  | deadLink => 0

/-- A link object and its history at this side of the trunk. -/
structure Registration where
  link : OutLink
  allocated : Nat := 0
  created : List (UInt32 × Bytes) := []
  released : List UInt32 := []
  handed : List (UInt32 × Bytes) := []
  stops : List StopCall := []
  deriving DecidableEq

namespace Registration

/-- One packet index is given out. -/
def allocate (reg : Registration) : Registration :=
  { reg with allocated := reg.allocated + 1 }

/-- A packet is created: a Release, or a data packet. -/
def create (reg : Registration) (cmd : TrunkCommand) (pktIndex : UInt32) (data : Bytes) :
    Registration :=
  if cmd = .releaseConnect then { reg with released := reg.released ++ [pktIndex] }
  else { reg with created := reg.created ++ [(pktIndex, data)] }

/-- `link->SendData`. -/
def sendData (reg : Registration) (packetIndex : UInt32) (data : Bytes) : Registration :=
  { reg with
    link := reg.link.sendData packetIndex data
    handed := reg.handed ++ [(packetIndex, data)] }

/-- `link->Stop`. -/
def stop (reg : Registration) (call : StopCall) : Registration :=
  { reg with link := reg.link.stop call.chunk, stops := reg.stops ++ [call] }

end Registration

/-- `struct OutLinkInfo`. -/
structure OutLinkInfo where
  connectId : ConnectID
  link : Nat
  nextIndexToTrunk : UInt32
  deadlinkTimeout : Time
  deriving DecidableEq

/-- `struct PacketDataCache`. -/
structure PacketDataCache where
  info : PacketInfo
  deadline : Time
  nextSend : Time
  deriving DecidableEq

/-- A packet sent for the first time at time `now`. -/
def PacketDataCache.start (info : PacketInfo) (now : Time) : PacketDataCache where
  info := info
  deadline := now + milliseconds kDeadlineTimeout
  nextSend := now + milliseconds kResendTimeout

/-- `struct StatInfo`. -/
structure StatInfo where
  streamToOutLinks : UInt64
  streamFromOutLinks : UInt64
  connectAmount : Nat
  deriving DecidableEq

/-- `class TrunkLink`. -/
structure TrunkLink where
  serverSide : Bool
  outLinks : List OutLinkInfo := []
  packetDataCache : List PacketDataCache := []
  outStreamCounter : UInt64 := 0
  inStreamCounter : UInt64 := 0
  nextLiveUpdate : Time
  objects : List Registration := []
  deriving DecidableEq

namespace TrunkLink

/-- `TrunkLink(ctx, server_side)` at time `now`. -/
def create (serverSide : Bool) (now : Time) : TrunkLink where
  serverSide := serverSide
  nextLiveUpdate := now + milliseconds kLiveUpdateTick

def modifyObject (t : TrunkLink) (k : Nat) (f : Registration → Registration) : TrunkLink :=
  { t with objects := t.objects.modify k f }

/-- The first registration of `cnt`. -/
def findOutLink (t : TrunkLink) (cnt : ConnectID) : Option OutLinkInfo :=
  t.outLinks.find? fun item => item.connectId = cnt

def getOutLink (t : TrunkLink) (cnt : ConnectID) : Option Nat :=
  (t.findOutLink cnt).map OutLinkInfo.link

/-! ## Sending -/

/-- `++item.next_index_to_trunk` for the first registration of `cnt`. -/
def countIndex (cnt : ConnectID) : List OutLinkInfo → List OutLinkInfo
  | [] => []
  | item :: rest =>
    if item.connectId = cnt then
      { item with nextIndexToTrunk := item.nextIndexToTrunk + 1 } :: rest
    else item :: countIndex cnt rest

def getNextPacketIndex (t : TrunkLink) (cnt : ConnectID) : UInt32 × TrunkLink :=
  match t.findOutLink cnt with
  | some item =>
    (item.nextIndexToTrunk,
      { t with outLinks := countIndex cnt t.outLinks }.modifyObject item.link
        Registration.allocate)
  | none => (kBadPacketIndex, t)

/-- The history of a packet the registration of `cnt` created. -/
def recordCreated (t : TrunkLink) (cnt : ConnectID) (cmd : TrunkCommand) (pktIndex : UInt32)
    (data : Bytes) : TrunkLink :=
  match t.getOutLink cnt with
  | some k => t.modifyObject k fun reg => reg.create cmd pktIndex data
  | none => t

/-- A chunk over `kMaxChunkSize` fails an assertion and is dropped. -/
def sendCmdData (t : TrunkLink) (cnt : ConnectID) (data : Bytes) (cmd : TrunkCommand)
    (now : Time) : TrunkLink × List PacketInfo :=
  if data.length > kMaxChunkSize then (t, [])
  else
    let (pktIndex, t) := t.getNextPacketIndex cnt
    if pktIndex = kBadPacketIndex then (t, [])
    else
      let info := dataPacket cnt data cmd pktIndex
      let pc := PacketDataCache.start info now
      ({ t with packetDataCache := t.packetDataCache ++ [pc] }.recordCreated cnt cmd pktIndex data,
        [info])

def sendData (t : TrunkLink) (cnt : ConnectID) (data : Bytes) (now : Time) :
    TrunkLink × List PacketInfo :=
  { t with inStreamCounter := t.inStreamCounter + UInt64.ofNat data.length }.sendCmdData cnt data
    (if t.serverSide then .dataIn else .dataOut) now

def sendDisconnectInformation (t : TrunkLink) (cnt : ConnectID) (now : Time) :
    TrunkLink × List PacketInfo :=
  t.sendCmdData cnt [] .releaseConnect now

def removeOutLink (t : TrunkLink) (cnt : ConnectID) : TrunkLink :=
  { t with outLinks := t.outLinks.filter fun item => ¬ cnt = item.connectId }

def closeConnect (t : TrunkLink) (cnt : ConnectID) (now : Time) : TrunkLink × List PacketInfo :=
  let (t, pkts) := t.sendDisconnectInformation cnt now
  (t.removeOutLink cnt, pkts)

/-! ## Ticks -/

/-- The loop of `SendLivePacket`. -/
def liveLoop (curt : Time) : List OutLinkInfo → TrunkLink → TrunkLink × List PacketInfo
  | [], t => (t, [])
  | item :: rest, t =>
    if curt > item.deadlinkTimeout then
      liveLoop curt rest (t.modifyObject item.link fun reg => reg.stop .deadLink)
    else
      let (t, pkts) := liveLoop curt rest t
      (t, livePacket item.connectId :: pkts)

def sendLivePacket (t : TrunkLink) (curt : Time) : TrunkLink × List PacketInfo :=
  if curt < t.nextLiveUpdate then (t, [])
  else
    liveLoop curt t.outLinks { t with nextLiveUpdate := curt + milliseconds kLiveUpdateTick }

/-- `TrunkLink::OnCacheResend`. -/
def onCacheResend (t : TrunkLink) (curt : Time) : TrunkLink × List PacketInfo :=
  let kept := t.packetDataCache.filter fun item => ¬ curt > item.deadline
  ({ t with
      packetDataCache := kept.map fun item =>
        if curt > item.nextSend then
          { item with nextSend := curt + milliseconds kResendTimeout }
        else item },
    (kept.filter fun item => curt > item.nextSend).map PacketDataCache.info)

/-! ## Handlers of trunk packets -/

def processDataToOutlink (t : TrunkLink) (cnt : ConnectID) (packetIndex : UInt32) (data : Bytes) :
    TrunkLink × List PacketInfo :=
  match t.getOutLink cnt with
  | none => (t, [])
  | some k =>
    (({ t with outStreamCounter := t.outStreamCounter + UInt64.ofNat data.length } :
        TrunkLink).modifyObject k fun reg => reg.sendData packetIndex data,
      [ackDataPacket t.serverSide cnt packetIndex])

/-- Not implemented in the source. -/
def processAckData (t : TrunkLink) (_cnt : ConnectID) (_packetIndex : UInt32) : TrunkLink := t

def processReleaseConnect (t : TrunkLink) (cnt : ConnectID) (packetId : UInt32) : TrunkLink :=
  match t.getOutLink cnt with
  | none => t
  | some k => t.modifyObject k fun reg => reg.stop (.release packetId)

def processLive (t : TrunkLink) (cnt : ConnectID) (now : Time) : TrunkLink :=
  { t with
    outLinks := t.outLinks.map fun item =>
      if item.connectId = cnt then
        { item with deadlinkTimeout := now + milliseconds kDeadLinkTimeout }
      else item }

/-- The handlers `TrunkLink` itself has; the two virtual ones do nothing here. -/
def handle (t : TrunkLink) (now : Time) : HandlerCall → TrunkLink × List PacketInfo
  | .processConnectData _ _ _ => (t, [])
  | .processAckConnectData _ => (t, [])
  | .processDataToOutlink cnt packetIndex data => t.processDataToOutlink cnt packetIndex data
  | .processAckData cnt packetIndex => (t.processAckData cnt packetIndex, [])
  | .processReleaseConnect cnt packetId => (t.processReleaseConnect cnt packetId, [])
  | .processLive cnt => (t.processLive cnt now, [])

/-! ## Links -/

def intAddOutLink (t : TrunkLink) (cnt : ConnectID) (link : OutLink) (now : Time) : TrunkLink :=
  { t with
    outLinks := t.outLinks ++
      [{ connectId := cnt
         link := t.objects.length
         nextIndexToTrunk := 0
         deadlinkTimeout := now + milliseconds kDeadLinkTimeout }]
    objects := t.objects ++ [{ link := link.run cnt }] }

/-- The call a handler of a link makes on its hoster. -/
def hosterCall (t : TrunkLink) (now : Time) : Option HosterCall → TrunkLink × List PacketInfo
  | none => (t, [])
  | some (.sendData cnt data) => t.sendData cnt data now
  | some (.closeConnect cnt) => t.closeConnect cnt now

/-- An asio event of the link object `k`. -/
def asioStep (t : TrunkLink) (k : Nat) (e : AsioEvent) (now : Time) :
    Option (TrunkLink × List PacketInfo) :=
  match t.objects[k]? with
  | none => none
  | some reg =>
    match reg.link.asioStep e with
    | none => none
    | some (link, call) =>
      some ((t.modifyObject k fun reg => { reg with link := link }).hosterCall now call)

def getStat (t : TrunkLink) : TrunkLink × StatInfo :=
  ({ t with outStreamCounter := 0, inStreamCounter := 0 },
    { streamToOutLinks := t.outStreamCounter
      streamFromOutLinks := t.inStreamCounter
      connectAmount := t.outLinks.length })

end TrunkLink
