import ByteStacker.ByteFields
import ByteStacker.Data

/-!
# Trunk packets (`common/trunklink.h`)

The wire format and the five places of `trunklink.cpp` that fill a packet.
Every packet is written into a zeroed buffer of `kPacketBufferSize` bytes and
sent with a `PacketSize` of its own, set by hand at each place.

The structures lie packed in memory: 16 bytes of connection id, the command,
then the fields of the packet kind, all numbers 32-bit little-endian.
-/

open ByteFields

/-- `enum TrunkCommand`. -/
inductive TrunkCommand
  | createConnect
  | releaseConnect
  | ackCreateConnect
  | dataOut
  | dataIn
  | ackDataOut
  | ackDataIn
  | live
  deriving DecidableEq

namespace TrunkCommand

def code : TrunkCommand → UInt32
  | createConnect => 1
  | releaseConnect => 2
  | ackCreateConnect => 3
  | dataOut => 11
  | dataIn => 12
  | ackDataOut => 21
  | ackDataIn => 22
  | live => 31

/-- The `case` a command word selects; `none` where no `case` matches. -/
def ofCode (n : UInt32) : Option TrunkCommand :=
  if n = 1 then some createConnect
  else if n = 2 then some releaseConnect
  else if n = 3 then some ackCreateConnect
  else if n = 11 then some dataOut
  else if n = 12 then some dataIn
  else if n = 21 then some ackDataOut
  else if n = 22 then some ackDataIn
  else if n = 31 then some live
  else none

/-- The code of a command selects the command. -/
@[simp] theorem ofCode_code (c : TrunkCommand) : ofCode c.code = some c := by
  cases c <;> rfl

/-- The word selects the command whose code it is. -/
theorem ofCode_eq_some_iff {n : UInt32} {c : TrunkCommand} : ofCode n = some c ↔ n = c.code := by
  constructor
  · intro h
    unfold ofCode at h
    split_ifs at h with h1 h2 h3 h4 h5 h6 h7 h8 <;> cases h <;> assumption
  · intro h
    rw [h, ofCode_code]

end TrunkCommand

def kResendTimeout : Nat := 300
def kDeadlineTimeout : Nat := 2000
def kMaxChunkSize : Nat := 800
def kPacketBufferSize : Nat := 1000

/-- `static_cast<uint32_t>(-1)`. -/
def kEmptyPacketID : UInt32 := 4294967295

/-- `static_cast<uint32_t>(-2)`. -/
def kBadPacketIndex : UInt32 := 4294967294

/-- `sizeof(PacketHeader)`. -/
def sizeofPacketHeader : Nat := 20

/-- `sizeof(PacketConnect)`. -/
def sizeofPacketConnect : Nat := 28

/-- `sizeof(PacketData)`. -/
def sizeofPacketData : Nat := 28

/-- `sizeof(PacketAck)`. -/
def sizeofPacketAck : Nat := 24

/-- `struct PacketInfo`. -/
structure PacketInfo where
  ctxId : ConnectID
  packetId : UInt32
  packetData : Bytes
  packetSize : Nat
  deriving DecidableEq

/-- The datagram `async_send_to(buffer(PacketData, PacketSize))` sends. -/
def PacketInfo.datagram (pkt : PacketInfo) : Bytes :=
  pkt.packetData.take pkt.packetSize

/-- A new zeroed `PacketBuffer`. -/
def getBuffer : Bytes := List.replicate kPacketBufferSize 0

def copyConnectID (buf : Bytes) (src : ConnectID) : Bytes := put buf 0 src.data

/-- A new packet with the fields of `PacketHeader` filled in. -/
def newPacket (cnt : ConnectID) (cmd : TrunkCommand) : Bytes :=
  put (copyConnectID getBuffer cnt) 16 (le32 cmd.code)

/-- The packet `SendCmdData` forms. -/
def dataPacket (cnt : ConnectID) (data : Bytes) (cmd : TrunkCommand) (pktIndex : UInt32) :
    PacketInfo where
  ctxId := cnt
  packetId := pktIndex
  packetData :=
    let buf := put (newPacket cnt cmd) 20 (le32 pktIndex)
    let buf := put buf 24 (le32 (UInt32.ofNat data.length))
    put buf sizeofPacketData data
  packetSize := sizeofPacketData + data.length

/-- The acknowledgement `ProcessDataToOutlink` forms. -/
def ackDataPacket (serverSide : Bool) (cnt : ConnectID) (packetIndex : UInt32) : PacketInfo where
  ctxId := cnt
  packetId := kEmptyPacketID
  packetData :=
    put (newPacket cnt (if serverSide then .ackDataOut else .ackDataIn)) 20 (le32 packetIndex)
  packetSize := sizeofPacketHeader

/-- The packet `SendLivePacket` forms for one link. -/
def livePacket (cnt : ConnectID) : PacketInfo where
  ctxId := cnt
  packetId := kEmptyPacketID
  packetData := newPacket cnt .live
  packetSize := sizeofPacketHeader

/-- The packet `SendConnectInformation` forms. -/
def connectPacket (cnt : ConnectID) (point : PointID) (timeout : UInt32) : PacketInfo where
  ctxId := cnt
  packetId := kEmptyPacketID
  packetData := put (put (newPacket cnt .createConnect) 20 (le32 point)) 24 (le32 timeout)
  packetSize := sizeofPacketConnect

/-- The acknowledgement `TrunkServer::ProcessConnectData` forms. -/
def ackCreatePacket (cnt : ConnectID) : PacketInfo where
  ctxId := cnt
  packetId := kEmptyPacketID
  packetData := newPacket cnt .ackCreateConnect
  packetSize := sizeofPacketHeader

/-! ## The bytes on the wire -/

/-- The header is written over the first 20 bytes of the buffer. -/
theorem newPacket_eq (cnt : ConnectID) (cmd : TrunkCommand) :
    newPacket cnt cmd = cnt.data ++ le32 cmd.code ++ getBuffer.drop 20 := by
  have hid : copyConnectID getBuffer cnt = cnt.data ++ getBuffer.drop 16 := by
    simp [copyConnectID, put, cnt.size_eq]
  rw [newPacket, hid, put_append cnt.size_eq.symm]
  simp

/-- **The bytes of a data packet.** -/
theorem datagram_dataPacket (cnt : ConnectID) {data : Bytes} (cmd : TrunkCommand)
    (pktIndex : UInt32) :
    (dataPacket cnt data cmd pktIndex).datagram =
      cnt.data ++ (le32 cmd.code ++ (le32 pktIndex ++
        (le32 (UInt32.ofNat data.length) ++ data))) := by
  have hlen := cnt.size_eq
  simp only [PacketInfo.datagram, dataPacket, newPacket_eq, sizeofPacketData]
  rw [put_append (by simp [hlen]), put_append (by simp [hlen]), put_append (by simp [hlen])]
  rw [List.take_append_of_le_length (by simp [hlen]; omega), List.take_of_length_le]
  · simp
  · simp [hlen]
    omega

/-- The index of an acknowledgement is written but not sent, as its packet size is that of a
header. -/
theorem datagram_ackDataPacket (serverSide : Bool) (cnt : ConnectID) (packetIndex : UInt32) :
    (ackDataPacket serverSide cnt packetIndex).datagram =
      cnt.data ++ le32 (if serverSide then TrunkCommand.ackDataOut else .ackDataIn).code := by
  have hlen := cnt.size_eq
  simp only [PacketInfo.datagram, ackDataPacket, newPacket_eq, sizeofPacketHeader]
  rw [put_append (by simp [hlen]), List.append_assoc,
    List.take_append_of_le_length (by simp [hlen]), List.take_of_length_le (by simp [hlen])]

/-- A bare header is the id and the command. -/
theorem datagram_newPacket (cnt : ConnectID) (cmd : TrunkCommand) :
    (newPacket cnt cmd).take sizeofPacketHeader = cnt.data ++ le32 cmd.code := by
  have hlen := cnt.size_eq
  rw [newPacket_eq, sizeofPacketHeader, List.take_append_of_le_length (by simp [hlen]),
    List.take_of_length_le (by simp [hlen])]

/-- A request is the header, the point and the timeout. -/
theorem datagram_connectPacket (cnt : ConnectID) (point : PointID) (timeout : UInt32) :
    (connectPacket cnt point timeout).datagram =
      cnt.data ++ (le32 TrunkCommand.createConnect.code ++ (le32 point ++ le32 timeout)) := by
  have hlen := cnt.size_eq
  simp only [PacketInfo.datagram, connectPacket, newPacket_eq, sizeofPacketConnect]
  rw [put_append (by simp [hlen]), put_append (by simp [hlen]),
    List.take_append_of_le_length (by simp [hlen]), List.take_of_length_le (by simp [hlen])]
  simp
