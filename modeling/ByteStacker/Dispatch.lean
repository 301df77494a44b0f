import ByteStacker.Packet

/-!
# The dispatcher (`TrunkLink::ProcessTrunkData`)

`processTrunkData` reads a datagram and answers which handler it calls, with
the fields the handler gets.  Reading a field answers `none` where the datagram
ends before the field; that outer `none` is a read past the datagram, not a
rejection.  A rejected datagram gives `some none`.
-/

open ByteFields

/-- The handler a datagram is given to, with its fields. -/
inductive HandlerCall
  | processConnectData (cnt : ConnectID) (pointId timeout : UInt32)
  | processAckConnectData (cnt : ConnectID)
  | processDataToOutlink (cnt : ConnectID) (packetIndex : UInt32) (data : Bytes)
  | processAckData (cnt : ConnectID) (packetIndex : UInt32)
  | processReleaseConnect (cnt : ConnectID) (packetId : UInt32)
  | processLive (cnt : ConnectID)
  deriving DecidableEq

/-- The connection a handler works on. -/
def HandlerCall.cnt : HandlerCall → ConnectID
  | processConnectData cnt _ _ | processAckConnectData cnt | processDataToOutlink cnt _ _
  | processAckData cnt _ | processReleaseConnect cnt _ | processLive cnt => cnt

/-- `hdr->ConnectID`. -/
def connectIdAt (data : Bytes) : Option ConnectID :=
  match fieldAt data 0 16 with
  | none => none
  | some bytes => if h : bytes.length = 16 then some ⟨bytes, h⟩ else none

/-- The commands the first `switch` rejects: they never go to this side. -/
def wrongSide (serverSide : Bool) : TrunkCommand → Bool
  | .ackCreateConnect | .dataIn | .ackDataOut => serverSide
  | .createConnect | .dataOut | .ackDataIn => !serverSide
  | .releaseConnect | .live => false

/-- The second `switch`: the checks and the handler of one command. -/
def dispatchCommand (cnt : ConnectID) (data : Bytes) : TrunkCommand → Option (Option HandlerCall)
  | .createConnect => do
    if data.length < sizeofPacketConnect then return none
    let pointId ← wordAt data 20
    let timeout ← wordAt data 24
    return some (.processConnectData cnt pointId timeout)
  | .ackCreateConnect => some (some (.processAckConnectData cnt))
  | .dataOut | .dataIn => do
    if data.length < sizeofPacketData then return none
    let packetIndex ← wordAt data 20
    let dataSize ← wordAt data 24
    if data.length ≠ sizeofPacketData + dataSize.toNat then return none
    let payload ← fieldAt data sizeofPacketData dataSize.toNat
    return some (.processDataToOutlink cnt packetIndex payload)
  | .ackDataOut | .ackDataIn => do
    if data.length < sizeofPacketAck then return none
    let packetIndex ← wordAt data 20
    return some (.processAckData cnt packetIndex)
  | .releaseConnect => do
    if data.length ≠ sizeofPacketData then return none
    let packetIndex ← wordAt data 20
    let dataSize ← wordAt data 24
    if dataSize ≠ 0 then return none
    return some (.processReleaseConnect cnt packetIndex)
  | .live => some (some (.processLive cnt))

/-- `TrunkLink::ProcessTrunkData` of the side `serverSide`. -/
def processTrunkData (serverSide : Bool) (data : Bytes) : Option (Option HandlerCall) := do
  if data.length < sizeofPacketHeader then return none
  let cnt ← connectIdAt data
  let command ← wordAt data 16
  match TrunkCommand.ofCode command with
  | none => return none
  | some cmd => if wrongSide serverSide cmd then return none else dispatchCommand cnt data cmd

/-! ## Reading a packet back -/

/-- The id at the front of a datagram is read back. -/
theorem connectIdAt_append (cnt : ConnectID) (rest : Bytes) :
    connectIdAt (cnt.data ++ rest) = some cnt := by
  have hlen := cnt.size_eq
  have hid : fieldAt ([] ++ (cnt.data ++ rest)) 0 16 = some cnt.data :=
    fieldAt_append [] cnt.data rest rfl hlen.symm
  rw [List.nil_append] at hid
  simp only [connectIdAt, hid, hlen, dif_pos]

/-- The datagram of a packet has the header of the connection it is sent for. -/
def PacketInfo.Headed (pkt : PacketInfo) : Prop := connectIdAt pkt.datagram = some pkt.ctxId

/-- Data packets have the header of their connection. -/
theorem headed_dataPacket (cnt : ConnectID) (data : Bytes) (cmd : TrunkCommand)
    (pktIndex : UInt32) : (dataPacket cnt data cmd pktIndex).Headed := by
  rw [PacketInfo.Headed, datagram_dataPacket]
  exact connectIdAt_append cnt _

/-- So have the other kinds of packets. -/
theorem headed_ackDataPacket (serverSide : Bool) (cnt : ConnectID) (packetIndex : UInt32) :
    (ackDataPacket serverSide cnt packetIndex).Headed := by
  rw [PacketInfo.Headed, datagram_ackDataPacket]
  exact connectIdAt_append cnt _

theorem headed_connectPacket (cnt : ConnectID) (point : PointID) (timeout : UInt32) :
    (connectPacket cnt point timeout).Headed := by
  rw [PacketInfo.Headed, datagram_connectPacket]
  exact connectIdAt_append cnt _

theorem headed_ackCreatePacket (cnt : ConnectID) : (ackCreatePacket cnt).Headed := by
  rw [PacketInfo.Headed, PacketInfo.datagram, ackCreatePacket, datagram_newPacket]
  exact connectIdAt_append cnt _

theorem headed_livePacket (cnt : ConnectID) : (livePacket cnt).Headed := by
  rw [PacketInfo.Headed, PacketInfo.datagram, livePacket, datagram_newPacket]
  exact connectIdAt_append cnt _

/-- **The header is read back**, and the command chooses the checks. -/
theorem processTrunkData_packet (serverSide : Bool) (cnt : ConnectID) (cmd : TrunkCommand)
    (rest : Bytes) :
    processTrunkData serverSide (cnt.data ++ (le32 cmd.code ++ rest)) =
      if wrongSide serverSide cmd then some none
      else dispatchCommand cnt (cnt.data ++ (le32 cmd.code ++ rest)) cmd := by
  have hlen := cnt.size_eq
  have hcnt := connectIdAt_append cnt (le32 cmd.code ++ rest)
  have hcmd : wordAt (cnt.data ++ (le32 cmd.code ++ rest)) 16 = some cmd.code :=
    wordAt_append cnt.data cmd.code rest hlen.symm
  have hlong : ¬ (cnt.data ++ (le32 cmd.code ++ rest)).length < sizeofPacketHeader := by
    simp only [List.length_append, hlen, length_le32, sizeofPacketHeader]
    omega
  simp only [processTrunkData, hlong, if_false, hcnt, hcmd, TrunkCommand.ofCode_code,
    Option.bind_eq_bind, Option.bind_some, Option.pure_def]

/-- A word behind the header is read back. -/
theorem wordAt_field (cnt : ConnectID) (cmd : TrunkCommand) (n : UInt32) (rest : Bytes) :
    wordAt (cnt.data ++ (le32 cmd.code ++ (le32 n ++ rest))) 20 = some n := by
  have hoff : 20 = (cnt.data ++ le32 cmd.code).length := by simp [cnt.size_eq]
  have h := wordAt_append (cnt.data ++ le32 cmd.code) n rest hoff
  simpa only [List.append_assoc] using h

/-- The second word behind the header. -/
theorem wordAt_field' (cnt : ConnectID) (cmd : TrunkCommand) (m n : UInt32) (rest : Bytes) :
    wordAt (cnt.data ++ (le32 cmd.code ++ (le32 m ++ (le32 n ++ rest)))) 24 = some n := by
  have hoff : 24 = (cnt.data ++ le32 cmd.code ++ le32 m).length := by simp [cnt.size_eq]
  have h := wordAt_append (cnt.data ++ le32 cmd.code ++ le32 m) n rest hoff
  simpa only [List.append_assoc] using h

/-- **A data packet is read back** by the side its command is meant for. -/
theorem processTrunkData_data (serverSide : Bool) (cnt : ConnectID) {cmd : TrunkCommand}
    (hcmd : cmd = .dataOut ∨ cmd = .dataIn) (hside : wrongSide serverSide cmd = false)
    (packetIndex : UInt32) {data : Bytes} (hsize : data.length < 4294967296) :
    processTrunkData serverSide (dataPacket cnt data cmd packetIndex).datagram =
      some (some (.processDataToOutlink cnt packetIndex data)) := by
  have hlen := cnt.size_eq
  have hword : (UInt32.ofNat data.length).toNat = data.length := UInt32.toNat_ofNat_of_lt' hsize
  have hpayload : fieldAt (cnt.data ++ (le32 cmd.code ++ (le32 packetIndex ++
      (le32 (UInt32.ofNat data.length) ++ data)))) 28 data.length = some data := by
    have hoff : 28 = (cnt.data ++ le32 cmd.code ++ le32 packetIndex ++
        le32 (UInt32.ofNat data.length)).length := by simp [hlen]
    have h := fieldAt_append (cnt.data ++ le32 cmd.code ++ le32 packetIndex ++
      le32 (UInt32.ofNat data.length)) data [] hoff rfl
    simpa only [List.append_assoc, List.append_nil] using h
  rw [datagram_dataPacket, processTrunkData_packet, hside, if_neg (by simp)]
  have htotal : (cnt.data ++ (le32 cmd.code ++ (le32 packetIndex ++
      (le32 (UInt32.ofNat data.length) ++ data)))).length = 28 + data.length := by
    simp only [List.length_append, hlen, length_le32]
    omega
  rcases hcmd with rfl | rfl <;>
    simp only [dispatchCommand, htotal, sizeofPacketData, wordAt_field, wordAt_field', hword,
      hpayload, Option.bind_eq_bind, Option.bind_some, Option.pure_def, ne_eq, not_true_eq_false,
      if_false, Nat.not_lt.mpr (Nat.le_add_right 28 data.length)]

/-- A Release is read on both sides. -/
theorem processTrunkData_release (serverSide : Bool) (cnt : ConnectID) (packetIndex : UInt32) :
    processTrunkData serverSide (dataPacket cnt [] .releaseConnect packetIndex).datagram =
      some (some (.processReleaseConnect cnt packetIndex)) := by
  have hlen := cnt.size_eq
  have hsize := wordAt_field' cnt .releaseConnect packetIndex 0 []
  rw [List.append_nil] at hsize
  rw [datagram_dataPacket, processTrunkData_packet, if_neg (by simp [wrongSide])]
  simp [dispatchCommand, hlen, sizeofPacketData, wordAt_field, hsize]

/-- A request is read by the server. -/
theorem processTrunkData_connect (cnt : ConnectID) (point : PointID) (timeout : UInt32) :
    processTrunkData true (connectPacket cnt point timeout).datagram =
      some (some (.processConnectData cnt point timeout)) := by
  have hlen := cnt.size_eq
  have htimeout := wordAt_field' cnt .createConnect point timeout []
  rw [List.append_nil] at htimeout
  rw [datagram_connectPacket, processTrunkData_packet, if_neg (by simp [wrongSide])]
  simp [dispatchCommand, hlen, sizeofPacketConnect, wordAt_field, htimeout]

/-- Its acknowledgement is read by the client. -/
theorem processTrunkData_ackCreate (cnt : ConnectID) :
    processTrunkData false (ackCreatePacket cnt).datagram =
      some (some (.processAckConnectData cnt)) := by
  have hpacket := processTrunkData_packet false cnt .ackCreateConnect []
  rw [List.append_nil] at hpacket
  rw [PacketInfo.datagram, ackCreatePacket, datagram_newPacket, hpacket]
  rfl

/-- A live packet is read on both sides. -/
theorem processTrunkData_live (serverSide : Bool) (cnt : ConnectID) :
    processTrunkData serverSide (livePacket cnt).datagram = some (some (.processLive cnt)) := by
  have hpacket := processTrunkData_packet serverSide cnt .live []
  rw [List.append_nil] at hpacket
  rw [PacketInfo.datagram, livePacket, datagram_newPacket, hpacket]
  rfl

/-- **An acknowledgement of data is always rejected**: it is sent with the size
of the bare header. -/
theorem processTrunkData_ackData (serverSide : Bool) (cnt : ConnectID) (packetIndex : UInt32) :
    processTrunkData (!serverSide) (ackDataPacket serverSide cnt packetIndex).datagram =
      some none := by
  have hlen := cnt.size_eq
  have hpacket := processTrunkData_packet (!serverSide) cnt
    (if serverSide then .ackDataOut else .ackDataIn) []
  rw [List.append_nil] at hpacket
  rw [datagram_ackDataPacket, hpacket]
  cases serverSide <;> simp [wrongSide, dispatchCommand, hlen, sizeofPacketAck]
