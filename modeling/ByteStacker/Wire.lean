import ByteStacker.Dispatch

/-!
# Encoder and decoder agree, but for one packet

`Emitted serverSide pkt call` lists the packets the operations of one side hand
to `SendPacket`, each with the handler call it stands for: the connection id,
index, point and payload the emitter was given.  `emitted_reaches` says which of
them reach that handler on the other side: all but the acknowledgement of a
data packet, which `ProcessDataToOutlink` sends with `sizeof(PacketHeader)`
bytes while `ProcessTrunkData` wants `sizeof(PacketAck)`.

That no operation sends anything else is `TrunkLink.backed_apply`.
-/

/-- The command of the data packets of a side. -/
def dataCommand (serverSide : Bool) : TrunkCommand :=
  if serverSide then .dataIn else .dataOut

/-- A packet of the side `serverSide` and the handler call it is meant to cause. -/
inductive Emitted : Bool → PacketInfo → HandlerCall → Prop
  | createConnect (cnt : ConnectID) (point : PointID) (timeout : UInt32) :
      Emitted false (connectPacket cnt point timeout) (.processConnectData cnt point timeout)
  | ackCreateConnect (cnt : ConnectID) :
      Emitted true (ackCreatePacket cnt) (.processAckConnectData cnt)
  | data (serverSide : Bool) (cnt : ConnectID) (packetIndex : UInt32) (data : Bytes)
      (hsize : data.length ≤ kMaxChunkSize) :
      Emitted serverSide (dataPacket cnt data (dataCommand serverSide) packetIndex)
        (.processDataToOutlink cnt packetIndex data)
  | ackData (serverSide : Bool) (cnt : ConnectID) (packetIndex : UInt32) :
      Emitted serverSide (ackDataPacket serverSide cnt packetIndex)
        (.processAckData cnt packetIndex)
  | release (serverSide : Bool) (cnt : ConnectID) (packetIndex : UInt32) :
      Emitted serverSide (dataPacket cnt [] .releaseConnect packetIndex)
        (.processReleaseConnect cnt packetIndex)
  | live (serverSide : Bool) (cnt : ConnectID) :
      Emitted serverSide (livePacket cnt) (.processLive cnt)

/-- Is the call the processing of an acknowledgement of data? -/
def HandlerCall.isAckData : HandlerCall → Bool
  | .processAckData _ _ => true
  | _ => false

variable {serverSide : Bool} {pkt : PacketInfo} {call : HandlerCall}

/-- Every emitted datagram fits into the receive buffer. -/
theorem emitted_length (h : Emitted serverSide pkt call) :
    pkt.datagram.length ≤ kPacketBufferSize := by
  have hsize : pkt.packetSize ≤ kPacketBufferSize := by
    cases h with
    | data serverSide cnt packetIndex data hsize =>
        simp only [dataPacket, sizeofPacketData, kPacketBufferSize, kMaxChunkSize] at hsize ⊢
        omega
    | createConnect cnt point timeout =>
        simp [connectPacket, sizeofPacketConnect, kPacketBufferSize]
    | ackCreateConnect cnt => simp [ackCreatePacket, sizeofPacketHeader, kPacketBufferSize]
    | ackData serverSide cnt packetIndex =>
        simp [ackDataPacket, sizeofPacketHeader, kPacketBufferSize]
    | release serverSide cnt packetIndex =>
        simp [dataPacket, sizeofPacketData, kPacketBufferSize]
    | live serverSide cnt => simp [livePacket, sizeofPacketHeader, kPacketBufferSize]
  exact Nat.le_trans (List.length_take_le _ _) hsize

/-- **What the other side does with an emitted datagram.** -/
theorem processTrunkData_emitted (h : Emitted serverSide pkt call) :
    processTrunkData (!serverSide) pkt.datagram =
      some (if call.isAckData then none else some call) := by
  cases h with
  | createConnect cnt point timeout => exact processTrunkData_connect cnt point timeout
  | ackCreateConnect cnt => exact processTrunkData_ackCreate cnt
  | data serverSide cnt packetIndex data hsize =>
      refine processTrunkData_data _ cnt ?_ ?_ packetIndex ?_
      · cases serverSide <;> simp [dataCommand]
      · cases serverSide <;> rfl
      · simp only [kMaxChunkSize] at hsize
        omega
  | ackData serverSide cnt packetIndex => exact processTrunkData_ackData serverSide cnt packetIndex
  | release serverSide cnt packetIndex => exact processTrunkData_release _ cnt packetIndex
  | live serverSide cnt => exact processTrunkData_live _ cnt

/-- **Wire agreement holds for every packet but the acknowledgement of data.**
An emitted datagram fits into the buffer and reaches its handler on the other
side with exactly the fields it was given if and only if it is not the
acknowledgement of a data packet. -/
theorem emitted_reaches (h : Emitted serverSide pkt call) :
    (pkt.datagram.length ≤ kPacketBufferSize ∧
      processTrunkData (!serverSide) pkt.datagram = some (some call)) ↔
      call.isAckData = false := by
  rw [processTrunkData_emitted h]
  constructor
  · intro hdata
    obtain ⟨_, hcall⟩ := hdata
    cases hack : call.isAckData with
    | false => rfl
    | true => simp [hack] at hcall
  · intro hack
    exact ⟨emitted_length h, by simp [hack]⟩

/-- A chunk of two bytes reaches the server as it was sent. -/
theorem emitted_reaches_data :
    processTrunkData true (dataPacket (.ofByte 1) [65, 66] .dataOut 7).datagram =
      some (some (.processDataToOutlink (.ofByte 1) 7 [65, 66])) :=
  ((emitted_reaches (.data false (.ofByte 1) 7 [65, 66] (by decide))).mpr rfl).2

/-- The client never learns that chunk 7 has arrived. -/
theorem ackData_rejected :
    Emitted true (ackDataPacket true (.ofByte 1) 7) (.processAckData (.ofByte 1) 7) ∧
      processTrunkData false (ackDataPacket true (.ofByte 1) 7).datagram ≠
        some (some (.processAckData (.ofByte 1) 7)) :=
  ⟨.ackData true (.ofByte 1) 7, by decide +kernel⟩
