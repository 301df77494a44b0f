import ByteStacker.TrunkSides

/-!
# The packet format

`LegalPacket serverSide data call` is the format of the trunk protocol, one
constructor a packet kind: the side it is meant for, its length, and the fields
the handler is to get.  It says nothing about the order of the checks.

`dispatcher_exact` compares it with `ProcessTrunkData`: a handler runs exactly
for a legal packet and gets its fields, no byte behind the datagram is read, and
a datagram that is no legal packet leaves both sides of the trunk as they are.
-/

open ByteFields

/-! ## The format -/

/-- The header names the connection and the command. -/
structure Header (data : Bytes) (cnt : ConnectID) (cmd : TrunkCommand) : Prop where
  cnt : data.take 16 = cnt.data
  command : word data 16 = cmd.code

/-- **The packets a side accepts**, with the handler call each stands for. -/
inductive LegalPacket : Bool → Bytes → HandlerCall → Prop
  | createConnect {data : Bytes} {cnt : ConnectID} (hheader : Header data cnt .createConnect)
      (hsize : 28 ≤ data.length) :
      LegalPacket true data (.processConnectData cnt (word data 20) (word data 24))
  | ackCreateConnect {data : Bytes} {cnt : ConnectID} (hheader : Header data cnt .ackCreateConnect)
      (hsize : 20 ≤ data.length) : LegalPacket false data (.processAckConnectData cnt)
  | dataOut {data : Bytes} {cnt : ConnectID} (hheader : Header data cnt .dataOut)
      (hsize : data.length = 28 + (word data 24).toNat) :
      LegalPacket true data (.processDataToOutlink cnt (word data 20) (data.drop 28))
  | dataIn {data : Bytes} {cnt : ConnectID} (hheader : Header data cnt .dataIn)
      (hsize : data.length = 28 + (word data 24).toNat) :
      LegalPacket false data (.processDataToOutlink cnt (word data 20) (data.drop 28))
  | ackDataIn {data : Bytes} {cnt : ConnectID} (hheader : Header data cnt .ackDataIn)
      (hsize : 24 ≤ data.length) : LegalPacket true data (.processAckData cnt (word data 20))
  | ackDataOut {data : Bytes} {cnt : ConnectID} (hheader : Header data cnt .ackDataOut)
      (hsize : 24 ≤ data.length) : LegalPacket false data (.processAckData cnt (word data 20))
  | release {serverSide : Bool} {data : Bytes} {cnt : ConnectID}
      (hheader : Header data cnt .releaseConnect) (hsize : data.length = 28)
      (hempty : word data 24 = 0) :
      LegalPacket serverSide data (.processReleaseConnect cnt (word data 20))
  | live {serverSide : Bool} {data : Bytes} {cnt : ConnectID} (hheader : Header data cnt .live)
      (hsize : 20 ≤ data.length) : LegalPacket serverSide data (.processLive cnt)

variable {serverSide : Bool} {data : Bytes} {call : HandlerCall}

/-! ## The dispatcher -/

/-- Sixteen bytes hold a connection id. -/
theorem connectIdAt_of_le (h : 16 ≤ data.length) :
    connectIdAt data = some ⟨data.take 16, List.length_take_of_le h⟩ := by
  unfold connectIdAt
  rw [fieldAt_of_le (by omega)]
  simp [h]

/-- The dispatcher of a datagram that has a header. -/
theorem processTrunkData_of_le {cnt : ConnectID} (h : 20 ≤ data.length)
    (hcnt : connectIdAt data = some cnt) :
    processTrunkData serverSide data =
      (TrunkCommand.ofCode (word data 16)).elim (some none) fun cmd =>
        if wrongSide serverSide cmd then some none else dispatchCommand cnt data cmd := by
  have hlong : ¬ data.length < sizeofPacketHeader := by
    simp only [sizeofPacketHeader]
    omega
  have hcommand := wordAt_of_le (show 16 + 4 ≤ data.length by omega)
  cases hcode : TrunkCommand.ofCode (word data 16) with
  | none =>
      simp only [processTrunkData, hlong, if_false, hcnt, hcommand, hcode, Option.bind_eq_bind,
        Option.bind_some, Option.pure_def, Option.elim_none]
  | some cmd =>
      simp only [processTrunkData, hlong, if_false, hcnt, hcommand, hcode, Option.bind_eq_bind,
        Option.bind_some, Option.pure_def, Option.elim_some]

/-- The datagrams without a header are rejected. -/
theorem processTrunkData_short (h : data.length < 20) :
    processTrunkData serverSide data = some none := by
  simp [processTrunkData, sizeofPacketHeader, h]

/-! ## What one command accepts -/

section Commands

variable (cnt : ConnectID)

/-- A request is read when it has its two fields. -/
theorem dispatch_createConnect :
    dispatchCommand cnt data .createConnect =
      some (if 28 ≤ data.length then
        some (.processConnectData cnt (word data 20) (word data 24)) else none) := by
  by_cases h : data.length < 28
  · simp [dispatchCommand, sizeofPacketConnect, h, Nat.not_le.mpr h]
  · simp [dispatchCommand, sizeofPacketConnect, h, Nat.not_lt.mp h,
      wordAt_of_le (show 20 + 4 ≤ data.length by omega),
      wordAt_of_le (show 24 + 4 ≤ data.length by omega)]

/-- A chunk is read when its length is the one announced. -/
theorem dispatch_data {cmd : TrunkCommand} (hcmd : cmd = .dataOut ∨ cmd = .dataIn) :
    dispatchCommand cnt data cmd =
      some (if data.length = 28 + (word data 24).toNat then
        some (.processDataToOutlink cnt (word data 20) (data.drop 28)) else none) := by
  have heq : dispatchCommand cnt data cmd = dispatchCommand cnt data .dataOut := by
    rcases hcmd with rfl | rfl <;> rfl
  rw [heq]
  by_cases h : data.length < 28
  · simp [dispatchCommand, sizeofPacketData, h,
      show ¬ data.length = 28 + (word data 24).toNat by omega]
  · have hindex := wordAt_of_le (show 20 + 4 ≤ data.length by omega)
    have hsize := wordAt_of_le (show 24 + 4 ≤ data.length by omega)
    by_cases htotal : data.length = 28 + (word data 24).toNat
    · have hpayload : fieldAt data 28 (word data 24).toNat = some (data.drop 28) := by
        rw [fieldAt_of_le (by omega), List.take_of_length_le (by simp; omega)]
      simp [dispatchCommand, sizeofPacketData, hindex, hsize, htotal, hpayload]
    · simp [dispatchCommand, sizeofPacketData, h, hindex, hsize, htotal]

/-- An acknowledgement is read when it has its index. -/
theorem dispatch_ackData {cmd : TrunkCommand} (hcmd : cmd = .ackDataOut ∨ cmd = .ackDataIn) :
    dispatchCommand cnt data cmd =
      some (if 24 ≤ data.length then some (.processAckData cnt (word data 20)) else none) := by
  have heq : dispatchCommand cnt data cmd = dispatchCommand cnt data .ackDataOut := by
    rcases hcmd with rfl | rfl <;> rfl
  rw [heq]
  by_cases h : data.length < 24
  · simp [dispatchCommand, sizeofPacketAck, h, Nat.not_le.mpr h]
  · simp [dispatchCommand, sizeofPacketAck, h, Nat.not_lt.mp h,
      wordAt_of_le (show 20 + 4 ≤ data.length by omega)]

/-- A release is read when it carries no data. -/
theorem dispatch_release :
    dispatchCommand cnt data .releaseConnect =
      some (if data.length = 28 ∧ word data 24 = 0 then
        some (.processReleaseConnect cnt (word data 20)) else none) := by
  by_cases h : data.length = 28
  · have hindex := wordAt_of_le (show 20 + 4 ≤ data.length by omega)
    have hsize := wordAt_of_le (show 24 + 4 ≤ data.length by omega)
    by_cases hempty : word data 24 = 0
    · simp [dispatchCommand, sizeofPacketData, h, hindex, hsize, hempty]
    · simp [dispatchCommand, sizeofPacketData, h, hindex, hsize, hempty]
  · simp [dispatchCommand, sizeofPacketData, h]

end Commands

/-- No command reads past the datagram. -/
theorem dispatchCommand_ne_none (cnt : ConnectID) (cmd : TrunkCommand) :
    dispatchCommand cnt data cmd ≠ none := by
  cases cmd with
  | createConnect => simp [dispatch_createConnect]
  | releaseConnect => simp [dispatch_release]
  | ackCreateConnect => simp [dispatchCommand]
  | dataOut => simp [dispatch_data cnt (Or.inl rfl)]
  | dataIn => simp [dispatch_data cnt (Or.inr rfl)]
  | ackDataOut => simp [dispatch_ackData cnt (Or.inl rfl)]
  | ackDataIn => simp [dispatch_ackData cnt (Or.inr rfl)]
  | live => simp [dispatchCommand]

/-- **No datagram is read past its end.** -/
theorem processTrunkData_ne_none (serverSide : Bool) (data : Bytes) :
    processTrunkData serverSide data ≠ none := by
  by_cases h : data.length < 20
  · simp [processTrunkData_short h]
  · rw [processTrunkData_of_le (Nat.not_lt.mp h) (connectIdAt_of_le (by omega))]
    cases TrunkCommand.ofCode (word data 16) with
    | none => simp
    | some cmd =>
        rw [Option.elim_some]
        split
        · simp
        · exact dispatchCommand_ne_none _ _

/-! ## The dispatcher against the format -/

/-- The command of a legal packet reaches the checks of its kind. -/
theorem processTrunkData_header {cnt : ConnectID} {cmd : TrunkCommand}
    (hheader : Header data cnt cmd) (hlong : 20 ≤ data.length)
    (hside : wrongSide serverSide cmd = false) :
    processTrunkData serverSide data = dispatchCommand cnt data cmd := by
  have hcnt : connectIdAt data = some cnt := by
    rw [connectIdAt_of_le (by omega)]
    cases cnt
    simpa using hheader.cnt
  rw [processTrunkData_of_le hlong hcnt, TrunkCommand.ofCode_eq_some_iff.mpr hheader.command]
  simp [hside]

/-- A legal packet is given to its handler. -/
theorem processTrunkData_legal (h : LegalPacket serverSide data call) :
    processTrunkData serverSide data = some (some call) := by
  cases h with
  | createConnect hheader hsize =>
      rw [processTrunkData_header hheader (by omega) rfl, dispatch_createConnect, if_pos hsize]
  | ackCreateConnect hheader hsize => rw [processTrunkData_header hheader hsize rfl]; rfl
  | dataOut hheader hsize =>
      rw [processTrunkData_header hheader (by omega) rfl, dispatch_data _ (Or.inl rfl),
        if_pos hsize]
  | dataIn hheader hsize =>
      rw [processTrunkData_header hheader (by omega) rfl, dispatch_data _ (Or.inr rfl),
        if_pos hsize]
  | ackDataIn hheader hsize =>
      rw [processTrunkData_header hheader (by omega) rfl, dispatch_ackData _ (Or.inr rfl),
        if_pos hsize]
  | ackDataOut hheader hsize =>
      rw [processTrunkData_header hheader (by omega) rfl, dispatch_ackData _ (Or.inl rfl),
        if_pos hsize]
  | release hheader hsize hempty =>
      rw [processTrunkData_header hheader (by omega) rfl, dispatch_release,
        if_pos ⟨hsize, hempty⟩]
  | live hheader hsize => rw [processTrunkData_header hheader hsize rfl]; rfl

/-- The checks of a command pass only a legal packet. -/
theorem legal_of_dispatch {cnt : ConnectID} {cmd : TrunkCommand} (hheader : Header data cnt cmd)
    (hlong : 20 ≤ data.length) (hside : wrongSide serverSide cmd = false)
    (h : dispatchCommand cnt data cmd = some (some call)) : LegalPacket serverSide data call := by
  cases cmd with
  | createConnect =>
      obtain rfl : serverSide = true := by simpa [wrongSide] using hside
      rw [dispatch_createConnect] at h
      obtain ⟨hsize, ⟨⟩⟩ := Option.ite_none_right_eq_some.mp (Option.some.inj h)
      exact .createConnect hheader hsize
  | releaseConnect =>
      rw [dispatch_release] at h
      obtain ⟨⟨hsize, hempty⟩, ⟨⟩⟩ := Option.ite_none_right_eq_some.mp (Option.some.inj h)
      exact .release hheader hsize hempty
  | ackCreateConnect =>
      obtain rfl : serverSide = false := hside
      cases h
      exact .ackCreateConnect hheader hlong
  | dataOut =>
      obtain rfl : serverSide = true := by simpa [wrongSide] using hside
      rw [dispatch_data cnt (Or.inl rfl)] at h
      obtain ⟨hsize, ⟨⟩⟩ := Option.ite_none_right_eq_some.mp (Option.some.inj h)
      exact .dataOut hheader hsize
  | dataIn =>
      obtain rfl : serverSide = false := hside
      rw [dispatch_data cnt (Or.inr rfl)] at h
      obtain ⟨hsize, ⟨⟩⟩ := Option.ite_none_right_eq_some.mp (Option.some.inj h)
      exact .dataIn hheader hsize
  | ackDataOut =>
      obtain rfl : serverSide = false := hside
      rw [dispatch_ackData cnt (Or.inl rfl)] at h
      obtain ⟨hsize, ⟨⟩⟩ := Option.ite_none_right_eq_some.mp (Option.some.inj h)
      exact .ackDataOut hheader hsize
  | ackDataIn =>
      obtain rfl : serverSide = true := by simpa [wrongSide] using hside
      rw [dispatch_ackData cnt (Or.inr rfl)] at h
      obtain ⟨hsize, ⟨⟩⟩ := Option.ite_none_right_eq_some.mp (Option.some.inj h)
      exact .ackDataIn hheader hsize
  | live =>
      cases h
      exact .live hheader hlong

/-- **A datagram is handled if and only if it is a legal packet of the other side.** -/
theorem processTrunkData_iff :
    processTrunkData serverSide data = some (some call) ↔ LegalPacket serverSide data call := by
  refine ⟨fun h => ?_, processTrunkData_legal⟩
  by_cases hlong : data.length < 20
  · rw [processTrunkData_short hlong] at h
    cases h
  · have hlong := Nat.not_lt.mp hlong
    rw [processTrunkData_of_le hlong (connectIdAt_of_le (by omega))] at h
    cases hcmd : TrunkCommand.ofCode (word data 16) with
    | none => simp [hcmd] at h
    | some cmd =>
        rw [hcmd, Option.elim_some] at h
        split at h
        · cases h
        · rename_i hside
          exact legal_of_dispatch ⟨rfl, TrunkCommand.ofCode_eq_some_iff.mp hcmd⟩ hlong
            (by simpa using hside) h

/-- The handler works on the connection the header names. -/
theorem connectIdAt_call (h : processTrunkData serverSide data = some (some call)) :
    connectIdAt data = some call.cnt := by
  have hheader : 16 ≤ data.length ∧ data.take 16 = call.cnt.data := by
    cases processTrunkData_iff.mp h with
    | createConnect hheader hsize => exact ⟨by omega, hheader.cnt⟩
    | ackCreateConnect hheader hsize => exact ⟨by omega, hheader.cnt⟩
    | dataOut hheader hsize => exact ⟨by omega, hheader.cnt⟩
    | dataIn hheader hsize => exact ⟨by omega, hheader.cnt⟩
    | ackDataIn hheader hsize => exact ⟨by omega, hheader.cnt⟩
    | ackDataOut hheader hsize => exact ⟨by omega, hheader.cnt⟩
    | release hheader hsize hempty => exact ⟨by omega, hheader.cnt⟩
    | live hheader hsize => exact ⟨by omega, hheader.cnt⟩
  rw [connectIdAt_of_le hheader.1]
  congr 1
  generalize call.cnt = cnt at hheader
  cases cnt
  simpa using hheader.2

/-- A datagram that is no legal packet is rejected. -/
theorem processTrunkData_illegal (h : ∀ call, ¬ LegalPacket serverSide data call) :
    processTrunkData serverSide data = some none := by
  cases hresult : processTrunkData serverSide data with
  | none => exact absurd hresult (processTrunkData_ne_none serverSide data)
  | some found =>
      cases found with
      | none => rfl
      | some call => exact absurd (processTrunkData_iff.mp hresult) (h call)

/-- **The dispatcher accepts exactly the packet format.**  On either side and for
every byte string no field is read past its end, and a handler runs, with the
fields of the packet, exactly if the string is a legal packet.  A datagram that
is none changes nothing in the `TrunkLink` of either side and is not answered. -/
theorem dispatcher_exact (data : Bytes) :
    (∀ serverSide, processTrunkData serverSide data ≠ none ∧
      ∀ call, processTrunkData serverSide data = some (some call) ↔
        LegalPacket serverSide data call) ∧
    (∀ (c : TrunkClient) (now : Time),
      (∀ call, ¬ LegalPacket false (data.take kPacketBufferSize) call) →
      c.receiveTrunkData data now = (c, [])) ∧
    (∀ (s : TrunkServer) (index : Nat) (client : Endpoint) (now : Time),
      (∀ call, ¬ LegalPacket true (data.take kPacketBufferSize) call) →
      (s.receiveTrunkData index client data now).1.base = s.base ∧
        (s.receiveTrunkData index client data now).2 = []) := by
  refine ⟨fun serverSide => ⟨processTrunkData_ne_none serverSide data,
    fun call => processTrunkData_iff⟩, ?_, ?_⟩
  · intro c now hillegal
    simp [TrunkClient.receiveTrunkData, processTrunkData_illegal hillegal]
  · intro s index client now hillegal
    unfold TrunkServer.receiveTrunkData
    simp only [processTrunkData_illegal hillegal]
    split <;> exact ⟨rfl, rfl⟩

/-- A data packet whose size field promises one byte more than came is rejected,
and the same bytes with the right size are delivered. -/
theorem dispatcher_exact_size :
    processTrunkData true ((dataPacket (.ofByte 1) [65, 66] .dataOut 7).datagram.dropLast) =
      some none ∧
    LegalPacket true (dataPacket (.ofByte 1) [65, 66] .dataOut 7).datagram
      (.processDataToOutlink (.ofByte 1) 7 [65, 66]) :=
  ⟨by decide +kernel, ((dispatcher_exact _).1 true).2 _ |>.mp (by decide +kernel)⟩
