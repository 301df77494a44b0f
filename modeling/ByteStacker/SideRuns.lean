import ByteStacker.Format
import ByteStacker.TrunkCalls

/-!
# A side of the trunk alone

`System` joins a client and a server over a network that invents nothing.  Here
each side stands alone: it receives any bytes from any address, its update timer
runs at any time, and `SendData` and `CloseConnect` may be called by anybody.  A
link acts through asio events as long as it is registered; what a link that is
not registered any more can do to the trunk are calls, and these are events of
their own.  The factory of the server knows a fixed set of points, but creating
a link may fail each time.

`receive_result` is the inversion of `RequestReadingTrunk`.
-/

/-- What can happen to a server; `throws` says whether creating a link fails in
the call of the factory. -/
inductive ServerEvent
  | receive (index : Nat) (client : Endpoint) (data : Bytes) (now : Time) (throws : Bool)
  | link (cnt : ConnectID) (e : AsioEvent) (now : Time)
  | sendData (cnt : ConnectID) (data : Bytes) (now : Time)
  | closeConnect (cnt : ConnectID) (now : Time)
  | tick (live resend : Time)
  | getStat
  deriving DecidableEq

/-- What can happen to a client. -/
inductive ClientEvent
  | addConnect (cnt : ConnectID) (point : PointID) (registered cached : Time)
  | receive (data : Bytes) (now : Time)
  | link (cnt : ConnectID) (e : AsioEvent) (now : Time)
  | sendData (cnt : ConnectID) (data : Bytes) (now : Time)
  | closeConnect (cnt : ConnectID) (now : Time)
  | tick (live resend connects : Time)
  deriving DecidableEq

namespace TrunkClient

/-- The common part has acted. -/
def setBase (c : TrunkClient) (r : TrunkLink × List PacketInfo) : TrunkClient × List Bytes :=
  ({ c with base := r.1 }, r.2.map sendPacket)

def event (c : TrunkClient) : ClientEvent → Option (TrunkClient × List Bytes)
  | .addConnect cnt point registered cached => some (c.addConnect cnt point registered cached)
  | .receive data now => some (c.receiveTrunkData data now)
  | .link cnt e now =>
    match c.base.getOutLink cnt with
    | none => none
    | some k => c.asioStep k e now
  | .sendData cnt data now => some (c.setBase (c.base.sendData cnt data now))
  | .closeConnect cnt now => some (c.setBase (c.base.closeConnect cnt now))
  | .tick live resend connects => some (c.tick live resend connects)

def step (c : TrunkClient) (e : ClientEvent) : Option TrunkClient := (c.event e).map Prod.fst

/-- The datagrams an event sends. -/
def sent (c : TrunkClient) (e : ClientEvent) : List Bytes := ((c.event e).map Prod.snd).getD []

end TrunkClient

namespace TrunkServer

/-- The common part has acted. -/
def setBase (s : TrunkServer) (r : TrunkLink × List PacketInfo) :
    TrunkServer × List ServerDatagram :=
  ({ s with base := r.1 }, r.2.filterMap s.sendPacket)

/-- What the factory answers when it is called. -/
def fabric (s : TrunkServer) (throws : Bool) (pointId : PointID) : Option AddressPortPoint :=
  if throws then none else s.linkFabric pointId

/-- A datagram is received while the factory answers so. -/
def receive (s : TrunkServer) (fabric : PointID → Option AddressPortPoint) (index : Nat)
    (client : Endpoint) (data : Bytes) (now : Time) : TrunkServer × List ServerDatagram :=
  let (s', sent) := { s with linkFabric := fabric }.receiveTrunkData index client data now
  ({ s' with linkFabric := s.linkFabric }, sent)

def event (s : TrunkServer) : ServerEvent → Option (TrunkServer × List ServerDatagram)
  | .receive index client data now throws =>
    if index < s.trunkSockets then some (s.receive (s.fabric throws) index client data now)
    else none
  | .link cnt e now =>
    match s.base.getOutLink cnt with
    | none => none
    | some k => s.asioStep k e now
  | .sendData cnt data now => some (s.setBase (s.base.sendData cnt data now))
  | .closeConnect cnt now => some (s.setBase (s.base.closeConnect cnt now))
  | .tick live resend => some (s.tick live resend)
  | .getStat => some (s.getStat.1, [])

def step (s : TrunkServer) (e : ServerEvent) : Option TrunkServer := (s.event e).map Prod.fst

/-- The datagrams an event sends. -/
def sent (s : TrunkServer) (e : ServerEvent) : List ServerDatagram :=
  ((s.event e).map Prod.snd).getD []

/-! ## The routing table -/

variable {s s' : TrunkServer} {info : ConnectInfo} {cnt : ConnectID}

/-- The route just stored is found. -/
theorem find_replaceClientLink (info : ConnectInfo) (xs : List ConnectInfo) :
    ((replaceClientLink info xs).find? fun item => item.connect = info.connect) = some info := by
  induction xs with
  | nil => simp [replaceClientLink]
  | cons x rest ih =>
      unfold replaceClientLink
      split
      · simp
      · rename_i hne
        simpa [hne] using ih

/-- The other routes are left as they were. -/
theorem find_replaceClientLink_ne (info : ConnectInfo) (hne : info.connect ≠ cnt)
    (xs : List ConnectInfo) :
    ((replaceClientLink info xs).find? fun item => item.connect = cnt) =
      xs.find? fun item => item.connect = cnt := by
  induction xs with
  | nil => simp [replaceClientLink, hne]
  | cons x rest ih =>
      unfold replaceClientLink
      split
      · rename_i heq
        simp [heq, hne]
      · simp only [List.find?_cons, ih]

/-- Nothing else comes in. -/
theorem mem_replaceClientLink {item : ConnectInfo} {xs : List ConnectInfo}
    (h : item ∈ replaceClientLink info xs) : item = info ∨ item ∈ xs := by
  induction xs with
  | nil => exact Or.inl (List.mem_singleton.mp h)
  | cons x rest ih =>
      unfold replaceClientLink at h
      split at h
      · rcases List.mem_cons.mp h with rfl | h
        · exact Or.inl rfl
        · exact Or.inr (List.mem_cons_of_mem _ h)
      · rcases List.mem_cons.mp h with rfl | h
        · exact Or.inr List.mem_cons_self
        · exact (ih h).imp id (List.mem_cons_of_mem _)

/-- Nothing is replaced exactly if the first record of the id says the same. -/
theorem replaceClientLink_eq_self {xs : List ConnectInfo} :
    replaceClientLink info xs = xs ↔
      (xs.find? fun item => item.connect = info.connect) = some info := by
  induction xs with
  | nil => simp [replaceClientLink]
  | cons x rest ih =>
      unfold replaceClientLink
      split
      · rename_i heq
        simp [heq, eq_comm]
      · rename_i hne
        simp [hne, ih]

/-- The server knows where to send packets of the id. -/
def Known (s : TrunkServer) (cnt : ConnectID) : Prop := ∃ info, s.getClientLink cnt = some info

/-- A stored route is known. -/
theorem known_addClientLink (s : TrunkServer) (info : ConnectInfo) :
    (s.addClientLink info).Known info.connect :=
  ⟨info, find_replaceClientLink info s.clientsLink⟩

/-- A record is replaced, never dropped. -/
theorem Known.addClientLink (h : s.Known cnt) (info : ConnectInfo) :
    (s.addClientLink info).Known cnt := by
  by_cases hid : info.connect = cnt
  · exact hid ▸ known_addClientLink s info
  · obtain ⟨known, hknown⟩ := h
    exact ⟨known, (find_replaceClientLink_ne info hid s.clientsLink).trans hknown⟩

/-! ## A received datagram -/

/-- A connection id is read from twenty bytes or more. -/
theorem getPacketConnectID_eq_some_iff {data : Bytes} :
    getPacketConnectID data = some cnt ↔ 20 ≤ data.length ∧ connectIdAt data = some cnt := by
  by_cases hshort : data.length < 20
  · simp [getPacketConnectID, sizeofPacketHeader, hshort, Nat.not_le.mpr hshort]
  · simp [getPacketConnectID, sizeofPacketHeader, hshort, Nat.not_lt.mp hshort]

/-- A datagram for a handler has the header of the connection the handler works on. -/
theorem getPacketConnectID_call {serverSide : Bool} {data : Bytes} {call : HandlerCall}
    (hcall : processTrunkData serverSide data = some (some call)) :
    getPacketConnectID data = some call.cnt := by
  refine getPacketConnectID_eq_some_iff.mpr ⟨?_, connectIdAt_call hcall⟩
  by_contra hshort
  simp [processTrunkData_short (Nat.not_le.mp hshort)] at hcall

/-- The acknowledgement of a connection, sent back where the request came from. -/
def ackDatagram (index : Nat) (client : Endpoint) (cnt : ConnectID) : ServerDatagram where
  socketIndex := index
  client := client
  data := (ackCreatePacket cnt).datagram

/-- **What a server does with a datagram** while its factory answers as `fabric`. -/
inductive ReceiveResult (s : TrunkServer) (fabric : PointID → Option AddressPortPoint)
    (index : Nat) (client : Endpoint) (data : Bytes) (now : Time) :
    TrunkServer → List ServerDatagram → Prop
  | short (hshort : data.length < 20) : ReceiveResult s fabric index client data now s []
  | rejected {cnt : ConnectID} (hlong : 20 ≤ data.length) (hid : connectIdAt data = some cnt)
      (hreject : processTrunkData true data = some none) :
      ReceiveResult s fabric index client data now (s.addClientLink ⟨cnt, index, client⟩) []
  | known {cnt : ConnectID} {pointId timeout : UInt32} {k : Nat}
      (hcall : processTrunkData true data = some (some (.processConnectData cnt pointId timeout)))
      (hlink : s.base.getOutLink cnt = some k) :
      ReceiveResult s fabric index client data now (s.addClientLink ⟨cnt, index, client⟩)
        [ackDatagram index client cnt]
  | refused {cnt : ConnectID} {pointId timeout : UInt32}
      (hcall : processTrunkData true data = some (some (.processConnectData cnt pointId timeout)))
      (hlink : s.base.getOutLink cnt = none) (hpoint : fabric pointId = none) :
      ReceiveResult s fabric index client data now (s.addClientLink ⟨cnt, index, client⟩)
        [ackDatagram index client cnt]
  | created {cnt : ConnectID} {pointId timeout : UInt32} {point : AddressPortPoint}
      (hcall : processTrunkData true data = some (some (.processConnectData cnt pointId timeout)))
      (hlink : s.base.getOutLink cnt = none) (hpoint : fabric pointId = some point) :
      ReceiveResult s fabric index client data now
        { s.addClientLink ⟨cnt, index, client⟩ with
          base := s.base.intAddOutLink cnt (newLink (some point)) now }
        [ackDatagram index client cnt]
  | handled {call : HandlerCall} (hcall : processTrunkData true data = some (some call))
      (hother : ∀ cnt pointId timeout, call ≠ .processConnectData cnt pointId timeout) :
      ReceiveResult s fabric index client data now
        { s.addClientLink ⟨call.cnt, index, client⟩ with base := (s.base.handle now call).1 }
        ((s.base.handle now call).2.filterMap
          (s.addClientLink ⟨call.cnt, index, client⟩).sendPacket)

/-- The acknowledgement goes back where the request came from. -/
theorem sendPacket_ack {s : TrunkServer} {index : Nat} {client : Endpoint} {cnt : ConnectID}
    (hroute : s.getClientLink cnt = some ⟨cnt, index, client⟩) :
    [ackCreatePacket cnt].filterMap s.sendPacket = [ackDatagram index client cnt] := by
  have hsend : s.sendPacket (ackCreatePacket cnt) = some (ackDatagram index client cnt) := by
    rw [sendPacket, show (ackCreatePacket cnt).ctxId = cnt from rfl, hroute]
    rfl
  simp [hsend]

/-- The handling of a request for a connection, behind the update of its route. -/
theorem connect_result {data : Bytes} {pointId timeout : UInt32}
    (hcall : processTrunkData true data = some (some (.processConnectData cnt pointId timeout)))
    (s : TrunkServer) (fabric : PointID → Option AddressPortPoint) (index : Nat)
    (client : Endpoint) (now : Time) {m : TrunkServer}
    (hm : m = { s.addClientLink ⟨cnt, index, client⟩ with linkFabric := fabric }) :
    ReceiveResult s fabric index client data now
      { (m.processConnectData cnt pointId now).1 with linkFabric := s.linkFabric }
      (m.processConnectData cnt pointId now).2 := by
  have hroute : m.getClientLink cnt = some ⟨cnt, index, client⟩ := by
    rw [hm]
    exact find_replaceClientLink ⟨cnt, index, client⟩ s.clientsLink
  have hlinks : m.base.getOutLink cnt = s.base.getOutLink cnt := by rw [hm]; rfl
  have hpoints : m.linkFabric pointId = fabric pointId := by rw [hm]
  unfold processConnectData
  rw [sendPacket_ack hroute, hlinks, hpoints]
  cases hlink : s.base.getOutLink cnt with
  | some k =>
      rw [hm]
      exact .known hcall hlink
  | none =>
      cases hpoint : fabric pointId with
      | none =>
          rw [hm]
          exact .refused hcall hlink hpoint
      | some point =>
          rw [hm]
          exact .created hcall hlink hpoint

/-- **Every datagram has one of these results.** -/
theorem receive_result {fabric : PointID → Option AddressPortPoint} {index : Nat}
    {client : Endpoint} {data : Bytes} {now : Time} {sent : List ServerDatagram}
    (hreceive : s.receive fabric index client data now = (s', sent)) :
    ReceiveResult s fabric index client (data.take kPacketBufferSize) now s' sent := by
  have hs' : s' = (s.receive fabric index client data now).1 := by rw [hreceive]
  have hsent : sent = (s.receive fabric index client data now).2 := by rw [hreceive]
  subst hs' hsent
  unfold receive receiveTrunkData
  generalize data.take kPacketBufferSize = data
  by_cases hshort : data.length < 20
  · have hnone : getPacketConnectID data = none := by
      simp [getPacketConnectID, sizeofPacketHeader, hshort]
    simp only [hnone]
    exact .short hshort
  · have hlong : 20 ≤ data.length := Nat.not_lt.mp hshort
    obtain ⟨cnt, hid⟩ : ∃ cnt, connectIdAt data = some cnt :=
      ⟨_, connectIdAt_of_le (by omega)⟩
    simp only [getPacketConnectID_eq_some_iff.mpr ⟨hlong, hid⟩]
    cases hread : processTrunkData true data with
    | none => exact absurd hread (processTrunkData_ne_none true data)
    | some answer =>
        cases answer with
        | none => exact .rejected hlong hid hread
        | some call =>
            have hcnt : cnt = call.cnt := Option.some.inj (hid.symm.trans (connectIdAt_call hread))
            subst hcnt
            by_cases hcreate : ∃ cnt pointId timeout, call = .processConnectData cnt pointId timeout
            · obtain ⟨cnt, pointId, timeout, rfl⟩ := hcreate
              exact connect_result hread s fabric index client now rfl
            · have hother : ∀ cnt pointId timeout,
                  call ≠ .processConnectData cnt pointId timeout := by simpa using hcreate
              simp only [handle_base hother]
              exact .handled hread hother

end TrunkServer
