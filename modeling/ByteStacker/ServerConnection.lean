import ByteStacker.Connection
import ByteStacker.SideRuns

/-!
# One connection of a server

`ServerConnection` is one connection with what a server keeps for it besides: its
route.  The factory and the number of sockets never change.  Its events are those
of the server, and `TrunkServer.seen_event` compares the two, event by event.
-/

structure ServerConnection where
  base : Connection
  trunkSockets : Nat
  linkFabric : PointID → Option AddressPortPoint
  route : Option ConnectInfo

namespace ServerConnection

def sendPacket (c : ServerConnection) (pkt : PacketInfo) : Option ServerDatagram :=
  c.route.map fun info =>
    { socketIndex := info.socketIndex, client := info.client, data := pkt.datagram }

def setBase (c : ServerConnection) (r : Connection × List PacketInfo) :
    ServerConnection × List ServerDatagram :=
  ({ c with base := r.1 }, r.2.filterMap c.sendPacket)

def processConnectData (c : ServerConnection) (fabric : PointID → Option AddressPortPoint)
    (pointId : PointID) (now : Time) : ServerConnection × List ServerDatagram :=
  let sent := [ackCreatePacket c.base.cnt].filterMap c.sendPacket
  match c.base.entry with
  | some _ => (c, sent)
  | none =>
    match fabric pointId with
    | none => (c, sent)
    | some point => ({ c with base := c.base.intAddOutLink (newLink (some point)) now }, sent)

def receive (c : ServerConnection) (fabric : PointID → Option AddressPortPoint) (index : Nat)
    (client : Endpoint) (data : Bytes) (now : Time) : ServerConnection × List ServerDatagram :=
  let data := data.take kPacketBufferSize
  match TrunkServer.getPacketConnectID data with
  | none => (c, [])
  | some cnt =>
    let c := { c with route := some { connect := cnt, socketIndex := index, client := client } }
    match processTrunkData true data with
    | some (some (.processConnectData _ pointId _)) => c.processConnectData fabric pointId now
    | some (some call) => c.setBase (c.base.handle now call)
    | _ => (c, [])

def fabric (c : ServerConnection) (throws : Bool) (pointId : PointID) : Option AddressPortPoint :=
  if throws then none else c.linkFabric pointId

def tick (c : ServerConnection) (live resend : Time) : ServerConnection × List ServerDatagram :=
  let (base, lives) := c.base.sendLivePacket live
  let (base, resent) := base.onCacheResend resend
  ({ c with base := base }, (lives ++ resent).filterMap c.sendPacket)

def event (c : ServerConnection) : ServerEvent → Option (ServerConnection × List ServerDatagram)
  | .receive index client data now throws =>
    if index < c.trunkSockets then some (c.receive (c.fabric throws) index client data now)
    else none
  | .link _ e now => (c.base.asioStep e now).map c.setBase
  | .sendData cnt data now => some (c.setBase (c.base.hosterCall now (.sendData cnt data)))
  | .closeConnect cnt now => some (c.setBase (c.base.hosterCall now (.closeConnect cnt)))
  | .tick live resend => some (c.tick live resend)
  | .getStat => some (c, [])

end ServerConnection

/-- The events of the connection `d`, and the ticks. -/
def ServerEvent.Concerns (d : ConnectID) : ServerEvent → Prop
  | .link cnt _ _ | .sendData cnt _ _ | .closeConnect cnt _ => cnt = d
  | .receive _ _ data _ _ => TrunkServer.getPacketConnectID (data.take kPacketBufferSize) = some d
  | .tick _ _ => True
  | .getStat => False

instance (d : ConnectID) : DecidablePred (ServerEvent.Concerns d)
  | .link cnt _ _ | .sendData cnt _ _ | .closeConnect cnt _ =>
    inferInstanceAs (Decidable (cnt = d))
  | .receive _ _ _ _ _ => inferInstanceAs (Decidable (TrunkServer.getPacketConnectID _ = some d))
  | .tick _ _ => isTrue trivial
  | .getStat => isFalse id

namespace TrunkServer

variable {s s' : TrunkServer} {d : ConnectID}

/-- What a server keeps for the connection `d`. -/
def connection (s : TrunkServer) (d : ConnectID) : ServerConnection where
  base := s.base.connection d
  trunkSockets := s.trunkSockets
  linkFabric := s.linkFabric
  route := s.getClientLink d

/-- The datagrams that carry the id `d`. -/
def carrying (d : ConnectID) (datagrams : List ServerDatagram) : List ServerDatagram :=
  datagrams.filter fun datagram => connectIdAt datagram.data = some d

/-- The result of an operation as the connection `d` sees it. -/
def project (d : ConnectID) (r : TrunkServer × List ServerDatagram) :
    ServerConnection × List ServerDatagram :=
  (r.1.connection d, carrying d r.2)

/-- The header tells the packets of a connection from the others, and they take its route. -/
theorem carrying_filterMap {pkts : List PacketInfo} (h : ∀ pkt ∈ pkts, pkt.Headed) :
    carrying d (pkts.filterMap s.sendPacket) =
      (pkts.filter fun pkt => pkt.ctxId = d).filterMap (s.connection d).sendPacket := by
  induction pkts with
  | nil => rfl
  | cons pkt rest ih =>
      have hpkt : connectIdAt pkt.datagram = some pkt.ctxId := h pkt List.mem_cons_self
      have htail := ih fun pkt hmem => h pkt (List.mem_cons_of_mem _ hmem)
      have hcarries : ∀ sent, s.sendPacket pkt = some sent →
          connectIdAt sent.data = some pkt.ctxId := by
        intro sent hsent
        obtain ⟨info, _, rfl⟩ := Option.map_eq_some_iff.mp hsent
        exact hpkt
      by_cases hid : pkt.ctxId = d
      · have hroute : (s.connection d).sendPacket pkt = s.sendPacket pkt := by
          rw [sendPacket, hid]
          rfl
        rw [List.filter_cons_of_pos (by simpa using hid), List.filterMap_cons,
          List.filterMap_cons, hroute, ← htail]
        cases hsent : s.sendPacket pkt with
        | none => rfl
        | some sent => exact List.filter_cons_of_pos (by simp [hcarries sent hsent, hid])
      · rw [List.filter_cons_of_neg (by simpa using hid), List.filterMap_cons, ← htail]
        cases hsent : s.sendPacket pkt with
        | none => rfl
        | some sent => exact List.filter_cons_of_neg (by simp [hcarries sent hsent, hid])

/-- The view of a side after a call of its link manager is the call's view. -/
theorem project_setBase {r : TrunkLink × List PacketInfo} (h : ∀ pkt ∈ r.2, pkt.Headed) :
    project d (s.setBase r) = (s.connection d).setBase (TrunkLink.project d r) :=
  Prod.ext rfl (carrying_filterMap h)

/-- An operation of the common part, seen by one connection. -/
theorem project_call (h : s.base.Apart) {e : TrunkCall} {r : TrunkLink × List PacketInfo}
    (hcall : s.base.call e = some r) :
    r.1.Apart ∧ project d (s.setBase r) = (s.connection d).setBase (TrunkLink.project d r) := by
  obtain ⟨hbase, hheaded⟩ := h.call hcall
  exact ⟨hbase, project_setBase hheaded⟩

/-- **What an event may do** to the connection `d` of a server. -/
structure Seen (d : ConnectID) (s : TrunkServer) (e : ServerEvent)
    (r : TrunkServer × List ServerDatagram) : Prop where
  keeps : r.1.base.Apart
  own : e.Concerns d → (s.connection d).event e = some (project d r)
  foreign : ¬ e.Concerns d → project d r = (s.connection d, [])

/-- A call of `SendData` or `CloseConnect`. -/
theorem project_hosterCall (h : s.base.Apart) (call : HosterCall) (now : Time) {e : TrunkCall}
    (hcall : s.base.call e = some (s.base.hosterCall now (some call))) :
    (s.setBase (s.base.hosterCall now (some call))).1.base.Apart ∧
    (call.cnt = d → (s.connection d).setBase ((s.base.connection d).hosterCall now call) =
      project d (s.setBase (s.base.hosterCall now (some call)))) ∧
    (call.cnt ≠ d →
      project d (s.setBase (s.base.hosterCall now (some call))) = (s.connection d, [])) := by
  obtain ⟨hkeeps, hproject⟩ := project_call (d := d) h hcall
  refine ⟨hkeeps, ?_, ?_⟩
  · intro hid
    rw [hproject, h.hosterCall hid]
  · intro hne
    rw [hproject, TrunkLink.hosterCall_foreign hne]
    rfl

/-- **An event of an external socket is seen as one of its connection, or not at all.** -/
theorem seen_link (h : s.base.Apart) {cnt : ConnectID} {e : AsioEvent} {now : Time}
    {r : TrunkServer × List ServerDatagram} (hevent : s.event (.link cnt e now) = some r) :
    Seen d s (.link cnt e now) r := by
  simp only [event] at hevent
  split at hevent
  · cases hevent
  · rename_i k hk
    obtain ⟨r', hstep, rfl⟩ := Option.map_eq_some_iff.mp hevent
    obtain ⟨hkeeps, hproject⟩ := project_call (d := d) (e := .op (.asio k e now)) h hstep
    refine ⟨hkeeps, ?_, ?_⟩
    · intro hid
      obtain rfl : cnt = d := hid
      have hown := h.asioStep hk hstep
      exact (congrArg (Option.map (s.connection cnt).setBase) hown).trans
        (congrArg some hproject.symm)
    · intro hne
      rw [h.asioStep_foreign hk hne hstep] at hproject
      exact hproject

/-- **A tick is seen by each connection as its own tick.** -/
theorem seen_tick (h : s.base.Apart) (live resend : Time) :
    Seen d s (.tick live resend) (s.tick live resend) := by
  obtain ⟨hlive, hlives⟩ := h.live live
  obtain ⟨hresend, hresent⟩ := hlive.resend resend
  refine ⟨hresend, ?_, fun hno => absurd trivial hno⟩
  intro _
  have hfirst : (s.connection d).base.sendLivePacket live =
      TrunkLink.project d (s.base.sendLivePacket live) := (h.sendLivePacket live).symm
  have hsecond : (TrunkLink.project d (s.base.sendLivePacket live)).1.onCacheResend resend =
      TrunkLink.project d ((s.base.sendLivePacket live).1.onCacheResend resend) :=
    (TrunkLink.project_onCacheResend (s.base.sendLivePacket live).1 resend).symm
  simp only [ServerConnection.event, ServerConnection.tick, tick, hfirst, hsecond]
  refine congrArg some (Prod.ext rfl ?_)
  have hheaded : ∀ pkt ∈ (s.base.sendLivePacket live).2 ++
      ((s.base.sendLivePacket live).1.onCacheResend resend).2, pkt.Headed := by
    intro pkt hpkt
    rcases List.mem_append.mp hpkt with hpkt | hpkt
    · exact hlives pkt hpkt
    · exact hresent pkt hpkt
  simp only [project, carrying_filterMap hheaded, List.filter_append]
  rfl

/-! ## Datagrams -/

/-- The view reads the links, the cache and the route only. -/
theorem connection_base (s : TrunkServer) (d : ConnectID) (base : TrunkLink) :
    ({ s with base := base } : TrunkServer).connection d =
      { s.connection d with base := base.connection d } := rfl

/-- A datagram of the connection writes its route. -/
theorem connection_addClientLink (s : TrunkServer) (d : ConnectID) (index : Nat)
    (client : Endpoint) :
    (s.addClientLink ⟨d, index, client⟩).connection d =
      { s.connection d with route := some ⟨d, index, client⟩ } := by
  have hroute : (s.addClientLink ⟨d, index, client⟩).getClientLink d = some ⟨d, index, client⟩ :=
    find_replaceClientLink ⟨d, index, client⟩ s.clientsLink
  rw [connection, hroute]
  rfl

/-- A datagram of another connection leaves it alone. -/
theorem connection_addClientLink_ne {cnt : ConnectID} (hne : cnt ≠ d) (index : Nat)
    (client : Endpoint) :
    (s.addClientLink ⟨cnt, index, client⟩).connection d = s.connection d := by
  have hroute : (s.addClientLink ⟨cnt, index, client⟩).getClientLink d = s.getClientLink d :=
    find_replaceClientLink_ne ⟨cnt, index, client⟩ hne s.clientsLink
  rw [connection, hroute]
  rfl

/-- The acknowledgement of a request carries its own connection only. -/
theorem carrying_ack (d : ConnectID) (index : Nat) (client : Endpoint) :
    carrying d [ackDatagram index client d] = [ackDatagram index client d] :=
  List.filter_cons_of_pos (decide_eq_true (headed_ackCreatePacket d))

theorem carrying_ack_ne {cnt : ConnectID} (hne : cnt ≠ d) (index : Nat) (client : Endpoint) :
    carrying d [ackDatagram index client cnt] = [] := by
  have hheader : connectIdAt (ackDatagram index client cnt).data = some cnt :=
    headed_ackCreatePacket cnt
  exact List.filter_cons_of_neg (by simp [hheader, hne])

/-- Any packet but a request goes to the common part, with the new route. -/
theorem receive_handled (c : ServerConnection) {data : Bytes} {call : HandlerCall}
    (hcall : processTrunkData true (data.take kPacketBufferSize) = some (some call))
    (hother : ∀ cnt pointId timeout, call ≠ .processConnectData cnt pointId timeout)
    (fabric : PointID → Option AddressPortPoint) (index : Nat) (client : Endpoint) (now : Time) :
    c.receive fabric index client data now =
      ({ c with route := some ⟨call.cnt, index, client⟩ } : ServerConnection).setBase
        (c.base.handle now call) := by
  simp only [ServerConnection.receive, getPacketConnectID_call hcall, hcall]

/-- **A datagram is seen by the connection that it carries, and by no other.** -/
theorem seen_receive (h : s.base.Apart) {index : Nat} {client : Endpoint} {data : Bytes}
    {now : Time} {throws : Bool} {sent : List ServerDatagram} (hindex : index < s.trunkSockets)
    (hreceive : s.receive (s.fabric throws) index client data now = (s', sent)) :
    Seen d s (.receive index client data now throws) (s', sent) := by
  have hmachine : (s.connection d).event (.receive index client data now throws) =
      some ((s.connection d).receive (s.fabric throws) index client data now) := if_pos hindex
  have hconcerns : ∀ {cnt : ConnectID},
      getPacketConnectID (data.take kPacketBufferSize) = some cnt →
      ((ServerEvent.receive index client data now throws).Concerns d ↔ cnt = d) := by
    intro cnt hheader
    simp [ServerEvent.Concerns, hheader]
  cases receive_result hreceive with
  | short hshort =>
      refine ⟨h, fun hown => ?_, fun _ => rfl⟩
      have hlong := (getPacketConnectID_eq_some_iff.mp hown).1
      omega
  | @rejected cnt hlong hid hreject =>
      have hheader := getPacketConnectID_eq_some_iff.mpr ⟨hlong, hid⟩
      refine ⟨h, fun hown => ?_, fun hforeign => ?_⟩
      · obtain rfl := (hconcerns hheader).mp hown
        simp only [hmachine, ServerConnection.receive, hheader, hreject, project,
          connection_addClientLink]
        rfl
      · have hne : ¬ cnt = d := fun heq => hforeign ((hconcerns hheader).mpr heq)
        exact Prod.ext (connection_addClientLink_ne hne index client) rfl
  | @known cnt pointId timeout k hcall hlink =>
      have hheader := getPacketConnectID_call hcall
      refine ⟨h, fun hown => ?_, fun hforeign => ?_⟩
      · obtain rfl : cnt = d := (hconcerns hheader).mp hown
        obtain ⟨entry, hentry⟩ := h.entry_some hlink
        have hentry' : (s.connection cnt).base.entry = some entry := hentry
        simp only [hmachine, ServerConnection.receive, hheader, hcall, HandlerCall.cnt,
          ServerConnection.processConnectData, hentry', project, connection_addClientLink,
          carrying_ack]
        rfl
      · have hne : ¬ cnt = d := fun heq => hforeign ((hconcerns hheader).mpr heq)
        exact Prod.ext (connection_addClientLink_ne hne index client)
          (carrying_ack_ne hne index client)
  | @refused cnt pointId timeout hcall hlink hpoint =>
      have hheader := getPacketConnectID_call hcall
      refine ⟨h, fun hown => ?_, fun hforeign => ?_⟩
      · obtain rfl : cnt = d := (hconcerns hheader).mp hown
        have hentry : (s.connection cnt).base.entry = none := TrunkLink.entry_none hlink
        simp only [hmachine, ServerConnection.receive, hheader, hcall, HandlerCall.cnt,
          ServerConnection.processConnectData, hentry, hpoint, project, connection_addClientLink,
          carrying_ack]
        rfl
      · have hne : ¬ cnt = d := fun heq => hforeign ((hconcerns hheader).mpr heq)
        exact Prod.ext (connection_addClientLink_ne hne index client)
          (carrying_ack_ne hne index client)
  | @created cnt pointId timeout point hcall hlink hpoint =>
      have hheader := getPacketConnectID_call hcall
      have hadd : s.base.call (.op (.add cnt (some point) now)) =
          some (s.base.intAddOutLink cnt (newLink (some point)) now, []) := by
        simp [TrunkLink.call, TrunkLink.apply, hlink]
      refine ⟨(h.call hadd).1, fun hown => ?_, fun hforeign => ?_⟩
      · obtain rfl : cnt = d := (hconcerns hheader).mp hown
        have hentry : (s.connection cnt).base.entry = none := TrunkLink.entry_none hlink
        simp only [hmachine, ServerConnection.receive, hheader, hcall, HandlerCall.cnt,
          ServerConnection.processConnectData, hentry, hpoint, project, connection_base,
          connection_addClientLink, carrying_ack,
          TrunkLink.connection_add hlink (newLink (some point)) now]
        rfl
      · have hne : ¬ cnt = d := fun heq => hforeign ((hconcerns hheader).mpr heq)
        refine Prod.ext ?_ (carrying_ack_ne hne index client)
        rw [project, connection_base, connection_addClientLink_ne hne,
          h.connection_add_ne hne (newLink (some point)) now]
        rfl
  | @handled call hcall hother =>
      have hheader := getPacketConnectID_call hcall
      obtain ⟨hkeeps, hheaded⟩ := h.call (e := .op (.handle call now)) rfl
      have hproject := project_setBase (d := d) (s := s.addClientLink ⟨call.cnt, index, client⟩)
        (r := s.base.handle now call) hheaded
      refine ⟨hkeeps, fun hown => ?_, fun hforeign => ?_⟩
      · obtain rfl := (hconcerns hheader).mp hown
        rw [connection_addClientLink, h.handle rfl now] at hproject
        rw [hmachine]
        exact congrArg some ((receive_handled _ hcall hother ..).trans hproject.symm)
      · have hne : call.cnt ≠ d := fun heq => hforeign ((hconcerns hheader).mpr heq)
        rw [connection_addClientLink_ne hne, h.handle_foreign hne now] at hproject
        exact hproject

/-- **One event of a server**, seen by one connection. -/
theorem seen_event (h : s.base.Apart) {e : ServerEvent} {r : TrunkServer × List ServerDatagram}
    (hevent : s.event e = some r) : Seen d s e r := by
  cases e with
  | link cnt e now => exact seen_link h hevent
  | sendData cnt data now =>
      cases hevent
      obtain ⟨hkeeps, hown, hforeign⟩ :=
        project_hosterCall (d := d) (e := .sendData cnt data now) h (.sendData cnt data) now rfl
      exact ⟨hkeeps, fun hid => congrArg some (hown hid), hforeign⟩
  | closeConnect cnt now =>
      cases hevent
      obtain ⟨hkeeps, hown, hforeign⟩ :=
        project_hosterCall (d := d) (e := .closeConnect cnt now) h (.closeConnect cnt) now rfl
      exact ⟨hkeeps, fun hid => congrArg some (hown hid), hforeign⟩
  | receive index client data now throws =>
      simp only [event] at hevent
      split at hevent
      · rename_i hindex
        exact seen_receive h hindex (Option.some.inj hevent)
      · cases hevent
  | tick live resend =>
      cases hevent
      exact seen_tick h live resend
  | getStat =>
      cases hevent
      exact ⟨(h.call (e := .op .getStat) rfl).1, fun hown => absurd hown id, fun _ => rfl⟩

end TrunkServer
