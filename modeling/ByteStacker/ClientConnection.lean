import ByteStacker.Connection
import ByteStacker.SideRuns

/-!
# One connection of a client

`ClientConnection` is one connection with what a client keeps for it besides: the
requests that wait for their acknowledgement.  Its events are those of the client.
`TrunkClient.seen_event` compares the client, event by event, with each of its
connections.
-/

structure ClientConnection where
  base : Connection
  connectCache : List PacketConnectCache
  deriving DecidableEq

namespace ClientConnection

def setBase (c : ClientConnection) (r : Connection × List PacketInfo) :
    ClientConnection × List Bytes :=
  ({ c with base := r.1 }, r.2.map TrunkClient.sendPacket)

def addConnect (c : ClientConnection) (point : PointID) (registered cached : Time) :
    ClientConnection × List Bytes :=
  match c.base.entry with
  | some _ => (c, [])
  | none =>
    let info := connectPacket c.base.cnt point (UInt32.ofNat kResendTimeout)
    let pc : PacketConnectCache :=
      { info := info
        deadline := cached + milliseconds kDeadlineTimeout
        nextSend := cached + milliseconds kResendTimeout }
    ({ base := c.base.intAddOutLink OutLink.createAccepted registered
       connectCache := c.connectCache ++ [pc] }, [TrunkClient.sendPacket info])

def receiveTrunkData (c : ClientConnection) (data : Bytes) (now : Time) :
    ClientConnection × List Bytes :=
  match processTrunkData false (data.take kPacketBufferSize) with
  | some (some (.processAckConnectData _)) => ({ c with connectCache := [] }, [])
  | some (some call) => c.setBase (c.base.handle now call)
  | _ => (c, [])

def resendConnects (c : ClientConnection) (curt : Time) : ClientConnection × List Bytes :=
  let kept := c.connectCache.filter fun item => ¬ curt > item.deadline
  ({ c with
      connectCache := kept.map fun item =>
        if item.nextSend > curt then item
        else { item with nextSend := curt + milliseconds kResendTimeout } },
    (kept.filter fun item => ¬ item.nextSend > curt).map fun item =>
      TrunkClient.sendPacket item.info)

def tick (c : ClientConnection) (live resend connects : Time) : ClientConnection × List Bytes :=
  let (base, lives) := c.base.sendLivePacket live
  let (base, resent) := base.onCacheResend resend
  let (c, connected) := { c with base := base }.resendConnects connects
  (c, lives.map TrunkClient.sendPacket ++ resent.map TrunkClient.sendPacket ++ connected)

def event (c : ClientConnection) : ClientEvent → Option (ClientConnection × List Bytes)
  | .addConnect _ point registered cached => some (c.addConnect point registered cached)
  | .receive data now => some (c.receiveTrunkData data now)
  | .link _ e now => (c.base.asioStep e now).map c.setBase
  | .sendData cnt data now => some (c.setBase (c.base.hosterCall now (.sendData cnt data)))
  | .closeConnect cnt now => some (c.setBase (c.base.hosterCall now (.closeConnect cnt)))
  | .tick live resend connects => some (c.tick live resend connects)

end ClientConnection

/-- The events of the connection `d`, and the ticks. -/
def ClientEvent.Concerns (d : ConnectID) : ClientEvent → Prop
  | .addConnect cnt _ _ _ | .link cnt _ _ | .sendData cnt _ _ | .closeConnect cnt _ => cnt = d
  | .receive data _ => TrunkServer.getPacketConnectID (data.take kPacketBufferSize) = some d
  | .tick _ _ _ => True

instance (d : ConnectID) : DecidablePred (ClientEvent.Concerns d)
  | .addConnect cnt _ _ _ | .link cnt _ _ | .sendData cnt _ _ | .closeConnect cnt _ =>
    inferInstanceAs (Decidable (cnt = d))
  | .receive _ _ => inferInstanceAs (Decidable (TrunkServer.getPacketConnectID _ = some d))
  | .tick _ _ _ => isTrue trivial

namespace TrunkClient

variable {c : TrunkClient} {d : ConnectID}

/-- What a client keeps for the connection `d`. -/
def connection (c : TrunkClient) (d : ConnectID) : ClientConnection where
  base := c.base.connection d
  connectCache := c.connectCache.filter fun item => item.info.ctxId = d

/-- The datagrams that carry the id `d`. -/
def carrying (d : ConnectID) (datagrams : List Bytes) : List Bytes :=
  datagrams.filter fun data => connectIdAt data = some d

/-- The result of an operation as the connection `d` sees it. -/
def project (d : ConnectID) (r : TrunkClient × List Bytes) : ClientConnection × List Bytes :=
  (r.1.connection d, carrying d r.2)

/-- The connections of a client are kept apart. -/
structure Apart (c : TrunkClient) : Prop where
  base : c.base.Apart
  headed : ∀ item ∈ c.connectCache, item.info.Headed

/-- The packets of a connection among two bursts are those of each. -/
theorem carrying_append (d : ConnectID) (xs ys : List Bytes) :
    carrying d (xs ++ ys) = carrying d xs ++ carrying d ys := List.filter_append ..

/-- The header tells the packets of a connection from the others. -/
theorem carrying_map {pkts : List PacketInfo} (h : ∀ pkt ∈ pkts, pkt.Headed) :
    carrying d (pkts.map sendPacket) = (pkts.filter fun pkt => pkt.ctxId = d).map sendPacket := by
  rw [carrying, List.filter_map]
  congr 1
  refine List.filter_congr fun pkt hpkt => ?_
  have hheaded : connectIdAt pkt.datagram = some pkt.ctxId := h pkt hpkt
  simp [sendPacket, hheaded]

/-- The view of a side after a call of its link manager is the call's view. -/
theorem project_setBase {r : TrunkLink × List PacketInfo} (h : ∀ pkt ∈ r.2, pkt.Headed) :
    project d (c.setBase r) = (c.connection d).setBase (TrunkLink.project d r) :=
  Prod.ext rfl (carrying_map h)

/-- An operation of the common part, seen by one connection. -/
theorem Apart.setBase (h : c.Apart) {e : TrunkCall} {r : TrunkLink × List PacketInfo}
    (hcall : c.base.call e = some r) :
    (c.setBase r).1.Apart ∧
      project d (c.setBase r) = (c.connection d).setBase (TrunkLink.project d r) := by
  obtain ⟨hbase, hheaded⟩ := h.base.call hcall
  exact ⟨⟨hbase, h.headed⟩, project_setBase hheaded⟩

/-- **What an event may do** to the connection `d` of a client. -/
structure Seen (d : ConnectID) (c : TrunkClient) (e : ClientEvent) (r : TrunkClient × List Bytes) :
    Prop where
  keeps : r.1.Apart
  own : e.Concerns d → (c.connection d).event e = some (project d r)
  foreign : ¬ e.Concerns d → project d r = (c.connection d, [])

/-- A call of `SendData` or `CloseConnect`. -/
theorem Apart.hosterCall (h : c.Apart) (call : HosterCall) (now : Time) {e : TrunkCall}
    (hcall : c.base.call e = some (c.base.hosterCall now (some call))) :
    (c.setBase (c.base.hosterCall now (some call))).1.Apart ∧
    (call.cnt = d → (c.connection d).setBase ((c.base.connection d).hosterCall now call) =
      project d (c.setBase (c.base.hosterCall now (some call)))) ∧
    (call.cnt ≠ d →
      project d (c.setBase (c.base.hosterCall now (some call))) = (c.connection d, [])) := by
  obtain ⟨hkeeps, hproject⟩ := h.setBase (d := d) hcall
  refine ⟨hkeeps, ?_, ?_⟩
  · intro hid
    rw [hproject, h.base.hosterCall hid]
  · intro hne
    rw [hproject, TrunkLink.hosterCall_foreign hne]
    rfl

/-- **An event of an external socket is seen as one of its connection, or not at all.** -/
theorem seen_link (h : c.Apart) {cnt : ConnectID} {e : AsioEvent} {now : Time}
    {r : TrunkClient × List Bytes} (hevent : c.event (.link cnt e now) = some r) :
    Seen d c (.link cnt e now) r := by
  simp only [event] at hevent
  split at hevent
  · cases hevent
  · rename_i k hk
    obtain ⟨r', hstep, rfl⟩ := Option.map_eq_some_iff.mp hevent
    obtain ⟨hkeeps, hproject⟩ := h.setBase (d := d) (e := .op (.asio k e now)) hstep
    refine ⟨hkeeps, ?_, ?_⟩
    · intro hid
      obtain rfl : cnt = d := hid
      have hown := h.base.asioStep hk hstep
      exact (congrArg (Option.map (c.connection cnt).setBase) hown).trans
        (congrArg some hproject.symm)
    · intro hne
      rw [TrunkLink.Apart.asioStep_foreign h.base hk hne hstep] at hproject
      exact hproject

/-- The view reads the links, the caches and the route only. -/
theorem connection_base (c : TrunkClient) (d : ConnectID) (base : TrunkLink) :
    ({ c with base := base } : TrunkClient).connection d =
      { c.connection d with base := base.connection d } := rfl

/-- A request is cached and sent, which its own connection sees. -/
theorem project_sendConnectInformation (c : TrunkClient) (d : ConnectID) (point : PointID)
    (timeout : UInt32) (now : Time) :
    project d (c.sendConnectInformation d point timeout now) =
      ({ c.connection d with
          connectCache := (c.connection d).connectCache ++
            [{ info := connectPacket d point timeout
               deadline := now + milliseconds kDeadlineTimeout
               nextSend := now + milliseconds kResendTimeout }] },
        [sendPacket (connectPacket d point timeout)]) := by
  have hheaded := headed_connectPacket d point timeout
  have hctx : (connectPacket d point timeout).ctxId = d := rfl
  unfold sendConnectInformation
  generalize connectPacket d point timeout = info at hheaded hctx
  have hsent : carrying d ([info].map sendPacket) = _ := carrying_map (by simpa using hheaded)
  simp only [List.map_singleton, hctx, List.filter_singleton, decide_true] at hsent
  simp [project, connection, hctx, hsent]

/-- The other connections do not. -/
theorem project_sendConnectInformation_ne (c : TrunkClient) {cnt : ConnectID} (hne : cnt ≠ d)
    (point : PointID) (timeout : UInt32) (now : Time) :
    project d (c.sendConnectInformation cnt point timeout now) = (c.connection d, []) := by
  have hheaded := headed_connectPacket cnt point timeout
  have hctx : (connectPacket cnt point timeout).ctxId = cnt := rfl
  unfold sendConnectInformation
  generalize connectPacket cnt point timeout = info at hheaded hctx
  have hsent : carrying d ([info].map sendPacket) = _ := carrying_map (by simpa using hheaded)
  simp only [List.map_singleton, hctx, List.filter_singleton, decide_eq_false hne] at hsent
  simp_all [project, connection]

/-- **A new connection is seen by itself alone.** -/
theorem seen_addConnect (h : c.Apart) (cnt : ConnectID) (point : PointID)
    (registered cached : Time) :
    Seen d c (.addConnect cnt point registered cached)
      (c.addConnect cnt point registered cached) := by
  have hmachine : (c.connection d).event (.addConnect cnt point registered cached) =
      some ((c.connection d).addConnect point registered cached) := rfl
  unfold addConnect
  cases hlink : c.base.getOutLink cnt with
  | some k =>
      refine ⟨h, ?_, fun _ => rfl⟩
      intro hid
      obtain rfl : cnt = d := hid
      obtain ⟨entry, hentry⟩ := h.base.entry_some hlink
      have hentry' : (c.connection cnt).base.entry = some entry := hentry
      simp only [hmachine, ClientConnection.addConnect, hentry']
      rfl
  | none =>
      have hadd : c.base.call (.op (.add cnt none registered)) =
          some (c.base.intAddOutLink cnt .createAccepted registered, []) := by
        simp [TrunkLink.call, TrunkLink.apply, hlink, newLink]
      have hheaded := headed_connectPacket cnt point (UInt32.ofNat kResendTimeout)
      refine ⟨⟨(h.base.call hadd).1, ?_⟩, ?_, ?_⟩
      · intro item hitem
        rcases List.mem_append.mp hitem with hitem | hitem
        · exact h.headed item hitem
        · rw [List.mem_singleton.mp hitem]
          exact hheaded
      · intro hid
        obtain rfl : cnt = d := hid
        have hentry : (c.connection cnt).base.entry = none := TrunkLink.entry_none hlink
        have hbase := TrunkLink.connection_add hlink .createAccepted registered
        rw [hmachine, project_sendConnectInformation,
          connection_base c cnt (c.base.intAddOutLink ..), hbase, ClientConnection.addConnect,
          hentry]
        rfl
      · intro hne
        have hother : ¬ cnt = d := hne
        have hbase := h.base.connection_add_ne hother .createAccepted registered
        rw [project_sendConnectInformation_ne _ hother,
          connection_base c d (c.base.intAddOutLink ..), hbase]
        rfl

/-- An answered request leaves the cache of its own connection. -/
theorem connection_processAckConnectData (c : TrunkClient) (d : ConnectID) :
    (c.processAckConnectData d).connection d = { c.connection d with connectCache := [] } := by
  simp [connection, processAckConnectData]

/-- An acknowledged request of another connection is not seen. -/
theorem connection_processAckConnectData_ne (c : TrunkClient) {cnt : ConnectID} (hne : cnt ≠ d) :
    (c.processAckConnectData cnt).connection d = c.connection d := by
  simp only [connection, processAckConnectData, List.filter_filter]
  congr 1
  refine List.filter_congr fun item _ => ?_
  by_cases hid : item.info.ctxId = d
  · simp [hid, hne.symm]
  · simp [hid]

/-- Any other packet goes to the common part. -/
theorem receiveTrunkData_base (c : ClientConnection) {data : Bytes} {call : HandlerCall}
    (hread : processTrunkData false (data.take kPacketBufferSize) = some (some call))
    (hother : ∀ cnt, call ≠ .processAckConnectData cnt) (now : Time) :
    c.receiveTrunkData data now = c.setBase (c.base.handle now call) := by
  unfold ClientConnection.receiveTrunkData
  rw [hread]
  cases call with
  | processAckConnectData cnt => exact absurd rfl (hother cnt)
  | processConnectData cnt pointId timeout => rfl
  | processDataToOutlink cnt packetIndex data => rfl
  | processAckData cnt packetIndex => rfl
  | processReleaseConnect cnt packetId => rfl
  | processLive cnt => rfl

/-- **A datagram is seen by the connection that it carries, and by no other.** -/
theorem seen_receive (h : c.Apart) (data : Bytes) (now : Time) :
    Seen d c (.receive data now) (c.receiveTrunkData data now) := by
  unfold receiveTrunkData
  have hmachine : (c.connection d).event (.receive data now) =
      some ((c.connection d).receiveTrunkData data now) := rfl
  cases hread : processTrunkData false (data.take kPacketBufferSize) with
  | none =>
      refine ⟨h, fun _ => ?_, fun _ => rfl⟩
      simp only [hmachine, ClientConnection.receiveTrunkData, hread]
      rfl
  | some answer =>
      cases answer with
      | none =>
          refine ⟨h, fun _ => ?_, fun _ => rfl⟩
          simp only [hmachine, ClientConnection.receiveTrunkData, hread]
          rfl
      | some call =>
          have hheader := TrunkServer.getPacketConnectID_call hread
          have hconcerns : (ClientEvent.receive data now).Concerns d ↔ call.cnt = d := by
            simp [ClientEvent.Concerns, hheader]
          by_cases hack : ∃ cnt, call = .processAckConnectData cnt
          · obtain ⟨cnt, rfl⟩ := hack
            refine ⟨⟨h.base, fun item hitem => h.headed item (List.mem_of_mem_filter hitem)⟩,
              ?_, ?_⟩
            · intro hown
              obtain rfl : cnt = d := hconcerns.mp hown
              simp only [hmachine, ClientConnection.receiveTrunkData, hread, handle, project,
                connection_processAckConnectData]
              rfl
            · intro hne
              have hother : cnt ≠ d := fun heq => hne (hconcerns.mpr heq)
              exact Prod.ext (connection_processAckConnectData_ne c hother) rfl
          · have hother : ∀ cnt, call ≠ .processAckConnectData cnt := by simpa using hack
            obtain ⟨hkeeps, hproject⟩ := h.setBase (d := d) (e := .op (.handle call now)) rfl
            have hbase : c.handle now call = c.setBase (c.base.handle now call) :=
              handle_base hother
            simp only [hbase]
            refine ⟨hkeeps, ?_, ?_⟩
            · intro hown
              have hview := h.base.handle (hconcerns.mp hown) now
              rw [hmachine, receiveTrunkData_base _ hread hother]
              exact congrArg some
                ((congrArg (c.connection d).setBase hview.symm).trans hproject.symm)
            · intro hne
              have hforeign : call.cnt ≠ d := fun heq => hne (hconcerns.mpr heq)
              exact hproject.trans
                (congrArg (c.connection d).setBase (h.base.handle_foreign hforeign now))

/-- The requests that are sent again. -/
theorem project_resendConnects (h : ∀ item ∈ c.connectCache, item.info.Headed) (curt : Time) :
    project d (c.resendConnects curt) = (c.connection d).resendConnects curt := by
  have hcache := TrunkLink.filter_resend c.connectCache
    (p := fun item => ¬ curt > item.deadline) (q := fun item => item.info.ctxId = d)
    (f := fun item => if item.nextSend > curt then item
      else { item with nextSend := curt + milliseconds kResendTimeout })
    (by intro item; split <;> rfl)
  have hsent := TrunkLink.filter_resent c.connectCache (fun item => ¬ curt > item.deadline)
    (fun item => item.info.ctxId = d) (fun item => ¬ item.nextSend > curt)
  unfold resendConnects ClientConnection.resendConnects
  refine Prod.ext ?_ ?_
  · simp only [project, connection, hcache]
  · have hmap : ∀ xs : List PacketConnectCache, (xs.map fun item => sendPacket item.info) =
        (xs.map PacketConnectCache.info).map sendPacket := by simp
    have hheaded : ∀ pkt ∈ (((c.connectCache.filter fun item => ¬ curt > item.deadline).filter
        fun item => ¬ item.nextSend > curt).map PacketConnectCache.info), pkt.Headed := by
      intro pkt hpkt
      obtain ⟨item, hitem, rfl⟩ := List.mem_map.mp hpkt
      exact h item (List.mem_of_mem_filter (List.mem_of_mem_filter hitem))
    simp only [project, hmap, carrying_map hheaded, List.filter_map]
    exact congrArg (List.map sendPacket) (congrArg (List.map PacketConnectCache.info) hsent)

/-- **A tick is seen by each connection as its own tick.** -/
theorem seen_tick (h : c.Apart) (live resend connects : Time) :
    Seen d c (.tick live resend connects) (c.tick live resend connects) := by
  obtain ⟨hlive, hlives⟩ := h.base.live live
  obtain ⟨hresend, hresent⟩ := hlive.resend resend
  refine ⟨⟨hresend, ?_⟩, ?_, fun hno => absurd trivial hno⟩
  · intro item hitem
    obtain ⟨own, hown, rfl⟩ := List.mem_map.mp hitem
    have hheaded := h.headed own (List.mem_of_mem_filter hown)
    split <;> exact hheaded
  · intro _
    -- the three parts of the tick, each seen by the connection
    have hfirst : (c.connection d).base.sendLivePacket live =
        TrunkLink.project d (c.base.sendLivePacket live) := (h.base.sendLivePacket live).symm
    have hsecond : (TrunkLink.project d (c.base.sendLivePacket live)).1.onCacheResend resend =
        TrunkLink.project d ((c.base.sendLivePacket live).1.onCacheResend resend) :=
      (TrunkLink.project_onCacheResend (c.base.sendLivePacket live).1 resend).symm
    generalize hm : { c with base := ((c.base.sendLivePacket live).1.onCacheResend resend).1 } = m
    have hbase : { c.connection d with base :=
        (TrunkLink.project d ((c.base.sendLivePacket live).1.onCacheResend resend)).1 } =
        m.connection d := by
      rw [← hm]
      rfl
    have hcached : ∀ item ∈ m.connectCache, item.info.Headed := by
      rw [← hm]
      exact h.headed
    have hthird := project_resendConnects (d := d) hcached connects
    simp only [ClientConnection.event, ClientConnection.tick, tick, hfirst, hsecond, hbase, hm,
      ← hthird]
    refine congrArg some (Prod.ext rfl ?_)
    simp only [project, carrying_append, carrying_map hlives, carrying_map hresent]
    rfl

/-- **One event of a client**, seen by one connection. -/
theorem seen_event (h : c.Apart) {e : ClientEvent} {r : TrunkClient × List Bytes}
    (hevent : c.event e = some r) : Seen d c e r := by
  cases e with
  | link cnt e now => exact seen_link h hevent
  | sendData cnt data now =>
      cases hevent
      obtain ⟨hkeeps, hown, hforeign⟩ :=
        h.hosterCall (d := d) (e := .sendData cnt data now) (.sendData cnt data) now rfl
      exact ⟨hkeeps, fun hid => congrArg some (hown hid), hforeign⟩
  | closeConnect cnt now =>
      cases hevent
      obtain ⟨hkeeps, hown, hforeign⟩ :=
        h.hosterCall (d := d) (e := .closeConnect cnt now) (.closeConnect cnt) now rfl
      exact ⟨hkeeps, fun hid => congrArg some (hown hid), hforeign⟩
  | addConnect cnt point registered cached =>
      cases hevent
      exact seen_addConnect h cnt point registered cached
  | receive data now =>
      cases hevent
      exact seen_receive h data now
  | tick live resend connects =>
      cases hevent
      exact seen_tick h live resend connects

end TrunkClient
