import ByteStacker.Simulation
import ByteStacker.System
import ByteStacker.TrunkSteps

/-!
# What one event does to the system

Every event of the system is a few operations on the common part of one side:
`clientOps` and `serverOps` list them.  `step_effect` is the inversion of
`System.step`: the common parts change by these operations, and a datagram is
new only if one of them sent it or it belongs to the creation of a connection.

A fact about one side is proved for a single operation and carried over the
operations of an event by `Acts.invariant`.  A fact about the runs of one side alone
is carried over by `client_simulation` and `server_simulation`.
-/

namespace TrunkLink

/-- The operations of the list, one after the other, with all packets sent. -/
inductive Acts : TrunkLink → List TrunkOp → TrunkLink → List PacketInfo → Prop
  | nil {t : TrunkLink} : Acts t [] t []
  | cons {t t' t'' : TrunkLink} {op : TrunkOp} {ops : List TrunkOp} {sent rest : List PacketInfo}
      (happly : t.apply op = some (t', sent)) (hrest : Acts t' ops t'' rest) :
      Acts t (op :: ops) t'' (sent ++ rest)

/-- One operation is a list of one. -/
theorem Acts.single {t t' : TrunkLink} {op : TrunkOp} {sent : List PacketInfo}
    (happly : t.apply op = some (t', sent)) : Acts t [op] t' sent := by
  simpa using Acts.cons happly .nil

/-- **The rule for the operations of an event.** -/
theorem Acts.invariant {I : TrunkLink → Prop} {Q : TrunkOp → Prop} {t t' : TrunkLink}
    {ops : List TrunkOp} {sent : List PacketInfo} (hacts : Acts t ops t' sent)
    (hops : ∀ op ∈ ops, Q op) (h : I t)
    (hstep : ∀ t t' op sent, I t → Q op → t.apply op = some (t', sent) → I t') : I t' := by
  induction hacts with
  | nil => exact h
  | cons happly _ ih =>
      exact ih (fun op hop => hops op (List.mem_cons_of_mem _ hop))
        (hstep _ _ _ _ h (hops _ List.mem_cons_self) happly)

/-- The operations as the steps of one side. -/
def step (t : TrunkLink) (op : TrunkOp) : Option TrunkLink := (t.apply op).map Prod.fst

/-- The operations of the list are a run of the side. -/
theorem Acts.run {t t' : TrunkLink} {ops : List TrunkOp} {sent : List PacketInfo}
    (hacts : Acts t ops t' sent) : Transition.run step t ops = some t' := by
  induction hacts with
  | nil => rfl
  | cons happly _ ih => exact Transition.run_cons.mpr ⟨_, by rw [step, happly]; rfl, ih⟩

end TrunkLink

namespace System

open TrunkLink (Acts)

/-! ## The operations of an event -/

/-- The call the dispatcher of the server makes for the datagram of an event. -/
def serverCall (s : System) : SystemEvent → Option HandlerCall
  | .toServer n _ _ _ =>
    s.up[n]?.bind fun data => (processTrunkData true (data.take kPacketBufferSize)).join
  | _ => none

/-- The call the dispatcher of the client makes. -/
def clientCall (s : System) : SystemEvent → Option HandlerCall
  | .toClient n _ =>
    s.down[n]?.bind fun d => (processTrunkData false (d.data.take kPacketBufferSize)).join
  | _ => none

/-- The point of a `CreateConnect` that makes the server create a link. -/
def acceptedPoint (s : System) (cnt : ConnectID) (pointId : PointID) : Option AddressPortPoint :=
  match s.server.base.getOutLink cnt with
  | some _ => none
  | none => s.server.linkFabric pointId

def clientOps (s : System) (e : SystemEvent) : List TrunkOp :=
  match e with
  | .addConnect cnt _ registered _ =>
    if s.client.base.getOutLink cnt = none then [.add cnt none registered] else []
  | .clientAsio k ev now => [.asio k ev now]
  | .clientTick live resend _ => [.live live, .resend resend]
  | .toClient _ now =>
    match s.clientCall e with
    | some call => [.handle call now]
    | none => []
  | _ => []

def serverOps (s : System) (e : SystemEvent) : List TrunkOp :=
  match e with
  | .serverAsio k ev now => [.asio k ev now]
  | .serverTick live resend => [.live live, .resend resend]
  | .toServer _ _ _ now =>
    match s.serverCall e with
    | some (.processConnectData cnt pointId _) =>
      match s.acceptedPoint cnt pointId with
      | some point => [.add cnt (some point) now]
      | none => []
    | some call => [.handle call now]
    | none => []
  | .getStat => [.getStat]
  | _ => []

/-- Where a `CreateConnect` packet is made. -/
def connectInfo : SystemEvent → Option PacketInfo
  | .addConnect cnt point _ _ => some (connectPacket cnt point (UInt32.ofNat kResendTimeout))
  | _ => none

/-- **The effect of an event**: operations of the two common parts, and where
new datagrams and cached `CreateConnect` packets come from. -/
structure Effect (s : System) (e : SystemEvent) (s' : System)
    (clientSent serverSent : List PacketInfo) : Prop where
  client : Acts s.client.base (s.clientOps e) s'.client.base clientSent
  server : Acts s.server.base (s.serverOps e) s'.server.base serverSent
  connects : ∀ item' ∈ s'.client.connectCache,
    (∃ item ∈ s.client.connectCache, item'.info = item.info) ∨ connectInfo e = some item'.info
  up : ∃ new, s'.up = s.up ++ new ∧ ∀ d ∈ new, (∃ pkt ∈ clientSent, d = pkt.datagram) ∨
    ∃ item ∈ s'.client.connectCache, d = item.info.datagram
  down : ∃ new, s'.down = s.down ++ new ∧
    ∀ d ∈ new, (∃ pkt ∈ serverSent, d.data = pkt.datagram) ∨
      ∃ cnt, d.data = (ackCreatePacket cnt).datagram

/-- A datagram too short for the header is rejected. -/
theorem rejected_of_short {serverSide : Bool} {data : Bytes}
    (h : TrunkServer.getPacketConnectID data = none) :
    (processTrunkData serverSide data).join = none := by
  unfold TrunkServer.getPacketConnectID at h
  unfold processTrunkData
  split at h
  · rename_i hshort
    simp [hshort]
  · rename_i hlong
    simp [hlong, h]

/-- The server sends packets it was given. -/
theorem mem_sendPacket {server : TrunkServer} {pkts : List PacketInfo} {d : ServerDatagram}
    (h : d ∈ pkts.filterMap server.sendPacket) : ∃ pkt ∈ pkts, d.data = pkt.datagram := by
  obtain ⟨pkt, hpkt, hsend⟩ := List.mem_filterMap.mp h
  obtain ⟨info, _, rfl⟩ := Option.map_eq_some_iff.mp hsend
  exact ⟨pkt, hpkt, rfl⟩

variable {s s' : System} {e : SystemEvent}

/-! ## Events of the client -/

/-- **An event of the client alone affects the system so.** -/
theorem effect_client {r : TrunkClient × List Bytes} (clientSent : List PacketInfo)
    (hserver : s.serverOps e = [])
    (hclient : Acts s.client.base (s.clientOps e) r.1.base clientSent)
    (hconnects : ∀ item' ∈ r.1.connectCache,
      (∃ item ∈ s.client.connectCache, item'.info = item.info) ∨ connectInfo e = some item'.info)
    (hup : ∀ d ∈ r.2, (∃ pkt ∈ clientSent, d = pkt.datagram) ∨
      ∃ item ∈ r.1.connectCache, d = item.info.datagram) :
    ∃ clientSent serverSent, Effect s e (s.setClient r) clientSent serverSent := by
  refine ⟨clientSent, [], hclient, ?_, hconnects, ⟨r.2, rfl, hup⟩, ⟨[], by simp [setClient]⟩⟩
  rw [hserver]
  exact .nil

/-- The packets the client sends without a change of the connect cache. -/
theorem mem_clientSent {pkts : List PacketInfo} {d : Bytes} {cache : List PacketConnectCache}
    (h : d ∈ pkts.map TrunkClient.sendPacket) : (∃ pkt ∈ pkts, d = pkt.datagram) ∨
      ∃ item ∈ cache, d = item.info.datagram := by
  obtain ⟨pkt, hpkt, rfl⟩ := List.mem_map.mp h
  exact Or.inl ⟨pkt, hpkt, rfl⟩

/-- A new connection is an event of the client. -/
theorem effect_addConnect (s : System) (cnt : ConnectID) (point : PointID)
    (registered cached : Time) :
    ∃ clientSent serverSent, Effect s (.addConnect cnt point registered cached)
      (s.setClient (s.client.addConnect cnt point registered cached)) clientSent serverSent := by
  cases hfind : s.client.base.getOutLink cnt with
  | some k =>
      have hsame : s.client.addConnect cnt point registered cached = (s.client, []) := by
        simp only [TrunkClient.addConnect, hfind]
      rw [hsame]
      refine effect_client [] rfl ?_ (fun item hitem => Or.inl ⟨item, hitem, rfl⟩) (by simp)
      simp only [clientOps, hfind, reduceCtorEq, if_false]
      exact .nil
  | none =>
      simp only [TrunkClient.addConnect, hfind, TrunkClient.sendConnectInformation]
      refine effect_client [] rfl ?_ ?_ ?_
      · simp only [clientOps, hfind, if_true]
        refine .single ?_
        simp only [TrunkLink.apply, hfind]
        rfl
      · intro item hitem
        rcases List.mem_append.mp hitem with hitem | hitem
        · exact Or.inl ⟨item, hitem, rfl⟩
        · rw [List.mem_singleton.mp hitem]
          exact Or.inr rfl
      · intro d hd
        exact Or.inr ⟨_, List.mem_append_right _ (List.mem_singleton_self _),
          List.mem_singleton.mp hd⟩

/-- So is an event of one of its sockets. -/
theorem effect_clientAsio {k : Nat} {ev : AsioEvent} {now : Time}
    {r : TrunkClient × List Bytes} (h : s.client.asioStep k ev now = some r) :
    ∃ clientSent serverSent,
      Effect s (.clientAsio k ev now) (s.setClient r) clientSent serverSent := by
  obtain ⟨⟨base, pkts⟩, hstep, rfl⟩ := Option.map_eq_some_iff.mp h
  exact effect_client _ rfl (.single hstep) (fun item hitem => Or.inl ⟨item, hitem, rfl⟩)
    fun d hd => mem_clientSent hd

/-- So is its tick. -/
theorem effect_clientTick (s : System) (live resend connects : Time) :
    ∃ clientSent serverSent, Effect s (.clientTick live resend connects)
      (s.setClient (s.client.tick live resend connects)) clientSent serverSent := by
  refine effect_client _ rfl (.cons rfl (.single rfl)) ?_ ?_
  · intro item hitem
    obtain ⟨old, hold, rfl⟩ := List.mem_map.mp hitem
    refine Or.inl ⟨old, List.mem_of_mem_filter hold, ?_⟩
    split <;> rfl
  · intro d hd
    rcases List.mem_append.mp hd with hd | hd
    · rw [← List.map_append] at hd
      exact mem_clientSent hd
    · obtain ⟨old, hold, rfl⟩ := List.mem_map.mp hd
      refine Or.inr ⟨_, List.mem_map_of_mem (List.mem_of_mem_filter hold), ?_⟩
      split <;> rfl

/-- So is a datagram that arrives at it. -/
theorem effect_toClient {n : Nat} {now : Time} {d : ServerDatagram} (hd : s.down[n]? = some d) :
    ∃ clientSent serverSent, Effect s (.toClient n now)
      (s.setClient (s.client.receiveTrunkData d.data now)) clientSent serverSent := by
  have hcall : s.clientCall (.toClient n now) =
      (processTrunkData false (d.data.take kPacketBufferSize)).join := by
    simp [clientCall, hd]
  cases hread : processTrunkData false (d.data.take kPacketBufferSize) with
  | none =>
      rw [hread] at hcall
      simp only [TrunkClient.receiveTrunkData, hread]
      refine effect_client [] rfl ?_ (fun item hitem => Or.inl ⟨item, hitem, rfl⟩) (by simp)
      simp only [clientOps, hcall, Option.join_none]
      exact .nil
  | some answer =>
      rw [hread, Option.join_some] at hcall
      cases answer with
      | none =>
          simp only [TrunkClient.receiveTrunkData, hread]
          refine effect_client [] rfl ?_ (fun item hitem => Or.inl ⟨item, hitem, rfl⟩) (by simp)
          simp only [clientOps, hcall]
          exact .nil
      | some call =>
          simp only [TrunkClient.receiveTrunkData, hread]
          have hacts : Acts s.client.base (s.clientOps (.toClient n now))
              (s.client.base.handle now call).1 (s.client.base.handle now call).2 := by
            simp only [clientOps, hcall]
            exact .single rfl
          by_cases hack : ∃ cnt, call = .processAckConnectData cnt
          · obtain ⟨cnt, rfl⟩ := hack
            exact effect_client _ rfl hacts
              (fun item hitem => Or.inl ⟨item, List.mem_of_mem_filter hitem, rfl⟩)
              (by simp [TrunkClient.handle])
          · rw [TrunkClient.handle_base (by simpa using hack)]
            exact effect_client _ rfl hacts (fun item hitem => Or.inl ⟨item, hitem, rfl⟩)
              fun d hd => mem_clientSent hd

/-! ## Events of the server -/

/-- **An event of the server alone affects the system so.** -/
theorem effect_server {r : TrunkServer × List ServerDatagram} (serverSent : List PacketInfo)
    (hclient : s.clientOps e = [])
    (hserver : Acts s.server.base (s.serverOps e) r.1.base serverSent)
    (hdown : ∀ d ∈ r.2, (∃ pkt ∈ serverSent, d.data = pkt.datagram) ∨
      ∃ cnt, d.data = (ackCreatePacket cnt).datagram) :
    ∃ clientSent serverSent, Effect s e (s.setServer r) clientSent serverSent := by
  refine ⟨[], serverSent, ?_, hserver, fun item hitem => Or.inl ⟨item, hitem, rfl⟩,
    ⟨[], by simp [setServer]⟩, ⟨r.2, rfl, hdown⟩⟩
  rw [hclient]
  exact .nil

/-- An event of one of its sockets is such an event. -/
theorem effect_serverAsio {k : Nat} {ev : AsioEvent} {now : Time}
    {r : TrunkServer × List ServerDatagram} (h : s.server.asioStep k ev now = some r) :
    ∃ clientSent serverSent,
      Effect s (.serverAsio k ev now) (s.setServer r) clientSent serverSent := by
  obtain ⟨⟨base, pkts⟩, hstep, rfl⟩ := Option.map_eq_some_iff.mp h
  exact effect_server _ rfl (.single hstep) fun d hd => Or.inl (mem_sendPacket hd)

/-- So is its tick. -/
theorem effect_serverTick (s : System) (live resend : Time) :
    ∃ clientSent serverSent, Effect s (.serverTick live resend)
      (s.setServer (s.server.tick live resend)) clientSent serverSent :=
  effect_server _ rfl (.cons rfl (.single rfl)) fun _ hd => Or.inl (mem_sendPacket hd)

/-- So is a look at the statistics, which does nothing to the links. -/
theorem effect_getStat (s : System) :
    ∃ clientSent serverSent, Effect s .getStat
      { s with server := s.server.getStat.1 } clientSent serverSent := by
  have h := effect_server (s := s) (e := .getStat) (r := (s.server.getStat.1, [])) []
    rfl (.single rfl) (by simp)
  simpa [setServer] using h

/-- A call other than a request is one operation of the link manager. -/
theorem serverOps_base {n index : Nat} {sender : Endpoint} {now : Time} {call : HandlerCall}
    (hcall : s.serverCall (.toServer n index sender now) = some call)
    (hother : ∀ cnt pointId timeout, call ≠ .processConnectData cnt pointId timeout) :
    s.serverOps (.toServer n index sender now) = [.handle call now] := by
  cases call with
  | processConnectData cnt pointId timeout => exact absurd rfl (hother cnt pointId timeout)
  | processAckConnectData cnt => simp only [serverOps, hcall]
  | processDataToOutlink cnt packetIndex data => simp only [serverOps, hcall]
  | processAckData cnt packetIndex => simp only [serverOps, hcall]
  | processReleaseConnect cnt packetId => simp only [serverOps, hcall]
  | processLive cnt => simp only [serverOps, hcall]

/-- The server acknowledges the creation of a connection, and registers it if
the connection is new and the fabric knows the point. -/
theorem effect_processConnectData {n index : Nat} {sender : Endpoint} {now : Time}
    {cnt : ConnectID} {pointId : PointID} {timeout : UInt32}
    (hcall : s.serverCall (.toServer n index sender now) =
      some (.processConnectData cnt pointId timeout)) (info : ConnectInfo) :
    ∃ clientSent serverSent, Effect s (.toServer n index sender now)
      (s.setServer ((s.server.addClientLink info).processConnectData cnt pointId now))
      clientSent serverSent := by
  have hops : s.serverOps (.toServer n index sender now) =
      match s.acceptedPoint cnt pointId with
      | some point => [.add cnt (some point) now]
      | none => [] := by
    simp only [serverOps, hcall]
  have hack : ∀ d ∈ [ackCreatePacket cnt].filterMap (s.server.addClientLink info).sendPacket,
      ∃ cnt, d.data = (ackCreatePacket cnt).datagram := by
    intro d hd
    obtain ⟨pkt, hpkt, hdata⟩ := mem_sendPacket hd
    exact ⟨cnt, List.mem_singleton.mp hpkt ▸ hdata⟩
  unfold TrunkServer.processConnectData
  cases hfind : s.server.base.getOutLink cnt with
  | some k =>
      have hfind' : (s.server.addClientLink info).base.getOutLink cnt = some k := hfind
      simp only [hfind']
      refine effect_server [] rfl ?_ fun d hd => Or.inr (hack d hd)
      rw [hops, acceptedPoint, hfind]
      exact .nil
  | none =>
      have hfind' : (s.server.addClientLink info).base.getOutLink cnt = none := hfind
      simp only [hfind']
      cases hpoint : s.server.linkFabric pointId with
      | none =>
          have hpoint' : (s.server.addClientLink info).linkFabric pointId = none := hpoint
          simp only [hpoint']
          refine effect_server [] rfl ?_ fun d hd => Or.inr (hack d hd)
          rw [hops, acceptedPoint, hfind, hpoint]
          exact .nil
      | some point =>
          have hpoint' : (s.server.addClientLink info).linkFabric pointId = some point := hpoint
          simp only [hpoint']
          refine effect_server [] rfl ?_ fun d hd => Or.inr (hack d hd)
          rw [hops, acceptedPoint, hfind, hpoint]
          refine .single ?_
          simp only [TrunkLink.apply, hfind]
          rfl

/-- The server handles a call of its dispatcher, its records updated before. -/
theorem effect_serverHandle {n index : Nat} {sender : Endpoint} {now : Time} {call : HandlerCall}
    (hcall : s.serverCall (.toServer n index sender now) = some call) (info : ConnectInfo) :
    ∃ clientSent serverSent, Effect s (.toServer n index sender now)
      (s.setServer ((s.server.addClientLink info).handle now call)) clientSent serverSent := by
  by_cases hcreate : ∃ cnt pointId timeout, call = .processConnectData cnt pointId timeout
  · obtain ⟨cnt, pointId, timeout, rfl⟩ := hcreate
    exact effect_processConnectData hcall info
  · have hother : ∀ cnt pointId timeout, call ≠ .processConnectData cnt pointId timeout := by
      simpa using hcreate
    rw [TrunkServer.handle_base hother]
    refine effect_server _ rfl ?_ fun d hd => Or.inl (mem_sendPacket hd)
    rw [serverOps_base hcall hother]
    exact .single rfl

/-- A datagram that arrives at the server is an event of the server. -/
theorem effect_toServer {n index : Nat} {sender : Endpoint} {now : Time} {data : Bytes}
    (hdata : s.up[n]? = some data) :
    ∃ clientSent serverSent, Effect s (.toServer n index sender now)
      (s.setServer (s.server.receiveTrunkData index sender data now)) clientSent serverSent := by
  have hcall : s.serverCall (.toServer n index sender now) =
      (processTrunkData true (data.take kPacketBufferSize)).join := by
    simp [serverCall, hdata]
  cases hid : TrunkServer.getPacketConnectID (data.take kPacketBufferSize) with
  | none =>
      rw [rejected_of_short hid] at hcall
      simp only [TrunkServer.receiveTrunkData, hid]
      refine effect_server [] rfl ?_ (by simp)
      simp only [serverOps, hcall]
      exact .nil
  | some cnt =>
      simp only [TrunkServer.receiveTrunkData, hid]
      cases hread : processTrunkData true (data.take kPacketBufferSize) with
      | none =>
          rw [hread] at hcall
          refine effect_server [] rfl ?_ (by simp)
          simp only [serverOps, hcall, Option.join_none]
          exact .nil
      | some answer =>
          rw [hread, Option.join_some] at hcall
          cases answer with
          | none =>
              refine effect_server [] rfl ?_ (by simp)
              simp only [serverOps, hcall]
              exact .nil
          | some call => exact effect_serverHandle hcall _

/-- **Every event is these operations, and sends nothing else.** -/
theorem step_effect (hstep : s.step e = some s') :
    ∃ clientSent serverSent, Effect s e s' clientSent serverSent := by
  cases e with
  | addConnect cnt point registered cached =>
      cases hstep
      exact effect_addConnect s cnt point registered cached
  | clientAsio k ev now =>
      obtain ⟨r, hr, rfl⟩ := Option.map_eq_some_iff.mp hstep
      exact effect_clientAsio hr
  | serverAsio k ev now =>
      obtain ⟨r, hr, rfl⟩ := Option.map_eq_some_iff.mp hstep
      exact effect_serverAsio hr
  | clientTick live resend connects =>
      cases hstep
      exact effect_clientTick s live resend connects
  | serverTick live resend =>
      cases hstep
      exact effect_serverTick s live resend
  | toServer n index sender now =>
      simp only [step] at hstep
      split at hstep
      · cases hstep
      · rename_i data hdata
        split at hstep
        · cases hstep
          exact effect_toServer hdata
        · cases hstep
  | toClient n now =>
      simp only [step] at hstep
      split at hstep
      · cases hstep
      · rename_i d hd
        cases hstep
        exact effect_toClient hd
  | getStat =>
      cases hstep
      exact effect_getStat s

/-! ## The sides alone -/

/-- The common part of the client runs through the operations of the events. -/
theorem client_simulation : Transition.Simulation step (fun _ _ => True) TrunkLink.step clientOps
    (fun t s => s.client.base = t) where
  step := by
    intro t s e s' hrel _ hstep
    obtain ⟨clientSent, serverSent, heffect⟩ := step_effect hstep
    exact ⟨s'.client.base, hrel ▸ heffect.client.run, rfl⟩

/-- So does the one of the server. -/
theorem server_simulation : Transition.Simulation step (fun _ _ => True) TrunkLink.step serverOps
    (fun t s => s.server.base = t) where
  step := by
    intro t s e s' hrel _ hstep
    obtain ⟨clientSent, serverSent, heffect⟩ := step_effect hstep
    exact ⟨s'.server.base, hrel ▸ heffect.server.run, rfl⟩

/-- **Each side of a run is a run of its common part.** -/
theorem run_sides {es : List SystemEvent} (hrun : Transition.run step s es = some s') :
    Transition.run TrunkLink.step s.client.base (Transition.collect step clientOps s es) =
        some s'.client.base ∧
      Transition.run TrunkLink.step s.server.base (Transition.collect step serverOps s es) =
        some s'.server.base := by
  have hok : Transition.Always step (fun _ _ _ => True) s es :=
    Transition.always_of_mem (P := fun _ => True) fun _ _ => trivial
  obtain ⟨t, ht, hclient⟩ := client_simulation.run rfl hok hrun
  obtain ⟨u, hu, hserver⟩ := server_simulation.run rfl hok hrun
  exact ⟨hclient ▸ ht, hserver ▸ hu⟩

end System
