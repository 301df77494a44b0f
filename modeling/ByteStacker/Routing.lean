import ByteStacker.SideRuns

/-!
# The routing table of the server

A server answers to the socket and the address the last datagram of a connection
came from.  `routing_invariant` is what `clients_link_` guarantees in every run:
a live connection and a packet that may be sent again always have a route, and
its socket exists.

The table is written before the datagram is checked, and `CreateConnect` is
acknowledged before the link is created.  `untouched_iff_known_source` and
`truthful_iff_creatable` say when these two orders cannot be seen.
-/

open Transition

namespace TrunkServer

variable {s s' : TrunkServer} {cnt : ConnectID}

/-! ## The invariant -/

/-- The ids of the table after a record was written. -/
theorem map_connect_replaceClientLink (info : ConnectInfo) (xs : List ConnectInfo) :
    (replaceClientLink info xs).map ConnectInfo.connect =
      if info.connect ∈ xs.map ConnectInfo.connect then xs.map ConnectInfo.connect
      else xs.map ConnectInfo.connect ++ [info.connect] := by
  induction xs with
  | nil => simp [replaceClientLink]
  | cons x rest ih =>
      unfold replaceClientLink
      by_cases hx : x.connect = info.connect
      · simp [hx]
      · have hx' : ¬ info.connect = x.connect := fun heq => hx heq.symm
        by_cases hmem : info.connect ∈ rest.map ConnectInfo.connect
        · rw [if_neg hx, List.map_cons, ih, if_pos hmem, List.map_cons,
            if_pos (List.mem_cons_of_mem _ hmem)]
        · rw [if_neg hx, List.map_cons, ih, if_neg hmem, List.map_cons,
            if_neg (by simpa [hx'] using hmem), List.cons_append]

/-- **The routing invariant of a server.** -/
structure Routed (s : TrunkServer) : Prop where
  linksOnce : (s.base.outLinks.map OutLinkInfo.connectId).Nodup
  recordsOnce : (s.clientsLink.map ConnectInfo.connect).Nodup
  sockets : ∀ info ∈ s.clientsLink, info.socketIndex < s.trunkSockets
  known : s.base.Covers s.Known

/-- A new server routes nothing. -/
theorem routed_create (trunkSockets : Nat) (linkFabric : PointID → Option AddressPortPoint)
    (now : Time) : (create trunkSockets linkFabric now).Routed where
  linksOnce := List.nodup_nil
  recordsOnce := List.nodup_nil
  sockets := by simp [create]
  known := ⟨by simp [create, TrunkLink.create], by simp [create, TrunkLink.create]⟩

/-- A packet of a known id is sent, through a socket that exists. -/
theorem Routed.sendPacket (h : s.Routed) {pkt : PacketInfo} (hpkt : s.Known pkt.ctxId) :
    ∃ sent, s.sendPacket pkt = some sent ∧ sent.socketIndex < s.trunkSockets := by
  obtain ⟨info, hinfo⟩ := hpkt
  refine ⟨⟨info.socketIndex, info.client, pkt.datagram⟩, ?_, ?_⟩
  · rw [TrunkServer.sendPacket, hinfo]
    rfl
  · exact h.sockets info (List.mem_of_find?_eq_some hinfo)

/-- A datagram writes the route of its connection. -/
theorem Routed.addClientLink (h : s.Routed) {info : ConnectInfo}
    (hsocket : info.socketIndex < s.trunkSockets) : (s.addClientLink info).Routed where
  linksOnce := h.linksOnce
  recordsOnce := by
    change ((replaceClientLink info s.clientsLink).map ConnectInfo.connect).Nodup
    rw [map_connect_replaceClientLink]
    split
    · exact h.recordsOnce
    · rename_i hfree
      rw [← List.concat_eq_append]
      exact h.recordsOnce.concat hfree
  sockets := by
    intro item hitem
    rcases mem_replaceClientLink hitem with rfl | hitem
    · exact hsocket
    · exact h.sockets item hitem
  known := ⟨fun item hitem => (h.known.links item hitem).addClientLink info,
    fun item hitem => (h.known.cached item hitem).addClientLink info⟩

/-- An operation of the common part keeps the routes, and all its packets are sent. -/
theorem Routed.call (h : s.Routed) {e : TrunkCall} {base : TrunkLink} {pkts : List PacketInfo}
    (hadd : ∀ cnt, e.added = some cnt → s.Known cnt)
    (hcall : s.base.call e = some (base, pkts)) :
    { s with base := base }.Routed ∧ ∀ pkt ∈ pkts, s.Known pkt.ctxId := by
  obtain ⟨hknown, hsent⟩ := h.known.call hadd hcall
  exact ⟨⟨TrunkLink.call_ids h.linksOnce hcall, h.recordsOnce, h.sockets, hknown⟩, hsent⟩

/-- Operations that register nothing. -/
theorem Routed.call_other (h : s.Routed) {e : TrunkCall} {base : TrunkLink}
    {pkts : List PacketInfo} (hother : e.added = none)
    (hcall : s.base.call e = some (base, pkts)) : { s with base := base }.Routed :=
  (h.call (fun cnt hadd => by simp [hother] at hadd) hcall).1

/-- **A datagram keeps the routes sound.** -/
theorem Routed.receive (h : s.Routed) {fabric : PointID → Option AddressPortPoint} {index : Nat}
    {client : Endpoint} {data : Bytes} {now : Time} {sent : List ServerDatagram}
    (hindex : index < s.trunkSockets)
    (hreceive : s.receive fabric index client data now = (s', sent)) : s'.Routed := by
  cases receive_result hreceive with
  | short hshort => exact h
  | rejected hlong hid hreject => exact h.addClientLink hindex
  | known hcall hlink => exact h.addClientLink hindex
  | refused hcall hlink hpoint => exact h.addClientLink hindex
  | @created cnt pointId timeout point hcall hlink hpoint =>
      have hroute : (s.addClientLink ⟨cnt, index, client⟩).Routed := h.addClientLink hindex
      have hadd : s.base.call (.op (.add cnt (some point) now)) =
          some (s.base.intAddOutLink cnt (newLink (some point)) now, []) := by
        simp [TrunkLink.call, TrunkLink.apply, hlink]
      refine (hroute.call ?_ hadd).1
      intro other hother
      cases hother
      exact known_addClientLink s ⟨cnt, index, client⟩
  | @handled call hcall hother =>
      have hroute : (s.addClientLink ⟨call.cnt, index, client⟩).Routed := h.addClientLink hindex
      exact hroute.call_other (e := .op (.handle call now)) rfl rfl

/-- **One event keeps the routes.** -/
theorem Routed.step (h : s.Routed) {e : ServerEvent} (hstep : s.step e = some s') : s'.Routed := by
  obtain ⟨⟨m, sent⟩, hevent, rfl⟩ := Option.map_eq_some_iff.mp hstep
  cases e with
  | receive index client data now throws =>
      simp only [event] at hevent
      split at hevent
      · rename_i hindex
        exact h.receive hindex (Option.some.inj hevent)
      · cases hevent
  | link cnt e now =>
      simp only [event] at hevent
      split at hevent
      · cases hevent
      · rename_i k hk
        obtain ⟨⟨base, pkts⟩, hcall, heq⟩ := Option.map_eq_some_iff.mp hevent
        cases heq
        exact h.call_other (e := .op (.asio k e now)) rfl hcall
  | sendData cnt data now =>
      cases hevent
      exact h.call_other (e := .sendData cnt data now) rfl rfl
  | closeConnect cnt now =>
      cases hevent
      exact h.call_other (e := .closeConnect cnt now) rfl rfl
  | tick live resend =>
      cases hevent
      have hlive := h.call_other (e := .op (.live live)) rfl rfl
      exact hlive.call_other (e := .op (.resend resend)) rfl rfl
  | getStat =>
      cases hevent
      exact h.call_other (e := .op .getStat) rfl rfl

/-- Registering a connection sends nothing by itself. -/
theorem sent_of_added {t base : TrunkLink} {e : TrunkCall} {pkts : List PacketInfo}
    (hadded : e.added = some cnt) (hcall : t.call e = some (base, pkts)) : pkts = [] := by
  cases hcmd : t.cmdCall e with
  | none =>
      cases TrunkLink.call_quiet hcmd hcall with
      | added _ => rfl
      | kept hadd _ _ _ _ _ => simp [hadd] at hadded
  | some call => simp [TrunkLink.added_of_cmd hcmd] at hadded

/-- **The routing table serves every connection.**  In every state of every run of
a server the ids of `out_links_` and of `clients_link_` are unique, the recorded
sockets exist, and every registered or cached id has a route.  So every packet of
a live connection, every cached packet and every packet any operation hands to
`SendPacket` is sent, through an existing socket. -/
theorem routing_invariant {trunkSockets : Nat} {linkFabric : PointID → Option AddressPortPoint}
    {now : Time} {es : List ServerEvent}
    (hrun : run step (create trunkSockets linkFabric now) es = some s) :
    s.Routed ∧
    (∀ pkt : PacketInfo, (s.base.getOutLink pkt.ctxId ≠ none ∨
        ∃ item ∈ s.base.packetDataCache, item.info = pkt) →
      ∃ sent, s.sendPacket pkt = some sent ∧ sent.socketIndex < s.trunkSockets) ∧
    ∀ e base pkts, s.base.call e = some (base, pkts) → ∀ pkt ∈ pkts,
      ∃ sent, s.sendPacket pkt = some sent ∧ sent.socketIndex < s.trunkSockets := by
  have hrouted : s.Routed := run_invariant (fun s e s' h hstep => h.step hstep)
    (routed_create trunkSockets linkFabric now) hrun
  refine ⟨hrouted, ?_, ?_⟩
  · intro pkt hpkt
    refine hrouted.sendPacket ?_
    rcases hpkt with hlink | ⟨item, hitem, rfl⟩
    · obtain ⟨item, hitem, hid⟩ : ∃ item ∈ s.base.outLinks, item.connectId = pkt.ctxId := by
        by_contra hnone
        refine hlink (TrunkLink.find_eq_none_iff.mpr fun hmem => hnone ?_)
        exact List.mem_map.mp hmem
      exact hid ▸ hrouted.known.links item hitem
    · exact hrouted.known.cached item hitem
  · intro e base pkts hcall pkt hpkt
    cases hadded : e.added with
    | none =>
        have hknown : ∀ cnt, e.added = some cnt → s.Known cnt := by simp [hadded]
        exact hrouted.sendPacket ((hrouted.call hknown hcall).2 pkt hpkt)
    | some cnt =>
        rw [sent_of_added hadded hcall] at hpkt
        cases hpkt

/-- A request for one connection, from the address `[1]`. -/
def request : ServerEvent :=
  .receive 0 ⟨[1], 1000⟩ (connectPacket (.ofByte 1) 7 500).datagram 0 false

/-- The Release of a connection outlives its link, and still has its route. -/
theorem routing_invariant_release :
    ∃ s item, run step (create 1 (fun _ => some ⟨"10.0.0.1", 22⟩) 0)
        [request, .closeConnect (.ofByte 1) 1] = some s ∧
      s.base.getOutLink (.ofByte 1) = none ∧ s.base.packetDataCache = [item] ∧
      item.info = dataPacket (.ofByte 1) [] .releaseConnect 0 ∧
      ∃ sent, s.sendPacket item.info = some sent ∧ sent.socketIndex < 1 := by
  refine ⟨_, _, rfl, by decide +kernel, rfl, rfl, ?_⟩
  have hrouting := @routing_invariant _ 1 (fun _ => some ⟨"10.0.0.1", 22⟩) 0
    [request, .closeConnect (.ofByte 1) 1] rfl
  exact hrouting.2.1 _ (Or.inr ⟨_, List.mem_singleton_self _, rfl⟩)

/-! ## Rejected datagrams -/

/-- No handler runs for the datagram. -/
def Rejected (data : Bytes) : Prop :=
  processTrunkData true (data.take kPacketBufferSize) = some none

instance (data : Bytes) : Decidable (Rejected data) := inferInstanceAs (Decidable (_ = _))

/-- A rejected datagram leaves the server as it is, and a route changes only
through a datagram that is not rejected. -/
structure Untouched (s : TrunkServer) (e : ServerEvent) (s' : TrunkServer) : Prop where
  rejected : ∀ {index client data now throws},
    e = .receive index client data now throws → Rejected data → s' = s
  routes : ∀ cnt, s'.getClientLink cnt ≠ s.getClientLink cnt →
    ∃ index client data now throws, e = .receive index client data now throws ∧ ¬ Rejected data

/-- A rejected datagram that has a header comes from where the last datagram of its
connection came from. -/
def KnownSource (s : TrunkServer) (e : ServerEvent) (_ : TrunkServer) : Prop :=
  ∀ index client data now throws cnt, e = .receive index client data now throws → Rejected data →
    getPacketConnectID (data.take kPacketBufferSize) = some cnt →
    s.getClientLink cnt = some ⟨cnt, index, client⟩

/-- A record that says the same is not replaced. -/
theorem addClientLink_eq_self {info : ConnectInfo} :
    s.addClientLink info = s ↔ s.getClientLink info.connect = some info := by
  unfold getClientLink
  rw [← replaceClientLink_eq_self]
  constructor
  · intro heq
    exact congrArg clientsLink heq
  · intro heq
    rw [addClientLink, heq]

/-- **What a rejected datagram does.** -/
theorem receive_rejected {fabric : PointID → Option AddressPortPoint} {index : Nat}
    {client : Endpoint} {data : Bytes} {now : Time} {sent : List ServerDatagram}
    (hreject : Rejected data) (hreceive : s.receive fabric index client data now = (s', sent)) :
    s' = s ↔ ∀ cnt, getPacketConnectID (data.take kPacketBufferSize) = some cnt →
      s.getClientLink cnt = some ⟨cnt, index, client⟩ := by
  unfold Rejected at hreject
  cases receive_result hreceive with
  | short hshort =>
      refine ⟨fun _ cnt hcnt => ?_, fun _ => rfl⟩
      have hlong := (getPacketConnectID_eq_some_iff.mp hcnt).1
      omega
  | @rejected cnt hlong hid _ =>
      rw [addClientLink_eq_self]
      constructor
      · intro hroute other hother
        obtain rfl := Option.some.inj ((getPacketConnectID_eq_some_iff.mp hother).2.symm.trans hid)
        exact hroute
      · intro hall
        exact hall cnt (getPacketConnectID_eq_some_iff.mpr ⟨hlong, hid⟩)
  | known hcall hlink => simp [hreject] at hcall
  | refused hcall hlink hpoint => simp [hreject] at hcall
  | created hcall hlink hpoint => simp [hreject] at hcall
  | handled hcall hother => simp [hreject] at hcall

/-- Only datagrams write the routing table. -/
theorem step_clientsLink {e : ServerEvent} (hstep : s.step e = some s') :
    s'.clientsLink = s.clientsLink ∨
      ∃ index client data now throws, e = .receive index client data now throws := by
  obtain ⟨⟨m, sent⟩, hevent, rfl⟩ := Option.map_eq_some_iff.mp hstep
  cases e with
  | receive index client data now throws => exact Or.inr ⟨index, client, data, now, throws, rfl⟩
  | link cnt e now =>
      simp only [event] at hevent
      split at hevent
      · cases hevent
      · obtain ⟨r, _, heq⟩ := Option.map_eq_some_iff.mp hevent
        cases heq
        exact Or.inl rfl
  | sendData cnt data now => cases hevent; exact Or.inl rfl
  | closeConnect cnt now => cases hevent; exact Or.inl rfl
  | tick live resend => cases hevent; exact Or.inl rfl
  | getStat => cases hevent; exact Or.inl rfl

/-- A datagram is received with the factory as it is at that moment. -/
theorem step_receive {index : Nat} {client : Endpoint} {data : Bytes} {now : Time} {throws : Bool}
    (hstep : s.step (.receive index client data now throws) = some s') :
    ∃ sent, s.receive (s.fabric throws) index client data now = (s', sent) := by
  obtain ⟨⟨m, sent⟩, hevent, rfl⟩ := Option.map_eq_some_iff.mp hstep
  simp only [event] at hevent
  split at hevent
  · exact ⟨sent, Option.some.inj hevent⟩
  · cases hevent

/-- **Rejected datagrams leave the server untouched exactly if they bring no new
source.**  Along every run, a datagram that no handler gets changes nothing, and
routes change only through datagrams that a handler gets, if and only if every
rejected datagram with a header comes from the recorded socket and address of its
connection. -/
theorem untouched_iff_known_source {es : List ServerEvent} :
    Always step Untouched s es ↔ Always step KnownSource s es := by
  refine always_iff (I := fun _ => True) ?_ (fun _ _ _ _ _ _ => trivial) trivial
  intro s e s' _ hstep
  constructor
  · intro huntouched index client data now throws cnt he hreject hcnt
    subst he
    obtain ⟨sent, hreceive⟩ := step_receive hstep
    exact (receive_rejected hreject hreceive).mp (huntouched.rejected rfl hreject) cnt hcnt
  · intro hsource
    have hsame : ∀ {index client data now throws}, e = .receive index client data now throws →
        Rejected data → s' = s := by
      intro index client data now throws he hreject
      subst he
      obtain ⟨sent, hreceive⟩ := step_receive hstep
      exact (receive_rejected hreject hreceive).mpr
        fun cnt hcnt => hsource index client data now throws cnt rfl hreject hcnt
    refine ⟨hsame, fun cnt hchanged => ?_⟩
    rcases step_clientsLink hstep with hlinks | ⟨index, client, data, now, throws, he⟩
    · exact absurd (by rw [getClientLink, hlinks, getClientLink]) hchanged
    · refine ⟨index, client, data, now, throws, he, fun hreject => hchanged ?_⟩
      rw [hsame he hreject]

/-- Twenty bytes with a known id and no known command, from another address, take
the route of the connection along. -/
theorem rerouted_by_junk :
    ∃ s s', run step (create 1 (fun _ => some ⟨"10.0.0.1", 22⟩) 0) [request] = some s ∧
      s.step (.receive 0 ⟨[2], 2000⟩ ((Uuid.ofByte 1).data ++ ByteFields.le32 99) 1 false) =
        some s' ∧
      Rejected ((Uuid.ofByte 1).data ++ ByteFields.le32 99) ∧
      s.base.getOutLink (.ofByte 1) ≠ none ∧
      s.getClientLink (.ofByte 1) = some ⟨.ofByte 1, 0, ⟨[1], 1000⟩⟩ ∧
      s'.getClientLink (.ofByte 1) = some ⟨.ofByte 1, 0, ⟨[2], 2000⟩⟩ ∧
      ¬ Untouched s (.receive 0 ⟨[2], 2000⟩ ((Uuid.ofByte 1).data ++ ByteFields.le32 99) 1 false)
        s' := by
  refine ⟨_, _, rfl, rfl, by decide, by decide +kernel, by decide +kernel, by decide +kernel, ?_⟩
  intro huntouched
  have hsame := congrArg (fun s => s.getClientLink (.ofByte 1))
    (huntouched.rejected rfl (by decide))
  revert hsame
  decide +kernel

/-! ## Requests for a connection -/

/-- A request for a connection is acknowledged only if the connection has a link
when its handling is over. -/
def Truthful (s : TrunkServer) (e : ServerEvent) (s' : TrunkServer) : Prop :=
  ∀ index client data now throws cnt pointId timeout,
    e = .receive index client data now throws →
    processTrunkData true (data.take kPacketBufferSize) =
      some (some (.processConnectData cnt pointId timeout)) →
    (∃ datagram ∈ s.sent e, datagram.data = (ackCreatePacket cnt).datagram) →
    s'.base.getOutLink cnt ≠ none

/-- A request for a connection comes for one that has a link, or the factory knows
the point and creating the link does not fail. -/
def Creatable (s : TrunkServer) (e : ServerEvent) (_ : TrunkServer) : Prop :=
  ∀ index client data now throws cnt pointId timeout,
    e = .receive index client data now throws →
    processTrunkData true (data.take kPacketBufferSize) =
      some (some (.processConnectData cnt pointId timeout)) →
    s.base.getOutLink cnt ≠ none ∨ (throws = false ∧ s.linkFabric pointId ≠ none)

/-- What the server sends then is what its step sends. -/
theorem sent_receive {index : Nat} {client : Endpoint} {data : Bytes} {now : Time} {throws : Bool}
    (hstep : s.step (.receive index client data now throws) = some s') :
    s.receive (s.fabric throws) index client data now =
      (s', s.sent (.receive index client data now throws)) := by
  obtain ⟨⟨m, sent⟩, hevent, rfl⟩ := Option.map_eq_some_iff.mp hstep
  rw [TrunkServer.sent, hevent]
  simp only [event] at hevent
  split at hevent
  · exact Option.some.inj hevent
  · cases hevent

/-- The link of a connection just registered. -/
theorem getOutLink_intAddOutLink (t : TrunkLink) (cnt : ConnectID) (link : OutLink) (now : Time) :
    (t.intAddOutLink cnt link now).getOutLink cnt ≠ none := by
  rw [ne_eq, TrunkLink.find_eq_none_iff]
  simp [TrunkLink.intAddOutLink]

/-- What the factory has to answer for a link. -/
theorem fabric_ne_none {throws : Bool} {pointId : PointID} :
    s.fabric throws pointId ≠ none ↔ throws = false ∧ s.linkFabric pointId ≠ none := by
  cases throws <;> simp [fabric]

/-- **What an answered request leaves behind**: every request is acknowledged, and
afterwards there is a link exactly if there was one or one could be created. -/
theorem receive_connect {fabric : PointID → Option AddressPortPoint} {index : Nat}
    {client : Endpoint} {data : Bytes} {now : Time} {datagrams : List ServerDatagram}
    {pointId timeout : UInt32}
    (hcall : processTrunkData true (data.take kPacketBufferSize) =
      some (some (.processConnectData cnt pointId timeout)))
    (hreceive : s.receive fabric index client data now = (s', datagrams)) :
    ackDatagram index client cnt ∈ datagrams ∧ (s'.base.getOutLink cnt ≠ none ↔
      s.base.getOutLink cnt ≠ none ∨ fabric pointId ≠ none) := by
  cases receive_result hreceive with
  | short hshort => simp [processTrunkData_short hshort] at hcall
  | rejected hlong hid hreject => simp [hreject] at hcall
  | known hcall' hlink =>
      obtain ⟨rfl, rfl, rfl⟩ := by simpa [hcall] using hcall'
      refine ⟨List.mem_singleton_self _, ?_⟩
      change s.base.getOutLink cnt ≠ none ↔ _
      simp [hlink]
  | refused hcall' hlink hpoint =>
      obtain ⟨rfl, rfl, rfl⟩ := by simpa [hcall] using hcall'
      refine ⟨List.mem_singleton_self _, ?_⟩
      change s.base.getOutLink cnt ≠ none ↔ _
      simp [hlink, hpoint]
  | created hcall' hlink hpoint =>
      obtain ⟨rfl, rfl, rfl⟩ := by simpa [hcall] using hcall'
      refine ⟨List.mem_singleton_self _, ?_⟩
      simp [getOutLink_intAddOutLink, hpoint]
  | handled hcall' hother =>
      obtain rfl := by simpa [hcall] using hcall'
      exact absurd rfl (hother cnt pointId timeout)

/-- **The acknowledgement of a connection is true exactly if its link could be
created.**  Along every run, each acknowledged request leaves a link behind if and
only if each request comes for a connection with a link or for a point the factory
makes a link for. -/
theorem truthful_iff_creatable {es : List ServerEvent} :
    Always step Truthful s es ↔ Always step Creatable s es := by
  refine always_iff (I := fun _ => True) ?_ (fun _ _ _ _ _ _ => trivial) trivial
  intro s e s' _ hstep
  constructor
  · intro htruthful index client data now throws cnt pointId timeout he hcall
    subst he
    obtain ⟨hack, hlink⟩ := receive_connect hcall (sent_receive hstep)
    rw [← fabric_ne_none]
    exact hlink.mp (htruthful index client data now throws cnt pointId timeout rfl hcall
      ⟨_, hack, rfl⟩)
  · intro hcreatable index client data now throws cnt pointId timeout he hcall _
    subst he
    obtain ⟨_, hlink⟩ := receive_connect hcall (sent_receive hstep)
    refine hlink.mpr ?_
    rw [fabric_ne_none]
    exact hcreatable index client data now throws cnt pointId timeout rfl hcall

/-- A request for a point the factory does not know is acknowledged, and there is no
link. -/
theorem acknowledged_without_link :
    ∃ s', (create 1 (fun _ => none) 0).step request = some s' ∧
      (create 1 (fun _ => none) 0).sent request = [ackDatagram 0 ⟨[1], 1000⟩ (.ofByte 1)] ∧
      s'.base.getOutLink (.ofByte 1) = none ∧
      ¬ Truthful (create 1 (fun _ => none) 0) request s' := by
  refine ⟨_, rfl, by decide +kernel, by decide +kernel, ?_⟩
  intro htruthful
  refine htruthful 0 ⟨[1], 1000⟩ _ 0 false (.ofByte 1) 7 500 rfl (by decide +kernel) ?_ ?_
  · exact ⟨ackDatagram 0 ⟨[1], 1000⟩ (.ofByte 1), by decide +kernel, rfl⟩
  · decide +kernel

end TrunkServer
