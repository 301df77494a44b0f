import ByteStacker.GracefulEnd
import ByteStacker.NoSilentLoss
import ByteStacker.OutLinkFlush
import ByteStacker.Routing

/-!
# The tunnel can catch up with what is still on its way

Safety says that nothing wrong comes out of the tunnel.  This file says when it does not get
stuck.  The network loses what it likes: `held` are the datagrams of which it still has a copy,
and besides these only what is sent from now on can arrive.  A packet is underway at `now` if the
network holds a copy, or if it is still cached and due, so that a tick at `now` sends it again.

As long as every chunk the receiving link was not handed is underway, and the link is at work and
was told no stop, everything read at the other end can still come out.  What it takes is stated
with it: the update timer of the sender at `now`, arrivals, and events of the socket of the
receiving link; nothing else.  Nothing is promised for a chunk that is neither held nor cached: the
sender gives a packet up after two seconds.

`Way` is one direction of the tunnel: what arrives can be handed to the link of the receiver, and
its socket can act.  `Way.catch_up` hands over what is missing and flushes the link.  Upstream
even the link can still be opened, by a request that is underway (`opens_upstream`).
-/

open Transition (Possibly PossiblyBy)

/-! ## The receiving link -/

/-- The link is registered for the connection as object `k`. -/
structure TrunkLink.Serving (t : TrunkLink) (cnt : ConnectID) (k : Nat) (reg : Registration) :
    Prop where
  found : t.getOutLink cnt = some k
  object : t.objects[k]? = some reg

namespace TrunkLink.Serving

variable {t : TrunkLink} {cnt : ConnectID} {k : Nat} {reg : Registration}

/-- The link registered for the connection is this one. -/
theorem registered (h : t.Serving cnt k reg) : t.registered cnt = some reg := by
  rw [TrunkLink.registered, h.found]
  exact h.object

/-- It stays registered when its object changes. -/
theorem modify (h : t.Serving cnt k reg) (f : Registration → Registration) :
    (t.modifyObject k f).Serving cnt k (f reg) where
  found := h.found
  object := by simp [modifyObject, h.object]

/-- A data packet of the connection is for this link. -/
theorem handed (h : t.Serving cnt k reg) (packetIndex : UInt32) (data : Bytes) :
    (t.processDataToOutlink cnt packetIndex data).1.Serving cnt k
      (reg.sendData packetIndex data) := by
  simp only [processDataToOutlink, h.found]
  exact ⟨h.found, by simp [modifyObject, h.object]⟩

/-- A new link serves its connection. -/
theorem added (hnone : t.getOutLink cnt = none) (link : OutLink) (now : Time) :
    (t.intAddOutLink cnt link now).Serving cnt t.objects.length { link := link.run cnt } where
  found := by
    have hfind : t.findOutLink cnt = none := Option.map_eq_none_iff.mp hnone
    rw [findOutLink] at hfind
    simp [getOutLink, findOutLink, intAddOutLink, List.find?_append, hfind]
  object := by simp [intAddOutLink]

end TrunkLink.Serving

/-- A request for a point that is served opens a link, unless the connection has one. -/
theorem TrunkServer.handle_opens {s : TrunkServer} {cnt : ConnectID} {point : PointID}
    {target : AddressPortPoint} (hnone : s.base.getOutLink cnt = none)
    (hserved : s.linkFabric point = some target) (timeout : UInt32) (now : Time) :
    s.handle now (.processConnectData cnt point timeout) =
      ({ s with base := s.base.intAddOutLink cnt (newLink (some target)) now },
        [ackCreatePacket cnt].filterMap s.sendPacket) := by
  simp [handle, processConnectData, hnone, hserved, newLink]

/-- A link created for an address may connect at the first try. -/
theorem OutLink.may_connect (cnt : ConnectID) (target : AddressPortPoint) :
    Possibly quietStep ((newLink (some target)).run cnt) AtRest := by
  have hrun : Transition.run quietStep ((newLink (some target)).run cnt)
      [.resolved 0 (some [⟨[127, 0, 0, 1], 80⟩]), .connected 0 false] = some _ := rfl
  exact .of_run hrun ⟨rfl, rfl, rfl, rfl, rfl⟩

/-- **Everything is out.**  A link that was handed all chunks of the one link of the other
side, was never stopped, and has put out everything up to the first gap, has written all
that link has read. -/
theorem Linked.whole {a b : TrunkLink} {cnt : ConnectID} (h : Linked a b) {x y : Registration}
    (hx : a.linksOf cnt = [x]) (hcount : x.allocated < 4294967294) (hy : y ∈ b.linksOf cnt)
    (hkeeps : y.Keeps) (hstops : y.stops = []) (hhanded : ∀ e ∈ x.created, e ∈ y.handed)
    (hflushed : y.link.Flushed) : y.link.written = x.link.readLog := by
  obtain ⟨hmem, hcnt⟩ := TrunkLink.mem_linksOf.mp hy
  have hxmem : x ∈ a.linksOf cnt := hx ▸ List.mem_singleton_self x
  have hyinv := h.far.sound y hmem
  have hxinv := h.near.sound x (TrunkLink.mem_linksOf.mp hxmem).1
  have hnumbered := hxinv.numbered (Nat.le_of_lt hcount)
  have hlen := hnumbered.count
  have hsub : ∀ e ∈ y.link.appended, e ∈ x.created := by
    intro e he
    obtain ⟨r, hr, hrcnt, hcreated⟩ :=
      h.outward.heard y hmem cnt hcnt e (hyinv.chunks e (Or.inr he))
    have hrmem := TrunkLink.mem_linksOf.mpr ⟨hr, hrcnt⟩
    rw [hx, List.mem_singleton] at hrmem
    exact hrmem ▸ hcreated
  have hprefix := hyinv.appended_prefix hxinv (Nat.le_of_lt hcount) hsub
  have hall : x.created.length ≤ y.link.appended.length := by
    by_contra hshort
    -- the next chunk was handed over, so it is in the map or was put out already
    have hn : y.link.appended.length < x.created.length := by omega
    have hindex := hnumbered.created.fst_getElem hn
    have hmine := hhanded _ (List.getElem_mem hn)
    rcases (hkeeps hstops).2 _ (List.mem_map_of_mem hmine) with hdrained | hkey
    · obtain ⟨e, he, hsame⟩ := List.mem_map.mp hdrained
      obtain ⟨p, hp, _, hplace⟩ := hyinv.reassembly.numbered.mem_position he
      rw [hindex, hplace] at hsame
      have heq := OutLink.index_inj (by omega) (by omega) hsame
      omega
    · rw [hindex, ← hyinv.reassembly.next, hflushed.2] at hkey
      cases hkey
  rw [hyinv.drained.written_all hflushed.1, hprefix.eq_of_length_le hall, hnumbered.read]

namespace System

variable {s s' : System} {c : ConnectID} {x y : Registration} {k : Nat}

/-! ## One direction -/

/-- **One direction of the tunnel.**  `allowed` are the events it makes use of, `Holds` is kept by
these, `Arrives` says that a datagram of the chunk can still arrive. -/
structure Way (c : ConnectID) where
  allowed : SystemEvent → Prop
  Holds : System → Prop
  sender : System → TrunkLink
  receiver : System → TrunkLink
  object : Nat
  Arrives : System → UInt32 × Bytes → Prop
  linked : ∀ s, Holds s → Linked (sender s) (receiver s)
  keeps : ∀ s, Holds s → ∀ reg ∈ (receiver s).objects, reg.Keeps
  lasting : ∀ s ev s', s.step ev = some s' → ∀ e, Arrives s e → Arrives s' e
  deliver : ∀ s, Holds s → ∀ e, Arrives s e → ∃ ev s', allowed ev ∧ s.step ev = some s' ∧
    Holds s' ∧ sender s' = sender s ∧
      receiver s' = ((receiver s).processDataToOutlink c e.1 e.2).1
  act : ∀ s, Holds s → ∀ reg link ev, (receiver s).objects[object]? = some reg →
    reg.link.quietStep ev = some link → ∃ e s', allowed e ∧ s.step e = some s' ∧ Holds s' ∧
      sender s' = sender s ∧
      receiver s' = (receiver s).modifyObject object fun reg => { reg with link := link }

namespace Way

/-- The sender is as it was, what could arrive still can, and the receiver serves the connection
with this link. -/
structure At (w : Way c) (s : System) (y : Registration) (s' : System) : Prop where
  holds : w.Holds s'
  sent : w.sender s' = w.sender s
  arrives : ∀ e, w.Arrives s e → w.Arrives s' e
  serving : (w.receiver s').Serving c w.object y

variable {w : Way c} {m : System}

/-- The chunks of the list are handed over, one after the other. -/
theorem hand_over (hm : w.At s y m) (hworking : y.link.Working)
    (chunks : List (UInt32 × Bytes)) (harrives : ∀ e ∈ chunks, w.Arrives s e) :
    PossiblyBy step w.allowed m fun s' => ∃ y', w.At s y' s' ∧ y'.link.Working ∧
      y'.stops = y.stops ∧ (∀ e ∈ y.handed, e ∈ y'.handed) ∧ ∀ e ∈ chunks, e ∈ y'.handed := by
  induction chunks generalizing m y with
  | nil => exact .now ⟨y, hm, hworking, rfl, fun e he => he, by simp⟩
  | cons first rest ih =>
      obtain ⟨hfirst, hrest⟩ := List.forall_mem_cons.mp harrives
      obtain ⟨ev, u, hallowed, hu, hPu, hsender, hreceiver⟩ :=
        w.deliver m hm.holds first (hm.arrives first hfirst)
      have hat : w.At s (y.sendData first.1 first.2) u :=
        ⟨hPu, hsender.trans hm.sent, fun e he => w.lasting m ev u hu e (hm.arrives e he),
          hreceiver ▸ hm.serving.handed first.1 first.2⟩
      have hself : first ∈ (y.sendData first.1 first.2).handed :=
        List.mem_append_right _ (List.mem_singleton_self _)
      refine ((ih hat (hworking.sendData first.1 first.2) hrest).mono
        fun s' hs' => ?_).after hallowed hu
      obtain ⟨y', hlast, hworking', hstops, hold, hnew⟩ := hs'
      refine ⟨y', hlast, hworking', hstops, fun e he => hold e (List.mem_append_left _ he), ?_⟩
      exact List.forall_mem_cons.mpr ⟨hold first hself, hnew⟩

/-- What the link can do without a call of its hoster, the system can do. -/
theorem act_run (hm : w.At s y m) {Q : OutLink → Prop}
    (hlink : Possibly OutLink.quietStep y.link Q) :
    PossiblyBy step w.allowed m fun s' => ∃ link, w.At s { y with link := link } s' ∧ Q link := by
  refine hlink.lift (P := fun link u => w.At s { y with link := link } u)
    (fun link u e link' hu hquiet => ?_) hm
  obtain ⟨ev, u', hallowed, hu', hPu', hsender, hreceiver⟩ := w.act u hu.holds _ link' e
    hu.serving.object hquiet
  exact ⟨ev, u', hallowed, hu', hPu', hsender.trans hu.sent,
    fun e he => w.lasting u ev u' hu' e (hu.arrives e he),
    hreceiver ▸ hu.serving.modify fun reg => { reg with link := link' }⟩

/-- **The receiving link catches up.** -/
theorem catch_up (hx : (w.sender s).linksOf c = [x]) (hcount : x.allocated < 4294967294)
    (hm : w.At s y m) (hworking : y.link.Working) (hstops : y.stops = [])
    (hmissing : ∀ e ∈ x.created, e ∉ y.handed → w.Arrives s e) :
    PossiblyBy step w.allowed m fun s' => ∃ y', (w.receiver s').Serving c w.object y' ∧
      y'.link.Working ∧ y'.link.written = x.link.readLog := by
  have harrives : ∀ e ∈ x.created.filter (· ∉ y.handed), w.Arrives s e := by
    intro e he
    obtain ⟨hcreated, hnew⟩ := List.mem_filter.mp he
    exact hmissing e hcreated (of_decide_eq_true hnew)
  refine (hand_over hm hworking _ harrives).bind fun u hu => ?_
  obtain ⟨z, hz, hzworking, hzstops, hold, hnew⟩ := hu
  have hzinv := (w.linked u hz.holds).far.sound z (List.mem_of_getElem? hz.serving.object)
  refine (act_run hz (OutLink.flush hzinv.owned hzinv.reassembly hzworking)).mono
    fun s' hs' => ?_
  obtain ⟨link, hlast, hflushed, hlastworking⟩ := hs'
  have hlinked := w.linked s' hlast.holds
  have hhanded : ∀ e ∈ x.created, e ∈ z.handed := by
    intro e he
    by_cases hbefore : e ∈ y.handed
    · exact hold e hbefore
    · exact hnew e (List.mem_filter.mpr ⟨he, decide_eq_true hbefore⟩)
  refine ⟨_, hlast.serving, hlastworking, ?_⟩
  exact hlinked.whole (by rw [hlast.sent, hx]) hcount
    (TrunkLink.mem_of_registered hlinked.far hlast.serving.registered)
    (w.keeps s' hlast.holds _ (List.mem_of_getElem? hlast.serving.object))
    (hzstops.trans hstops) hhanded hflushed

end Way

end System

/-! ## What is underway -/

namespace TrunkLink

variable {t t' : TrunkLink} {op : TrunkOp} {sent : List PacketInfo} {c : ConnectID}
  {x : Registration}

/-- The chunks of the connection fit into a packet. -/
def Fits (c : ConnectID) (t : TrunkLink) : Prop :=
  ∀ reg ∈ t.linksOf c, ∀ e ∈ reg.created, e.2.length ≤ kMaxChunkSize

/-- Only blocks that fit are made into packets. -/
theorem fits_apply (h : t.Inv) (hfits : t.Fits c) (happly : t.apply op = some (t', sent)) :
    t'.Fits c := by
  intro reg' hreg' e he
  by_cases hasio : ∃ k ev now, op = .asio k ev now
  · obtain ⟨k, ev, now, rfl⟩ := hasio
    rcases created_asio h happly hreg' he with ⟨reg, hreg, hcreated⟩ | ⟨_, hsize, _⟩
    · exact hfits reg hreg e hcreated
    · exact hsize
  · obtain ⟨reg, hreg, hcreated⟩ :=
      created_calm h happly (fun k ev now hop => hasio ⟨k, ev, now, hop⟩) hreg' he
    exact hfits reg hreg e hcreated

/-- What an update of the timer leaves of the sender: its link may be declared dead, but what it
has read and created stays. -/
structure SameStream (x x' : Registration) : Prop where
  allocated : x'.allocated = x.allocated
  created : x'.created = x.created
  readLog : x'.link.readLog = x.link.readLog

/-- The one link of a connection keeps its stream in a calm operation. -/
theorem sameStream_apply (h : t.Inv) (happly : t.apply op = some (t', sent))
    (hcalm : ∀ k ev now, op ≠ .asio k ev now) (hadd : op.added = none)
    (hx : t.linksOf c = [x]) : ∃ x', t'.linksOf c = [x'] ∧ SameStream x x' := by
  have hxmem : x ∈ t.linksOf c := hx ▸ List.mem_singleton_self x
  obtain ⟨hmem, hcnt⟩ := mem_linksOf.mp hxmem
  obtain ⟨k, hk, hget⟩ := List.getElem_of_mem hmem
  obtain ⟨x', hx', hevent⟩ :=
    (evolves_apply h happly).kept k x (hget ▸ List.getElem?_eq_getElem hk)
  obtain ⟨hoster, _, hallocated, hcreated, _, hread⟩ := RegEvent.calm hevent hcalm
  have hx'mem : x' ∈ t'.linksOf c :=
    mem_linksOf.mpr ⟨List.mem_of_getElem? hx', hoster.trans hcnt⟩
  have hone : (t'.linksOf c).length = 1 := by
    have hbefore := length_linksOf t c
    rw [hx, List.length_singleton] at hbefore
    rw [length_linksOf, hosters_apply happly, hadd, Option.toList_none, List.map_nil,
      List.append_nil, ← hbefore]
  obtain ⟨z, hz⟩ := List.length_eq_one_iff.mp hone
  rw [hz, List.mem_singleton] at hx'mem
  exact ⟨x', hx'mem ▸ hz, hallocated, hcreated, hread⟩

/-- A tick of the update timer at `now`, as far as the common part goes. -/
def tickAt (t : TrunkLink) (now : Time) : TrunkLink :=
  ((t.sendLivePacket now).1.onCacheResend now).1

/-- **A tick keeps the stream** of the one link of a connection. -/
theorem sameStream_tick (h : t.Inv) (hx : t.linksOf c = [x]) (now : Time) :
    ∃ x', (t.tickAt now).linksOf c = [x'] ∧ SameStream x x' := by
  have hlive : t.apply (.live now) = some (t.sendLivePacket now) := rfl
  obtain ⟨m, hm, hsame⟩ := sameStream_apply h hlive (by simp) rfl hx
  have hresend : (t.sendLivePacket now).1.apply (.resend now) =
      some ((t.sendLivePacket now).1.onCacheResend now) := rfl
  obtain ⟨x', hx', hlast⟩ := sameStream_apply (h.apply hlive) hresend (by simp) rfl hm
  exact ⟨x', hx', hlast.allocated.trans hsame.allocated, hlast.created.trans hsame.created,
    hlast.readLog.trans hsame.readLog⟩

/-- A tick sends again what is cached and due. -/
theorem mem_resent {item : PacketDataCache} (hitem : item ∈ t.packetDataCache) {now : Time}
    (hdue : item.nextSend < now ∧ now ≤ item.deadline) :
    item.info ∈ ((t.sendLivePacket now).1.onCacheResend now).2 := by
  have hcache := (sendLivePacket_frame t now).2.1
  refine List.mem_map_of_mem (List.mem_filter.mpr ⟨List.mem_filter.mpr ⟨hcache ▸ hitem, ?_⟩, ?_⟩)
  · simpa using hdue.2
  · simpa using hdue.1

end TrunkLink

namespace System

variable {s s' : System} {c : ConnectID} {x y : Registration} {k : Nat}

/-- The datagrams that may still arrive: those the network holds a copy of, and those sent from
now on. -/
def Arriving (held : Nat → Prop) (sent n : Nat) : Prop := held n ∨ sent ≤ n

/-- The packet can still reach the server: the network holds a copy, or it is cached and due at
`now`. -/
inductive UpUnderway (s : System) (held : Nat → Prop) (now : Time) (pkt : PacketInfo) : Prop
  | held {n : Nat} (hheld : held n) (hn : s.up[n]? = some pkt.datagram)
  | cached {item : PacketDataCache} (hitem : item ∈ s.client.base.packetDataCache)
      (hinfo : item.info = pkt) (hdue : item.nextSend < now ∧ now ≤ item.deadline)
  | requested {item : PacketConnectCache} (hitem : item ∈ s.client.connectCache)
      (hinfo : item.info = pkt) (hdue : item.nextSend ≤ now ∧ now ≤ item.deadline)

/-- The packet can still reach the client. -/
inductive DownUnderway (s : System) (held : Nat → Prop) (now : Time) (pkt : PacketInfo) : Prop
  | held {n : Nat} {d : ServerDatagram} (hheld : held n) (hn : s.down[n]? = some d)
      (hdata : d.data = pkt.datagram)
  | cached {item : PacketDataCache} (hitem : item ∈ s.server.base.packetDataCache)
      (hinfo : item.info = pkt) (hdue : item.nextSend < now ∧ now ≤ item.deadline)

/-- What brings the server up to date, at time `now`: the update timer of the client, datagrams
that still arrive (at a trunk socket, from an address), and events of the socket of link object
`k`. -/
inductive UpEvent (arriving : Nat → Prop) (index : Nat) (sender : Endpoint) (k : Nat)
    (now : Time) : SystemEvent → Prop
  | tick : UpEvent arriving index sender k now (.clientTick now now now)
  | arrival {n : Nat} (hn : arriving n) :
      UpEvent arriving index sender k now (.toServer n index sender now)
  | socket (ev : AsioEvent) : UpEvent arriving index sender k now (.serverAsio k ev now)

/-- What brings the client up to date. -/
inductive DownEvent (arriving : Nat → Prop) (k : Nat) (now : Time) : SystemEvent → Prop
  | tick : DownEvent arriving k now (.serverTick now now)
  | arrival {n : Nat} (hn : arriving n) : DownEvent arriving k now (.toClient n now)
  | socket (ev : AsioEvent) : DownEvent arriving k now (.clientAsio k ev now)

variable {held : Nat → Prop} {now : Time} {pkt : PacketInfo}

/-- Among the datagrams sent by an event each one is still to arrive. -/
theorem arriving_sent {α : Type} {d : α} {before sent : List α} (hd : d ∈ sent) :
    ∃ n, Arriving held before.length n ∧ (before ++ sent)[n]? = some d := by
  obtain ⟨i, hi, hget⟩ := List.getElem_of_mem hd
  refine ⟨before.length + i, Or.inr (Nat.le_add_right _ _), ?_⟩
  rw [List.getElem?_append_right (Nat.le_add_right _ _), Nat.add_sub_cancel_left,
    List.getElem?_eq_getElem hi, hget]

/-- **After the tick a packet that is underway arrives.** -/
theorem UpUnderway.arrives (h : s.UpUnderway held now pkt) :
    ∃ n, Arriving held s.up.length n ∧
      (s.setClient (s.client.tick now now now)).up[n]? = some pkt.datagram := by
  cases h with
  | @held n hheld hn =>
      have hlt := (List.getElem?_eq_some_iff.mp hn).1
      exact ⟨n, Or.inl hheld, (List.getElem?_append_left hlt).trans hn⟩
  | @cached item hitem hinfo hdue =>
      have hmem := List.mem_map_of_mem (f := TrunkClient.sendPacket)
        (TrunkLink.mem_resent hitem hdue)
      rw [hinfo] at hmem
      exact arriving_sent (List.mem_append_left _ (List.mem_append_right _ hmem))
  | @requested item hitem hinfo hdue =>
      refine arriving_sent (List.mem_append_right _ (List.mem_map.mpr ⟨item, ?_, ?_⟩))
      · refine List.mem_filter.mpr ⟨List.mem_filter.mpr ⟨hitem, ?_⟩, ?_⟩
        · simpa using hdue.2
        · simpa using hdue.1
      · rw [hinfo]
        rfl

/-- So does one that is underway to the client, since the route of a connection with a cached
packet is known. -/
theorem DownUnderway.arrives (h : s.DownUnderway held now pkt) (hroute : s.server.Routed) :
    ∃ n d, Arriving held s.down.length n ∧
      (s.setServer (s.server.tick now now)).down[n]? = some d ∧ d.data = pkt.datagram := by
  cases h with
  | @held n d hheld hn hdata =>
      have hlt := (List.getElem?_eq_some_iff.mp hn).1
      exact ⟨n, d, Or.inl hheld, (List.getElem?_append_left hlt).trans hn, hdata⟩
  | @cached item hitem hinfo hdue =>
      have hmem := TrunkLink.mem_resent hitem hdue
      -- the connection has a route, so the packet is not dropped
      have hlive := hroute.call_other (e := .op (.live now)) rfl rfl
      obtain ⟨info, hinfo'⟩ :=
        (hlive.call (e := .op (.resend now)) (fun _ hadd => by cases hadd) rfl).2 _ hmem
      have hsent : s.server.sendPacket item.info =
          some ⟨info.socketIndex, info.client, pkt.datagram⟩ := by
        rw [TrunkServer.sendPacket, ← hinfo]
        exact congrArg _ hinfo'
      have hmine : _ ∈ (s.server.tick now now).2 :=
        List.mem_filterMap.mpr ⟨item.info, List.mem_append_right _ hmem, hsent⟩
      obtain ⟨n, hn, hget⟩ := arriving_sent hmine
      exact ⟨n, _, hn, hget, rfl⟩

/-! ## Both directions -/

/-- A state some run leads to, with a trunk socket of this index. -/
structure Running (index : Nat) (s : System) : Prop where
  reached : Reachable (fun _ _ => True) s
  socket : index < s.server.trunkSockets

variable {index : Nat} {sender : Endpoint}

/-- Every event keeps the routes in order. -/
theorem routed_step {e : SystemEvent} (h : s.server.Routed) (hstep : s.step e = some s') :
    s'.server.Routed := by
  cases e with
  | addConnect cnt point registered cached =>
      cases hstep
      exact h
  | clientAsio k ev now =>
      obtain ⟨r, _, rfl⟩ := Option.map_eq_some_iff.mp hstep
      exact h
  | clientTick live resend connects =>
      cases hstep
      exact h
  | toClient n now =>
      simp only [step] at hstep
      split at hstep
      · cases hstep
      · cases hstep
        exact h
  | serverAsio k ev now =>
      obtain ⟨r, hr, rfl⟩ := Option.map_eq_some_iff.mp hstep
      obtain ⟨⟨base, pkts⟩, hbase, rfl⟩ := Option.map_eq_some_iff.mp hr
      exact h.call_other (e := .op (.asio k ev now)) rfl hbase
  | serverTick live resend =>
      cases hstep
      have hlive := h.call_other (e := .op (.live live)) rfl rfl
      exact hlive.call_other (e := .op (.resend resend)) rfl rfl
  | getStat =>
      cases hstep
      exact h.call_other (e := .op .getStat) rfl rfl
  | toServer n index sender now =>
      simp only [step] at hstep
      split at hstep
      · cases hstep
      · next data _ =>
          split at hstep
          · next hindex =>
              cases hstep
              have hreceive : s.server.receive s.server.linkFabric index sender data now =
                  (_, _) := rfl
              have hrouted := h.receive hindex hreceive
              exact ⟨hrouted.linksOnce, hrouted.recordsOnce, hrouted.sockets, hrouted.known⟩
          · cases hstep

/-- In every run the routes are in order. -/
theorem reachable_routed {ok : System → SystemEvent → Prop} (h : Reachable ok s) :
    s.server.Routed := by
  refine h.invariant (fun s hs => ?_) fun _ _ _ _ hrouted _ hstep => routed_step hrouted hstep
  obtain ⟨clientTime, serverTime, trunkSockets, linkFabric, rfl⟩ := hs
  exact TrunkServer.routed_create trunkSockets linkFabric serverTime

/-- In every run all chunks fit. -/
theorem reachable_fits {ok : System → SystemEvent → Prop} (h : Reachable ok s) :
    s.client.base.Fits c ∧ s.server.base.Fits c := by
  refine h.invariant (I := fun s => s.client.base.Fits c ∧ s.server.base.Fits c)
    (fun s hs => ?_) fun s e s' hs hfits _ hstep => ?_
  · obtain ⟨clientTime, serverTime, trunkSockets, linkFabric, rfl⟩ := hs
    exact ⟨fun reg hreg => absurd (TrunkLink.mem_linksOf.mp hreg).1 List.not_mem_nil,
      fun reg hreg => absurd (TrunkLink.mem_linksOf.mp hreg).1 List.not_mem_nil⟩
  · obtain ⟨clientSent, serverSent, heffect⟩ := step_effect hstep
    have hlinked := (reachable_inv hs).linked
    have hacts : ∀ {t t' ops sent}, t.Inv → t.Fits c → TrunkLink.Acts t ops t' sent →
        t'.Fits c := by
      intro t t' ops sent hinv hbefore hrun
      refine (hrun.invariant (I := fun u => u.Inv ∧ u.Fits c) (Q := fun _ => True)
        (fun _ _ => trivial) ⟨hinv, hbefore⟩ ?_).2
      intro u u' op sent hu _ happly
      exact ⟨hu.1.apply happly, TrunkLink.fits_apply hu.1 hu.2 happly⟩
    exact ⟨hacts hlinked.near hfits.1 heffect.client, hacts hlinked.far hfits.2 heffect.server⟩

/-- A datagram that arrives at the server, at this trunk socket and from this address. -/
theorem Running.receive_up (h : Running index s) {n : Nat} {data : Bytes}
    (hn : s.up[n]? = some data) {call : HandlerCall}
    (hcall : processTrunkData true (data.take kPacketBufferSize) = some (some call)) :
    s.step (.toServer n index sender now) =
      some (s.setServer ((s.server.addClientLink ⟨call.cnt, index, sender⟩).handle now call)) := by
  have hheader := TrunkServer.getPacketConnectID_call hcall
  have hreceive : s.server.receiveTrunkData index sender data now =
      (s.server.addClientLink ⟨call.cnt, index, sender⟩).handle now call := by
    simp only [TrunkServer.receiveTrunkData, hheader, hcall]
  simp [step, hn, h.socket, hreceive]

/-- A data packet of the client that arrives is handed over. -/
theorem Running.deliver_up (h : Running index s) {n : Nat} {e : UInt32 × Bytes}
    (hsize : e.2.length ≤ kMaxChunkSize)
    (hn : s.up[n]? = some (dataPacket c e.2 .dataOut e.1).datagram) :
    ∃ s', s.step (.toServer n index sender now) = some s' ∧ Running index s' ∧
      s'.client = s.client ∧
      s'.server.base = (s.server.base.processDataToOutlink c e.1 e.2).1 := by
  have hemitted := Emitted.data false c e.1 e.2 hsize
  have hread := processTrunkData_emitted hemitted
  rw [← List.take_of_length_le (emitted_length hemitted)] at hread
  have hstep : s.step (.toServer n index sender now) = _ := h.receive_up hn hread
  rw [TrunkServer.handle_base (by simp)] at hstep
  exact ⟨_, hstep, ⟨h.reached.next trivial hstep, h.socket⟩, rfl, rfl⟩

/-- So is one of the server. -/
theorem deliver_down (h : Reachable (fun _ _ => True) s) {n : Nat} {d : ServerDatagram}
    {e : UInt32 × Bytes} (hsize : e.2.length ≤ kMaxChunkSize) (hn : s.down[n]? = some d)
    (hdata : d.data = (dataPacket c e.2 .dataIn e.1).datagram) :
    ∃ s', s.step (.toClient n now) = some s' ∧ Reachable (fun _ _ => True) s' ∧
      s'.server = s.server ∧
      s'.client.base = (s.client.base.processDataToOutlink c e.1 e.2).1 := by
  have hemitted := Emitted.data true c e.1 e.2 hsize
  have hread := processTrunkData_emitted hemitted
  rw [← List.take_of_length_le (emitted_length hemitted)] at hread
  have hcall : processTrunkData false (d.data.take kPacketBufferSize) =
      some (some (.processDataToOutlink c e.1 e.2)) := by
    rw [hdata]
    exact hread
  have hreceive : s.client.receiveTrunkData d.data now =
      s.client.handle now (.processDataToOutlink c e.1 e.2) := by
    simp only [TrunkClient.receiveTrunkData, hcall]
  have hstep : s.step (.toClient n now) =
      some (s.setClient (s.client.receiveTrunkData d.data now)) := by
    simp [step, hn]
  rw [hreceive, TrunkClient.handle_base (by simp)] at hstep
  exact ⟨_, hstep, h.next trivial hstep, rfl, rfl⟩

end System

/-- An event of a link that does not call the hoster. -/
theorem TrunkLink.asioStep_quiet {t : TrunkLink} {k : Nat} {reg : Registration} {ev : AsioEvent}
    {link : OutLink} (now : Time) (hobject : t.objects[k]? = some reg)
    (hquiet : reg.link.quietStep ev = some link) :
    t.asioStep k ev now = some (t.modifyObject k fun reg => { reg with link := link }, []) := by
  simp [asioStep, hobject, OutLink.quietStep_eq_some.mp hquiet, hosterCall]

namespace System

variable {s s' : System} {c : ConnectID} {x y : Registration} {k index : Nat} {sender : Endpoint}
  {held : Nat → Prop} {now : Time}

/-- What was sent stays sent. -/
theorem sent_step {e : SystemEvent} (hstep : s.step e = some s') :
    s.up <+: s'.up ∧ s.down <+: s'.down := by
  obtain ⟨_, _, heffect⟩ := step_effect hstep
  obtain ⟨up, hup, _⟩ := heffect.up
  obtain ⟨down, hdown, _⟩ := heffect.down
  exact ⟨hup ▸ List.prefix_append _ _, hdown ▸ List.prefix_append _ _⟩

/-- What is in a list stays where it is when the list grows. -/
theorem getElem?_of_prefix {α : Type} {xs ys : List α} (h : xs <+: ys) {n : Nat} {x : α}
    (hx : xs[n]? = some x) : ys[n]? = some x := by
  obtain ⟨rest, rfl⟩ := h
  exact (List.getElem?_append_left (List.getElem?_eq_some_iff.mp hx).1).trans hx

/-- The way from the client to the server. -/
def upstream (c : ConnectID) (arriving : Nat → Prop) (index : Nat) (sender : Endpoint) (k : Nat)
    (now : Time) : Way c where
  allowed := UpEvent arriving index sender k now
  Holds := Running index
  sender := fun s => s.client.base
  receiver := fun s => s.server.base
  object := k
  Arrives := fun s e => e.2.length ≤ kMaxChunkSize ∧
    ∃ n, arriving n ∧ s.up[n]? = some (dataPacket c e.2 .dataOut e.1).datagram
  linked := fun s h => (reachable_inv h.reached).linked
  keeps := fun s h reg hreg => ((reachable_keeps h.reached).2 reg hreg).1
  lasting := by
    intro s ev s' hstep e he
    obtain ⟨hsize, n, hn, hget⟩ := he
    exact ⟨hsize, n, hn, getElem?_of_prefix (sent_step hstep).1 hget⟩
  deliver := by
    intro s h e he
    obtain ⟨hsize, n, hn, hget⟩ := he
    obtain ⟨s', hstep, hs', hclient, hbase⟩ := h.deliver_up hsize hget
    exact ⟨_, s', .arrival hn, hstep, hs', congrArg TrunkClient.base hclient, hbase⟩
  act := by
    intro s h reg link ev hobject hquiet
    have hstep : s.step (.serverAsio k ev now) = some (s.setServer
        ({ s.server with base :=
            s.server.base.modifyObject k fun reg => { reg with link := link } }, [])) := by
      simp [step, TrunkServer.asioStep, TrunkLink.asioStep_quiet now hobject hquiet]
    exact ⟨_, _, .socket ev, hstep, ⟨h.reached.next trivial hstep, h.socket⟩, rfl, rfl⟩

/-- The way from the server to the client. -/
def downstream (c : ConnectID) (arriving : Nat → Prop) (k : Nat) (now : Time) : Way c where
  allowed := DownEvent arriving k now
  Holds := Reachable fun _ _ => True
  sender := fun s => s.server.base
  receiver := fun s => s.client.base
  object := k
  Arrives := fun s e => e.2.length ≤ kMaxChunkSize ∧ ∃ n d, arriving n ∧ s.down[n]? = some d ∧
    d.data = (dataPacket c e.2 .dataIn e.1).datagram
  linked := fun s h => (reachable_inv h).linked.symm
  keeps := fun s h reg hreg => ((reachable_keeps h).1 reg hreg).1
  lasting := by
    intro s ev s' hstep e he
    obtain ⟨hsize, n, d, hn, hget, hdata⟩ := he
    exact ⟨hsize, n, d, hn, getElem?_of_prefix (sent_step hstep).2 hget, hdata⟩
  deliver := by
    intro s h e he
    obtain ⟨hsize, n, d, hn, hget, hdata⟩ := he
    obtain ⟨s', hstep, hs', hserver, hbase⟩ := deliver_down h hsize hget hdata
    exact ⟨_, s', .arrival hn, hstep, hs', congrArg TrunkServer.base hserver, hbase⟩
  act := by
    intro s h reg link ev hobject hquiet
    have hstep : s.step (.clientAsio k ev now) = some (s.setClient
        ({ s.client with base :=
            s.client.base.modifyObject k fun reg => { reg with link := link } }, [])) := by
      simp [step, TrunkClient.asioStep, TrunkLink.asioStep_quiet now hobject hquiet]
    exact ⟨_, _, .socket ev, hstep, h.next trivial hstep, rfl, rfl⟩

/-- **The server can catch up with what is underway.**  In whatever state a run has left the
system: if the server's link of a connection is at work and was told no stop, and every chunk the
client has created for it and it was not handed is underway at `now`, then the client's update
timer at `now`, datagrams that still arrive, and events of the socket of this link lead to a state
in which it has written all that the client has read for the connection. -/
theorem catch_up_upstream (hreach : Reachable (fun _ _ => True) s)
    (held : Nat → Prop) (hindex : index < s.server.trunkSockets) (sender : Endpoint)
    (hx : s.client.base.linksOf c = [x]) (hcount : x.allocated < 4294967294)
    (hy : s.server.base.Serving c k y) (hworking : y.link.Working) (hstops : y.stops = [])
    (hmissing : ∀ e ∈ x.created, e ∉ y.handed →
      s.UpUnderway held now (dataPacket c e.2 .dataOut e.1)) :
    PossiblyBy step (UpEvent (Arriving held s.up.length) index sender k now) s fun s' =>
      ∃ y', s'.server.base.Serving c k y' ∧ y'.link.Working ∧
        y'.link.written = x.link.readLog := by
  obtain ⟨x', hx', hsame⟩ := TrunkLink.sameStream_tick (reachable_inv hreach).linked.near hx now
  have hstep : s.step (.clientTick now now now) = some _ := rfl
  rw [← hsame.readLog]
  refine .after .tick hstep (Way.catch_up
    (w := upstream c (Arriving held s.up.length) index sender k now)
    (s := s.setClient (s.client.tick now now now)) hx' (hsame.allocated ▸ hcount)
    ⟨⟨hreach.next trivial hstep, hindex⟩, rfl, fun _ he => he, hy⟩ hworking hstops
    fun e he hnew => ?_)
  rw [hsame.created] at he
  have hsize := (reachable_fits hreach).1 x (hx ▸ List.mem_singleton_self x) e he
  exact ⟨hsize, (hmissing e he hnew).arrives⟩

/-- The client has read the byte A, and the only copy sent so far is lost. -/
def upstreamBehind : List SystemEvent :=
  connecting ++ [.clientAsio 0 (.readDone 0 ⟨false, [65]⟩) 0, .clientAsio 0 (.readHandler 0) 0]

/-- Nothing that was sent arrives; a second later the packet is still cached, and sent again. -/
theorem catch_up_upstream_byte :
    ∃ s, Transition.run step loopback upstreamBehind = some s ∧
      PossiblyBy step (UpEvent (Arriving (fun _ => False) s.up.length) 0 localhost 0
        (milliseconds 1000)) s fun s' =>
          ∃ y', s'.server.base.Serving (.ofByte 1) 0 y' ∧ y'.link.written = [65] := by
  have hany : (Transition.run step loopback upstreamBehind).any (fun s =>
      0 < s.server.trunkSockets ∧ (s.client.base.linksOf (.ofByte 1)).length = 1 ∧
        (∀ x ∈ s.client.base.linksOf (.ofByte 1), x.allocated < 4294967294 ∧
          x.link.readLog = [65] ∧ ∀ e ∈ x.created, ∃ item ∈ s.client.base.packetDataCache,
            item.info = dataPacket (.ofByte 1) e.2 .dataOut e.1 ∧
              item.nextSend < milliseconds 1000 ∧ milliseconds 1000 ≤ item.deadline) ∧
        s.server.base.getOutLink (.ofByte 1) = some 0 ∧
        s.server.base.objects[0]?.any fun y =>
          decide (y.link.AtRest ∧ y.stops = [])) = true := by
    decide +kernel
  obtain ⟨s, hrun, hs⟩ := (Option.any_eq_true _ _).mp hany
  obtain ⟨hsocket, hone, hread, hfound, hserver⟩ := of_decide_eq_true hs
  obtain ⟨x, hx⟩ := List.length_eq_one_iff.mp hone
  obtain ⟨hcount, hlog, hcached⟩ := hread x (by simp [hx])
  obtain ⟨y, hy, hidle⟩ := (Option.any_eq_true _ _).mp hserver
  obtain ⟨hrest, hstops⟩ := of_decide_eq_true hidle
  have hpossibly := catch_up_upstream (reachable_loopback hrun) (fun _ => False) hsocket
    localhost hx hcount ⟨hfound, hy⟩ hrest.working hstops fun e he _ => by
      obtain ⟨item, hitem, hinfo, hdue⟩ := hcached e he
      exact .cached hitem hinfo hdue
  refine ⟨s, hrun, hpossibly.mono fun s' hs' => ?_⟩
  obtain ⟨y', hy', _, hwritten⟩ := hs'
  exact ⟨y', hy', hwritten.trans hlog⟩

/-- **So can the client**, with what the one link of the server has read. -/
theorem catch_up_downstream (hreach : Reachable (fun _ _ => True) s) (held : Nat → Prop)
    (hx : s.server.base.linksOf c = [x]) (hcount : x.allocated < 4294967294)
    (hy : s.client.base.Serving c k y) (hworking : y.link.Working) (hstops : y.stops = [])
    (hmissing : ∀ e ∈ x.created, e ∉ y.handed →
      s.DownUnderway held now (dataPacket c e.2 .dataIn e.1)) :
    PossiblyBy step (DownEvent (Arriving held s.down.length) k now) s fun s' =>
      ∃ y', s'.client.base.Serving c k y' ∧ y'.link.Working ∧
        y'.link.written = x.link.readLog := by
  obtain ⟨x', hx', hsame⟩ := TrunkLink.sameStream_tick (reachable_inv hreach).linked.far hx now
  have hstep : s.step (.serverTick now now) = some _ := rfl
  rw [← hsame.readLog]
  refine .after .tick hstep (Way.catch_up
    (w := downstream c (Arriving held s.down.length) k now)
    (s := s.setServer (s.server.tick now now)) hx' (hsame.allocated ▸ hcount)
    ⟨hreach.next trivial hstep, rfl, fun _ he => he, hy⟩ hworking hstops fun e he hnew => ?_)
  rw [hsame.created] at he
  have hsize := (reachable_fits hreach).2 x (hx ▸ List.mem_singleton_self x) e he
  exact ⟨hsize, (hmissing e he hnew).arrives (reachable_routed hreach)⟩

/-- The server has read the byte B, and the only copy sent so far is lost. -/
def downstreamBehind : List SystemEvent :=
  connecting ++ [.serverAsio 0 (.readDone 0 ⟨false, [66]⟩) 0, .serverAsio 0 (.readHandler 0) 0]

/-- Nothing that was sent arrives; a second later the packet is sent again. -/
theorem catch_up_downstream_byte :
    ∃ s, Transition.run step loopback downstreamBehind = some s ∧
      PossiblyBy step (DownEvent (Arriving (fun _ => False) s.down.length) 0 (milliseconds 1000)) s
        fun s' => ∃ y', s'.client.base.Serving (.ofByte 1) 0 y' ∧ y'.link.written = [66] := by
  have hany : (Transition.run step loopback downstreamBehind).any (fun s =>
      (s.server.base.linksOf (.ofByte 1)).length = 1 ∧
        (∀ x ∈ s.server.base.linksOf (.ofByte 1), x.allocated < 4294967294 ∧
          x.link.readLog = [66] ∧ ∀ e ∈ x.created, ∃ item ∈ s.server.base.packetDataCache,
            item.info = dataPacket (.ofByte 1) e.2 .dataIn e.1 ∧
              item.nextSend < milliseconds 1000 ∧ milliseconds 1000 ≤ item.deadline) ∧
        s.client.base.getOutLink (.ofByte 1) = some 0 ∧
        s.client.base.objects[0]?.any fun y =>
          decide (y.link.AtRest ∧ y.stops = [])) = true := by
    decide +kernel
  obtain ⟨s, hrun, hs⟩ := (Option.any_eq_true _ _).mp hany
  obtain ⟨hone, hread, hfound, hclient⟩ := of_decide_eq_true hs
  obtain ⟨x, hx⟩ := List.length_eq_one_iff.mp hone
  obtain ⟨hcount, hlog, hcached⟩ := hread x (by simp [hx])
  obtain ⟨y, hy, hidle⟩ := (Option.any_eq_true _ _).mp hclient
  obtain ⟨hrest, hstops⟩ := of_decide_eq_true hidle
  have hpossibly := catch_up_downstream (reachable_loopback hrun) (fun _ => False)
    hx hcount ⟨hfound, hy⟩ hrest.working hstops fun e he _ => by
      obtain ⟨item, hitem, hinfo, hdue⟩ := hcached e he
      exact .cached hitem hinfo hdue
  refine ⟨s, hrun, hpossibly.mono fun s' hs' => ?_⟩
  obtain ⟨y', hy', _, hwritten⟩ := hs'
  exact ⟨y', hy', hwritten.trans hlog⟩

/-- A request that arrives may open the server's link. -/
theorem Running.open_link (h : Running index s) (sender : Endpoint) (now : Time) {n : Nat}
    {point : PointID} {timeout : UInt32}
    (hn : s.up[n]? = some (connectPacket c point timeout).datagram)
    (hnone : s.server.base.getOutLink c = none) {target : AddressPortPoint}
    (hserved : s.server.linkFabric point = some target) :
    ∃ s', s.step (.toServer n index sender now) = some s' ∧ Running index s' ∧
      s'.client = s.client ∧ s'.server.base.Serving c s.server.base.objects.length
        { link := (newLink (some target)).run c } := by
  have hemitted := Emitted.createConnect c point timeout
  have hread := processTrunkData_emitted hemitted
  rw [← List.take_of_length_le (emitted_length hemitted)] at hread
  have hstep : s.step (.toServer n index sender now) = _ := h.receive_up hn hread
  have hopened := TrunkServer.handle_opens (s := s.server.addClientLink ⟨c, index, sender⟩)
    hnone hserved timeout now
  replace hstep : s.step (.toServer n index sender now) = some (s.setServer _) := hstep.trans
    (congrArg (fun r => some (s.setServer r)) hopened)
  exact ⟨_, hstep, ⟨h.reached.next trivial hstep, h.socket⟩, rfl, .added hnone _ now⟩

/-- **A connection can be opened while its request is underway.**  If the client's request for a
point that is served is underway at `now`, and all chunks the client has created for the
connection are, a server without a link for it can still open one, connect it, and bring out all
that the client has read so far.  It takes the client's update timer at `now`, datagrams that
still arrive, and events of the socket of the new link. -/
theorem opens_upstream (hreach : Reachable (fun _ _ => True) s)
    (held : Nat → Prop) (hindex : index < s.server.trunkSockets) (sender : Endpoint)
    (hx : s.client.base.linksOf c = [x]) (hcount : x.allocated < 4294967294)
    {point : PointID} {timeout : UInt32}
    (hrequest : s.UpUnderway held now (connectPacket c point timeout))
    {target : AddressPortPoint} (hserved : s.server.linkFabric point = some target)
    (hnone : s.server.base.getOutLink c = none)
    (hunderway : ∀ e ∈ x.created, s.UpUnderway held now (dataPacket c e.2 .dataOut e.1)) :
    PossiblyBy step
      (UpEvent (Arriving held s.up.length) index sender s.server.base.objects.length now) s
      fun s' => ∃ y', s'.server.base.Serving c s.server.base.objects.length y' ∧
        y'.link.Working ∧ y'.link.written = x.link.readLog := by
  obtain ⟨x', hx', hsame⟩ := TrunkLink.sameStream_tick (reachable_inv hreach).linked.near hx now
  have htick : s.step (.clientTick now now now) = some _ := rfl
  have hticked : Running index (s.setClient (s.client.tick now now now)) :=
    ⟨hreach.next trivial htick, hindex⟩
  obtain ⟨n, hn, hget⟩ := hrequest.arrives
  obtain ⟨u, hopen, hu, hclient, hserving⟩ := hticked.open_link sender now hget hnone hserved
  refine .after .tick htick (.after (.arrival hn) hopen ?_)
  have hat : (upstream c (Arriving held s.up.length) index sender s.server.base.objects.length
      now).At (s.setClient (s.client.tick now now now)) _ u := {
    holds := hu
    sent := congrArg TrunkClient.base hclient
    arrives := (upstream c _ index sender _ now).lasting _ _ _ hopen
    serving := hserving }
  refine (Way.act_run hat (OutLink.may_connect c target)).bind fun v hv => ?_
  obtain ⟨link, hv, hrest⟩ := hv
  rw [← hsame.readLog]
  refine Way.catch_up (s := s.setClient (s.client.tick now now now)) hx'
    (hsame.allocated ▸ hcount) hv hrest.working rfl fun e he _ => ?_
  rw [hsame.created] at he
  have hsize := (reachable_fits hreach).1 x (hx ▸ List.mem_singleton_self x) e he
  exact ⟨hsize, (hunderway e he).arrives⟩

/-- The client has read the byte A, of a connection the server has not heard of. -/
def unopened : List SystemEvent :=
  [.addConnect (.ofByte 1) 7 0 0, .clientAsio 0 (.readDone 0 ⟨false, [65]⟩) 0,
    .clientAsio 0 (.readHandler 0) 0]

/-- Nothing that was sent arrives; a second later request and packet are sent again. -/
theorem opens_upstream_byte :
    ∃ s, Transition.run step loopback unopened = some s ∧
      PossiblyBy step (UpEvent (Arriving (fun _ => False) s.up.length) 0 localhost
        s.server.base.objects.length (milliseconds 1000)) s fun s' =>
          ∃ y', s'.server.base.Serving (.ofByte 1) s.server.base.objects.length y' ∧
            y'.link.written = [65] := by
  have hany : (Transition.run step loopback unopened).any (fun s =>
      0 < s.server.trunkSockets ∧ (s.client.base.linksOf (.ofByte 1)).length = 1 ∧
        (∀ x ∈ s.client.base.linksOf (.ofByte 1), x.allocated < 4294967294 ∧
          x.link.readLog = [65] ∧ ∀ e ∈ x.created, ∃ item ∈ s.client.base.packetDataCache,
            item.info = dataPacket (.ofByte 1) e.2 .dataOut e.1 ∧
              item.nextSend < milliseconds 1000 ∧ milliseconds 1000 ≤ item.deadline) ∧
        (∃ item ∈ s.client.connectCache,
          item.info = connectPacket (.ofByte 1) 7 (UInt32.ofNat kResendTimeout) ∧
            item.nextSend ≤ milliseconds 1000 ∧ milliseconds 1000 ≤ item.deadline) ∧
        s.server.linkFabric 7 = some ⟨"localhost", 80⟩ ∧
        s.server.base.getOutLink (.ofByte 1) = none) = true := by
    decide +kernel
  obtain ⟨s, hrun, hs⟩ := (Option.any_eq_true _ _).mp hany
  obtain ⟨hsocket, hone, hread, hrequest, hserved, hnone⟩ := of_decide_eq_true hs
  obtain ⟨x, hx⟩ := List.length_eq_one_iff.mp hone
  obtain ⟨hcount, hlog, hcached⟩ := hread x (by simp [hx])
  obtain ⟨request, hcache, hasks, hwaits⟩ := hrequest
  have hpossibly := opens_upstream (reachable_loopback hrun) (fun _ => False) hsocket
    localhost hx hcount (.requested hcache hasks hwaits) hserved hnone fun e he => by
      obtain ⟨item, hitem, hinfo, hdue⟩ := hcached e he
      exact .cached hitem hinfo hdue
  refine ⟨s, hrun, hpossibly.mono fun s' hs' => ?_⟩
  obtain ⟨y', hy', _, hwritten⟩ := hs'
  exact ⟨y', hy', hwritten.trans hlog⟩

end System
