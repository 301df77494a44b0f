import ByteStacker.SystemSteps
import ByteStacker.TrunkCalls

/-!
# Where everything on the wire comes from

The network loses, duplicates, delays and reorders, but it does not invent.  A
side vouches for a handler call when the chunk or the Release the call carries
was created there for a link of that connection.  `SystemInv` says that
everything cached or in flight is vouched for by its sender, so that every chunk
a link was ever handed was created on the other side, for the same connection
and with the same index and bytes.

No order of delivery appears in it: the datagrams only accumulate, and what a
side has created is never taken back (`RegEvent.grows`).
-/

open OutLink (CallOutcome)

/-! ## What a registration keeps -/

/-- Histories only grow, a link keeps its connection, and a cancel stays. -/
structure Registration.Grows (reg reg' : Registration) : Prop where
  hoster : reg'.link.hoster = reg.link.hoster
  created : reg.created <+: reg'.created
  released : reg.released <+: reg'.released
  handed : reg.handed <+: reg'.handed
  stops : reg.stops <+: reg'.stops
  allocated : reg.allocated ≤ reg'.allocated
  cancelled : reg.link.stopWriteImmediate = true → reg'.link.stopWriteImmediate = true

/-- A registration grows by nothing. -/
theorem Registration.Grows.refl (reg : Registration) : reg.Grows reg :=
  ⟨rfl, List.prefix_rfl, List.prefix_rfl, List.prefix_rfl, List.prefix_rfl, Nat.le_refl _, id⟩

/-- **Every event of a registration makes it grow.** -/
theorem RegEvent.grows {op : TrunkOp} {reg reg' : Registration} (hinv : reg.Inv)
    (h : RegEvent op reg reg') : reg.Grows reg' := by
  induction h with
  | same => exact .refl _
  | quiet hstep =>
      exact ⟨(hinv.linkStep hstep).hoster, List.prefix_rfl, List.prefix_rfl, List.prefix_rfl,
        List.prefix_rfl, Nat.le_refl _, (OutLink.flags_asioStep hstep).2⟩
  | read hstep _ =>
      exact ⟨(hinv.linkStep hstep).hoster, List.prefix_append _ _, List.prefix_rfl,
        List.prefix_rfl, List.prefix_rfl, Nat.le_succ _, (OutLink.flags_asioStep hstep).2⟩
  | closed hstep _ =>
      exact ⟨(hinv.linkStep hstep).hoster, List.prefix_rfl, List.prefix_append _ _,
        List.prefix_rfl, List.prefix_rfl, Nat.le_succ _, (OutLink.flags_asioStep hstep).2⟩
  | dropped hstep _ =>
      exact ⟨(hinv.linkStep hstep).hoster, List.prefix_rfl, List.prefix_rfl, List.prefix_rfl,
        List.prefix_rfl, Nat.le_succ _, (OutLink.flags_asioStep hstep).2⟩
  | @handed reg cnt packetIndex data now _ _ =>
      have hlife := (reg.link.sameLife_sendData packetIndex data).1
      exact ⟨hlife.hoster, List.prefix_rfl, List.prefix_rfl, List.prefix_append _ _,
        List.prefix_rfl, Nat.le_refl _, hlife.stopWriteImmediate.trans⟩
  | @released reg cnt packetId now _ =>
      have hlife := (reg.link.sameLife_stop packetId).1
      exact ⟨hlife.hoster, List.prefix_rfl, List.prefix_rfl, List.prefix_rfl,
        List.prefix_append _ _, Nat.le_refl _, hlife.stopWriteImmediate.trans⟩
  | @dead reg reg' curt _ ih =>
      obtain ⟨ihh, hcr, hre, hha, hst, hal, ihi⟩ := ih hinv
      have hlife := (reg'.link.sameLife_stop 0).1
      exact ⟨hlife.hoster.trans ihh, hcr, hre, hha, hst.trans (List.prefix_append _ _), hal,
        fun h => hlife.stopWriteImmediate.trans (ihi h)⟩

/-- A chunk is handed to a link only by a data packet of its connection. -/
theorem RegEvent.handed_new {op : TrunkOp} {reg reg' : Registration} (h : RegEvent op reg reg')
    {e : UInt32 × Bytes} (he : e ∈ reg'.handed) :
    e ∈ reg.handed ∨ ∃ cnt now, op = .handle (.processDataToOutlink cnt e.1 e.2) now ∧
      reg.link.hoster = some cnt := by
  induction h with
  | same => exact Or.inl he
  | quiet _ => exact Or.inl he
  | read _ _ => exact Or.inl he
  | closed _ _ => exact Or.inl he
  | dropped _ _ => exact Or.inl he
  | handed hcnt _ =>
      rcases List.mem_append.mp he with he | he
      · exact Or.inl he
      · rw [List.mem_singleton.mp he]
        exact Or.inr ⟨_, _, rfl, hcnt⟩
  | released _ => exact Or.inl he
  | dead _ ih => exact ih he

/-- A link is told the Release of its connection only by a Release packet. -/
theorem RegEvent.release_new {op : TrunkOp} {reg reg' : Registration} (h : RegEvent op reg reg')
    {n : UInt32} (hn : .release n ∈ reg'.stops) :
    .release n ∈ reg.stops ∨ ∃ cnt now, op = .handle (.processReleaseConnect cnt n) now ∧
      reg.link.hoster = some cnt := by
  induction h with
  | same => exact Or.inl hn
  | quiet _ => exact Or.inl hn
  | read _ _ => exact Or.inl hn
  | closed _ _ => exact Or.inl hn
  | dropped _ _ => exact Or.inl hn
  | handed _ _ => exact Or.inl hn
  | released hcnt =>
      rcases List.mem_append.mp hn with hn | hn
      · exact Or.inl hn
      · cases List.mem_singleton.mp hn
        exact Or.inr ⟨_, _, rfl, hcnt⟩
  | dead _ ih =>
      rcases List.mem_append.mp hn with hn | hn
      · exact ih hn
      · cases List.mem_singleton.mp hn

/-! ## Vouching -/

namespace TrunkLink

variable {t t' : TrunkLink} {op : TrunkOp}

/-- The side created what the call carries, for a link of the call's connection. -/
def Vouched (t : TrunkLink) : HandlerCall → Prop
  | .processDataToOutlink cnt packetIndex data =>
    ∃ reg ∈ t.objects, reg.link.hoster = some cnt ∧ (packetIndex, data) ∈ reg.created
  | .processReleaseConnect cnt packetId =>
    ∃ reg ∈ t.objects, reg.link.hoster = some cnt ∧ packetId ∈ reg.released
  | _ => True

/-- A packet of the side that carries what the side vouches for. -/
def Backed (t : TrunkLink) (pkt : PacketInfo) : Prop :=
  ∃ call, Emitted t.serverSide pkt call ∧ t.Vouched call

/-- Every link object is still there, with longer histories. -/
theorem Evolves.grown (h : t.Inv) (hevolves : Evolves op t t') {reg : Registration}
    (hreg : reg ∈ t.objects) : ∃ reg' ∈ t'.objects, reg.Grows reg' := by
  obtain ⟨k, hk, hget⟩ := List.getElem_of_mem hreg
  obtain ⟨reg', hreg', hevent⟩ := hevolves.kept k reg (hget ▸ List.getElem?_eq_getElem hk)
  exact ⟨reg', List.mem_of_getElem? hreg', hevent.grows (h.sound reg hreg)⟩

/-- A side never takes back what it vouches for. -/
theorem Evolves.vouched (h : t.Inv) (hevolves : Evolves op t t') {call : HandlerCall}
    (hcall : t.Vouched call) : t'.Vouched call := by
  cases call with
  | processDataToOutlink cnt packetIndex data =>
      obtain ⟨reg, hreg, hcnt, hmem⟩ := hcall
      obtain ⟨reg', hreg', hgrows⟩ := hevolves.grown h hreg
      exact ⟨reg', hreg', hgrows.hoster.trans hcnt, hgrows.created.subset hmem⟩
  | processReleaseConnect cnt packetId =>
      obtain ⟨reg, hreg, hcnt, hmem⟩ := hcall
      obtain ⟨reg', hreg', hgrows⟩ := hevolves.grown h hreg
      exact ⟨reg', hreg', hgrows.hoster.trans hcnt, hgrows.released.subset hmem⟩
  | processConnectData cnt pointId timeout => trivial
  | processAckConnectData cnt => trivial
  | processAckData cnt packetIndex => trivial
  | processLive cnt => trivial

/-- A side stays on its side. -/
theorem apply_serverSide {pkts : List PacketInfo} (happly : t.apply op = some (t', pkts)) :
    t'.serverSide = t.serverSide :=
  call_serverSide (e := .op op) happly

/-- Live packets and acknowledgements carry nothing to vouch for. -/
theorem backed_liveLoop {curt : Time} (items : List OutLinkInfo) (t : TrunkLink) :
    ∀ pkt ∈ (liveLoop curt items t).2, ∀ t' : TrunkLink, t'.Backed pkt := by
  intro pkt hpkt t'
  rw [liveLoop_packets] at hpkt
  obtain ⟨item, _, rfl⟩ := List.mem_map.mp hpkt
  exact ⟨_, .live _ item.connectId, trivial⟩

/-- Everything the side has cached is vouched for. -/
def CacheBacked (t : TrunkLink) : Prop :=
  ∀ item ∈ t.packetDataCache, t.Backed item.info

/-- A new packet that is vouched for may be cached and sent. -/
theorem backed_cached {pkt : PacketInfo} {now : Time} (hold : ∀ pkt, t.Backed pkt → t'.Backed pkt)
    (hcache : t.CacheBacked) (hnew : t'.Backed pkt)
    (hadded : t'.packetDataCache = t.packetDataCache ++ [.start pkt now]) :
    t'.CacheBacked ∧ ∀ p ∈ [pkt], t'.Backed p := by
  refine ⟨?_, fun p hp => List.mem_singleton.mp hp ▸ hnew⟩
  intro item hitem
  rw [hadded] at hitem
  rcases List.mem_append.mp hitem with hitem | hitem
  · exact hold _ (hcache item hitem)
  · rw [List.mem_singleton.mp hitem]
    exact hnew

/-- **An event of a socket caches and sends only what it vouches for.** -/
theorem backed_asio (h : t.Inv) {k : Nat} {e : AsioEvent} {now : Time} {pkts : List PacketInfo}
    (hresult : AsioResult t k e now t' pkts) (hold : ∀ pkt, t.Backed pkt → t'.Backed pkt)
    (hcache : t.CacheBacked) : t'.CacheBacked ∧ ∀ pkt ∈ pkts, t'.Backed pkt := by
  cases hresult with
  | quiet hreg hstep => exact ⟨fun item hitem => hold _ (hcache item hitem), by simp⟩
  | readDropped hreg hstep hbad =>
      exact ⟨fun item hitem => hold _ (hcache item hitem), by simp⟩
  | closedDropped hreg hstep hbad =>
      exact ⟨fun item hitem => hold _ (hcache item hitem), by simp⟩
  | @read reg link cnt data hreg hstep hsize hgood =>
      have hk := (List.getElem?_eq_some_iff.mp hreg).1
      have hl := (h.sound _ (List.mem_of_getElem? hreg)).linkStep hstep
      cases hl.outcome with
      | read _ _ hcnt _ _ _ _ =>
          exact backed_cached hold hcache
            ⟨.processDataToOutlink cnt _ data, .data _ cnt _ data hsize, _, List.mem_set hk _,
              hl.hoster.trans hcnt, by simp⟩ rfl
  | @closed reg link cnt hreg hstep hgood =>
      have hk := (List.getElem?_eq_some_iff.mp hreg).1
      have hl := (h.sound _ (List.mem_of_getElem? hreg)).linkStep hstep
      cases hl.outcome with
      | closed _ hcnt _ _ _ =>
          exact backed_cached hold hcache
            ⟨.processReleaseConnect cnt _, .release _ cnt _, _, List.mem_set hk _,
              hl.hoster.trans hcnt, by simp⟩ rfl

/-- The live loop sends live packets only. -/
theorem backed_live {curt : Time}
    (hold : ∀ pkt, t.Backed pkt → (t.sendLivePacket curt).1.Backed pkt)
    (hcache : t.CacheBacked) : (t.sendLivePacket curt).1.CacheBacked ∧
      ∀ pkt ∈ (t.sendLivePacket curt).2, (t.sendLivePacket curt).1.Backed pkt := by
  have hframe := (sendLivePacket_frame t curt).2.1
  refine ⟨fun item hitem => hold _ (hcache item (hframe ▸ hitem)), ?_⟩
  generalize (t.sendLivePacket curt).1 = after
  unfold sendLivePacket
  split
  · simp
  · exact fun pkt hpkt => backed_liveLoop _ _ pkt hpkt after

/-- The resend tick sends again what is cached. -/
theorem backed_resend {curt : Time} (hcache : t.CacheBacked) :
    (t.onCacheResend curt).1.CacheBacked ∧
      ∀ pkt ∈ (t.onCacheResend curt).2, (t.onCacheResend curt).1.Backed pkt := by
  refine ⟨?_, ?_⟩
  · intro item hitem
    obtain ⟨old, hmem, rfl⟩ := List.mem_map.mp hitem
    have hbacked := hcache old (List.mem_of_mem_filter hmem)
    split
    · exact hbacked
    · exact hbacked
  · intro pkt hpkt
    obtain ⟨old, hmem, rfl⟩ := List.mem_map.mp hpkt
    exact hcache old (List.mem_of_mem_filter (List.mem_of_mem_filter hmem))

/-- The handlers leave the cache alone and send acknowledgements only. -/
theorem backed_handle {call : HandlerCall} {now : Time}
    (hold : ∀ pkt, t.Backed pkt → (t.handle now call).1.Backed pkt) (hcache : t.CacheBacked) :
    (t.handle now call).1.CacheBacked ∧
      ∀ pkt ∈ (t.handle now call).2, (t.handle now call).1.Backed pkt := by
  obtain ⟨_, hsame, hside⟩ := handle_frame t now call
  refine ⟨fun item hitem => hold _ (hcache item (hsame ▸ hitem)), ?_⟩
  generalize (t.handle now call).1 = after at hside ⊢
  cases call with
  | processConnectData cnt pointId timeout => simp [handle]
  | processAckConnectData cnt => simp [handle]
  | processAckData cnt packetIndex => simp [handle]
  | processLive cnt => simp [handle]
  | processReleaseConnect cnt packetId => simp [handle]
  | processDataToOutlink cnt packetIndex data =>
      simp only [handle, processDataToOutlink]
      split
      · simp
      · intro pkt hpkt
        rw [List.mem_singleton.mp hpkt]
        refine ⟨.processAckData cnt packetIndex, ?_, trivial⟩
        rw [hside]
        exact .ackData _ cnt packetIndex

/-- **What an operation caches and sends is vouched for.** -/
theorem backed_apply (h : t.Inv) {pkts : List PacketInfo} (hcache : t.CacheBacked)
    (happly : t.apply op = some (t', pkts)) : t'.CacheBacked ∧ ∀ pkt ∈ pkts, t'.Backed pkt := by
  have hevolves := evolves_apply h happly
  have hside := apply_serverSide happly
  have hold : ∀ pkt, t.Backed pkt → t'.Backed pkt := by
    intro pkt hbacked
    obtain ⟨call, hemitted, hvouched⟩ := hbacked
    exact ⟨call, hside ▸ hemitted, hevolves.vouched h hvouched⟩
  cases op with
  | add cnt point now =>
      simp only [apply] at happly
      split at happly
      · cases happly
      · cases happly
        exact ⟨fun item hitem => hold _ (hcache item hitem), by simp⟩
  | asio k e now => exact backed_asio h (asioStep_result h happly) hold hcache
  | live curt =>
      have hfst : (t.sendLivePacket curt).1 = t' := congrArg Prod.fst (Option.some.inj happly)
      have hsnd : (t.sendLivePacket curt).2 = pkts := congrArg Prod.snd (Option.some.inj happly)
      subst hfst hsnd
      exact backed_live hold hcache
  | resend curt =>
      cases happly
      exact backed_resend hcache
  | handle call now =>
      have hfst : (t.handle now call).1 = t' := congrArg Prod.fst (Option.some.inj happly)
      have hsnd : (t.handle now call).2 = pkts := congrArg Prod.snd (Option.some.inj happly)
      subst hfst hsnd
      exact backed_handle hold hcache
  | getStat =>
      cases happly
      exact ⟨fun item hitem => hold _ (hcache item hitem), by simp⟩

end TrunkLink

/-! ## One direction of the trunk -/

/-- Every chunk and every Release a link of `b` was told of comes from `a`. -/
structure Channel (a b : TrunkLink) : Prop where
  heard : ∀ reg ∈ b.objects, ∀ cnt, reg.link.hoster = some cnt → ∀ e ∈ reg.handed,
    a.Vouched (.processDataToOutlink cnt e.1 e.2)
  told : ∀ reg ∈ b.objects, ∀ cnt, reg.link.hoster = some cnt → ∀ n, .release n ∈ reg.stops →
    a.Vouched (.processReleaseConnect cnt n)

/-- Whatever the sender does keeps the channel. -/
theorem Channel.sender {a a' b : TrunkLink} {op : TrunkOp} (h : Channel a b) (ha : a.Inv)
    (hevolves : TrunkLink.Evolves op a a') : Channel a' b where
  heard := fun reg hreg cnt hcnt e he => hevolves.vouched ha (h.heard reg hreg cnt hcnt e he)
  told := fun reg hreg cnt hcnt n hn => hevolves.vouched ha (h.told reg hreg cnt hcnt n hn)

/-- So does what the receiver does, if it is called with what the sender vouches for. -/
theorem Channel.receiver {a b b' : TrunkLink} {op : TrunkOp} (h : Channel a b) (hb : b.Inv)
    (hevolves : TrunkLink.Evolves op b b')
    (hcall : ∀ call now, op = .handle call now → a.Vouched call) : Channel a b' := by
  constructor
  · intro reg' hreg' cnt hcnt e he
    obtain ⟨k, hk, hget⟩ := List.getElem_of_mem hreg'
    rcases hevolves.back (hget ▸ List.getElem?_eq_getElem hk) with
      ⟨reg, hreg, hevent⟩ | ⟨_, _, _, _, rfl⟩
    · have hmem := List.mem_of_getElem? hreg
      have hhoster := (hevent.grows (hb.sound reg hmem)).hoster
      rcases hevent.handed_new he with hold | ⟨cnt', now, hop, hcnt'⟩
      · exact h.heard reg hmem cnt (hhoster ▸ hcnt) e hold
      · have hsame : cnt' = cnt := Option.some.inj (hcnt'.symm.trans (hhoster ▸ hcnt))
        exact hsame ▸ hcall _ now hop
    · simp at he
  · intro reg' hreg' cnt hcnt n hn
    obtain ⟨k, hk, hget⟩ := List.getElem_of_mem hreg'
    rcases hevolves.back (hget ▸ List.getElem?_eq_getElem hk) with
      ⟨reg, hreg, hevent⟩ | ⟨_, _, _, _, rfl⟩
    · have hmem := List.mem_of_getElem? hreg
      have hhoster := (hevent.grows (hb.sound reg hmem)).hoster
      rcases hevent.release_new hn with hold | ⟨cnt', now, hop, hcnt'⟩
      · exact h.told reg hmem cnt (hhoster ▸ hcnt) n hold
      · have hsame : cnt' = cnt := Option.some.inj (hcnt'.symm.trans (hhoster ▸ hcnt))
        exact hsame ▸ hcall _ now hop
    · simp at hn

/-! ## Both directions -/

/-- Two sides that keep their books, cache only what they vouch for and handed
their links only what the other side vouches for. -/
structure Linked (a b : TrunkLink) : Prop where
  near : a.Inv
  far : b.Inv
  nearCache : ∀ item ∈ a.packetDataCache, a.Backed item.info
  farCache : ∀ item ∈ b.packetDataCache, b.Backed item.info
  outward : Channel a b
  inward : Channel b a

/-- Being linked is symmetric. -/
theorem Linked.symm {a b : TrunkLink} (h : Linked a b) : Linked b a :=
  ⟨h.far, h.near, h.farCache, h.nearCache, h.inward, h.outward⟩

/-- **An operation of one side keeps the two linked.** -/
theorem Linked.apply {a a' b : TrunkLink} {op : TrunkOp} {sent : List PacketInfo}
    (h : Linked a b) (happly : a.apply op = some (a', sent))
    (hcall : ∀ call now, op = .handle call now → b.Vouched call) : Linked a' b :=
  have hevolves := TrunkLink.evolves_apply h.near happly
  { near := h.near.apply happly
    far := h.far
    nearCache := (TrunkLink.backed_apply h.near h.nearCache happly).1
    farCache := h.farCache
    outward := h.outward.sender h.near hevolves
    inward := h.inward.receiver h.near hevolves hcall }

/-- A side that still vouches for as much backs the same packets. -/
theorem TrunkLink.Backed.mono {t t' : TrunkLink} {pkt : PacketInfo} (h : t.Backed pkt)
    (hside : t'.serverSide = t.serverSide) (hvouched : ∀ call, t.Vouched call → t'.Vouched call) :
    t'.Backed pkt := by
  obtain ⟨call, hemitted, hcall⟩ := h
  exact ⟨call, hside ▸ hemitted, hvouched call hcall⟩

/-- The operations of an event, given calls the other side vouches for. -/
theorem Linked.acts {a a' b : TrunkLink} {ops : List TrunkOp} {sent : List PacketInfo}
    (h : Linked a b) (hacts : TrunkLink.Acts a ops a' sent)
    (hcall : ∀ call now, .handle call now ∈ ops → b.Vouched call) :
    Linked a' b ∧ a'.serverSide = a.serverSide ∧ (∀ call, a.Vouched call → a'.Vouched call) ∧
      ∀ pkt ∈ sent, a'.Backed pkt := by
  induction hacts with
  | nil => exact ⟨h, rfl, fun _ hold => hold, by simp⟩
  | cons happly _ ih =>
      have hnext := h.apply happly fun call now hop =>
        hcall call now (hop ▸ List.mem_cons_self)
      obtain ⟨hlinked, hside, hold, hnew⟩ := ih hnext fun call now hop =>
        hcall call now (List.mem_cons_of_mem _ hop)
      refine ⟨hlinked, hside.trans (TrunkLink.apply_serverSide happly), ?_, ?_⟩
      · exact fun call hvouched =>
          hold call ((TrunkLink.evolves_apply h.near happly).vouched h.near hvouched)
      · intro pkt hpkt
        rcases List.mem_append.mp hpkt with hpkt | hpkt
        · exact ((TrunkLink.backed_apply h.near h.nearCache happly).2 pkt hpkt).mono hside hold
        · exact hnew pkt hpkt

/-! ## The whole system -/

namespace System

variable {s s' : System} {e : SystemEvent}

/-- **Provenance.**  The two sides are linked and every datagram in flight is
vouched for by the side it comes from. -/
structure Inv (s : System) : Prop where
  linked : Linked s.client.base s.server.base
  clientSide : s.client.base.serverSide = false
  serverSide : s.server.base.serverSide = true
  connects : ∀ item ∈ s.client.connectCache,
    ∃ cnt point timeout, item.info = connectPacket cnt point timeout
  up : ∀ d ∈ s.up, ∃ pkt, d = pkt.datagram ∧ s.client.base.Backed pkt
  down : ∀ d ∈ s.down, ∃ pkt, d.data = pkt.datagram ∧ s.server.base.Backed pkt

/-- What a dispatcher makes of a datagram that is vouched for. -/
theorem vouched_of_read {t : TrunkLink} {pkt : PacketInfo} {call : HandlerCall}
    (hbacked : t.Backed pkt) (hread :
      (processTrunkData (!t.serverSide) (pkt.datagram.take kPacketBufferSize)).join = some call) :
    t.Vouched call := by
  obtain ⟨given, hemitted, hvouched⟩ := hbacked
  rw [List.take_of_length_le (emitted_length hemitted), processTrunkData_emitted hemitted,
    Option.join_some] at hread
  split at hread
  · cases hread
  · cases hread
    exact hvouched

/-- **The server gets only calls the client vouches for.** -/
theorem Inv.serverCall_vouched (h : s.Inv) {call : HandlerCall}
    (hcall : s.serverCall e = some call) : s.client.base.Vouched call := by
  cases e with
  | toServer n index sender now =>
      obtain ⟨d, hd, hread⟩ := Option.bind_eq_some_iff.mp hcall
      obtain ⟨pkt, rfl, hbacked⟩ := h.up d (List.mem_of_getElem? hd)
      refine vouched_of_read hbacked ?_
      rw [h.clientSide]
      exact hread
  | _ => cases hcall

/-- **The client gets only calls the server vouches for.** -/
theorem Inv.clientCall_vouched (h : s.Inv) {call : HandlerCall}
    (hcall : s.clientCall e = some call) : s.server.base.Vouched call := by
  cases e with
  | toClient n now =>
      obtain ⟨d, hd, hread⟩ := Option.bind_eq_some_iff.mp hcall
      obtain ⟨pkt, hdata, hbacked⟩ := h.down d (List.mem_of_getElem? hd)
      refine vouched_of_read hbacked ?_
      rw [h.serverSide, ← hdata]
      exact hread
  | _ => cases hcall

/-- The calls a side handles are those of its dispatcher, one in an event. -/
theorem serverOps_handle {call : HandlerCall} {now : Time}
    (h : .handle call now ∈ s.serverOps e) :
    s.serverCall e = some call ∧ s.serverOps e = [.handle call now] := by
  cases e with
  | toServer n index sender now' =>
      simp only [serverOps] at h ⊢
      split at h
      · split at h <;> simp at h
      · rename_i c hne hcall
        simp only [List.mem_singleton, TrunkOp.handle.injEq] at h
        simp [hcall, h.1, h.2]
      · simp at h
  | _ => simp [serverOps] at h

/-- A handler of the client runs alone, on the call of its datagram. -/
theorem clientOps_handle {call : HandlerCall} {now : Time}
    (h : .handle call now ∈ s.clientOps e) :
    s.clientCall e = some call ∧ s.clientOps e = [.handle call now] := by
  cases e with
  | addConnect cnt point registered cached =>
      simp only [clientOps] at h
      split at h <;> simp at h
  | toClient n now' =>
      simp only [clientOps] at h ⊢
      split at h
      · rename_i c hcall
        simp only [List.mem_singleton, TrunkOp.handle.injEq] at h
        simp [hcall, h.1, h.2]
      · simp at h
  | _ => simp [clientOps] at h

/-- **Every event keeps the provenance.** -/
theorem Inv.step (h : s.Inv) (hstep : s.step e = some s') : s'.Inv := by
  obtain ⟨clientSent, serverSent, heffect⟩ := step_effect hstep
  obtain ⟨hnear, hcside, hcold, hcnew⟩ := h.linked.acts heffect.client fun call now hop =>
    h.clientCall_vouched (clientOps_handle hop).1
  obtain ⟨hfar, hsside, hsold, hsnew⟩ := hnear.symm.acts heffect.server fun call now hop =>
    hcold call (h.serverCall_vouched (serverOps_handle hop).1)
  have hconnects : ∀ item ∈ s'.client.connectCache,
      ∃ cnt point timeout, item.info = connectPacket cnt point timeout := by
    intro item' hitem'
    rcases heffect.connects item' hitem' with ⟨item, hitem, hinfo⟩ | hnew
    · obtain ⟨cnt, point, timeout, hpkt⟩ := h.connects item hitem
      exact ⟨cnt, point, timeout, hinfo.trans hpkt⟩
    · cases e with
      | addConnect cnt point registered cached =>
          exact ⟨cnt, point, _, (Option.some.inj hnew).symm⟩
      | _ => cases hnew
  refine ⟨hfar.symm, hcside.trans h.clientSide, hsside.trans h.serverSide, hconnects, ?_, ?_⟩
  · obtain ⟨new, hup, hnew⟩ := heffect.up
    intro d hd
    rw [hup] at hd
    rcases List.mem_append.mp hd with hd | hd
    · obtain ⟨pkt, hdata, hbacked⟩ := h.up d hd
      exact ⟨pkt, hdata, hbacked.mono hcside hcold⟩
    · rcases hnew d hd with ⟨pkt, hpkt, hdata⟩ | ⟨item, hitem, hdata⟩
      · exact ⟨pkt, hdata, hcnew pkt hpkt⟩
      · obtain ⟨cnt, point, timeout, hinfo⟩ := hconnects item hitem
        refine ⟨_, hinfo ▸ hdata, .processConnectData cnt point timeout, ?_, trivial⟩
        rw [hcside, h.clientSide]
        exact .createConnect cnt point timeout
  · obtain ⟨new, hdown, hnew⟩ := heffect.down
    intro d hd
    rw [hdown] at hd
    rcases List.mem_append.mp hd with hd | hd
    · obtain ⟨pkt, hdata, hbacked⟩ := h.down d hd
      exact ⟨pkt, hdata, hbacked.mono hsside hsold⟩
    · rcases hnew d hd with ⟨pkt, hpkt, hdata⟩ | ⟨cnt, hdata⟩
      · exact ⟨pkt, hdata, hsnew pkt hpkt⟩
      · refine ⟨_, hdata, .processAckConnectData cnt, ?_, trivial⟩
        rw [hsside, h.serverSide]
        exact .ackCreateConnect cnt

/-- The invariant holds at the start. -/
theorem inv_start (h : Start s) : s.Inv := by
  obtain ⟨clientTime, serverTime, trunkSockets, linkFabric, rfl⟩ := h
  refine ⟨⟨TrunkLink.inv_create false clientTime, TrunkLink.inv_create true serverTime,
    ?_, ?_, ?_, ?_⟩, rfl, rfl, ?_, ?_, ?_⟩
  · exact fun item hitem => absurd hitem List.not_mem_nil
  · exact fun item hitem => absurd hitem List.not_mem_nil
  · exact ⟨fun reg hreg => absurd hreg List.not_mem_nil,
      fun reg hreg => absurd hreg List.not_mem_nil⟩
  · exact ⟨fun reg hreg => absurd hreg List.not_mem_nil,
      fun reg hreg => absurd hreg List.not_mem_nil⟩
  · exact fun item hitem => absurd hitem List.not_mem_nil
  · exact fun d hd => absurd hd List.not_mem_nil
  · exact fun d hd => absurd hd List.not_mem_nil

/-- **Provenance holds in every reachable state.** -/
theorem reachable_inv {ok : System → SystemEvent → Prop} (h : Reachable ok s) : s.Inv :=
  h.invariant (fun _ => inv_start) fun _ _ _ _ hinv _ hstep => hinv.step hstep

/-! ## A rule for link objects -/

section Registrations

variable {P : Registration → Prop}
  (hfresh : ∀ cnt point, P { link := (newLink point).run cnt })
  (hevent : ∀ op reg reg', reg.Inv → P reg → RegEvent op reg reg' → P reg')

include hfresh hevent

/-- What every registration event keeps holds after any operations. -/
theorem registrations_acts {t t' : TrunkLink} {ops : List TrunkOp} {sent : List PacketInfo}
    (hacts : TrunkLink.Acts t ops t' sent) (h : t.Inv) (hP : ∀ reg ∈ t.objects, P reg) :
    ∀ reg ∈ t'.objects, P reg := by
  refine (hacts.invariant (I := fun t => t.Inv ∧ ∀ reg ∈ t.objects, P reg) (Q := fun _ => True)
    (fun _ _ => trivial) ⟨h, hP⟩ ?_).2
  intro t t' op sent h _ happly
  obtain ⟨hinv, hP⟩ := h
  refine ⟨hinv.apply happly, fun reg' hreg' => ?_⟩
  obtain ⟨k, hk, hget⟩ := List.getElem_of_mem hreg'
  rcases (TrunkLink.evolves_apply hinv happly).back (hget ▸ List.getElem?_eq_getElem hk) with
    ⟨reg, hreg, hev⟩ | ⟨cnt, point, _, _, rfl⟩
  · have hmem := List.mem_of_getElem? hreg
    exact hevent op reg reg' (hinv.sound reg hmem) (hP reg hmem) hev
  · exact hfresh cnt point

/-- **The rule for link objects.**  What holds of a new link and survives every
change of a registration holds of all link objects of both sides. -/
theorem reachable_registrations {ok : System → SystemEvent → Prop} (h : Reachable ok s) :
    (∀ reg ∈ s.client.base.objects, P reg) ∧ ∀ reg ∈ s.server.base.objects, P reg := by
  refine h.invariant (I := fun s : System => (∀ reg ∈ s.client.base.objects, P reg) ∧
    ∀ reg ∈ s.server.base.objects, P reg) ?_ ?_
  · intro s hstart
    obtain ⟨clientTime, serverTime, trunkSockets, linkFabric, rfl⟩ := hstart
    exact ⟨fun reg hreg => absurd hreg List.not_mem_nil,
      fun reg hreg => absurd hreg List.not_mem_nil⟩
  · intro s e s' hs hboth _ hstep
    obtain ⟨hclient, hserver⟩ := hboth
    obtain ⟨clientSent, serverSent, heffect⟩ := step_effect hstep
    have hinv := (reachable_inv hs).linked
    exact ⟨registrations_acts hfresh hevent heffect.client hinv.near hclient,
      registrations_acts hfresh hevent heffect.server hinv.far hserver⟩

end Registrations

end System
