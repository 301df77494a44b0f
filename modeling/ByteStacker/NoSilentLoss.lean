import ByteStacker.AtMostOnce
import ByteStacker.AssertStop

/-!
# Nothing is lost in silence

A data packet stays in the cache of its sender until its deadline, and nothing
else takes it out: no acknowledgement of data is ever handled.  `Pending` is the
bookkeeping of a connection nobody has stopped: what was created is still
cached, or was handed to a link of the other side.  A link that was never
stopped keeps what it is handed, in the map or in the buffer
(`Registration.Keeps`), and a link that has closed counts as stopped
(`Registration.Disclosed.stopped`).

The resend tick breaks the bookkeeping where it drops a packet that has not got
through in two seconds, and both links live on.  `no_silent_loss` shows that this
is the only way.
-/

open Transition (Always run)

/-! ## A link that was never stopped keeps its chunks -/

namespace OutLink

/-- The chunk was put out, or waits for its turn. -/
def Accepted (l : OutLink) (chunkId : UInt32) : Prop :=
  chunkId < l.nextWriteChunkId ∨ l.writeChunks.contains chunkId = true

instance (l : OutLink) (chunkId : UInt32) : Decidable (l.Accepted chunkId) :=
  inferInstanceAs (Decidable (_ ∨ _))

/-- Without a stop point, every chunk of `Q` is in the map or was drained. -/
def Holds (Q : UInt32 → Prop) (l : OutLink) : Prop :=
  l.stopWriteChunkId = kUndefinedChunkID ∧
    ∀ id, Q id → id ∈ l.appended.map Prod.fst ∨ l.writeChunks.contains id = true

variable {Q : UInt32 → Prop} {l : OutLink}

/-- Holding the chunks is a matter of the map, the drained chunks and the stop point. -/
theorem chunkProperty_holds : ChunkProperty (Holds Q) where
  congr := by
    intro l m hs h
    obtain ⟨hstop, hheld⟩ := h
    refine ⟨hs.stopWriteChunkId.trans hstop, ?_⟩
    rw [hs.appended, hs.writeChunks]
    exact hheld
  finish := fun l h hreached => absurd hreached (by simp [stopReached, h.1])
  take := by
    intro l data rest h _ hentries
    obtain ⟨hstop, hheld⟩ := h
    refine ⟨hstop, fun id hid => ?_⟩
    rcases hheld id hid with hdrained | hkey
    · exact Or.inl (by simp [takeChunk, hdrained])
    · by_cases hnext : id = l.nextWriteChunkId
      · exact Or.inl (by simp [takeChunk, hnext])
      · obtain ⟨v, hv⟩ := SortedMap.contains_iff.mp hkey
        exact Or.inr (SortedMap.contains_iff.mpr
          ⟨v, (SortedMap.mem_eraseBegin hentries).mpr ⟨hv, hnext⟩⟩)

/-- An index below the awaited one was drained. -/
theorem Reassembly.drained_of_lt (h : Reassembly l) {id : UInt32}
    (hlt : id < l.nextWriteChunkId) : id ∈ l.appended.map Prod.fst := by
  rw [h.next, UInt32.lt_iff_toNat_lt, UInt32.toNat_ofNat'] at hlt
  have hlen : id.toNat < l.appended.length := Nat.lt_of_lt_of_le hlt (Nat.mod_le _ _)
  have hget := h.numbered.fst_getElem hlen
  rw [UInt32.ofNat_toNat] at hget
  exact hget ▸ List.mem_map_of_mem (List.getElem_mem hlen)

/-- A chunk handed over is held from then on. -/
theorem holds_sendData (h : Holds Q l) (hr : Reassembly l) (chunkId : UInt32) (data : Bytes) :
    (l.sendData chunkId data).Holds fun id => Q id ∨ id = chunkId := by
  obtain ⟨hstop, hheld⟩ := h
  have hout := sendData_outcome l chunkId data
  generalize l.sendData chunkId data = after at hout ⊢
  cases hout with
  | stale hlt =>
      refine ⟨hstop, fun id hid => ?_⟩
      rcases hid with hid | rfl
      · exact hheld id hid
      · exact Or.inl (hr.drained_of_lt hlt)
  | afterStop _ hdef _ => exact absurd hstop hdef
  | duplicate _ _ hdup =>
      refine ⟨hstop, fun id hid => ?_⟩
      rcases hid with hid | rfl
      · exact hheld id hid
      · exact Or.inr hdup
  | stored _ _ hnew timers _ =>
      refine ⟨hstop, fun id hid => ?_⟩
      have hinsert : ∀ e, e = (chunkId, data) ∨ e ∈ l.writeChunks.entries →
          e ∈ (l.writeChunks.insert chunkId data).entries :=
        fun e he => (SortedMap.mem_insert_new hnew).mpr he
      rcases hid with hid | rfl
      · rcases hheld id hid with hdrained | hkey
        · exact Or.inl hdrained
        · obtain ⟨v, hv⟩ := SortedMap.contains_iff.mp hkey
          exact Or.inr (SortedMap.contains_iff.mpr ⟨v, hinsert _ (Or.inr hv)⟩)
      · exact Or.inr (SortedMap.contains_iff.mpr ⟨data, hinsert _ (Or.inl rfl)⟩)

end OutLink

/-! ## Link objects -/

namespace Registration

variable {reg reg' : Registration}

/-- A link told no stop holds every chunk it was handed. -/
def Keeps (reg : Registration) : Prop :=
  reg.stops = [] → reg.link.Holds (· ∈ reg.handed.map Prod.fst)

/-- A new link has lost nothing, since it was handed nothing. -/
theorem keeps_new (cnt : ConnectID) (point : Option AddressPortPoint) :
    Registration.Keeps { link := (newLink point).run cnt } := by
  intro _
  refine OutLink.chunkProperty_holds.fresh ?_ ?_ (fresh_newLink cnt point)
  · exact ⟨rfl, by simp⟩
  · exact fun address port => ⟨rfl, by simp⟩

/-- A link that closes without ever having been connected tells its peer. -/
structure Disclosed (reg : Registration) : Prop where
  silent : reg.link.connected = false → reg.link.closeInvoked = false → reg.allocated = 0
  closed : reg.link.closeInvoked = true → reg.link.connected = false → reg.released ≠ []

/-- It depends on the chunks taken, the releases and the link's life. -/
theorem Disclosed.congr (h : reg.Disclosed) (hallocated : reg'.allocated = reg.allocated)
    (hreleased : reg'.released = reg.released) (hlife : reg.link.SameLife reg'.link) :
    reg'.Disclosed where
  silent := fun hc ho => hallocated.trans
    (h.silent (hlife.connected.symm.trans hc) (hlife.closeInvoked.symm.trans ho))
  closed := fun ho hc => hreleased ▸
    h.closed (hlife.closeInvoked.symm.trans ho) (hlife.connected.symm.trans hc)

/-- A new link has nothing to disclose. -/
theorem disclosed_new (cnt : ConnectID) (point : Option AddressPortPoint) :
    Registration.Disclosed { link := (newLink point).run cnt } where
  silent := fun _ _ => rfl
  closed := fun hclosed _ => absurd ((run_newLink cnt point).2.1.symm.trans hclosed) (by simp)

/-- The link was told to stop, has cancelled its operations or sent its Release. -/
def Stopped (reg : Registration) : Prop :=
  reg.stops ≠ [] ∨ reg.link.stopWriteImmediate = true ∨ reg.released ≠ []

instance (reg : Registration) : Decidable reg.Stopped :=
  inferInstanceAs (Decidable (_ ∨ _ ∨ _))

/-- **A closed link is a stopped one.** -/
theorem Disclosed.stopped (h : reg.Disclosed) (hinv : reg.Inv)
    (hclosed : reg.link.closeInvoked = true) : reg.Stopped := by
  cases hconn : reg.link.connected with
  | true =>
      have hread := (hinv.owned.closed hclosed).1
      exact Or.inr (Or.inl (hinv.owned.aborted hconn hread))
  | false => exact Or.inr (Or.inr (h.closed hclosed hconn))

end Registration

/-- **Every event of a registration keeps the chunks that reached it.** -/
theorem RegEvent.keeps {op : TrunkOp} {reg reg' : Registration} (h : RegEvent op reg reg')
    (hinv : reg.Inv) (hkeeps : reg.Keeps) : reg'.Keeps := by
  induction h with
  | same => exact hkeeps
  | quiet hstep => exact fun hs => OutLink.chunkProperty_holds.asioStep (hkeeps hs) hstep
  | read hstep _ => exact fun hs => OutLink.chunkProperty_holds.asioStep (hkeeps hs) hstep
  | closed hstep _ => exact fun hs => OutLink.chunkProperty_holds.asioStep (hkeeps hs) hstep
  | dropped hstep _ => exact fun hs => OutLink.chunkProperty_holds.asioStep (hkeeps hs) hstep
  | @handed reg cnt packetIndex data now _ _ =>
      intro hs
      have hholds := OutLink.holds_sendData (hkeeps hs) hinv.reassembly packetIndex data
      exact ⟨hholds.1, fun id hid => hholds.2 id (by simpa [Registration.sendData] using hid)⟩
  | released _ => exact fun hs => absurd hs (by simp [Registration.stop])
  | dead _ _ => exact fun hs => absurd hs (by simp [Registration.stop])

/-- **And every event keeps it that a link closed unconnected has told its peer.** -/
theorem RegEvent.disclosed {op : TrunkOp} {reg reg' : Registration} (h : RegEvent op reg reg')
    (hinv : reg.Inv) (hdis : reg.Disclosed) : reg'.Disclosed := by
  have hoff : ∀ {e link call}, reg.link.asioStep e = some (link, call) →
      link.connected = false → reg.link.connected = false := by
    intro e link call hstep hlink
    cases hconn : reg.link.connected with
    | false => rfl
    | true => exact absurd ((OutLink.flags_asioStep hstep).1 hconn) (by simp [hlink])
  induction h with
  | same => exact hdis
  | quiet hstep =>
      cases (hinv.linkStep hstep).outcome with
      | quiet hclose _ =>
          exact ⟨fun hc ho => hdis.silent (hoff hstep hc) (hclose.symm.trans ho),
            fun ho hc => hdis.closed (hclose.symm.trans ho) (hoff hstep hc)⟩
  | read hstep _ =>
      have hconn := (OutLink.flags_asioStep hstep).1
        (OutLink.connected_of_read hinv.owned hstep)
      exact ⟨fun hc => absurd (hconn.symm.trans hc) (by simp),
        fun _ hc => absurd (hconn.symm.trans hc) (by simp)⟩
  | closed hstep _ =>
      cases (hinv.linkStep hstep).outcome with
      | closed _ _ _ hclose _ =>
          exact ⟨fun _ ho => absurd (hclose.symm.trans ho) (by simp), fun _ _ => by simp⟩
  | @dropped k e now reg link call hstep hbad =>
      have hconn : link.connected = true := by
        by_contra hc
        have hc := hoff hstep (by simpa using hc)
        have hopen : reg.link.closeInvoked = false := by
          cases (hinv.linkStep hstep).outcome with
          | read _ _ _ _ hopen _ _ => exact hopen
          | closed _ _ hopen _ _ => exact hopen
        rw [hdis.silent hc hopen] at hbad
        exact absurd hbad (by decide)
      exact ⟨fun hc => absurd (hconn.symm.trans hc) (by simp),
        fun _ hc => absurd (hconn.symm.trans hc) (by simp)⟩
  | @handed reg cnt packetIndex data now _ _ =>
      exact hdis.congr rfl rfl (reg.link.sameLife_sendData packetIndex data).1
  | @released reg cnt packetId now _ =>
      exact hdis.congr rfl rfl (reg.link.sameLife_stop packetId).1
  | @dead reg reg' curt _ ih =>
      exact (ih hinv hdis hoff).congr rfl rfl (reg'.link.sameLife_stop 0).1

/-! ## Packets of a connection that still lives -/

namespace TrunkLink

variable {t t' a a' b b' : TrunkLink} {op : TrunkOp} {cnt : ConnectID} {sent : List PacketInfo}

/-- The data packet of a chunk is in the cache of its sender. -/
def Cached (t : TrunkLink) (cnt : ConnectID) (e : UInt32 × Bytes) : Prop :=
  ∃ item ∈ t.packetDataCache, item.info = t.readPacket cnt e.2 e.1

instance (t : TrunkLink) (cnt : ConnectID) (e : UInt32 × Bytes) : Decidable (t.Cached cnt e) :=
  inferInstanceAs (Decidable (∃ item ∈ t.packetDataCache, _))

/-- Some link of the connection was stopped, on either side. -/
def ConnectionStopped (a b : TrunkLink) (cnt : ConnectID) : Prop :=
  (∃ reg ∈ a.linksOf cnt, reg.Stopped) ∨ ∃ reg ∈ b.linksOf cnt, reg.Stopped

instance (a b : TrunkLink) (cnt : ConnectID) : Decidable (ConnectionStopped a b cnt) :=
  inferInstanceAs (Decidable (_ ∨ _))

/-- A link of the connection at the side was handed the chunk of this index. -/
def Reached (b : TrunkLink) (cnt : ConnectID) (packetIndex : UInt32) : Prop :=
  ∃ peer ∈ b.linksOf cnt, packetIndex ∈ peer.handed.map Prod.fst

instance (b : TrunkLink) (cnt : ConnectID) (packetIndex : UInt32) :
    Decidable (b.Reached cnt packetIndex) :=
  inferInstanceAs (Decidable (∃ peer ∈ b.linksOf cnt, _))

/-- What `a` created for the connection is still cached or has reached `b`. -/
def Pending (a b : TrunkLink) (cnt : ConnectID) : Prop :=
  ∀ reg ∈ a.linksOf cnt, ∀ e ∈ reg.created, a.Cached cnt e ∨ b.Reached cnt e.1

/-- The packets of the connection the resend tick at `curt` drops have reached `b`. -/
def ExpiredReached (a b : TrunkLink) (cnt : ConnectID) (curt : Time) : Prop :=
  ∀ reg ∈ a.linksOf cnt, ∀ e ∈ reg.created,
    (∃ item ∈ a.packetDataCache, item.info = a.readPacket cnt e.2 e.1 ∧ curt > item.deadline) →
      b.Reached cnt e.1

instance (a b : TrunkLink) (cnt : ConnectID) (curt : Time) :
    Decidable (ExpiredReached a b cnt curt) :=
  inferInstanceAs (Decidable (∀ reg ∈ a.linksOf cnt, _))

/-- A connection that has stopped does not start again. -/
theorem Registration.Grows.stopped {reg reg' : Registration} (h : reg.Grows reg')
    (hstopped : reg.Stopped) : reg'.Stopped := by
  rcases hstopped with hstops | himm | hreleased
  · exact Or.inl fun hnil => hstops (List.prefix_nil.mp (hnil ▸ h.stops))
  · exact Or.inr (Or.inl (h.cancelled himm))
  · exact Or.inr (Or.inr fun hnil => hreleased (List.prefix_nil.mp (hnil ▸ h.released)))

/-- The links of a connection stay, with longer histories. -/
theorem linksOf_grown (h : t.Inv) (happly : t.apply op = some (t', sent)) {reg : Registration}
    (hreg : reg ∈ t.linksOf cnt) : ∃ reg' ∈ t'.linksOf cnt, reg.Grows reg' := by
  obtain ⟨hmem, hcnt⟩ := mem_linksOf.mp hreg
  obtain ⟨reg', hreg', hgrows⟩ := (evolves_apply h happly).grown h hmem
  exact ⟨reg', mem_linksOf.mpr ⟨hreg', hgrows.hoster.trans hcnt⟩, hgrows⟩

/-- A stop is never forgotten. -/
theorem stopped_apply (h : a.Inv) (happly : a.apply op = some (a', sent))
    (hstopped : ConnectionStopped a b cnt) : ConnectionStopped a' b cnt := by
  rcases hstopped with ⟨reg, hreg, hstop⟩ | hpeer
  · obtain ⟨reg', hreg', hgrows⟩ := linksOf_grown h happly hreg
    exact Or.inl ⟨reg', hreg', Registration.Grows.stopped hgrows hstop⟩
  · exact Or.inr hpeer

/-- **A chunk that has reached a side has reached it for good.** -/
theorem reached_apply (h : b.Inv) (happly : b.apply op = some (b', sent)) {packetIndex : UInt32}
    (hreached : b.Reached cnt packetIndex) : b'.Reached cnt packetIndex := by
  obtain ⟨peer, hpeer, hmem⟩ := hreached
  obtain ⟨peer', hpeer', hgrows⟩ := linksOf_grown h happly hpeer
  exact ⟨peer', hpeer', (hgrows.handed.map Prod.fst).subset hmem⟩

/-- Replacing a link object without a new packet creates nothing. -/
theorem created_set {k : Nat} {reg r reg' : Registration} {e : UInt32 × Bytes}
    (hreg : t.objects[k]? = some reg) (hmem : reg' ∈ t.objects.set k r)
    (hoster : r.link.hoster = reg.link.hoster) (hcreated : r.created = reg.created)
    (hcnt : reg'.link.hoster = some cnt) (he : e ∈ reg'.created) :
    ∃ reg ∈ t.linksOf cnt, e ∈ reg.created := by
  rcases List.mem_or_eq_of_mem_set hmem with hold | rfl
  · exact ⟨reg', mem_linksOf.mpr ⟨hold, hcnt⟩, he⟩
  · exact ⟨reg, mem_linksOf.mpr ⟨List.mem_of_getElem? hreg, hoster.symm.trans hcnt⟩,
      hcreated ▸ he⟩

/-- **A data packet is created into the cache** and sent at once. -/
theorem created_asio (h : t.Inv) {k : Nat} {ev : AsioEvent} {now : Time}
    (happly : t.apply (.asio k ev now) = some (t', sent)) {reg' : Registration}
    (hreg' : reg' ∈ t'.linksOf cnt) {e : UInt32 × Bytes} (he : e ∈ reg'.created) :
    (∃ reg ∈ t.linksOf cnt, e ∈ reg.created) ∨ t'.Cached cnt e ∧
      e.2.length ≤ kMaxChunkSize ∧ t.readPacket cnt e.2 e.1 ∈ sent := by
  obtain ⟨hmem', hcnt'⟩ := mem_linksOf.mp hreg'
  have hstep : ∀ {k reg link ev call}, t.objects[k]? = some reg →
      reg.link.asioStep ev = some (link, call) → Registration.LinkStep reg link call :=
    fun hreg hstep => (h.sound _ (List.mem_of_getElem? hreg)).linkStep hstep
  cases asioStep_result h happly with
  | quiet hreg hlink =>
      exact Or.inl (created_set hreg hmem' (hstep hreg hlink).hoster rfl hcnt' he)
  | readDropped hreg hlink _ =>
      exact Or.inl (created_set hreg hmem' (hstep hreg hlink).hoster rfl hcnt' he)
  | closed hreg hlink _ =>
      exact Or.inl (created_set hreg hmem' (hstep hreg hlink).hoster rfl hcnt' he)
  | closedDropped hreg hlink _ =>
      exact Or.inl (created_set hreg hmem' (hstep hreg hlink).hoster rfl hcnt' he)
  | @read reg link cnt₀ data hreg hlink hsize _ =>
      have hl := hstep hreg hlink
      rcases List.mem_or_eq_of_mem_set hmem' with hold | rfl
      · exact Or.inl ⟨reg', mem_linksOf.mpr ⟨hold, hcnt'⟩, he⟩
      · have hcnt : reg.link.hoster = some cnt := hl.hoster.symm.trans hcnt'
        rcases List.mem_append.mp he with he | he
        · exact Or.inl ⟨reg, mem_linksOf.mpr ⟨List.mem_of_getElem? hreg, hcnt⟩, he⟩
        · have hsame : cnt₀ = cnt := by
            cases hl.outcome with
            | read _ _ hh _ _ _ _ => exact Option.some.inj (hh.symm.trans hcnt)
          subst hsame
          rw [List.mem_singleton.mp he]
          exact Or.inr ⟨⟨_, List.mem_append_right _ (List.mem_singleton_self _), rfl⟩, hsize,
            List.mem_singleton_self _⟩

/-- Only asio events create data packets. -/
theorem created_calm (h : t.Inv) (happly : t.apply op = some (t', sent))
    (hop : ∀ k ev now, op ≠ .asio k ev now) {reg' : Registration}
    (hreg' : reg' ∈ t'.linksOf cnt) {e : UInt32 × Bytes} (he : e ∈ reg'.created) :
    ∃ reg ∈ t.linksOf cnt, e ∈ reg.created := by
  obtain ⟨hmem', hcnt'⟩ := mem_linksOf.mp hreg'
  obtain ⟨k, hk, hget⟩ := List.getElem_of_mem hmem'
  rcases (evolves_apply h happly).back (hget ▸ List.getElem?_eq_getElem hk) with
    ⟨reg, hreg, hevent⟩ | ⟨_, _, _, _, rfl⟩
  · obtain ⟨hoster, _, _, hcreated, _⟩ := RegEvent.calm hevent hop
    exact ⟨reg, mem_linksOf.mpr ⟨List.mem_of_getElem? hreg, hoster.symm.trans hcnt'⟩,
      hcreated ▸ he⟩
  · simp at he

/-- A chunk that was not there before is cached when it is created. -/
theorem created_apply (h : t.Inv) (happly : t.apply op = some (t', sent)) {reg' : Registration}
    (hreg' : reg' ∈ t'.linksOf cnt) {e : UInt32 × Bytes} (he : e ∈ reg'.created) :
    (∃ reg ∈ t.linksOf cnt, e ∈ reg.created) ∨ t'.Cached cnt e := by
  by_cases hasio : ∃ k ev now, op = .asio k ev now
  · obtain ⟨k, ev, now, rfl⟩ := hasio
    exact (created_asio h happly hreg' he).imp id And.left
  · exact Or.inl (created_calm h happly (fun k ev now hop => hasio ⟨k, ev, now, hop⟩) hreg' he)

/-- Only the resend tick takes a packet out of the cache. -/
theorem cache_apply (h : t.Inv) (happly : t.apply op = some (t', sent))
    (hop : ∀ curt, op ≠ .resend curt) {item : PacketDataCache} (hitem : item ∈ t.packetDataCache) :
    item ∈ t'.packetDataCache := by
  cases op with
  | add c point now =>
      simp only [apply] at happly
      split at happly
      · cases happly
      · cases happly
        exact hitem
  | asio k ev now =>
      cases asioStep_result h happly with
      | quiet _ _ => exact hitem
      | read _ _ _ _ => exact List.mem_append_left _ hitem
      | readDropped _ _ _ => exact hitem
      | closed _ _ _ => exact List.mem_append_left _ hitem
      | closedDropped _ _ _ => exact hitem
  | live curt =>
      have heq : (t.sendLivePacket curt).1 = t' := congrArg Prod.fst (Option.some.inj happly)
      rw [← heq, (sendLivePacket_frame t curt).2.1]
      exact hitem
  | resend curt => exact absurd rfl (hop curt)
  | handle call now =>
      have heq : (t.handle now call).1 = t' := congrArg Prod.fst (Option.some.inj happly)
      rw [← heq, (handle_frame t now call).2.1]
      exact hitem
  | getStat =>
      cases happly
      exact hitem

/-- A cached packet stays cached, or the resend tick drops it at its deadline. -/
theorem cached_apply (h : t.Inv) (happly : t.apply op = some (t', sent)) {e : UInt32 × Bytes}
    (hcached : t.Cached cnt e) : t'.Cached cnt e ∨ ∃ curt, op = .resend curt ∧
      ∃ item ∈ t.packetDataCache, item.info = t.readPacket cnt e.2 e.1 ∧ curt > item.deadline := by
  have hside := apply_serverSide happly
  obtain ⟨item, hitem, hinfo⟩ := hcached
  have hsame : ∀ t'' : TrunkLink, t''.serverSide = t.serverSide →
      item.info = t''.readPacket cnt e.2 e.1 := by
    intro t'' hs
    rw [hinfo, readPacket, readPacket, hs]
  by_cases hop : ∃ curt, op = .resend curt
  · obtain ⟨curt, rfl⟩ := hop
    by_cases hlate : curt > item.deadline
    · exact Or.inr ⟨curt, rfl, item, hitem, hinfo, hlate⟩
    · cases happly
      refine Or.inl ⟨_, List.mem_map_of_mem (List.mem_filter.mpr ⟨hitem, by simpa using hlate⟩), ?_⟩
      split
      · exact hsame _ rfl
      · exact hsame _ rfl
  · exact Or.inl ⟨item, cache_apply h happly (fun curt heq => hop ⟨curt, heq⟩) hitem,
      hsame t' hside⟩

/-- **An operation of the sender** keeps the bookkeeping, a resend tick under
its condition. -/
theorem pending_sender (h : a.Inv) (happly : a.apply op = some (a', sent))
    (hpending : Pending a b cnt)
    (htick : ∀ curt, op = .resend curt → ExpiredReached a b cnt curt) : Pending a' b cnt := by
  intro reg' hreg' e he
  rcases created_apply h happly hreg' he with ⟨reg, hreg, hold⟩ | hnew
  · rcases hpending reg hreg e hold with hcached | hreached
    · rcases cached_apply h happly hcached with hkept | ⟨curt, hop, hlate⟩
      · exact Or.inl hkept
      · exact Or.inr (htick curt hop reg hreg e hold hlate)
    · exact Or.inr hreached
  · exact Or.inl hnew

/-- Nothing that the receiver does unsettles what is pending. -/
theorem pending_receiver (h : b.Inv) (happly : b.apply op = some (b', sent))
    (hpending : Pending a b cnt) : Pending a b' cnt := by
  intro reg hreg e he
  rcases hpending reg hreg e he with hcached | hreached
  · exact Or.inl hcached
  · exact Or.inr (reached_apply h happly hreached)

/-- Both directions, as long as nobody stops the connection. -/
def Lives (a b : TrunkLink) (cnt : ConnectID) : Prop :=
  ¬ ConnectionStopped a b cnt → Pending a b cnt ∧ Pending b a cnt

/-- A connection lives on both sides or on neither. -/
theorem Lives.symm (h : Lives a b cnt) : Lives b a cnt :=
  fun hgoing => (h fun hstop => hgoing hstop.symm).symm

/-- **A connection lives on unless a tick drops a chunk that has not arrived.** -/
theorem lives_apply (h : a.Inv) (happly : a.apply op = some (a', sent)) (hlives : Lives a b cnt)
    (htick : ∀ curt, op = .resend curt → ¬ ConnectionStopped a b cnt →
      ExpiredReached a b cnt curt) : Lives a' b cnt := by
  intro hgoing
  have hgoing : ¬ ConnectionStopped a b cnt := fun hstop => hgoing (stopped_apply h happly hstop)
  obtain ⟨hout, hin⟩ := hlives hgoing
  exact ⟨pending_sender h happly hout fun curt hop => htick curt hop hgoing,
    pending_receiver h happly hin⟩

/-- The operations of an event other than the tick. -/
theorem lives_acts {ops : List TrunkOp} (hacts : Acts a ops a' sent) (h : a.Inv)
    (hops : ∀ op ∈ ops, ∀ curt, op ≠ .resend curt) (hlives : Lives a b cnt) : Lives a' b cnt := by
  refine (hacts.invariant (I := fun t => t.Inv ∧ Lives t b cnt) hops ⟨h, hlives⟩ ?_).2
  intro t t' op sent h hop happly
  obtain ⟨hinv, hlives⟩ := h
  exact ⟨hinv.apply happly, lives_apply hinv happly hlives fun curt heq => absurd heq (hop curt)⟩

/-- The tick: live packets first, then the cache. -/
theorem lives_tick {live resend : Time} (hacts : Acts a [.live live, .resend resend] a' sent)
    (h : a.Inv) (hlives : Lives a b cnt)
    (htick : ¬ ConnectionStopped (a.sendLivePacket live).1 b cnt →
      ExpiredReached (a.sendLivePacket live).1 b cnt resend) : Lives a' b cnt := by
  cases hacts with
  | cons hlive hrest =>
      cases hrest with
      | cons hresend hnil =>
          cases hnil
          have heq := congrArg Prod.fst (Option.some.inj hlive)
          have hmid := lives_apply h hlive hlives (by simp)
          refine lives_apply (h.apply hlive) hresend hmid ?_
          intro curt hop hgoing
          cases hop
          simp only at heq
          rw [← heq] at hgoing ⊢
          exact htick hgoing

end TrunkLink

/-- What reached a connection nobody has stopped was accepted by the link that
is registered for it. -/
theorem Linked.accepted {a b : TrunkLink} {cnt : ConnectID} (h : Linked a b)
    (hkeeps : ∀ reg ∈ b.objects, reg.Keeps ∧ reg.Disclosed)
    (hgoing : ∀ reg ∈ b.linksOf cnt, ¬ reg.Stopped) {y : Registration}
    (hy : b.registered cnt = some y) {packetIndex : UInt32}
    (hreached : b.Reached cnt packetIndex) : y.link.Accepted packetIndex := by
  obtain ⟨peer, hpeer, hhanded⟩ := hreached
  have hmem := (TrunkLink.mem_linksOf.mp hpeer).1
  have hinv := h.far.sound peer hmem
  obtain ⟨hkeep, hdis⟩ := hkeeps peer hmem
  have hlive := hgoing peer hpeer
  have hopen : peer.link.closeInvoked = false := by
    by_contra hclosed
    exact hlive (hdis.stopped hinv (by simpa using hclosed))
  have hsame : peer = y := Option.some.inj ((h.far.registered_eq hpeer hopen).symm.trans hy)
  subst hsame
  have hnostop : peer.stops = [] := by
    by_contra hstops
    exact hlive (Or.inl hstops)
  rcases (hkeep hnostop).2 packetIndex hhanded with hdrained | hkey
  · -- the index has not wrapped around, so a drained chunk is below the awaited one
    have hlen := h.length_appended hpeer
    obtain ⟨e, he, rfl⟩ := List.mem_map.mp hdrained
    obtain ⟨p, hp, _, hindex⟩ := hinv.reassembly.numbered.mem_position he
    refine Or.inl ?_
    rw [hinv.reassembly.next, hindex]
    exact OutLink.index_lt hp (by omega)
  · exact Or.inr hkey

/-! ## The system -/

namespace System

variable {s s' : System} {e : SystemEvent} {c : ConnectID}

/-- **The condition on a tick.**  A data packet of a connection nobody has
stopped reaches the other side before the resend tick drops it. -/
def ReachesInTime (c : ConnectID) (s : System) : SystemEvent → Prop
  | .clientTick live resend _ =>
    ¬ TrunkLink.ConnectionStopped (s.client.base.sendLivePacket live).1 s.server.base c →
      TrunkLink.ExpiredReached (s.client.base.sendLivePacket live).1 s.server.base c resend
  | .serverTick live resend =>
    ¬ TrunkLink.ConnectionStopped (s.server.base.sendLivePacket live).1 s.client.base c →
      TrunkLink.ExpiredReached (s.server.base.sendLivePacket live).1 s.client.base c resend
  | _ => True

instance (c : ConnectID) (s : System) : ∀ e, Decidable (ReachesInTime c s e)
  | .clientTick _ _ _ => inferInstanceAs (Decidable (¬ _ → _))
  | .serverTick _ _ => inferInstanceAs (Decidable (¬ _ → _))
  | .addConnect _ _ _ _ | .clientAsio _ _ _ | .serverAsio _ _ _ | .toServer _ _ _ _
  | .toClient _ _ | .getStat => isTrue trivial

/-- **No silent loss.**  While both links of `c` are registered and nobody has
stopped the connection, a data packet created on one side is cached there or
accepted by the link of the other side. -/
def NoSilentLoss (c : ConnectID) (s : System) : Prop :=
  ∀ x ∈ s.client.base.registered c, ∀ y ∈ s.server.base.registered c,
    ¬ TrunkLink.ConnectionStopped s.client.base s.server.base c →
      (∀ e ∈ x.created, s.client.base.Cached c e ∨ y.link.Accepted e.1) ∧
        ∀ e ∈ y.created, s.server.base.Cached c e ∨ x.link.Accepted e.1

instance (c : ConnectID) (s : System) : Decidable (NoSilentLoss c s) :=
  inferInstanceAs (Decidable (∀ x ∈ s.client.base.registered c, _))

/-- In every reachable state every registration keeps and discloses its chunks. -/
theorem reachable_keeps {ok : System → SystemEvent → Prop} (h : Reachable ok s) :
    (∀ reg ∈ s.client.base.objects, reg.Keeps ∧ reg.Disclosed) ∧
      ∀ reg ∈ s.server.base.objects, reg.Keeps ∧ reg.Disclosed :=
  reachable_registrations
    (fun cnt point => ⟨Registration.keeps_new cnt point, Registration.disclosed_new cnt point⟩)
    (fun _ _ _ hinv hold hevent => ⟨hevent.keeps hinv hold.1, hevent.disclosed hinv hold.2⟩) h

/-- Only ticks resend. -/
theorem clientOps_resend (h : ∀ live resend connects, e ≠ .clientTick live resend connects) :
    ∀ op ∈ s.clientOps e, ∀ curt, op ≠ .resend curt := by
  intro op hop curt heq
  subst heq
  cases e with
  | clientTick live resend connects => exact h live resend connects rfl
  | addConnect cnt point registered cached =>
      simp only [clientOps] at hop
      split at hop <;> simp at hop
  | toClient n now =>
      simp only [clientOps] at hop
      split at hop <;> simp at hop
  | _ => simp [clientOps] at hop

/-- Only the server's tick resends its cache. -/
theorem serverOps_resend (h : ∀ live resend, e ≠ .serverTick live resend) :
    ∀ op ∈ s.serverOps e, ∀ curt, op ≠ .resend curt := by
  intro op hop curt heq
  subst heq
  cases e with
  | serverTick live resend => exact h live resend rfl
  | toServer n index sender now =>
      simp only [serverOps] at hop
      split at hop
      · split at hop <;> simp at hop
      · simp at hop
      · simp at hop
  | _ => simp [serverOps] at hop

/-- The bookkeeping of a connection nobody has stopped. -/
theorem reachable_lives (h : Reachable (ReachesInTime c) s) :
    TrunkLink.Lives s.client.base s.server.base c := by
  refine h.invariant (I := fun s => TrunkLink.Lives s.client.base s.server.base c) ?_ ?_
  · intro s hstart _
    obtain ⟨clientTime, serverTime, trunkSockets, linkFabric, rfl⟩ := hstart
    exact ⟨fun reg hreg => absurd hreg List.not_mem_nil,
      fun reg hreg => absurd hreg List.not_mem_nil⟩
  · intro s e s' hs hlives hok hstep
    obtain ⟨clientSent, serverSent, heffect⟩ := step_effect hstep
    have hinv := (reachable_inv hs).linked
    by_cases hclient : ∃ live resend connects, e = .clientTick live resend connects
    · obtain ⟨live, resend, connects, rfl⟩ := hclient
      have hmid := TrunkLink.lives_tick heffect.client hinv.near hlives hok
      exact (TrunkLink.lives_acts heffect.server hinv.far (serverOps_resend (by simp))
        hmid.symm).symm
    · have hmid := TrunkLink.lives_acts heffect.client hinv.near
        (clientOps_resend fun live resend connects heq => hclient ⟨live, resend, connects, heq⟩)
        hlives
      by_cases hserver : ∃ live resend, e = .serverTick live resend
      · obtain ⟨live, resend, rfl⟩ := hserver
        have hsame : s'.client.base = s.client.base := by
          cases hstep
          rfl
        rw [hsame]
        exact (TrunkLink.lives_tick heffect.server hinv.far hlives.symm hok).symm
      · exact (TrunkLink.lives_acts heffect.server hinv.far
          (serverOps_resend fun live resend heq => hserver ⟨live, resend, heq⟩) hmid.symm).symm

/-- **No data is lost in silence** as long as every data packet of the
connection reaches the other side before a resend tick drops it at its deadline,
or the connection is stopped by then. -/
theorem no_silent_loss (hreach : Reachable (ReachesInTime c) s) : NoSilentLoss c s := by
  intro x hx y hy hgoing
  have hinv := (reachable_inv hreach).linked
  obtain ⟨hckeeps, hskeeps⟩ := reachable_keeps hreach
  obtain ⟨hout, hin⟩ := reachable_lives hreach hgoing
  constructor
  · intro e he
    refine (hout x (TrunkLink.mem_of_registered hinv.near hx) e he).imp id fun hreached => ?_
    exact hinv.accepted hskeeps (fun reg hreg hstop => hgoing (Or.inr ⟨reg, hreg, hstop⟩)) hy
      hreached
  · intro e he
    refine (hin y (TrunkLink.mem_of_registered hinv.far hy) e he).imp id fun hreached => ?_
    exact hinv.symm.accepted hckeeps (fun reg hreg hstop => hgoing (Or.inl ⟨reg, hreg, hstop⟩)) hx
      hreached

/-- The chunk arrives, and two seconds later its packet leaves the cache. -/
def arrivedInTime : List SystemEvent :=
  connecting ++ [.clientAsio 0 (.readDone 0 ⟨false, [65]⟩) 0, .clientAsio 0 (.readHandler 0) 0,
    .toServer 1 0 localhost 0, .clientTick (milliseconds 2001) (milliseconds 2001) 0]

/-- The chunk has arrived when the tick drops it from the cache. -/
theorem no_silent_loss_arrived :
    ∃ s, run step loopback arrivedInTime = some s ∧ NoSilentLoss (.ofByte 1) s ∧
      s.client.base.packetDataCache = [] := by
  have hany : (run step loopback arrivedInTime).any (fun s =>
      s.client.base.packetDataCache = []) = true := by
    decide +kernel
  obtain ⟨s, hrun, hs⟩ := (Option.any_eq_true _ _).mp hany
  exact ⟨s, hrun, no_silent_loss (.of_run (.start start_loopback) (by decide +kernel) hrun),
    of_decide_eq_true hs⟩

/-- The datagrams with the chunk are lost for two seconds. -/
def lostChunk : List SystemEvent :=
  connecting ++ [.clientAsio 0 (.readDone 0 ⟨false, [65]⟩) 0, .clientAsio 0 (.readHandler 0) 0,
    .clientTick (milliseconds 2001) (milliseconds 2001) 0]

/-- Both links live on, and nobody has the chunk any more. -/
theorem chunk_lost :
    ∃ s, run step loopback lostChunk = some s ∧ ¬ NoSilentLoss (.ofByte 1) s := by
  have hany : (run step loopback lostChunk).any (fun s => ¬ NoSilentLoss (.ofByte 1) s) = true := by
    decide +kernel
  obtain ⟨s, hrun, hs⟩ := (Option.any_eq_true _ _).mp hany
  exact ⟨s, hrun, of_decide_eq_true hs⟩

end System
