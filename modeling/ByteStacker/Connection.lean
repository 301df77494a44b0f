import ByteStacker.TrunkCalls

/-!
# One connection on its own

A trunk side keeps all its connections in the same vectors.  `Connection` is what
one of them would keep if it had the side to itself: its registered link with the
index counter and the timeout, its cached packets, and the two values all
connections share, the side and the time of the next live packets.  Its functions
are those of the trunk without a search.

`TrunkLink.connection` reads one connection out of a trunk side.  The theorems
below compare the two, operation by operation: an operation on a connection does
to it what the function of `Connection` does, an operation on another one leaves
it alone, and a tick does to each of them what it does to a connection alone.
-/

/-- The registered link of a connection. -/
structure Entry where
  link : OutLink
  nextIndexToTrunk : UInt32
  deadlinkTimeout : Time
  deriving DecidableEq

/-- One connection of a trunk side. -/
structure Connection where
  cnt : ConnectID
  serverSide : Bool
  nextLiveUpdate : Time
  entry : Option Entry := none
  packetDataCache : List PacketDataCache := []
  deriving DecidableEq

namespace Connection

/-- The entry after a call of the link was heard. -/
def heard (entry : Entry) : HosterCall → Option Entry
  | .sendData _ _ => some { entry with nextIndexToTrunk := entry.nextIndexToTrunk + 1 }
  | .closeConnect _ => none

def hosterCall (c : Connection) (now : Time) (call : HosterCall) : Connection × List PacketInfo :=
  match c.entry with
  | none => (c, [])
  | some entry =>
    if call.payload.length > kMaxChunkSize then (c, [])
    else if entry.nextIndexToTrunk = kBadPacketIndex then
      ({ c with entry := heard entry call }, [])
    else
      let info := call.packet c.serverSide entry.nextIndexToTrunk
      ({ c with
          entry := heard entry call
          packetDataCache := c.packetDataCache ++ [.start info now] }, [info])

def asioStep (c : Connection) (e : AsioEvent) (now : Time) :
    Option (Connection × List PacketInfo) :=
  match c.entry with
  | none => none
  | some entry =>
    match entry.link.asioStep e with
    | none => none
    | some (link, none) => some ({ c with entry := some { entry with link := link } }, [])
    | some (link, some call) =>
      some ({ c with entry := some { entry with link := link } }.hosterCall now call)

def sendLivePacket (c : Connection) (curt : Time) : Connection × List PacketInfo :=
  if curt < c.nextLiveUpdate then (c, [])
  else
    let c := { c with nextLiveUpdate := curt + milliseconds kLiveUpdateTick }
    match c.entry with
    | none => (c, [])
    | some entry =>
      if curt > entry.deadlinkTimeout then
        ({ c with entry := some { entry with link := entry.link.stop 0 } }, [])
      else (c, [livePacket c.cnt])

def onCacheResend (c : Connection) (curt : Time) : Connection × List PacketInfo :=
  let kept := c.packetDataCache.filter fun item => ¬ curt > item.deadline
  ({ c with
      packetDataCache := kept.map fun item =>
        if curt > item.nextSend then
          { item with nextSend := curt + milliseconds kResendTimeout }
        else item },
    (kept.filter fun item => curt > item.nextSend).map PacketDataCache.info)

def handle (c : Connection) (now : Time) (call : HandlerCall) : Connection × List PacketInfo :=
  match c.entry with
  | none => (c, [])
  | some entry =>
    match call with
    | .processDataToOutlink cnt packetIndex data =>
      ({ c with entry := some { entry with link := entry.link.sendData packetIndex data } },
        [ackDataPacket c.serverSide cnt packetIndex])
    | .processReleaseConnect _ packetId =>
      ({ c with entry := some { entry with link := entry.link.stop packetId } }, [])
    | .processLive _ =>
      ({ c with
          entry := some { entry with deadlinkTimeout := now + milliseconds kDeadLinkTimeout } }, [])
    | _ => (c, [])

def intAddOutLink (c : Connection) (link : OutLink) (now : Time) : Connection :=
  { c with
    entry := some
      { link := link.run c.cnt
        nextIndexToTrunk := 0
        deadlinkTimeout := now + milliseconds kDeadLinkTimeout } }

end Connection

namespace TrunkLink

variable {t t' : TrunkLink} {cnt d : ConnectID}

/-! ## A connection of a trunk side -/

/-- The entry of an item of `out_links_`. -/
def entryOf (links : List OutLink) (item : OutLinkInfo) : Option Entry :=
  links[item.link]?.map fun link =>
    { link := link
      nextIndexToTrunk := item.nextIndexToTrunk
      deadlinkTimeout := item.deadlinkTimeout }

/-- What a trunk side keeps for the connection `d`. -/
def connection (t : TrunkLink) (d : ConnectID) : Connection where
  cnt := d
  serverSide := t.serverSide
  nextLiveUpdate := t.nextLiveUpdate
  entry := (t.findOutLink d).bind (entryOf t.links)
  packetDataCache := t.packetDataCache.filter fun item => item.info.ctxId = d

/-- The result of an operation as the connection `d` sees it. -/
def project (d : ConnectID) (r : TrunkLink × List PacketInfo) : Connection × List PacketInfo :=
  (r.1.connection d, r.2.filter fun pkt => pkt.ctxId = d)

/-- **What keeps the connections apart**: ids are registered once, each entry has a
link object that speaks for its own id, and a cached packet has the header of
its connection. -/
structure Apart (t : TrunkLink) : Prop where
  ids : (t.outLinks.map OutLinkInfo.connectId).Nodup
  hosted : ∀ item ∈ t.outLinks, t.hosters[item.link]? = some (some item.connectId)
  headed : ∀ item ∈ t.packetDataCache, item.info.Headed

/-- A new side has nothing to keep apart. -/
theorem apart_create (serverSide : Bool) (now : Time) : (create serverSide now).Apart :=
  ⟨List.nodup_nil, by simp [create], by simp [create]⟩

/-- The link object of a registered connection. -/
theorem Apart.object (h : t.Apart) {item : OutLinkInfo} (hitem : item ∈ t.outLinks) :
    ∃ link, t.links[item.link]? = some link ∧ link.hoster = some item.connectId := by
  have hhosted := h.hosted item hitem
  rw [hosters, List.getElem?_map] at hhosted
  obtain ⟨reg, hreg, hcnt⟩ := Option.map_eq_some_iff.mp hhosted
  exact ⟨reg.link, by rw [links, List.getElem?_map, hreg]; rfl, hcnt⟩

/-- Two connections never share a link object. -/
theorem Apart.link_ne (h : t.Apart) {x y : OutLinkInfo} (hx : x ∈ t.outLinks)
    (hy : y ∈ t.outLinks) (hne : x.connectId ≠ y.connectId) : x.link ≠ y.link := by
  intro hlink
  have hhosted := h.hosted x hx
  rw [hlink, h.hosted y hy] at hhosted
  exact hne (Option.some.inj (Option.some.inj hhosted)).symm

/-- The entry of a registered connection. -/
theorem Apart.entry (h : t.Apart) {item : OutLinkInfo} (hfind : t.findOutLink d = some item) :
    ∃ link, t.links[item.link]? = some link ∧ link.hoster = some d ∧
      (t.connection d).entry = some ⟨link, item.nextIndexToTrunk, item.deadlinkTimeout⟩ := by
  obtain ⟨link, hlink, hcnt⟩ := h.object (List.mem_of_find?_eq_some hfind)
  have hid : item.connectId = d := by simpa using List.find?_some hfind
  refine ⟨link, hlink, hid ▸ hcnt, ?_⟩
  simp [connection, hfind, entryOf, hlink]

/-- An unregistered connection has no entry. -/
theorem entry_eq_none (hfind : t.findOutLink d = none) : (t.connection d).entry = none := by
  simp [connection, hfind]

/-- A link that is found has an entry. -/
theorem Apart.entry_some (h : t.Apart) {k : Nat} (hlink : t.getOutLink d = some k) :
    ∃ entry, (t.connection d).entry = some entry := by
  obtain ⟨item, hfind, _⟩ := Option.map_eq_some_iff.mp hlink
  obtain ⟨link, _, _, hentry⟩ := h.entry hfind
  exact ⟨_, hentry⟩

/-- A connection that is not found has no entry. -/
theorem entry_none (hlink : t.getOutLink d = none) : (t.connection d).entry = none :=
  entry_eq_none (Option.map_eq_none_iff.mp hlink)

/-! ## The connections stay apart -/

/-- A call keeps the entries, one of them with a new index, or removes one. -/
theorem mem_entries {call : HosterCall} {xs : List OutLinkInfo} {item' : OutLinkInfo}
    (h : item' ∈ call.entries xs) :
    ∃ item ∈ xs, item.connectId = item'.connectId ∧ item.link = item'.link := by
  cases call with
  | closeConnect cnt => exact ⟨item', List.mem_of_mem_filter h, rfl, rfl⟩
  | sendData cnt data =>
      simp only [HosterCall.entries] at h
      induction xs with
      | nil => simp [countIndex] at h
      | cons x rest ih =>
          unfold countIndex at h
          split at h
          · rcases List.mem_cons.mp h with rfl | h
            · exact ⟨x, List.mem_cons_self, rfl, rfl⟩
            · exact ⟨item', List.mem_cons_of_mem x h, rfl, rfl⟩
          · rcases List.mem_cons.mp h with rfl | h
            · exact ⟨item', List.mem_cons_self, rfl, rfl⟩
            · obtain ⟨item, hitem, hsame⟩ := ih h
              exact ⟨item, List.mem_cons_of_mem x hitem, hsame⟩

/-- **Every event keeps the connections apart**, and what it sends has the header of
the connection it is sent for. -/
theorem Apart.call (h : t.Apart) {e : TrunkCall} {pkts : List PacketInfo}
    (hcall : t.call e = some (t', pkts)) : t'.Apart ∧ ∀ pkt ∈ pkts, pkt.Headed := by
  have hids := call_ids h.ids hcall
  have hhosters := call_hosters hcall
  have hsame : e.added = none → ∀ item' : OutLinkInfo, (∃ item ∈ t.outLinks,
      item.connectId = item'.connectId ∧ item.link = item'.link) →
      t'.hosters[item'.link]? = some (some item'.connectId) := by
    intro hadd item' hitem'
    obtain ⟨item, hitem, hid, hlink⟩ := hitem'
    rw [hhosters, hadd, ← hlink, ← hid]
    simpa using h.hosted item hitem
  cases hcmd : t.cmdCall e with
  | none =>
      cases call_quiet hcmd hcall with
      | @added cnt point now _ =>
          refine ⟨⟨hids, ?_, h.headed⟩, by simp⟩
          intro item hitem
          rw [hhosters]
          rcases List.mem_append.mp hitem with hitem | hitem
          · obtain ⟨hlt, _⟩ := List.getElem?_eq_some_iff.mp (h.hosted item hitem)
            rw [List.getElem?_append_left hlt]
            exact h.hosted item hitem
          · rw [List.mem_singleton.mp hitem]
            simp [hosters, TrunkCall.added, TrunkOp.added]
      | kept hadd hkeys hcached _ _ hsent =>
          refine ⟨⟨hids, fun item' hitem' => hsame hadd item' ?_, ?_⟩, ?_⟩
          · have hmem := List.mem_map_of_mem (f := entryKey) hitem'
            rw [hkeys] at hmem
            obtain ⟨item, hitem, hkey⟩ := List.mem_map.mp hmem
            simp only [entryKey, Prod.mk.injEq] at hkey
            exact ⟨item, hitem, hkey.1, hkey.2.1⟩
          · intro item' hitem'
            obtain ⟨item, hitem, heq⟩ := hcached item' hitem'
            exact heq ▸ h.headed item hitem
          · intro pkt hpkt
            rcases hsent pkt hpkt with ⟨_, hheaded⟩ | ⟨item, hitem, rfl⟩
            · exact hheaded
            · exact h.headed item hitem
  | some call =>
      obtain ⟨objects, _, hresult⟩ := call_result hcmd hcall
      have hadd := added_of_cmd hcmd
      cases hresult with
      | refused counter _ =>
          exact ⟨⟨hids, fun item hitem => hsame hadd item ⟨item, hitem, rfl, rfl⟩, h.headed⟩,
            by simp⟩
      | dropped _ _ _ hbook =>
          refine ⟨⟨hids, fun item' hitem' => hsame hadd item' ?_, ?_⟩, by simp⟩
          · exact mem_entries (hbook.outLinks ▸ hitem')
          · exact hbook.packetDataCache ▸ h.headed
      | made _ _ _ hbook =>
          have hheaded := call.headed_packet t.serverSide
          refine ⟨⟨hids, fun item' hitem' => hsame hadd item' ?_, ?_⟩, ?_⟩
          · exact mem_entries (hbook.outLinks ▸ hitem')
          · rw [hbook.packetDataCache]
            intro item hitem
            rcases List.mem_append.mp hitem with hitem | hitem
            · exact h.headed item hitem
            · rw [List.mem_singleton.mp hitem]
              exact hheaded _
          · intro pkt hpkt
            rw [List.mem_singleton.mp hpkt]
            exact hheaded _

/-- The heartbeat keeps the connections apart. -/
theorem Apart.live (h : t.Apart) (curt : Time) :
    (t.sendLivePacket curt).1.Apart ∧ ∀ pkt ∈ (t.sendLivePacket curt).2, pkt.Headed :=
  h.call (e := .op (.live curt)) rfl

/-- So does the resending. -/
theorem Apart.resend (h : t.Apart) (curt : Time) :
    (t.onCacheResend curt).1.Apart ∧ ∀ pkt ∈ (t.onCacheResend curt).2, pkt.Headed :=
  h.call (e := .op (.resend curt)) rfl

/-! ## Calls of the links -/

/-- **A call about another connection.** -/
theorem hosterCall_foreign {call : HosterCall} (hne : call.cnt ≠ d) (now : Time) :
    project d (t.hosterCall now (some call)) = (t.connection d, []) := by
  have hbooked : ∀ {t' cache}, Booked t t' (call.entries t.outLinks) cache →
      (cache.filter fun item => item.info.ctxId = d) =
        t.packetDataCache.filter (fun item => item.info.ctxId = d) →
      t'.connection d = t.connection d := by
    intro t' cache hbook hcache
    have hfind : t'.findOutLink d = t.findOutLink d := by
      rw [findOutLink, hbook.outLinks, find_entries_ne hne]
      rfl
    simp only [connection, hbook.serverSide, hbook.nextLiveUpdate, hfind, hbook.links,
      hbook.packetDataCache, hcache]
  have hresult := hosterCall_result t now call
  generalize t.hosterCall now (some call) = r at hresult ⊢
  obtain ⟨t', pkts⟩ := r
  cases hresult with
  | refused counter _ => rfl
  | dropped _ _ _ hbook => rw [project, hbooked hbook rfl]; rfl
  | made _ _ _ hbook =>
      rw [project, hbooked hbook (by simp [PacketDataCache.start, call.packet_ctxId, hne])]
      simp [call.packet_ctxId, hne]

/-- The entry of a connection after one of its calls was heard. -/
theorem Apart.heard (h : t.Apart) {call : HosterCall} {item : OutLinkInfo}
    {cache : List PacketDataCache} {entry : Entry} (hfind : t.findOutLink call.cnt = some item)
    (hentry : (t.connection call.cnt).entry = some entry)
    (hbook : Booked t t' (call.entries t.outLinks) cache) :
    (t'.connection call.cnt).entry = Connection.heard entry call := by
  obtain ⟨link, hlink, _, hfound⟩ := h.entry hfind
  obtain rfl := Option.some.inj (hentry.symm.trans hfound)
  rw [connection, find_entries hfind hbook.outLinks, hbook.links]
  cases call with
  | sendData cnt data => simp [HosterCall.entry, entryOf, hlink, Connection.heard]
  | closeConnect cnt => rfl

/-- **A call of the connection** does what it does to the connection alone. -/
theorem Apart.hosterCall (h : t.Apart) {call : HosterCall} (hid : call.cnt = d) (now : Time) :
    project d (t.hosterCall now (some call)) = (t.connection d).hosterCall now call := by
  subst hid
  have hresult := hosterCall_result t now call
  generalize t.hosterCall now (some call) = r at hresult ⊢
  obtain ⟨t', pkts⟩ := r
  change CmdResult t call now t' pkts at hresult
  unfold Connection.hosterCall
  cases hresult with
  | refused counter hwhy =>
      cases hentry : (t.connection call.cnt).entry with
      | none => rfl
      | some entry =>
          rcases hwhy with hnone | hlong
          · simp [entry_eq_none hnone] at hentry
          · simp only [if_pos hlong]
            rfl
  | @dropped _ item hfind hsize hbad hbook =>
      obtain ⟨link, _, _, hentry⟩ := h.entry hfind
      simp only [hentry, if_neg (Nat.not_lt.mpr hsize), if_pos hbad, ← h.heard hfind hentry hbook]
      simp only [project, connection, hbook.serverSide, hbook.nextLiveUpdate,
        hbook.packetDataCache, List.filter_nil]
  | @made _ item hfind hsize hgood hbook =>
      obtain ⟨link, _, _, hentry⟩ := h.entry hfind
      simp only [hentry, if_neg (Nat.not_lt.mpr hsize), if_neg hgood, ← h.heard hfind hentry hbook]
      simp [project, connection, hbook.serverSide, hbook.nextLiveUpdate, hbook.packetDataCache,
        PacketDataCache.start, call.packet_ctxId]

/-! ## Changes of one link object -/

/-- A connection with its link changed. -/
def mapLink (g : OutLink → OutLink) (c : Connection) : Connection :=
  { c with entry := c.entry.map fun entry => { entry with link := g entry.link } }

/-- A change of a registration's link is a change of the list of links. -/
theorem links_modifyObject (t : TrunkLink) (k : Nat) {f : Registration → Registration}
    {g : OutLink → OutLink} (hf : ∀ reg, (f reg).link = g reg.link) :
    (t.modifyObject k f).links = t.links.modify k g := by
  apply List.ext_getElem?
  intro j
  simp only [links, modifyObject, List.getElem?_map, List.getElem?_modify]
  by_cases hj : k = j
  · subst hj
    cases t.objects[k]? <;> simp [hf]
  · simp [hj]

/-- The connection whose link is changed. -/
theorem connection_modify {item : OutLinkInfo} (hfind : t.findOutLink d = some item)
    {f : Registration → Registration} {g : OutLink → OutLink}
    (hf : ∀ reg, (f reg).link = g reg.link) :
    (t.modifyObject item.link f).connection d = mapLink g (t.connection d) := by
  have hfind' : (t.modifyObject item.link f).findOutLink d = some item := hfind
  rw [connection, hfind', links_modifyObject t item.link hf, mapLink]
  simp only [connection, hfind, Option.bind_some, entryOf, List.getElem?_modify, if_true,
    Option.map_eq_map, Option.map_map]
  rfl

/-- Every other connection. -/
theorem Apart.connection_modify_ne (h : t.Apart) {item : OutLinkInfo} (hitem : item ∈ t.outLinks)
    (hne : item.connectId ≠ d) {f : Registration → Registration} {g : OutLink → OutLink}
    (hf : ∀ reg, (f reg).link = g reg.link) :
    (t.modifyObject item.link f).connection d = t.connection d := by
  have hfind' : (t.modifyObject item.link f).findOutLink d = t.findOutLink d := rfl
  rw [connection, hfind', links_modifyObject t item.link hf, connection]
  cases hfind : t.findOutLink d with
  | none => rfl
  | some own =>
      have hid : own.connectId = d := by simpa using List.find?_some hfind
      have hlink := h.link_ne hitem (List.mem_of_find?_eq_some hfind) (hid ▸ hne)
      simp only [Option.bind_some, entryOf, List.getElem?_modify, hlink, if_false,
        Option.map_eq_map, Option.map_id']
      rfl

/-- A changed link object leaves the connections apart. -/
theorem Apart.modify (h : t.Apart) {k : Nat} {f : Registration → Registration}
    (hhosters : (t.modifyObject k f).hosters = t.hosters) : (t.modifyObject k f).Apart where
  ids := h.ids
  hosted := by
    rw [hhosters]
    exact h.hosted
  headed := h.headed

/-! ## Asio events -/

/-- **An asio event of the connection's link.** -/
theorem Apart.asioStep (h : t.Apart) {k : Nat} {e : AsioEvent} {now : Time}
    {r : TrunkLink × List PacketInfo} (hk : t.getOutLink d = some k)
    (hstep : t.asioStep k e now = some r) :
    (t.connection d).asioStep e now = some (project d r) := by
  obtain ⟨item, hfind, rfl⟩ := Option.map_eq_some_iff.mp hk
  obtain ⟨reg, link, call, hreg, hlink, rfl⟩ := asioStep_eq hstep
  obtain ⟨own, hown, hhoster, hentry⟩ := h.entry hfind
  have hsame : reg.link = own := by
    rw [links, List.getElem?_map, hreg] at hown
    exact Option.some.inj hown
  rw [← hsame] at hentry hhoster
  have hafter : (t.modifyObject item.link fun reg => { reg with link := link }).connection d =
      { t.connection d with
        entry := some ⟨link, item.nextIndexToTrunk, item.deadlinkTimeout⟩ } := by
    rw [connection_modify hfind (g := fun _ => link) fun _ => rfl, mapLink, hentry]
    rfl
  unfold Connection.asioStep
  cases call with
  | none =>
      simp only [hentry, hlink]
      rw [project, TrunkLink.hosterCall, hafter]
      rfl
  | some call =>
      have hid : call.cnt = d := by
        have hspeaks := (OutLink.asioStep_cnt hlink).2 call rfl
        exact Option.some.inj (hspeaks.symm.trans hhoster)
      have hapart := h.modify (hosters_link hreg hlink)
      simp only [hentry, hlink]
      rw [hapart.hosterCall hid now, hafter]

/-- **An asio event of the link of another connection.** -/
theorem Apart.asioStep_foreign (h : t.Apart) {k : Nat} {e : AsioEvent} {now : Time}
    {r : TrunkLink × List PacketInfo} (hk : t.getOutLink cnt = some k) (hne : cnt ≠ d)
    (hstep : t.asioStep k e now = some r) : project d r = (t.connection d, []) := by
  obtain ⟨item, hfind, rfl⟩ := Option.map_eq_some_iff.mp hk
  have hitem := List.mem_of_find?_eq_some hfind
  have hid : item.connectId = cnt := by simpa using List.find?_some hfind
  obtain ⟨reg, link, call, hreg, hlink, rfl⟩ := asioStep_eq hstep
  have hafter : (t.modifyObject item.link fun reg => { reg with link := link }).connection d =
      t.connection d :=
    h.connection_modify_ne hitem (hid ▸ hne) (g := fun _ => link) fun _ => rfl
  cases call with
  | none =>
      rw [project, TrunkLink.hosterCall, hafter]
      rfl
  | some call =>
      obtain ⟨own, hown, hhoster, _⟩ := h.entry hfind
      have hsame : reg.link = own := by
        rw [links, List.getElem?_map, hreg] at hown
        exact Option.some.inj hown
      have hspeaks := (OutLink.asioStep_cnt hlink).2 call rfl
      rw [hsame, hhoster] at hspeaks
      have hforeign : call.cnt ≠ d := Option.some.inj hspeaks ▸ hne
      rw [hosterCall_foreign hforeign now, hafter]

/-! ## Ticks -/

/-- The live loop as one connection sees it: its own entry is stopped, or a live
packet is sent for it. -/
theorem project_liveLoop {curt : Time} {items : List OutLinkInfo}
    (hids : (items.map OutLinkInfo.connectId).Nodup) :
    ∀ {t : TrunkLink}, t.Apart → (∀ item ∈ items, t.findOutLink item.connectId = some item) →
      project d (liveLoop curt items t) =
        match items.find? fun item => item.connectId = d with
        | none => (t.connection d, [])
        | some item =>
          if curt > item.deadlinkTimeout then
            (mapLink (fun link => link.stop 0) (t.connection d), [])
          else (t.connection d, [livePacket d]) := by
  induction items with
  | nil => intro t _ _; rfl
  | cons x rest ih =>
      intro t h hitems
      obtain ⟨hx, hrest⟩ := List.nodup_cons.mp hids
      have htail : ∀ item ∈ rest, t.findOutLink item.connectId = some item :=
        fun item hitem => hitems item (List.mem_cons_of_mem x hitem)
      have hfind := hitems x List.mem_cons_self
      unfold liveLoop
      by_cases hdead : curt > x.deadlinkTimeout
      · have hstopped : (t.modifyObject x.link fun reg => reg.stop .deadLink).Apart :=
          h.modify (hosters_stop t x.link .deadLink)
        rw [if_pos hdead, ih hrest hstopped htail]
        by_cases hid : x.connectId = d
        · subst hid
          have hnone : (rest.find? fun item => item.connectId = x.connectId) = none := by
            simpa using hx
          have hmodify := connection_modify hfind (f := fun reg => reg.stop .deadLink)
            (g := fun link => link.stop 0) fun _ => rfl
          simp [hnone, hdead, hmodify]
        · have hmodify := h.connection_modify_ne (List.mem_of_find?_eq_some hfind) hid
            (f := fun reg => reg.stop .deadLink) (g := fun link => link.stop 0) fun _ => rfl
          simp [hid, hmodify]
      · rw [if_neg hdead]
        have hloop := ih hrest h htail
        by_cases hid : x.connectId = d
        · subst hid
          have hnone : (rest.find? fun item => item.connectId = x.connectId) = none := by
            simpa using hx
          rw [hnone] at hloop
          obtain ⟨hconnection, hsent⟩ := Prod.mk.inj hloop
          simp [project, hconnection, hsent, hdead, livePacket]
        · obtain ⟨hconnection, hsent⟩ := Prod.mk.inj hloop
          simp [project, hconnection, hsent, hid, livePacket]

/-- **The live tick treats every connection as if it were alone.** -/
theorem Apart.sendLivePacket (h : t.Apart) (curt : Time) :
    project d (t.sendLivePacket curt) = (t.connection d).sendLivePacket curt := by
  unfold TrunkLink.sendLivePacket Connection.sendLivePacket
  by_cases hearly : curt < t.nextLiveUpdate
  · have hearly' : curt < (t.connection d).nextLiveUpdate := hearly
    rw [if_pos hearly, if_pos hearly']
    rfl
  · have hearly' : ¬ curt < (t.connection d).nextLiveUpdate := hearly
    rw [if_neg hearly, if_neg hearly']
    generalize hm : { t with nextLiveUpdate := curt + milliseconds kLiveUpdateTick } = m
    have hapart : m.Apart := hm ▸ ⟨h.ids, h.hosted, h.headed⟩
    have hlinks : m.outLinks = t.outLinks := by rw [← hm]
    have hconnection : m.connection d =
        { t.connection d with nextLiveUpdate := curt + milliseconds kLiveUpdateTick } := by
      rw [← hm]
      rfl
    rw [← hlinks, ← hconnection,
      project_liveLoop hapart.ids hapart fun item hitem => find_of_mem hapart.ids hitem]
    have hcnt : (m.connection d).cnt = d := rfl
    cases hfind : m.findOutLink d with
    | none =>
        have hfind' : (m.outLinks.find? fun item => item.connectId = d) = none := hfind
        have hentry := entry_eq_none hfind
        simp only [hfind', hentry]
    | some item =>
        have hfind' : (m.outLinks.find? fun item => item.connectId = d) = some item := hfind
        obtain ⟨link, _, _, hentry⟩ := hapart.entry hfind
        simp only [hfind', hentry, hcnt, mapLink, Option.map_some]

/-- What is kept of some items of a cache is some of what is kept of all. -/
theorem filter_resend {α : Type} (cache : List α) {p q : α → Bool} {f : α → α}
    (hf : ∀ item, q (f item) = q item) :
    ((cache.filter p).map f).filter q = ((cache.filter q).filter p).map f := by
  rw [List.filter_map, show q ∘ f = q from funext hf]
  simp only [List.filter_filter]
  congr 1
  exact List.filter_congr fun item _ => Bool.and_comm _ _

/-- Picking a connection's packets commutes with picking those due. -/
theorem filter_resent {α : Type} (cache : List α) (p q r : α → Bool) :
    ((cache.filter p).filter r).filter q = ((cache.filter q).filter p).filter r := by
  simp only [List.filter_filter]
  refine List.filter_congr fun item _ => ?_
  cases p item <;> cases q item <;> cases r item <;> rfl

/-- **So does the one that sends cached packets again.** -/
theorem project_onCacheResend (t : TrunkLink) (curt : Time) :
    project d (t.onCacheResend curt) = (t.connection d).onCacheResend curt := by
  unfold TrunkLink.onCacheResend Connection.onCacheResend project
  have hcache := filter_resend t.packetDataCache
    (p := fun item => ¬ curt > item.deadline) (q := fun item => item.info.ctxId = d)
    (f := fun item => if curt > item.nextSend then
      { item with nextSend := curt + milliseconds kResendTimeout } else item)
    (by intro item; split <;> rfl)
  have hsent := filter_resent t.packetDataCache (fun item => ¬ curt > item.deadline)
    (fun item => item.info.ctxId = d) (fun item => curt > item.nextSend)
  refine Prod.ext ?_ ?_
  · simp only [connection, hcache]
    rfl
  · simp only [List.filter_map]
    exact congrArg (List.map PacketDataCache.info) hsent

/-! ## Handlers and registration -/

/-- The entry a live packet refreshes. -/
theorem find_processLive (t : TrunkLink) (cnt : ConnectID) (now : Time) :
    (t.processLive cnt now).findOutLink d = (t.findOutLink d).map fun item =>
      if item.connectId = cnt then
        { item with deadlinkTimeout := now + milliseconds kDeadLinkTimeout }
      else item := by
  unfold processLive findOutLink
  rw [List.find?_map]
  congr 2
  funext item
  simp only [Function.comp_apply]
  split <;> rfl

/-- **A packet for the connection.** -/
theorem Apart.handle (h : t.Apart) {call : HandlerCall} (hid : call.cnt = d) (now : Time) :
    project d (t.handle now call) = (t.connection d).handle now call := by
  unfold Connection.handle
  cases hfind : t.findOutLink d with
  | none =>
      have hlink : t.getOutLink d = none := by rw [getOutLink, hfind]; rfl
      simp only [entry_eq_none hfind]
      cases call with
      | processConnectData cnt pointId timeout => rfl
      | processAckConnectData cnt => rfl
      | processAckData cnt packetIndex => rfl
      | processDataToOutlink cnt packetIndex data =>
          obtain rfl : cnt = d := hid
          simp only [TrunkLink.handle, processDataToOutlink, hlink]
          rfl
      | processReleaseConnect cnt packetId =>
          obtain rfl : cnt = d := hid
          simp only [TrunkLink.handle, processReleaseConnect, hlink]
          rfl
      | processLive cnt =>
          have hsame : (t.processLive cnt now).findOutLink d = t.findOutLink d := by
            rw [find_processLive, hfind]
            rfl
          have hlinks : (t.processLive cnt now).links = t.links := rfl
          rw [project, TrunkLink.handle, connection, hsame, hlinks]
          rfl
  | some item =>
      have hlink : t.getOutLink d = some item.link := by rw [getOutLink, hfind]; rfl
      obtain ⟨link, hobject, _, hentry⟩ := h.entry hfind
      simp only [hentry]
      cases call with
      | processConnectData cnt pointId timeout => rfl
      | processAckConnectData cnt => rfl
      | processAckData cnt packetIndex => rfl
      | processDataToOutlink cnt packetIndex data =>
          obtain rfl : cnt = d := hid
          simp only [TrunkLink.handle, processDataToOutlink, hlink]
          have hmodify := connection_modify hfind
            (f := fun reg => reg.sendData packetIndex data)
            (g := fun link => link.sendData packetIndex data) fun _ => rfl
          rw [mapLink, hentry] at hmodify
          have hsent : ([ackDataPacket t.serverSide cnt packetIndex].filter fun pkt =>
              pkt.ctxId = cnt) = [ackDataPacket t.serverSide cnt packetIndex] :=
            List.filter_cons_of_pos (decide_eq_true rfl)
          exact Prod.ext hmodify hsent
      | processReleaseConnect cnt packetId =>
          obtain rfl : cnt = d := hid
          simp only [TrunkLink.handle, processReleaseConnect, hlink]
          have hmodify := connection_modify hfind (f := fun reg => reg.stop (.release packetId))
            (g := fun link => link.stop packetId) fun _ => rfl
          rw [mapLink, hentry] at hmodify
          exact Prod.ext hmodify rfl
      | processLive cnt =>
          obtain rfl : cnt = d := hid
          have hitem : item.connectId = cnt := by simpa using List.find?_some hfind
          have hlinks : (t.processLive cnt now).links = t.links := rfl
          rw [project, TrunkLink.handle, connection, find_processLive, hfind, hlinks]
          simp only [Option.map_some, hitem, if_true, Option.bind_some, entryOf, hobject]
          rfl

/-- **A packet for another connection.** -/
theorem Apart.handle_foreign (h : t.Apart) {call : HandlerCall} (hne : call.cnt ≠ d) (now : Time) :
    project d (t.handle now call) = (t.connection d, []) := by
  have hitem : ∀ {k}, t.getOutLink call.cnt = some k →
      ∃ item ∈ t.outLinks, item.connectId ≠ d ∧ item.link = k := by
    intro k hk
    obtain ⟨item, hfind, hlink⟩ := Option.map_eq_some_iff.mp hk
    have hid : item.connectId = call.cnt := by simpa using List.find?_some hfind
    exact ⟨item, List.mem_of_find?_eq_some hfind, hid ▸ hne, hlink⟩
  cases call with
  | processConnectData cnt pointId timeout => rfl
  | processAckConnectData cnt => rfl
  | processAckData cnt packetIndex => rfl
  | processDataToOutlink cnt packetIndex data =>
      simp only [TrunkLink.handle, processDataToOutlink]
      split
      · rfl
      · rename_i k hk
        obtain ⟨item, hmem, hother, rfl⟩ := hitem hk
        have hmodify := h.connection_modify_ne hmem hother
          (f := fun reg => reg.sendData packetIndex data)
          (g := fun link => link.sendData packetIndex data) fun _ => rfl
        have hsent : ([ackDataPacket t.serverSide cnt packetIndex].filter fun pkt =>
            pkt.ctxId = d) = [] :=
          List.filter_cons_of_neg (by
            rw [decide_eq_true_eq]
            exact hne)
        exact Prod.ext hmodify hsent
  | processReleaseConnect cnt packetId =>
      simp only [TrunkLink.handle, processReleaseConnect]
      split
      · rfl
      · rename_i k hk
        obtain ⟨item, hmem, hother, rfl⟩ := hitem hk
        have hmodify := h.connection_modify_ne hmem hother
          (f := fun reg => reg.stop (.release packetId)) (g := fun link => link.stop packetId)
          fun _ => rfl
        exact Prod.ext hmodify rfl
  | processLive cnt =>
      have hsame : (t.processLive cnt now).findOutLink d = t.findOutLink d := by
        rw [find_processLive]
        cases hfind : t.findOutLink d with
        | none => rfl
        | some item =>
            have hid : item.connectId = d := by simpa using List.find?_some hfind
            have hother : ¬ d = cnt := fun heq => hne heq.symm
            simp [hid, hother]
      have hlinks : (t.processLive cnt now).links = t.links := rfl
      rw [project, TrunkLink.handle, connection, hsame, hlinks]
      rfl

/-- **The registration of the connection.** -/
theorem connection_add (hnew : t.getOutLink d = none) (link : OutLink) (now : Time) :
    (t.intAddOutLink d link now).connection d = (t.connection d).intAddOutLink link now := by
  have hnone : (t.outLinks.find? fun item => item.connectId = d) = none := by
    simpa [getOutLink, findOutLink] using hnew
  simp [connection, Connection.intAddOutLink, findOutLink, intAddOutLink, hnone, entryOf, links]

/-- **The registration of another connection.** -/
theorem Apart.connection_add_ne (h : t.Apart) (hne : cnt ≠ d) (link : OutLink) (now : Time) :
    (t.intAddOutLink cnt link now).connection d = t.connection d := by
  have hsame : (t.intAddOutLink cnt link now).findOutLink d = t.findOutLink d := by
    simp [findOutLink, intAddOutLink, hne]
  rw [connection, hsame, connection]
  cases hfind : t.findOutLink d with
  | none => rfl
  | some item =>
      obtain ⟨own, hown, _⟩ := h.object (List.mem_of_find?_eq_some hfind)
      obtain ⟨hlt, _⟩ := List.getElem?_eq_some_iff.mp hown
      have hlinks : (t.intAddOutLink cnt link now).links = t.links ++ [link.run cnt] := by
        simp [links, intAddOutLink]
      simp only [Option.bind_some, entryOf, hlinks, List.getElem?_append_left hlt]
      rfl

end TrunkLink
