import ByteStacker.TrunkSteps

/-!
# Calls of `SendData` and `CloseConnect`

`SendData` and `CloseConnect` are public functions of a trunk side, and both end
in `SendCmdData`, which gives out the next packet index of the connection.  Here
anybody may call them, for any connection id and in any order: the links through
their handlers, and the events `sendData` and `closeConnect` of this file.

`hosterCall_result` is the inversion of such a call: it is refused, its packet is
made, or its index is taken for "unknown connection" and nothing is made.
`call_nextIndex` follows the index counter of one connection through every event.
-/

/-! ## The packet of a call -/

namespace HosterCall

/-- The connection the call is about. -/
def cnt : HosterCall → ConnectID
  | sendData cnt _ | closeConnect cnt => cnt

/-- The bytes the call passes to `SendCmdData`. -/
def payload : HosterCall → Bytes
  | sendData _ data => data
  | closeConnect _ => []

/-- The packet `SendCmdData` makes of the call under the index given out for it. -/
def packet (serverSide : Bool) (pktIndex : UInt32) : HosterCall → PacketInfo
  | sendData cnt data => dataPacket cnt data (dataCommand serverSide) pktIndex
  | closeConnect cnt => dataPacket cnt [] .releaseConnect pktIndex

/-- The registered connections after the index was given out. -/
def entries (xs : List OutLinkInfo) : HosterCall → List OutLinkInfo
  | sendData cnt _ => TrunkLink.countIndex cnt xs
  | closeConnect cnt => xs.filter fun item => ¬ cnt = item.connectId

/-- What becomes of the entry of the connection. -/
def entry (item : OutLinkInfo) : HosterCall → Option OutLinkInfo
  | sendData _ _ => some { item with nextIndexToTrunk := item.nextIndexToTrunk + 1 }
  | closeConnect _ => none

/-- The packet of a call carries its connection. -/
theorem packet_ctxId (serverSide : Bool) (pktIndex : UInt32) (call : HosterCall) :
    (call.packet serverSide pktIndex).ctxId = call.cnt := by
  cases call <;> rfl

/-- It carries the index that it was given. -/
theorem packet_packetId (serverSide : Bool) (pktIndex : UInt32) (call : HosterCall) :
    (call.packet serverSide pktIndex).packetId = pktIndex := by
  cases call <;> rfl

/-- Its datagram begins with the connection id. -/
theorem headed_packet (call : HosterCall) (serverSide : Bool) (pktIndex : UInt32) :
    (call.packet serverSide pktIndex).Headed := by
  cases call with
  | sendData cnt data => exact headed_dataPacket cnt data (dataCommand serverSide) pktIndex
  | closeConnect cnt => exact headed_dataPacket cnt [] .releaseConnect pktIndex

end HosterCall

/-- A link speaks for its own connection. -/
theorem OutLink.asioStep_cnt {l l' : OutLink} {e : AsioEvent} {call : Option HosterCall}
    (hstep : l.asioStep e = some (l', call)) :
    l'.hoster = l.hoster ∧ ∀ made, call = some made → l.hoster = some made.cnt := by
  cases asioStep_outcome hstep with
  | @resolved i x results hx =>
      cases results with
      | none => exact ⟨rfl, by simp⟩
      | some points => exact ⟨(sameStage_requestConnect _).1, by simp⟩
  | @connected i x error hx =>
      cases error with
      | true => exact ⟨(sameStage_requestConnect _).1, by simp⟩
      | false => exact ⟨(stage_startLoops _).1, by simp⟩
  | readDone hx hle => exact ⟨rfl, by simp⟩
  | @readHandler i r _ _ hx heq =>
      have hstage := stage_readHandler { l with reads := l.reads.eraseIdx i } r
      have hcall := call_readHandler { l with reads := l.reads.eraseIdx i } r
      rw [heq] at hstage hcall
      refine ⟨hstage.1, ?_⟩
      intro made hmade
      rw [hmade] at hcall
      by_cases hempty : r.data = []
      · simp [hempty] at hcall
      · rw [if_neg hempty] at hcall
        obtain ⟨cnt, hcnt, hsend⟩ := Option.map_eq_some_iff.mp hcall.symm
        rw [← hsend]
        exact hcnt
  | writeDone hx hle => exact ⟨rfl, by simp⟩
  | @writeHandler i size r hx => exact ⟨(stage_writeHandler _ r).1, by simp⟩
  | timerExpire hx => exact ⟨rfl, by simp⟩
  | @timerHandler i t hx ht => exact ⟨(sameStage_requestWrite _).hoster, by simp⟩
  | closeCheck hpos heq =>
      rcases checkReadyCloseProcessing_cases { l with posts := l.posts - 1 } with
        ⟨_, _, _, hclose⟩ | ⟨_, hclose⟩
      · rw [hclose] at heq
        cases heq
        refine ⟨rfl, ?_⟩
        intro made hmade
        obtain ⟨cnt, hcnt, hsend⟩ := Option.map_eq_some_iff.mp hmade
        rw [← hsend]
        exact hcnt
      · rw [hclose] at heq
        cases heq
        exact ⟨rfl, by simp⟩

namespace TrunkLink

variable {t t' : TrunkLink} {cnt : ConnectID}

/-- All link objects, without their histories. -/
def links (t : TrunkLink) : List OutLink := t.objects.map Registration.link

/-- The connections of all link objects. -/
def hosters (t : TrunkLink) : List (Option ConnectID) :=
  t.objects.map fun reg => reg.link.hoster

/-! ## One call -/

/-- Apart from its entries and its cache, `t'` differs from `t` in counters and
histories only. -/
structure Booked (t t' : TrunkLink) (entries : List OutLinkInfo)
    (cache : List PacketDataCache) : Prop where
  outLinks : t'.outLinks = entries
  packetDataCache : t'.packetDataCache = cache
  links : t'.links = t.links
  serverSide : t'.serverSide = t.serverSide
  nextLiveUpdate : t'.nextLiveUpdate = t.nextLiveUpdate

/-- Booking a call changes no owner. -/
theorem Booked.hosters {entries : List OutLinkInfo} {cache : List PacketDataCache}
    (h : Booked t t' entries cache) : t'.hosters = t.hosters := by
  have hlinks := congrArg (List.map OutLink.hoster) h.links
  simpa only [TrunkLink.links, TrunkLink.hosters, List.map_map, Function.comp_def] using hlinks

/-- **The ways a call of `SendData` or `CloseConnect` can end.** -/
inductive CmdResult (t : TrunkLink) (call : HosterCall) (now : Time) :
    TrunkLink → List PacketInfo → Prop
  | refused (counter : UInt64)
      (hwhy : t.findOutLink call.cnt = none ∨ call.payload.length > kMaxChunkSize) :
      CmdResult t call now { t with inStreamCounter := counter } []
  | dropped {t' : TrunkLink} {item : OutLinkInfo} (hfind : t.findOutLink call.cnt = some item)
      (hsize : call.payload.length ≤ kMaxChunkSize)
      (hbad : item.nextIndexToTrunk = kBadPacketIndex)
      (hbook : Booked t t' (call.entries t.outLinks) t.packetDataCache) :
      CmdResult t call now t' []
  | made {t' : TrunkLink} {item : OutLinkInfo} (hfind : t.findOutLink call.cnt = some item)
      (hsize : call.payload.length ≤ kMaxChunkSize)
      (hgood : item.nextIndexToTrunk ≠ kBadPacketIndex)
      (hbook : Booked t t' (call.entries t.outLinks) (t.packetDataCache ++
        [.start (call.packet t.serverSide item.nextIndexToTrunk) now])) :
      CmdResult t call now t' [call.packet t.serverSide item.nextIndexToTrunk]

/-- A change that keeps a field keeps the list of the fields. -/
theorem map_modify {α : Type} (xs : List Registration) (k : Nat)
    {f : Registration → Registration} {g : Registration → α} (hf : ∀ reg, g (f reg) = g reg) :
    (xs.modify k f).map g = xs.map g := by
  apply List.ext_getElem?
  intro j
  rw [List.getElem?_map, List.getElem?_modify, List.getElem?_map]
  cases xs[j]? with
  | none => rfl
  | some reg =>
      by_cases hj : k = j
      · simp [hj, hf]
      · simp [hj]

/-- A packet is made without touching the link. -/
theorem link_create (reg : Registration) (cmd : TrunkCommand) (pktIndex : UInt32) (data : Bytes) :
    (reg.create cmd pktIndex data).link = reg.link := by
  unfold Registration.create
  split <;> rfl

/-- `SendCmdData` for a registered connection, without its history. -/
theorem sendCmdData_booked {item : OutLinkInfo} {data : Bytes} (cmd : TrunkCommand) (now : Time)
    (hfind : t.findOutLink cnt = some item) (hsize : data.length ≤ kMaxChunkSize) :
    (item.nextIndexToTrunk = kBadPacketIndex ∧ (t.sendCmdData cnt data cmd now).2 = [] ∧
      Booked t (t.sendCmdData cnt data cmd now).1 (countIndex cnt t.outLinks)
        t.packetDataCache) ∨
    (item.nextIndexToTrunk ≠ kBadPacketIndex ∧
      (t.sendCmdData cnt data cmd now).2 = [dataPacket cnt data cmd item.nextIndexToTrunk] ∧
      Booked t (t.sendCmdData cnt data cmd now).1 (countIndex cnt t.outLinks)
        (t.packetDataCache ++ [.start (dataPacket cnt data cmd item.nextIndexToTrunk) now])) := by
  have hfit : ¬ data.length > kMaxChunkSize := by omega
  have hlinks : (t.objects.modify item.link Registration.allocate).map Registration.link =
      t.objects.map Registration.link := map_modify _ _ fun _ => rfl
  unfold sendCmdData getNextPacketIndex
  simp only [if_neg hfit, hfind]
  by_cases hbad : item.nextIndexToTrunk = kBadPacketIndex
  · rw [if_pos hbad]
    exact Or.inl ⟨hbad, rfl, rfl, rfl, hlinks, rfl, rfl⟩
  · rw [if_neg hbad]
    refine Or.inr ⟨hbad, rfl, ?_⟩
    unfold recordCreated
    split
    · refine ⟨rfl, rfl, ?_, rfl, rfl⟩
      exact (map_modify _ _ fun reg => link_create reg _ _ _).trans hlinks
    · exact ⟨rfl, rfl, hlinks, rfl, rfl⟩

/-- For an unregistered connection nothing is sent. -/
theorem sendCmdData_unknown (hfind : t.findOutLink cnt = none) (data : Bytes) (cmd : TrunkCommand)
    (now : Time) : t.sendCmdData cnt data cmd now = (t, []) := by
  unfold sendCmdData getNextPacketIndex
  simp only [hfind]
  split
  · rfl
  · simp

/-- An id without an entry has none to remove. -/
theorem filter_unknown (hfind : t.findOutLink cnt = none) :
    (t.outLinks.filter fun item => ¬ cnt = item.connectId) = t.outLinks := by
  rw [List.filter_eq_self]
  intro item hitem
  have hne : ¬ item.connectId = cnt := by simpa using List.find?_eq_none.mp hfind item hitem
  exact decide_eq_true fun heq => hne heq.symm

/-- **A call has one of these results.** -/
theorem hosterCall_result (t : TrunkLink) (now : Time) (call : HosterCall) :
    CmdResult t call now (t.hosterCall now (some call)).1 (t.hosterCall now (some call)).2 := by
  cases call with
  | sendData cnt data =>
      simp only [hosterCall, sendData]
      have hdata : (if t.serverSide then TrunkCommand.dataIn else .dataOut) =
          dataCommand t.serverSide := rfl
      rw [hdata]
      generalize hm : ({ t with
      inStreamCounter := t.inStreamCounter + UInt64.ofNat data.length } : TrunkLink) = m
      by_cases hlong : data.length > kMaxChunkSize
      · rw [sendCmdData, if_pos hlong, ← hm]
        exact .refused _ (Or.inr hlong)
      · cases hfind : t.findOutLink cnt with
        | none =>
            rw [sendCmdData_unknown (by rw [← hm]; exact hfind), ← hm]
            exact .refused _ (Or.inl hfind)
        | some item =>
            have hfind' : m.findOutLink cnt = some item := by rw [← hm]; exact hfind
            have hsize : data.length ≤ kMaxChunkSize := by omega
            rcases sendCmdData_booked (dataCommand t.serverSide) now hfind' hsize with
              ⟨hbad, hnone, hb⟩ | ⟨hgood, hone, hb⟩
            · rw [hnone]
              subst hm
              exact .dropped hfind hsize hbad ⟨hb.1, hb.2, hb.3, hb.4, hb.5⟩
            · rw [hone]
              subst hm
              exact .made hfind hsize hgood ⟨hb.1, hb.2, hb.3, hb.4, hb.5⟩
  | closeConnect cnt =>
      simp only [hosterCall, closeConnect, sendDisconnectInformation]
      cases hfind : t.findOutLink cnt with
      | none =>
          rw [sendCmdData_unknown hfind]
          simp only [removeOutLink, filter_unknown hfind]
          exact .refused t.inStreamCounter (Or.inl hfind)
      | some item =>
          have hsize : ([] : Bytes).length ≤ kMaxChunkSize := Nat.zero_le _
          rcases sendCmdData_booked .releaseConnect now hfind hsize with
            ⟨hbad, hnone, hb⟩ | ⟨hgood, hone, hb⟩
          · rw [hnone]
            refine .dropped hfind hsize hbad ⟨?_, hb.2, hb.3, hb.4, hb.5⟩
            simp only [removeOutLink, hb.outLinks, filter_countIndex, HosterCall.entries]
          · rw [hone]
            refine .made hfind hsize hgood ⟨?_, hb.2, hb.3, hb.4, hb.5⟩
            simp only [removeOutLink, hb.outLinks, filter_countIndex, HosterCall.entries]

/-! ## Events -/

end TrunkLink

/-- An event of a trunk side: one of its operations, or a call of `SendData` or
`CloseConnect` by anybody. -/
inductive TrunkCall
  | op (op : TrunkOp)
  | sendData (cnt : ConnectID) (data : Bytes) (now : Time)
  | closeConnect (cnt : ConnectID) (now : Time)

/-- The connection an operation creates a link for. -/
def TrunkOp.added : TrunkOp → Option ConnectID
  | .add cnt _ _ => some cnt
  | _ => none

def TrunkCall.added : TrunkCall → Option ConnectID
  | .op operation => operation.added
  | _ => none

/-- The value of the clock an operation reads; `GetStat` reads none. -/
def TrunkOp.time : TrunkOp → Time
  | .add _ _ now | .asio _ _ now | .live now | .resend now | .handle _ now => now
  | .getStat => 0

def TrunkCall.time : TrunkCall → Time
  | .op operation => operation.time
  | .sendData _ _ now | .closeConnect _ now => now

namespace TrunkLink

variable {t t' : TrunkLink} {cnt : ConnectID}

def call (t : TrunkLink) : TrunkCall → Option (TrunkLink × List PacketInfo)
  | .op op => t.apply op
  | .sendData cnt data now => some (t.sendData cnt data now)
  | .closeConnect cnt now => some (t.closeConnect cnt now)

def callStep (t : TrunkLink) (e : TrunkCall) : Option TrunkLink := (t.call e).map Prod.fst

/-- The call of `SendData` or `CloseConnect` an event makes. -/
def cmdCall (t : TrunkLink) : TrunkCall → Option HosterCall
  | .op (.asio k e _) => (t.objects[k]?.bind fun reg => reg.link.asioStep e).bind Prod.snd
  | .op _ => none
  | .sendData cnt data _ => some (.sendData cnt data)
  | .closeConnect cnt _ => some (.closeConnect cnt)

/-- The calls an event makes for the connection `cnt`. -/
def callsOf (cnt : ConnectID) (t : TrunkLink) (e : TrunkCall) : List HosterCall :=
  (t.cmdCall e).toList.filter fun call => call.cnt = cnt

/-- The packets `SendCmdData` makes in an event for the connection `cnt`. -/
def createdOf (cnt : ConnectID) (t : TrunkLink) (e : TrunkCall) : List PacketInfo :=
  match t.cmdCall e with
  | none => []
  | some _ => (((t.call e).map Prod.snd).getD []).filter fun pkt => pkt.ctxId = cnt

/-- An asio event is the change of one link object and then its call. -/
theorem asioStep_eq {k : Nat} {e : AsioEvent} {now : Time} {r : TrunkLink × List PacketInfo}
    (h : t.asioStep k e now = some r) :
    ∃ reg link call, t.objects[k]? = some reg ∧ reg.link.asioStep e = some (link, call) ∧
      r = (t.modifyObject k fun reg => { reg with link := link }).hosterCall now call := by
  unfold asioStep at h
  split at h
  · cases h
  · rename_i reg hreg
    split at h
    · cases h
    · rename_i link call hlink
      exact ⟨reg, link, call, hreg, hlink, (Option.some.inj h).symm⟩

/-- The object of a link is replaced by one of the same connection. -/
theorem hosters_link {k : Nat} {e : AsioEvent} {reg : Registration} {link : OutLink}
    {made : Option HosterCall} (hreg : t.objects[k]? = some reg)
    (hlink : reg.link.asioStep e = some (link, made)) :
    (t.modifyObject k fun reg => { reg with link := link }).hosters = t.hosters := by
  apply List.ext_getElem?
  intro j
  simp only [hosters, modifyObject, List.getElem?_map, List.getElem?_modify]
  by_cases hj : k = j
  · subst hj
    simp [hreg, (OutLink.asioStep_cnt hlink).1]
  · simp [hj]

/-- **An event that makes a call ends like the call.** -/
theorem call_result {e : TrunkCall} {call : HosterCall} {pkts : List PacketInfo}
    (hcmd : t.cmdCall e = some call) (hcall : t.call e = some (t', pkts)) :
    ∃ objects, { t with objects := objects }.hosters = t.hosters ∧
      CmdResult { t with objects := objects } call e.time t' pkts := by
  cases e with
  | sendData cnt data now =>
      cases hcmd
      have hresult := hosterCall_result t now (.sendData cnt data)
      rw [show t.hosterCall now (some (.sendData cnt data)) = (t', pkts) from
        Option.some.inj hcall] at hresult
      exact ⟨t.objects, rfl, hresult⟩
  | closeConnect cnt now =>
      cases hcmd
      have hresult := hosterCall_result t now (.closeConnect cnt)
      rw [show t.hosterCall now (some (.closeConnect cnt)) = (t', pkts) from
        Option.some.inj hcall] at hresult
      exact ⟨t.objects, rfl, hresult⟩
  | op op =>
      cases op with
      | asio k e now =>
          obtain ⟨reg, link, call', hreg, hlink, heq⟩ := asioStep_eq hcall
          have hsame : some call = call' := by
            simpa [cmdCall, hreg, hlink] using hcmd.symm
          subst hsame
          have hresult := hosterCall_result
            (t.modifyObject k fun reg => { reg with link := link }) now call
          rw [← heq] at hresult
          exact ⟨_, hosters_link hreg hlink, hresult⟩
      | add cnt point now => cases hcmd
      | live curt => cases hcmd
      | resend curt => cases hcmd
      | handle call now => cases hcmd
      | getStat => cases hcmd

/-- **The events that make no call** register a connection or keep the entries but
for their timeouts and the cache but for what has expired; they send packets of
registered connections and of the cache. -/
inductive QuietResult (t : TrunkLink) : TrunkCall → TrunkLink → List PacketInfo → Prop
  | added {cnt : ConnectID} {point : Option AddressPortPoint} {now : Time}
      (hnew : t.getOutLink cnt = none) :
      QuietResult t (.op (.add cnt point now)) (t.intAddOutLink cnt (newLink point) now) []
  | kept {e : TrunkCall} {t' : TrunkLink} {pkts : List PacketInfo} (hadd : e.added = none)
      (hkeys : t'.outLinks.map entryKey = t.outLinks.map entryKey)
      (hcached : ∀ item' ∈ t'.packetDataCache, ∃ item ∈ t.packetDataCache, item'.info = item.info)
      (hside : t'.serverSide = t.serverSide) (hhosters : t'.hosters = t.hosters)
      (hsent : ∀ pkt ∈ pkts, ((∃ item ∈ t.outLinks, item.connectId = pkt.ctxId) ∧ pkt.Headed) ∨
        ∃ item ∈ t.packetDataCache, item.info = pkt) :
      QuietResult t e t' pkts

/-- The handlers and the live loop leave the connections of the links alone. -/
theorem hosters_modify (t : TrunkLink) (k : Nat) {f : Registration → Registration}
    (hf : ∀ reg, (f reg).link.hoster = reg.link.hoster) :
    (t.modifyObject k f).hosters = t.hosters :=
  map_modify _ _ hf

/-- A chunk handed over changes no owner. -/
theorem hosters_sendData (t : TrunkLink) (k : Nat) (packetIndex : UInt32) (data : Bytes) :
    (t.modifyObject k fun reg => reg.sendData packetIndex data).hosters = t.hosters :=
  t.hosters_modify k fun reg => (reg.link.sameLife_sendData packetIndex data).1.hoster

theorem hosters_stop (t : TrunkLink) (k : Nat) (call : StopCall) :
    (t.modifyObject k fun reg => reg.stop call).hosters = t.hosters :=
  t.hosters_modify k fun reg => (reg.link.sameLife_stop call.chunk).1.hoster

theorem hosters_liveLoop {curt : Time} (items : List OutLinkInfo) (t : TrunkLink) :
    (liveLoop curt items t).1.hosters = t.hosters := by
  induction items generalizing t with
  | nil => rfl
  | cons item rest ih =>
      unfold liveLoop
      split
      · exact (ih _).trans (t.hosters_stop item.link .deadLink)
      · exact ih t

/-- So no handler changes an owner. -/
theorem hosters_handle (t : TrunkLink) (call : HandlerCall) (now : Time) :
    (t.handle now call).1.hosters = t.hosters := by
  cases call with
  | processConnectData cnt pointId timeout => rfl
  | processAckConnectData cnt => rfl
  | processAckData cnt packetIndex => rfl
  | processLive cnt => rfl
  | processDataToOutlink cnt packetIndex data =>
      simp only [handle, processDataToOutlink]
      split
      · rfl
      · exact hosters_sendData _ _ packetIndex data
  | processReleaseConnect cnt packetId =>
      simp only [handle, processReleaseConnect]
      split
      · rfl
      · exact hosters_stop _ _ (.release packetId)

/-- A handler sends acknowledgements of data only, and of registered connections. -/
theorem sent_handle (t : TrunkLink) (now : Time) (call : HandlerCall) :
    ∀ pkt ∈ (t.handle now call).2, ∃ cnt packetIndex,
      pkt = ackDataPacket t.serverSide cnt packetIndex ∧
        ∃ item ∈ t.outLinks, item.connectId = cnt := by
  intro pkt hpkt
  cases call with
  | processConnectData cnt pointId timeout => simp [handle] at hpkt
  | processAckConnectData cnt => simp [handle] at hpkt
  | processAckData cnt packetIndex => simp [handle] at hpkt
  | processReleaseConnect cnt packetId => simp [handle] at hpkt
  | processLive cnt => simp [handle] at hpkt
  | processDataToOutlink cnt packetIndex data =>
      simp only [handle, processDataToOutlink] at hpkt
      split at hpkt
      · simp at hpkt
      · rename_i k hk
        obtain ⟨item, hitem, _⟩ := Option.map_eq_some_iff.mp hk
        have hid : item.connectId = cnt := by simpa using List.find?_some hitem
        exact ⟨cnt, packetIndex, List.mem_singleton.mp hpkt, item,
          List.mem_of_find?_eq_some hitem, hid⟩

/-- `SendLivePacket` sends live packets of registered connections only. -/
theorem sent_live (t : TrunkLink) (curt : Time) :
    ∀ pkt ∈ (t.sendLivePacket curt).2, ∃ item ∈ t.outLinks, livePacket item.connectId = pkt := by
  intro pkt hpkt
  unfold sendLivePacket at hpkt
  split at hpkt
  · simp at hpkt
  · rw [liveLoop_packets] at hpkt
    obtain ⟨item, hitem, rfl⟩ := List.mem_map.mp hpkt
    exact ⟨item, List.mem_of_mem_filter hitem, rfl⟩

/-- A handler makes no call. -/
theorem quiet_handle (t : TrunkLink) (call : HandlerCall) (now : Time) :
    QuietResult t (.op (.handle call now)) (t.handle now call).1 (t.handle now call).2 := by
  obtain ⟨hkeys, hcache, hside⟩ := handle_frame t now call
  refine .kept rfl hkeys (fun item hitem => ⟨item, hcache ▸ hitem, rfl⟩) hside
    (hosters_handle t call now) ?_
  intro pkt hpkt
  obtain ⟨cnt, packetIndex, rfl, hitem⟩ := sent_handle t now call pkt hpkt
  exact Or.inl ⟨hitem, headed_ackDataPacket t.serverSide cnt packetIndex⟩

/-- Nor does the heartbeat. -/
theorem quiet_live (t : TrunkLink) (curt : Time) :
    QuietResult t (.op (.live curt)) (t.sendLivePacket curt).1 (t.sendLivePacket curt).2 := by
  obtain ⟨hlinks, hcache, hside⟩ := sendLivePacket_frame t curt
  have hhosters : (t.sendLivePacket curt).1.hosters = t.hosters := by
    unfold sendLivePacket
    split
    · rfl
    · exact hosters_liveLoop _ _
  refine .kept rfl (by rw [hlinks]) (fun item hitem => ⟨item, hcache ▸ hitem, rfl⟩) hside
    hhosters ?_
  intro pkt hpkt
  obtain ⟨item, hitem, rfl⟩ := sent_live t curt pkt hpkt
  exact Or.inl ⟨⟨item, hitem, rfl⟩, headed_livePacket item.connectId⟩

/-- Nor does the resending. -/
theorem quiet_resend (t : TrunkLink) (curt : Time) :
    QuietResult t (.op (.resend curt)) (t.onCacheResend curt).1 (t.onCacheResend curt).2 := by
  refine .kept rfl rfl ?_ rfl rfl ?_
  · intro item' hitem'
    obtain ⟨item, hitem, rfl⟩ := List.mem_map.mp hitem'
    refine ⟨item, List.mem_of_mem_filter hitem, ?_⟩
    split <;> rfl
  · intro pkt hpkt
    obtain ⟨item, hitem, rfl⟩ := List.mem_map.mp hpkt
    exact Or.inr ⟨item, List.mem_of_mem_filter (List.mem_of_mem_filter hitem), rfl⟩

/-- **An event without a call is a quiet one.** -/
theorem call_quiet {e : TrunkCall} {pkts : List PacketInfo} (hcmd : t.cmdCall e = none)
    (hcall : t.call e = some (t', pkts)) : QuietResult t e t' pkts := by
  cases e with
  | sendData cnt data now => cases hcmd
  | closeConnect cnt now => cases hcmd
  | op op =>
      cases op with
      | add cnt point now =>
          simp only [call, apply] at hcall
          split at hcall
          · cases hcall
          · rename_i hnew
            cases hcall
            exact .added hnew
      | asio k e now =>
          obtain ⟨reg, link, call, hreg, hlink, heq⟩ := asioStep_eq hcall
          have hsame : call = none := by simpa [cmdCall, hreg, hlink] using hcmd
          subst hsame
          cases heq
          exact .kept rfl rfl (fun item hitem => ⟨item, hitem, rfl⟩) rfl
            (hosters_link hreg hlink) (by simp)
      | live curt =>
          have hquiet := quiet_live t curt
          rwa [show t.sendLivePacket curt = (t', pkts) from Option.some.inj hcall] at hquiet
      | resend curt =>
          have hquiet := quiet_resend t curt
          rwa [show t.onCacheResend curt = (t', pkts) from Option.some.inj hcall] at hquiet
      | handle call now =>
          have hquiet := quiet_handle t call now
          rwa [show t.handle now call = (t', pkts) from Option.some.inj hcall] at hquiet
      | getStat =>
          cases hcall
          exact .kept rfl rfl (fun item hitem => ⟨item, hitem, rfl⟩) rfl rfl (by simp)

/-- A side stays on its side. -/
theorem call_serverSide {e : TrunkCall} {pkts : List PacketInfo}
    (hcall : t.call e = some (t', pkts)) : t'.serverSide = t.serverSide := by
  cases hcmd : t.cmdCall e with
  | none =>
      cases call_quiet hcmd hcall with
      | added _ => rfl
      | kept _ _ _ hside _ _ => exact hside
  | some call =>
      obtain ⟨objects, _, hresult⟩ := call_result hcmd hcall
      cases hresult with
      | refused counter _ => rfl
      | dropped _ _ _ hbook => exact hbook.serverSide
      | made _ _ _ hbook => exact hbook.serverSide

/-- A call registers nothing. -/
theorem added_of_cmd {e : TrunkCall} {call : HosterCall} (hcmd : t.cmdCall e = some call) :
    e.added = none := by
  cases e with
  | sendData cnt data now => rfl
  | closeConnect cnt now => rfl
  | op op =>
      cases op with
      | asio k e now => rfl
      | add cnt point now => cases hcmd
      | live curt => rfl
      | resend curt => rfl
      | handle call now => rfl
      | getStat => rfl

/-- **Only `add` creates a link**, and no event changes the connection of one. -/
theorem call_hosters {e : TrunkCall} {pkts : List PacketInfo}
    (hcall : t.call e = some (t', pkts)) : t'.hosters = t.hosters ++ e.added.toList.map some := by
  cases hcmd : t.cmdCall e with
  | none =>
      cases call_quiet hcmd hcall with
      | @added cnt point now _ =>
          simp [hosters, intAddOutLink, TrunkCall.added, TrunkOp.added, (run_newLink cnt point).1]
      | kept hadd _ _ _ hhosters _ => simp [hadd, hhosters]
  | some call =>
      obtain ⟨objects, hobjects, hresult⟩ := call_result hcmd hcall
      rw [added_of_cmd hcmd, Option.toList_none, List.map_nil, List.append_nil, ← hobjects]
      cases hresult with
      | refused counter _ => rfl
      | dropped _ _ _ hbook => exact hbook.hosters
      | made _ _ _ hbook => exact hbook.hosters

/-! ## The ids a side knows -/

/-- A call takes no id into the list. -/
theorem ids_entries (call : HosterCall) (xs : List OutLinkInfo) :
    ((call.entries xs).map OutLinkInfo.connectId).Sublist (xs.map OutLinkInfo.connectId) := by
  cases call with
  | sendData cnt data => exact map_connectId_countIndex cnt xs ▸ List.Sublist.refl _
  | closeConnect cnt => exact List.filter_sublist.map _

/-- A connection is not found if and only if no entry has its id. -/
theorem find_eq_none_iff :
    t.getOutLink cnt = none ↔ cnt ∉ t.outLinks.map OutLinkInfo.connectId := by
  simp [getOutLink, findOutLink]

/-- **Ids are registered once**, whatever is called. -/
theorem call_ids {e : TrunkCall} {pkts : List PacketInfo}
    (hids : (t.outLinks.map OutLinkInfo.connectId).Nodup) (hcall : t.call e = some (t', pkts)) :
    (t'.outLinks.map OutLinkInfo.connectId).Nodup := by
  cases hcmd : t.cmdCall e with
  | none =>
      cases call_quiet hcmd hcall with
      | kept _ hkeys _ _ _ _ => exact ids_of_keys hkeys ▸ hids
      | added hnew =>
          have hfree := find_eq_none_iff.mp hnew
          simp only [intAddOutLink, List.map_append, List.map_cons, List.map_nil]
          rw [List.nodup_append]
          refine ⟨hids, by simp, ?_⟩
          intro a ha b hb heq
          exact hfree (List.mem_singleton.mp hb ▸ heq ▸ ha)
  | some call =>
      obtain ⟨objects, _, hresult⟩ := call_result hcmd hcall
      cases hresult with
      | refused counter _ => exact hids
      | dropped _ _ _ hbook => exact hbook.outLinks ▸ (ids_entries call t.outLinks).nodup hids
      | made _ _ _ hbook => exact hbook.outLinks ▸ (ids_entries call t.outLinks).nodup hids

/-- `K` holds of the ids of all registered connections and cached packets. -/
structure Covers (K : ConnectID → Prop) (t : TrunkLink) : Prop where
  links : ∀ item ∈ t.outLinks, K item.connectId
  cached : ∀ item ∈ t.packetDataCache, K item.info.ctxId

/-- **Packets belong to known connections**: what covers the ids a side keeps, and
the one it registers, covers the ids of what it sends and of what it keeps. -/
theorem Covers.call {K : ConnectID → Prop} {e : TrunkCall} {pkts : List PacketInfo}
    (h : Covers K t) (hadd : ∀ cnt, e.added = some cnt → K cnt)
    (hcall : t.call e = some (t', pkts)) : Covers K t' ∧ ∀ pkt ∈ pkts, K pkt.ctxId := by
  have hmem : ∀ {xs : List OutLinkInfo}, (xs.map OutLinkInfo.connectId).Sublist
      (t.outLinks.map OutLinkInfo.connectId) → ∀ item ∈ xs, K item.connectId := by
    intro xs hsub item hitem
    obtain ⟨own, hown, hid⟩ := List.mem_map.mp (hsub.subset (List.mem_map_of_mem hitem))
    exact hid ▸ h.links own hown
  cases hcmd : t.cmdCall e with
  | none =>
      cases call_quiet hcmd hcall with
      | added _ =>
          refine ⟨⟨?_, h.cached⟩, by simp⟩
          intro item hitem
          rcases List.mem_append.mp hitem with hitem | hitem
          · exact h.links item hitem
          · rw [List.mem_singleton.mp hitem]
            exact hadd _ rfl
      | kept _ hkeys hcached _ _ hsent =>
          refine ⟨⟨hmem (ids_of_keys hkeys ▸ List.Sublist.refl _), ?_⟩, ?_⟩
          · intro item' hitem'
            obtain ⟨item, hitem, heq⟩ := hcached item' hitem'
            exact heq ▸ h.cached item hitem
          · intro pkt hpkt
            rcases hsent pkt hpkt with ⟨⟨item, hitem, hid⟩, _⟩ | ⟨item, hitem, rfl⟩
            · exact hid ▸ h.links item hitem
            · exact h.cached item hitem
  | some call =>
      obtain ⟨objects, _, hresult⟩ := call_result hcmd hcall
      have hentries := hmem (ids_entries call t.outLinks)
      cases hresult with
      | refused counter _ => exact ⟨⟨h.links, h.cached⟩, by simp⟩
      | dropped _ _ _ hbook =>
          exact ⟨⟨hbook.outLinks ▸ hentries, hbook.packetDataCache ▸ h.cached⟩, by simp⟩
      | @made _ item hfind _ _ hbook =>
          have hid : item.connectId = call.cnt := by simpa using List.find?_some hfind
          have hown : K call.cnt := hid ▸ h.links item (List.mem_of_find?_eq_some hfind)
          refine ⟨⟨hbook.outLinks ▸ hentries, ?_⟩, ?_⟩
          · rw [hbook.packetDataCache]
            intro item hitem
            rcases List.mem_append.mp hitem with hitem | hitem
            · exact h.cached item hitem
            · rw [List.mem_singleton.mp hitem, PacketDataCache.start, call.packet_ctxId]
              exact hown
          · intro pkt hpkt
            rw [List.mem_singleton.mp hpkt, call.packet_ctxId]
            exact hown

/-! ## The index counter of one connection -/

/-- `next_index_to_trunk` of the registration of `cnt`. -/
def nextIndex (t : TrunkLink) (cnt : ConnectID) : Option UInt32 :=
  (t.findOutLink cnt).map OutLinkInfo.nextIndexToTrunk

/-- The counter after a call was heard. -/
def indexAfter (index : UInt32) : HosterCall → Option UInt32
  | .sendData _ _ => some (index + 1)
  | .closeConnect _ => none

/-- An entry erased is not found. -/
theorem find_filter (cnt : ConnectID) (xs : List OutLinkInfo) :
    ((xs.filter fun item => ¬ cnt = item.connectId).find? fun item => item.connectId = cnt) =
      none := by
  rw [List.find?_eq_none]
  intro item hitem
  have hne : ¬ cnt = item.connectId := by simpa using (List.mem_filter.mp hitem).2
  simpa using fun heq => hne heq.symm

/-- The other entries still are. -/
theorem find_filter_ne {other : ConnectID} (hne : other ≠ cnt) (xs : List OutLinkInfo) :
    ((xs.filter fun item => ¬ other = item.connectId).find? fun item => item.connectId = cnt) =
      xs.find? fun item => item.connectId = cnt := by
  induction xs with
  | nil => rfl
  | cons x rest ih =>
      by_cases hx : other = x.connectId
      · have hxc : ¬ x.connectId = cnt := fun heq => hne (hx.trans heq)
        simpa [hx, hxc] using ih
      · simp only [List.filter_cons, hx, not_false_eq_true, decide_true, if_true, List.find?_cons,
          ih]

/-- A call about another connection leaves the entry of `cnt` alone. -/
theorem find_entries_ne {call : HosterCall} (hne : call.cnt ≠ cnt) (xs : List OutLinkInfo) :
    ((call.entries xs).find? fun item => item.connectId = cnt) =
      xs.find? fun item => item.connectId = cnt := by
  cases call with
  | sendData other data => exact find_countIndex_ne hne xs
  | closeConnect other => exact find_filter_ne hne xs

/-- A call about the connection itself changes the entry that is found. -/
theorem find_entries {call : HosterCall} {item : OutLinkInfo}
    (hfind : t.findOutLink call.cnt = some item)
    (hlinks : t'.outLinks = call.entries t.outLinks) :
    t'.findOutLink call.cnt = call.entry item := by
  rw [findOutLink, hlinks]
  cases call with
  | sendData cnt data =>
      have hsame : (t.outLinks.find? fun item => item.connectId = cnt) = some item := hfind
      change ((countIndex cnt t.outLinks).find? fun item => item.connectId = cnt) = _
      rw [find_countIndex, hsame]
      rfl
  | closeConnect cnt => exact find_filter cnt t.outLinks

/-- After a call the counter is the one that follows the call. -/
theorem nextIndex_entries {call : HosterCall} {item : OutLinkInfo}
    (hfind : t.findOutLink call.cnt = some item)
    (hlinks : t'.outLinks = call.entries t.outLinks) :
    t'.nextIndex call.cnt = indexAfter item.nextIndexToTrunk call := by
  rw [nextIndex, find_entries hfind hlinks]
  cases call <;> rfl

/-- The counters are part of what `entryKey` keeps. -/
theorem nextIndex_of_keys (hkeys : t'.outLinks.map entryKey = t.outLinks.map entryKey) :
    t'.nextIndex cnt = t.nextIndex cnt := by
  have hread : ∀ xs : List OutLinkInfo,
      (xs.find? fun item => item.connectId = cnt).map OutLinkInfo.nextIndexToTrunk =
        ((xs.map entryKey).find? fun key => key.1 = cnt).map fun key => key.2.2 := by
    intro xs
    rw [List.find?_map, Option.map_map]
    rfl
  rw [nextIndex, findOutLink, hread, hkeys, ← hread]
  rfl

end TrunkLink
