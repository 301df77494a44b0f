import ByteStacker.Routing
import ByteStacker.ServerConnection

/-!
# The traffic statistics of a server

`GetStat` reports two byte counts since the last call: the "stream of data
outward through external connections" and the stream from them.  The book of a
run adds up what was reported, and next to it what really happened: the bytes of
the chunks the links have taken into their maps, and the bytes read.

A chunk counts once.  A link can take one twice: a stop drops it from the map, a
later stop admits it again.  So the book remembers what each link has taken.

The outward counter is raised before the link decides about the chunk.  So the
book balances exactly as long as no chunk is refused or taken again; every data
packet is sent several times, and each repetition that arrives is counted again.
-/

/-- A link takes the chunk into its map. -/
def OutLink.Accepts (l : OutLink) (chunkId : UInt32) : Prop :=
  l.nextWriteChunkId ≤ chunkId ∧
    (l.stopWriteChunkId = kUndefinedChunkID ∨ chunkId < l.stopWriteChunkId) ∧
    l.writeChunks.contains chunkId = false

/-- **A chunk that is not accepted leaves the map alone**, and only such a chunk. -/
theorem OutLink.sendData_unchanged_iff {l : OutLink} {chunkId : UInt32} {data : Bytes} :
    (l.sendData chunkId data).writeChunks = l.writeChunks ↔ ¬ l.Accepts chunkId := by
  have hout := l.sendData_outcome chunkId data
  generalize l.sendData chunkId data = after at hout ⊢
  cases hout with
  | stale hlt => exact iff_of_true rfl fun h => UInt32.not_lt.mpr h.1 hlt
  | afterStop hge hdef hstop =>
      refine iff_of_true rfl fun h => ?_
      rcases h.2.1 with hundef | hbelow
      · exact hdef hundef
      · exact UInt32.not_lt.mpr hstop hbelow
  | duplicate hge hopen hdup =>
      exact iff_of_true rfl fun h => absurd (hdup.symm.trans h.2.2) (by simp)
  | stored hge hopen hnew timers htimers =>
      refine iff_of_false (fun hsame => ?_) fun hno => hno ⟨UInt32.not_lt.mp hge, hopen, hnew⟩
      have hmem := (SortedMap.mem_insert_new (v := data) (e := (chunkId, data)) hnew).mpr
        (Or.inl rfl)
      rw [show l.writeChunks.insert chunkId data = l.writeChunks from hsame] at hmem
      exact SortedMap.contains_eq_false_iff.mp hnew data hmem

/-- A chunk on its way to a registered link: the link object, what it is at the moment,
and the chunk. -/
structure Offer where
  object : Nat
  link : OutLink
  chunkId : UInt32
  data : Bytes

namespace Offer

/-- The chunk on its link. -/
def key (o : Offer) : Nat × UInt32 := (o.object, o.chunkId)

/-- The chunk enters the map of the link. -/
def Lands (o : Offer) : Prop :=
  ¬ (o.link.sendData o.chunkId o.data).writeChunks = o.link.writeChunks

instance (o : Offer) : Decidable o.Lands := inferInstanceAs (Decidable (¬ _))

/-- A chunk lands if and only if its link accepts it. -/
theorem lands_iff {o : Offer} : o.Lands ↔ o.link.Accepts o.chunkId :=
  not_iff_comm.mp OutLink.sendData_unchanged_iff.symm

end Offer

/-- A link that has a hoster hands on what it reads, all of it and nothing else. -/
theorem OutLink.asioStep_readLog {l l' : OutLink} {e : AsioEvent} {call : Option HosterCall}
    (hnamed : l.hoster.isSome = true) (hstep : l.asioStep e = some (l', call)) :
    l'.readLog = l.readLog ++ call.elim [] HosterCall.payload := by
  obtain ⟨cnt, hcnt⟩ := Option.isSome_iff_exists.mp hnamed
  cases asioStep_outcome hstep with
  | @resolved i x results hx =>
      cases results with
      | none => exact (List.append_nil _).symm
      | some points => exact (sameStage_requestConnect _).2.2.1.trans (List.append_nil _).symm
  | @connected i x error hx =>
      cases error with
      | true => exact (sameStage_requestConnect _).2.2.1.trans (List.append_nil _).symm
      | false => exact (stage_startLoops _).2.2.trans (List.append_nil _).symm
  | readDone hx hle => exact (List.append_nil _).symm
  | @readHandler i r _ _ hx heq =>
      have hstage := stage_readHandler { l with reads := l.reads.eraseIdx i } r
      have hcall := call_readHandler { l with reads := l.reads.eraseIdx i } r
      rw [heq] at hstage hcall
      rw [hstage.2.2, show call = _ from hcall]
      by_cases hempty : r.data = []
      · simp [hempty]
      · simp [hempty, hcnt, HosterCall.payload]
  | writeDone hx hle => exact (List.append_nil _).symm
  | @writeHandler i size r hx => exact (stage_writeHandler _ r).2.2.trans (List.append_nil _).symm
  | timerExpire hx => exact (List.append_nil _).symm
  | @timerHandler i t hx ht =>
      exact (sameStage_requestWrite _).readLog.trans (List.append_nil _).symm
  | closeCheck hpos heq =>
      rcases checkReadyCloseProcessing_cases { l with posts := l.posts - 1 } with
        ⟨_, _, _, hclose⟩ | ⟨_, hclose⟩
      · rw [hclose] at heq
        cases heq
        cases hcnt' : l.hoster with
        | none => simp [hcnt'] at hcnt
        | some own => exact (List.append_nil _).symm
      · rw [hclose] at heq
        cases heq
        exact (List.append_nil _).symm

namespace TrunkLink

variable {t t' : TrunkLink} {cnt : ConnectID}

/-! ## The counters -/

/-- The chunk a packet hands to a registered link, with the link. -/
def offered (t : TrunkLink) : HandlerCall → Option Offer
  | .processDataToOutlink cnt packetIndex data =>
    (t.getOutLink cnt).bind fun k => t.links[k]?.map fun link => ⟨k, link, packetIndex, data⟩
  | _ => none

/-- Only a data packet offers a chunk. -/
theorem offered_eq_some {call : HandlerCall} {offer : Offer} (h : t.offered call = some offer) :
    ∃ cnt, call = .processDataToOutlink cnt offer.chunkId offer.data := by
  cases call with
  | processDataToOutlink cnt packetIndex payload =>
      obtain ⟨k, _, hobject⟩ := Option.bind_eq_some_iff.mp h
      obtain ⟨own, _, heq⟩ := Option.map_eq_some_iff.mp hobject
      cases heq
      exact ⟨cnt, rfl⟩
  | processConnectData cnt pointId timeout => cases h
  | processAckConnectData cnt => cases h
  | processAckData cnt packetIndex => cases h
  | processReleaseConnect cnt packetId => cases h
  | processLive cnt => cases h

/-- The bytes of the chunk. -/
def offeredBytes (chunk : Option Offer) : Nat :=
  chunk.elim 0 fun offer => offer.data.length

/-- The counters of `t'` are those of `t`, raised by the two numbers. -/
structure Raised (t t' : TrunkLink) (out inward : Nat) : Prop where
  outStream : t'.outStreamCounter = t.outStreamCounter + UInt64.ofNat out
  inStream : t'.inStreamCounter = t.inStreamCounter + UInt64.ofNat inward

/-- Counters left alone are raised by nothing. -/
theorem raised_same (hout : t'.outStreamCounter = t.outStreamCounter)
    (hin : t'.inStreamCounter = t.inStreamCounter) : Raised t t' 0 0 := by
  constructor <;> simp [hout, hin]

/-- Sending a command counts no data. -/
theorem counters_sendCmdData (t : TrunkLink) (cnt : ConnectID) (data : Bytes)
    (cmd : TrunkCommand) (now : Time) :
    (t.sendCmdData cnt data cmd now).1.outStreamCounter = t.outStreamCounter ∧
      (t.sendCmdData cnt data cmd now).1.inStreamCounter = t.inStreamCounter := by
  have hrecord : ∀ (u : TrunkLink) (pktIndex : UInt32),
      (u.recordCreated cnt cmd pktIndex data).outStreamCounter = u.outStreamCounter ∧
        (u.recordCreated cnt cmd pktIndex data).inStreamCounter = u.inStreamCounter := by
    intro u pktIndex
    unfold recordCreated
    split <;> exact ⟨rfl, rfl⟩
  unfold sendCmdData getNextPacketIndex
  split
  · exact ⟨rfl, rfl⟩
  · cases t.findOutLink cnt with
    | none =>
        simp only
        split
        · exact ⟨rfl, rfl⟩
        · exact hrecord _ _
    | some item =>
        simp only
        split
        · exact ⟨rfl, rfl⟩
        · exact hrecord _ _

/-- A call counts the bytes it passes on. -/
theorem raised_hosterCall (t : TrunkLink) (now : Time) (call : Option HosterCall) :
    Raised t (t.hosterCall now call).1 0 (call.elim [] HosterCall.payload).length := by
  cases call with
  | none => exact raised_same rfl rfl
  | some call =>
      cases call with
      | closeConnect cnt =>
          have h := counters_sendCmdData t cnt [] .releaseConnect now
          exact raised_same h.1 h.2
      | sendData cnt data =>
          have h := counters_sendCmdData
            { t with inStreamCounter := t.inStreamCounter + UInt64.ofNat data.length } cnt data
            (dataCommand t.serverSide) now
          exact ⟨h.1.trans (by simp), h.2⟩

/-- Nor does the loop over the links. -/
theorem counters_liveLoop (curt : Time) (items : List OutLinkInfo) (t : TrunkLink) :
    (liveLoop curt items t).1.outStreamCounter = t.outStreamCounter ∧
      (liveLoop curt items t).1.inStreamCounter = t.inStreamCounter := by
  induction items generalizing t with
  | nil => exact ⟨rfl, rfl⟩
  | cons item rest ih =>
      unfold liveLoop
      split
      · exact ih _
      · exact ih t

/-- So a live tick raises nothing. -/
theorem raised_live (t : TrunkLink) (curt : Time) : Raised t (t.sendLivePacket curt).1 0 0 := by
  unfold sendLivePacket
  split
  · exact raised_same rfl rfl
  · have h := counters_liveLoop curt t.outLinks
      { t with nextLiveUpdate := curt + milliseconds kLiveUpdateTick }
    exact raised_same h.1 h.2

/-- A handler counts the bytes of the chunk it offers to a link. -/
theorem Apart.raised_handle (h : t.Apart) (now : Time) (call : HandlerCall) :
    Raised t (t.handle now call).1 (offeredBytes (t.offered call)) 0 := by
  cases call with
  | processConnectData cnt pointId timeout => exact raised_same rfl rfl
  | processAckConnectData cnt => exact raised_same rfl rfl
  | processAckData cnt packetIndex => exact raised_same rfl rfl
  | processLive cnt => exact raised_same rfl rfl
  | processReleaseConnect cnt packetId =>
      simp only [TrunkLink.handle, processReleaseConnect]
      split <;> exact raised_same rfl rfl
  | processDataToOutlink cnt packetIndex data =>
      cases hlink : t.getOutLink cnt with
      | none =>
          have hnone : t.offered (.processDataToOutlink cnt packetIndex data) = none := by
            simp [offered, hlink]
          simp only [hnone, TrunkLink.handle, processDataToOutlink, hlink]
          exact raised_same rfl rfl
      | some k =>
          obtain ⟨item, hitem, rfl⟩ := Option.map_eq_some_iff.mp hlink
          obtain ⟨link, hobject, _⟩ := h.object (List.mem_of_find?_eq_some hitem)
          have hsome : t.offered (.processDataToOutlink cnt packetIndex data) =
              some ⟨item.link, link, packetIndex, data⟩ := by
            simp [offered, hlink, hobject]
          simp only [hsome, TrunkLink.handle, processDataToOutlink, hlink]
          exact ⟨rfl, by simp [modifyObject]⟩

end TrunkLink

namespace TrunkServer

variable {s s' : TrunkServer}

/-- The handler call of a datagram. -/
def dispatched : ServerEvent → Option HandlerCall
  | .receive _ _ data _ _ => (processTrunkData true (data.take kPacketBufferSize)).join
  | _ => none

/-- The chunk the event hands to a registered link, with the link. -/
def chunkOf (s : TrunkServer) (e : ServerEvent) : Option Offer :=
  (dispatched e).bind s.base.offered

/-- The chunk the event brings into the map of a link. -/
def takenChunk (s : TrunkServer) (e : ServerEvent) : List (Nat × UInt32) :=
  match s.chunkOf e with
  | some offer => if offer.Lands then [offer.key] else []
  | none => []

/-- The bytes the event brings into the map of a link.  A chunk the link has taken before
does not count again. -/
def acceptedBytes (s : TrunkServer) (taken : List (Nat × UInt32)) (e : ServerEvent) : Nat :=
  match s.chunkOf e with
  | some offer => if offer.Lands ∧ offer.key ∉ taken then offer.data.length else 0
  | none => 0

/-- The bytes read from an external connection in the event.  Links that are not
registered any more hand theirs on through `sendData`. -/
def readBytes (s : TrunkServer) : ServerEvent → Nat
  | .link cnt e _ =>
    (((s.base.getOutLink cnt).bind fun k => s.base.links[k]?).bind fun link =>
      (link.asioStep e).map fun r => r.1.readLog.length - link.readLog.length).getD 0
  | .sendData _ data _ => data.length
  | _ => 0

/-- What `GetStat` has reported, and what really happened: which chunks each link has
taken, how many bytes these have, and how many were read. -/
structure Traffic where
  reportedTo : Nat := 0
  reportedFrom : Nat := 0
  taken : List (Nat × UInt32) := []
  accepted : Nat := 0
  read : Nat := 0

/-- The event is entered into the book. -/
def noteTraffic (s : TrunkServer) (e : ServerEvent) (b : Traffic) : Traffic where
  reportedTo := b.reportedTo + if e = .getStat then s.getStat.2.streamToOutLinks.toNat else 0
  reportedFrom := b.reportedFrom + if e = .getStat then s.getStat.2.streamFromOutLinks.toNat else 0
  taken := b.taken ++ s.takenChunk e
  accepted := b.accepted + s.acceptedBytes b.taken e
  read := b.read + s.readBytes e

/-- The traffic of a run. -/
def traffic (s : TrunkServer) (es : List ServerEvent) : Traffic :=
  Transition.record step noteTraffic s {} es

/-- **Traffic is conserved**: what was reported and what the counters hold is what
the links have accepted and what was read from them. -/
structure Conserved (s : TrunkServer) (b : Traffic) : Prop where
  out : b.reportedTo + s.base.outStreamCounter.toNat = b.accepted
  inward : b.reportedFrom + s.base.inStreamCounter.toNat = b.read

/-- The chunk of the event is empty, or its link takes it and has not taken it before;
and neither counter passes the end of its 64 bits. -/
structure CountedOnce (s : TrunkServer) (b : Traffic) (e : ServerEvent) : Prop where
  taken : ∀ offer, s.chunkOf e = some offer →
    offer.data = [] ∨ (offer.link.Accepts offer.chunkId ∧ offer.key ∉ b.taken)
  outRoom : s.base.outStreamCounter.toNat + TrunkLink.offeredBytes (s.chunkOf e) < UInt64.size
  inRoom : s.base.inStreamCounter.toNat + s.readBytes e < UInt64.size

/-- A chunk fits into the receive buffer. -/
theorem length_chunkOf {e : ServerEvent} {offer : Offer} (h : s.chunkOf e = some offer) :
    offer.data.length ≤ kPacketBufferSize := by
  obtain ⟨call, hcall, hoffered⟩ := Option.bind_eq_some_iff.mp h
  obtain ⟨cnt, rfl⟩ := TrunkLink.offered_eq_some hoffered
  obtain ⟨object, link, chunkId, payload⟩ := offer
  cases e with
  | receive index client data now throws =>
      have hshort : (data.take kPacketBufferSize).length ≤ kPacketBufferSize :=
        List.length_take_le _ _
      cases processTrunkData_iff.mp (Option.join_eq_some_iff.mp hcall) with
      | dataOut _ _ =>
          rw [List.length_drop]
          omega
  | link cnt e now => cases hcall
  | sendData cnt data now => cases hcall
  | closeConnect cnt now => cases hcall
  | tick live resend => cases hcall
  | getStat => cases hcall

/-! ## One event -/

/-- A datagram counts the bytes of its chunk. -/
theorem raised_receive (h : s.base.Apart) {index : Nat} {client : Endpoint} {data : Bytes}
    {now : Time} {throws : Bool} {sent : List ServerDatagram}
    (hreceive : s.receive (s.fabric throws) index client data now = (s', sent)) :
    TrunkLink.Raised s.base s'.base
      (TrunkLink.offeredBytes (s.chunkOf (.receive index client data now throws))) 0 := by
  have hchunk : ∀ {answer}, processTrunkData true (data.take kPacketBufferSize) = some answer →
      s.chunkOf (.receive index client data now throws) = answer.bind s.base.offered := by
    intro answer hanswer
    simp [chunkOf, dispatched, hanswer]
  cases receive_result hreceive with
  | short hshort =>
      rw [hchunk (processTrunkData_short hshort)]
      exact TrunkLink.raised_same rfl rfl
  | rejected _ _ hreject =>
      rw [hchunk hreject]
      exact TrunkLink.raised_same rfl rfl
  | known hcall _ =>
      rw [hchunk hcall]
      exact TrunkLink.raised_same rfl rfl
  | refused hcall _ _ =>
      rw [hchunk hcall]
      exact TrunkLink.raised_same rfl rfl
  | created hcall _ _ =>
      rw [hchunk hcall]
      exact TrunkLink.raised_same rfl rfl
  | handled hcall _ =>
      rw [hchunk hcall]
      exact h.raised_handle now _

/-- A link counts the bytes it reads. -/
theorem raised_link (h : s.base.Apart) {cnt : ConnectID} {e : AsioEvent} {now : Time}
    (hstep : s.step (.link cnt e now) = some s') :
    TrunkLink.Raised s.base s'.base 0 (s.readBytes (.link cnt e now)) := by
  obtain ⟨⟨m, sent⟩, hevent, rfl⟩ := Option.map_eq_some_iff.mp hstep
  simp only [event] at hevent
  split at hevent
  · cases hevent
  · rename_i k hk
    obtain ⟨r, hr, heq⟩ := Option.map_eq_some_iff.mp hevent
    cases heq
    obtain ⟨reg, link, call, hreg, hlink, rfl⟩ := TrunkLink.asioStep_eq hr
    obtain ⟨item, hitem, rfl⟩ := Option.map_eq_some_iff.mp hk
    obtain ⟨own, hobject, hcnt⟩ := h.object (List.mem_of_find?_eq_some hitem)
    have hown : own = reg.link := by
      simpa [TrunkLink.links, hreg] using hobject.symm
    subst hown
    have hlog := OutLink.asioStep_readLog (by simp [hcnt]) hlink
    have hread : s.readBytes (.link cnt e now) = (call.elim [] HosterCall.payload).length := by
      simp [readBytes, hk, hobject, hlink, hlog]
    have hraised := TrunkLink.raised_hosterCall
      (s.base.modifyObject item.link fun reg => { reg with link := link }) now call
    rw [hread]
    exact ⟨hraised.outStream, hraised.inStream⟩

/-- **The counters after an event** other than `GetStat`. -/
theorem raised_step (h : s.base.Apart) {e : ServerEvent} (hstep : s.step e = some s')
    (hquery : e ≠ .getStat) :
    TrunkLink.Raised s.base s'.base (TrunkLink.offeredBytes (s.chunkOf e)) (s.readBytes e) := by
  cases e with
  | receive index client data now throws =>
      obtain ⟨sent, hreceive⟩ := step_receive hstep
      exact raised_receive h hreceive
  | link cnt e now => exact raised_link h hstep
  | sendData cnt data now =>
      cases hstep
      exact s.base.raised_hosterCall now (some (.sendData cnt data))
  | closeConnect cnt now =>
      cases hstep
      exact s.base.raised_hosterCall now (some (.closeConnect cnt))
  | tick live resend =>
      cases hstep
      have hraised := s.base.raised_live live
      exact ⟨hraised.outStream, hraised.inStream⟩
  | getStat => exact absurd rfl hquery

/-- Every event of the server keeps the connections apart. -/
theorem apart_step (h : s.base.Apart) {e : ServerEvent} (hstep : s.step e = some s') :
    s'.base.Apart := by
  obtain ⟨⟨m, sent⟩, hevent, rfl⟩ := Option.map_eq_some_iff.mp hstep
  exact (seen_event (d := .ofByte 0) h hevent).keeps

/-- A counter raised by `n` gives an account of `m` bytes exactly if `m` is `n` and
it does not pass its end. -/
theorem toNat_add_ofNat_iff (counter : UInt64) {n m : Nat} (hm : m = 0 ∨ m = n)
    (hn : m = n ∨ n < UInt64.size) :
    (counter + UInt64.ofNat n).toNat = counter.toNat + m ↔
      m = n ∧ counter.toNat + n < UInt64.size := by
  have hlt := counter.toNat_lt_size
  rw [UInt64.toNat_add, UInt64.toNat_ofNat', Nat.add_mod_mod]
  unfold UInt64.size at *
  rcases hm with rfl | rfl
  · omega
  · omega

/-- The bytes of an offer count if the link takes the chunk for the first time. -/
theorem acceptedBytes_some {taken : List (Nat × UInt32)} {e : ServerEvent} {offer : Offer}
    (hchunk : s.chunkOf e = some offer) :
    s.acceptedBytes taken e =
      if offer.Lands ∧ offer.key ∉ taken then offer.data.length else 0 := by
  simp only [acceptedBytes, hchunk]

/-- All bytes offered are accepted exactly if the link takes the chunk for the first
time. -/
theorem accepted_iff {taken : List (Nat × UInt32)} {e : ServerEvent} :
    s.acceptedBytes taken e = TrunkLink.offeredBytes (s.chunkOf e) ↔
      ∀ offer, s.chunkOf e = some offer →
        offer.data = [] ∨ (offer.link.Accepts offer.chunkId ∧ offer.key ∉ taken) := by
  cases hchunk : s.chunkOf e with
  | none => simp [acceptedBytes, hchunk, TrunkLink.offeredBytes]
  | some offer =>
      have honly : (∀ other, some offer = some other →
          other.data = [] ∨ (other.link.Accepts other.chunkId ∧ other.key ∉ taken)) ↔
            (offer.data = [] ∨ (offer.Lands ∧ offer.key ∉ taken)) := by
        simp [Offer.lands_iff]
      rw [honly, acceptedBytes_some hchunk, TrunkLink.offeredBytes, Option.elim_some]
      by_cases hfirst : offer.Lands ∧ offer.key ∉ taken
      · rw [if_pos hfirst]
        exact iff_of_true rfl (Or.inr hfirst)
      · rw [if_neg hfirst, eq_comm, List.length_eq_zero_iff, or_iff_left hfirst]

/-- The bytes of an offer are accepted as a whole or not at all. -/
theorem accepted_or (s : TrunkServer) (taken : List (Nat × UInt32)) (e : ServerEvent) :
    s.acceptedBytes taken e = 0 ∨
      s.acceptedBytes taken e = TrunkLink.offeredBytes (s.chunkOf e) := by
  cases hchunk : s.chunkOf e with
  | none => exact Or.inl (by simp only [acceptedBytes, hchunk])
  | some offer =>
      rw [acceptedBytes_some hchunk]
      split
      · exact Or.inr rfl
      · exact Or.inl rfl

/-- An offer is far shorter than a counter is wide. -/
theorem offeredBytes_lt (s : TrunkServer) (e : ServerEvent) :
    TrunkLink.offeredBytes (s.chunkOf e) < UInt64.size := by
  cases hchunk : s.chunkOf e with
  | none => simp [TrunkLink.offeredBytes]
  | some chunk =>
      have hfits := length_chunkOf hchunk
      exact Nat.lt_of_le_of_lt hfits (by decide)

/-- **One event**: the book still balances exactly if the event is counted once. -/
theorem conserved_iff (h : s.base.Apart) {b : Traffic} (hb : s.Conserved b) {e : ServerEvent}
    (hstep : s.step e = some s') :
    s'.Conserved (s.noteTraffic e b) ↔ CountedOnce s b e := by
  have hreported := hb.out
  have hread := hb.inward
  by_cases hquery : e = .getStat
  · subst hquery
    cases hstep
    have hout := s.base.outStreamCounter.toNat_lt_size
    have hin := s.base.inStreamCounter.toNat_lt_size
    exact iff_of_true ⟨hreported, hread⟩ ⟨fun _ hno => (nomatch hno), hout, hin⟩
  · obtain ⟨hout, hin⟩ := raised_step h hstep hquery
    have houtIff := toNat_add_ofNat_iff s.base.outStreamCounter
      (s.accepted_or b.taken e) (Or.inr (s.offeredBytes_lt e))
    have hinIff := toNat_add_ofNat_iff s.base.inStreamCounter
      (n := s.readBytes e) (Or.inr rfl) (Or.inl rfl)
    rw [← hout, accepted_iff] at houtIff
    rw [← hin] at hinIff
    constructor
    · intro hafter
      have hsumOut := hafter.out
      have hsumIn := hafter.inward
      simp only [noteTraffic, hquery, if_false, Nat.add_zero] at hsumOut hsumIn
      obtain ⟨htaken, houtRoom⟩ := houtIff.mp (by omega)
      obtain ⟨_, hinRoom⟩ := hinIff.mp (by omega)
      exact ⟨htaken, houtRoom, hinRoom⟩
    · intro honce
      have hsumOut := houtIff.mpr ⟨honce.taken, honce.outRoom⟩
      have hsumIn := hinIff.mpr ⟨rfl, honce.inRoom⟩
      refine ⟨?_, ?_⟩
      · simp only [noteTraffic, hquery, if_false, Nat.add_zero]
        omega
      · simp only [noteTraffic, hquery, if_false, Nat.add_zero]
        omega

/-- **The statistics are right exactly if no chunk is offered twice.**  In all states
along a run what `GetStat` has reported and the counters hold is what the links have
accepted, each chunk counted once, and what was read from them, if and only if along the
run every data packet for a registered link is empty or brings a chunk that the link
takes and has not taken before, and no counter passes 2⁶⁴ between two calls. -/
theorem conserved_iff_counted_once {trunkSockets : Nat}
    {linkFabric : PointID → Option AddressPortPoint} {now : Time} {es : List ServerEvent} :
    (∀ front s, front <+: es →
      Transition.run step (create trunkSockets linkFabric now) front = some s →
      s.Conserved ((create trunkSockets linkFabric now).traffic front)) ↔
      Transition.Always (Transition.noted step noteTraffic) (fun p e _ => CountedOnce p.1 p.2 e)
        (create trunkSockets linkFabric now, {}) es := by
  refine Transition.record_iff (J := fun s : TrunkServer => s.base.Apart) ?_ ?_
    (TrunkLink.apart_create true now) ⟨rfl, rfl⟩
  · intro s e s' h hstep
    exact apart_step h hstep
  · intro s b e s' h hb hstep
    exact conserved_iff h hb hstep

/-- The data packet of the first chunk of a connection. -/
def firstChunk : ServerEvent :=
  .receive 0 ⟨[1], 1000⟩ (dataPacket (.ofByte 1) [65, 66] .dataOut 0).datagram 0 false

/-- A packet of the connection in the chunk numbering, as a datagram. -/
def laterPacket (cmd : TrunkCommand) (packetIndex : UInt32) (data : Bytes) : ServerEvent :=
  .receive 0 ⟨[1], 1000⟩ (dataPacket (.ofByte 1) data cmd packetIndex).datagram 0 false

-- the stop at 3 drops chunk 5, the stop at 9 admits it again; it counts once
example : ((create 1 (fun _ => some ⟨"10.0.0.1", 22⟩) 0).traffic
    [request, laterPacket .dataOut 5 [65, 66], laterPacket .releaseConnect 3 [],
      laterPacket .releaseConnect 9 [], laterPacket .dataOut 5 [65, 66]]).accepted = 2 := by
  decide +kernel

/-- The repetition of a chunk is dropped by the link and counted all the same. -/
theorem repetition_counted :
    ∃ s, Transition.run step (create 1 (fun _ => some ⟨"10.0.0.1", 22⟩) 0)
        [request, firstChunk, firstChunk] = some s ∧
      s.base.outStreamCounter = 4 ∧
      ((create 1 (fun _ => some ⟨"10.0.0.1", 22⟩) 0).traffic
        [request, firstChunk, firstChunk]).accepted = 2 ∧
      ¬ s.Conserved ((create 1 (fun _ => some ⟨"10.0.0.1", 22⟩) 0).traffic
        [request, firstChunk, firstChunk]) := by
  have haccepted : ((create 1 (fun _ => some ⟨"10.0.0.1", 22⟩) 0).traffic
      [request, firstChunk, firstChunk]).accepted = 2 := by decide +kernel
  have hreported : ((create 1 (fun _ => some ⟨"10.0.0.1", 22⟩) 0).traffic
      [request, firstChunk, firstChunk]).reportedTo = 0 := by decide +kernel
  refine ⟨_, rfl, by decide +kernel, haccepted, fun h => ?_⟩
  have hsum := h.out
  rw [haccepted, hreported] at hsum
  revert hsum
  decide +kernel

end TrunkServer
