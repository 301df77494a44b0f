import ByteStacker.OutLinkOrderlyClose
import ByteStacker.StreamIntegrity

/-!
# The end of a stream

Integrity says that a link writes the beginning of what was read on the other
side.  This file says when it writes all of it.

* `ToldEnd` — a link takes its stream for complete only at or behind a chunk it
  was told to stop at;
* `Linked.whole_stream` — a Release carries the number of chunks its link has
  created, so a link that was stopped by Releases only and has nothing left in
  its buffer has written everything its counterpart has read;
* `graceful_end_upstream` and `graceful_end_downstream` — a link whose own socket
  gave no trouble closes only in that state.
-/

/-! ## Where a link takes its stream for complete -/

namespace OutLink

variable {l l' : OutLink} {told : List UInt32}

/-- The stop point and the end of the stream lie at or behind a chunk that was told. -/
structure ToldEnd (told : List UInt32) (l : OutLink) : Prop extends Reassembly l where
  stopPoint : l.stopWriteChunkId ≠ kUndefinedChunkID → ∃ n ∈ told, n ≤ l.stopWriteChunkId
  all : l.stopAfterAllWrite = true → ∃ n ∈ told, n.toNat ≤ l.appended.length

/-- The awaited index does not exceed the number of chunks drained. -/
theorem Reassembly.next_le (h : Reassembly l) : l.nextWriteChunkId.toNat ≤ l.appended.length := by
  rw [h.next, UInt32.toNat_ofNat']
  exact Nat.mod_le _ _

/-- Asio events keep it, since it is a matter of the chunks and the stop point. -/
theorem chunkProperty_toldEnd : ChunkProperty (ToldEnd told) where
  congr := by
    intro l m hs h
    exact {
      toReassembly := chunkProperty_reassembly.congr l m hs h.toReassembly
      stopPoint := by rw [hs.stopWriteChunkId]; exact h.stopPoint
      all := by rw [hs.stopAfterAllWrite, hs.appended]; exact h.all }
  finish := by
    intro l h hreach
    refine {
      toReassembly := chunkProperty_reassembly.finish l h.toReassembly hreach
      stopPoint := h.stopPoint
      all := fun _ => ?_ }
    obtain ⟨hdef, hle⟩ : l.stopWriteChunkId ≠ kUndefinedChunkID ∧
        l.stopWriteChunkId ≤ l.nextWriteChunkId := by simpa [stopReached] using hreach
    obtain ⟨n, hn, hpoint⟩ := h.stopPoint hdef
    have hnext := UInt32.le_iff_toNat_le.mp (UInt32.le_trans hpoint hle)
    exact ⟨n, hn, Nat.le_trans hnext h.next_le⟩
  take := by
    intro l data rest h hopen hentries
    refine {
      toReassembly := chunkProperty_reassembly.take l data rest h.toReassembly hopen hentries
      stopPoint := h.stopPoint
      all := fun hall => ?_ }
    obtain ⟨n, hn, hlen⟩ := h.all hall
    refine ⟨n, hn, Nat.le_trans hlen ?_⟩
    simp [takeChunk]

/-- A chunk handed over keeps it. -/
theorem toldEnd_sendData (h : ToldEnd told l) (chunkId : UInt32) (data : Bytes) :
    (l.sendData chunkId data).ToldEnd told := by
  have hreassembly := reassembly_sendData h.toReassembly chunkId data
  have hout := sendData_outcome l chunkId data
  generalize l.sendData chunkId data = after at hout hreassembly ⊢
  cases hout with
  | stale _ => exact h
  | afterStop _ _ _ => exact ⟨hreassembly, h.stopPoint, h.all⟩
  | duplicate _ _ _ => exact h
  | stored _ _ _ timers _ => exact ⟨hreassembly, h.stopPoint, h.all⟩

/-- A call of `Stop` tells one more chunk. -/
theorem toldEnd_stop (h : ToldEnd told l) (n : UInt32) : (l.stop n).ToldEnd (told ++ [n]) := by
  have hreassembly := reassembly_stop h.toReassembly n
  have hself : n ∈ told ++ [n] := List.mem_append_right told (List.mem_singleton_self n)
  by_cases hn : n ≤ l.nextWriteChunkId
  · rw [stop_atOnce hn] at hreassembly ⊢
    have hlen := Nat.le_trans (UInt32.le_iff_toNat_le.mp hn) h.next_le
    exact ⟨hreassembly, fun _ => ⟨n, hself, hn⟩, fun _ => ⟨n, hself, hlen⟩⟩
  · rw [stop_later (UInt32.not_le.mp hn)] at hreassembly ⊢
    refine ⟨hreassembly, fun _ => ⟨n, hself, UInt32.le_refl n⟩, fun hall => ?_⟩
    obtain ⟨m, hm, hlen⟩ := h.all hall
    exact ⟨m, List.mem_append_left _ hm, hlen⟩

/-- It holds of a new link, which takes nothing for complete. -/
theorem toldEnd_fresh (h : Fresh l) : ToldEnd told l := by
  refine chunkProperty_toldEnd.fresh ?_ ?_ h
  · exact ⟨⟨rfl, rfl, by simp [createAccepted]⟩, fun hdef => absurd rfl hdef,
      by simp [createAccepted]⟩
  · exact fun address port => ⟨⟨rfl, rfl, by simp [createAddress]⟩, fun hdef => absurd rfl hdef,
      by simp [createAddress]⟩

/-- Nothing in the buffer means that everything drained was written. -/
theorem Drained.written_all (h : Drained l) (hempty : l.networkWriteBuffer = []) :
    l.written = l.appended.flatMap Prod.snd := by
  obtain ⟨gone, t, h⟩ := h
  rw [h.written, h.drained, hempty, List.take_nil]

end OutLink

namespace Registration

/-- A link object was told every stop its end lies at or behind. -/
def EndTold (reg : Registration) : Prop :=
  reg.link.ToldEnd (reg.stops.map StopCall.chunk)

/-- So it does of a new registration. -/
theorem endTold_new (cnt : ConnectID) (point : Option AddressPortPoint) :
    Registration.EndTold { link := (newLink point).run cnt } :=
  OutLink.toldEnd_fresh (fresh_newLink cnt point)

/-- A stop tells the end it brings. -/
theorem EndTold.stop {reg : Registration} (h : reg.EndTold) (call : StopCall) :
    (reg.stop call).EndTold := by
  have htold := OutLink.toldEnd_stop h call.chunk
  rw [← List.map_singleton, ← List.map_append] at htold
  exact htold

end Registration

/-- **Every event of a registration keeps what it was told.** -/
theorem RegEvent.endTold {op : TrunkOp} {reg reg' : Registration} (h : RegEvent op reg reg')
    (htold : reg.EndTold) : reg'.EndTold := by
  induction h with
  | same => exact htold
  | quiet hstep => exact OutLink.chunkProperty_toldEnd.asioStep htold hstep
  | read hstep _ => exact OutLink.chunkProperty_toldEnd.asioStep htold hstep
  | closed hstep _ => exact OutLink.chunkProperty_toldEnd.asioStep htold hstep
  | dropped hstep _ => exact OutLink.chunkProperty_toldEnd.asioStep htold hstep
  | handed _ _ => exact OutLink.toldEnd_sendData htold _ _
  | released _ => exact htold.stop _
  | dead _ ih => exact (ih htold).stop _

/-! ## The whole stream -/

/-- The link has written all that a closed link of `t` has read for the connection. -/
def Registration.WroteAll (t : TrunkLink) (cnt : ConnectID) (reg : Registration) : Prop :=
  ∃ r ∈ t.linksOf cnt, r.link.closeInvoked = true ∧ reg.link.written = r.link.readLog

/-- The number a Release carries is the number of chunks created before. -/
theorem Registration.Inv.released_count {r : Registration} (h : r.Inv)
    (hcount : r.allocated < 4294967294) {n : UInt32} (hn : n ∈ r.released) :
    n.toNat = r.created.length ∧ r.link.closeInvoked = true := by
  have hnumbered := h.numbered (Nat.le_of_lt hcount)
  have hlen := hnumbered.count
  rcases hnumbered.released with hnone | hone
  · simp [hnone] at hn
  · rw [hone, List.mem_singleton] at hn
    refine ⟨by rw [hn, OutLink.index_toNat (by omega)], ?_⟩
    by_contra hopen
    have hnone := h.unreleased (by simpa using hopen)
    simp [hnone] at hone

/-- **Released, so complete.**  If the other side has had one link for the connection,
a link that was stopped by Releases only and has nothing left to write has written
everything that link has read. -/
theorem Linked.whole_stream {a b : TrunkLink} {cnt : ConnectID} (h : Linked a b)
    (hone : (a.linksOf cnt).length ≤ 1)
    (hcount : ∀ r ∈ a.linksOf cnt, r.allocated < 4294967294) {reg : Registration}
    (hreg : reg ∈ b.linksOf cnt) (htold : reg.EndTold) (halive : .deadLink ∉ reg.stops)
    (hall : reg.link.stopAfterAllWrite = true) (hempty : reg.link.networkWriteBuffer = []) :
    reg.WroteAll a cnt := by
  obtain ⟨hmem, hcnt⟩ := TrunkLink.mem_linksOf.mp hreg
  have hinv := h.far.sound reg hmem
  -- the link was told a Release at or below the number of chunks it has drained
  obtain ⟨n, hn, hlen⟩ := htold.all hall
  obtain ⟨call, hcall, rfl⟩ := List.mem_map.mp hn
  cases call with
  | deadLink => exact absurd hcall halive
  | release n =>
      obtain ⟨r, hr, hrcnt, hreleased⟩ := h.outward.told reg hmem cnt hcnt n hcall
      have hrmem := TrunkLink.mem_linksOf.mpr ⟨hr, hrcnt⟩
      have hrinv := h.near.sound r hr
      have hbound := hcount r hrmem
      obtain ⟨hnum, hclosed⟩ := hrinv.released_count hbound hreleased
      refine ⟨r, hrmem, hclosed, ?_⟩
      -- and it has drained no other chunks than those of the one link
      have hsub : ∀ e ∈ reg.link.appended, e ∈ r.created := by
        intro e he
        obtain ⟨r', hr', hrcnt', hcreated⟩ :=
          h.outward.heard reg hmem cnt hcnt e (hinv.chunks e (Or.inr he))
        have hrmem' := TrunkLink.mem_linksOf.mpr ⟨hr', hrcnt'⟩
        exact eq_of_mem_linksOf hone hrmem' hrmem ▸ hcreated
      have hbegins := hinv.appended_prefix hrinv (Nat.le_of_lt hbound) hsub
      have hsame : reg.link.appended = r.created :=
        hbegins.eq_of_length_le (hnum ▸ hlen)
      rw [hinv.drained.written_all hempty, (hrinv.numbered (Nat.le_of_lt hbound)).read, hsame]

/-! ## A link whose socket gives no trouble -/

namespace TrunkLink

variable {t t' : TrunkLink} {op : TrunkOp} {cnt : ConnectID} {sent : List PacketInfo}

/-- No write of the connection's sockets fails, and no read before the link has
cancelled its reads itself. -/
def Untroubled (t : TrunkLink) (cnt : ConnectID) (k : Nat) (e : AsioEvent) : Prop :=
  ∀ reg ∈ t.objects[k]?, reg.link.hoster = some cnt → OutLink.OrderlyEvent [] reg.link (.asio e)

instance (t : TrunkLink) (cnt : ConnectID) (k : Nat) (e : AsioEvent) :
    Decidable (t.Untroubled cnt k e) :=
  inferInstanceAs (Decidable (∀ reg ∈ t.objects[k]?, _))

/-- Every write loop of the connection's links ends with an empty buffer. -/
def AllEndDry (t : TrunkLink) (cnt : ConnectID) : Prop :=
  ∀ reg ∈ t.linksOf cnt, reg.link.EndsDry

/-- Calls of the other side do not end a write loop. -/
theorem endsDry_event {reg reg' : Registration} (hevent : RegEvent op reg reg')
    (hop : ∀ k e now, op ≠ .asio k e now) (h : reg.link.EndsDry) : reg'.link.EndsDry := by
  induction hevent with
  | same => exact h
  | quiet _ => exact absurd rfl (hop _ _ _)
  | read _ _ => exact absurd rfl (hop _ _ _)
  | closed _ _ => exact absurd rfl (hop _ _ _)
  | dropped _ _ => exact absurd rfl (hop _ _ _)
  | handed _ _ => exact OutLink.endsDry_sendData h _ _
  | released _ => exact OutLink.endsDry_stop h _
  | dead _ ih => exact OutLink.endsDry_stop (ih hop h) StopCall.deadLink.chunk

/-- An asio event of link `k` replaces this link object only. -/
theorem asio_object (h : t.Inv) {k : Nat} {e : AsioEvent} {now : Time}
    (hstep : t.asioStep k e now = some (t', sent)) :
    ∃ reg reg' call, t.objects[k]? = some reg ∧ reg.link.asioStep e = some (reg'.link, call) ∧
      t'.objects = t.objects.set k reg' := by
  cases asioStep_result h hstep with
  | quiet hreg hlink => exact ⟨_, _, _, hreg, hlink, rfl⟩
  | read hreg hlink _ _ => exact ⟨_, _, _, hreg, hlink, rfl⟩
  | readDropped hreg hlink _ => exact ⟨_, _, _, hreg, hlink, rfl⟩
  | closed hreg hlink _ => exact ⟨_, _, _, hreg, hlink, rfl⟩
  | closedDropped hreg hlink _ => exact ⟨_, _, _, hreg, hlink, rfl⟩

/-- **Every operation keeps the links dry at their end, unless a socket is troubled.** -/
theorem allEndDry_apply (h : t.Inv) (happly : t.apply op = some (t', sent))
    (hdry : t.AllEndDry cnt) (hok : ∀ k e now, op = .asio k e now → t.Untroubled cnt k e) :
    t'.AllEndDry cnt := by
  intro reg' hreg'
  obtain ⟨hmem', hcnt'⟩ := mem_linksOf.mp hreg'
  by_cases hasio : ∃ k e now, op = .asio k e now
  · obtain ⟨k, e, now, rfl⟩ := hasio
    obtain ⟨reg, after, call, hreg, hstep, hset⟩ := asio_object h happly
    rw [hset] at hmem'
    rcases List.mem_or_eq_of_mem_set hmem' with hold | rfl
    · exact hdry reg' (mem_linksOf.mpr ⟨hold, hcnt'⟩)
    · have hmem := List.mem_of_getElem? hreg
      have hl := (h.sound reg hmem).linkStep hstep
      have hcnt := hl.hoster.symm.trans hcnt'
      exact OutLink.endsDry_asioStep (hdry reg (mem_linksOf.mpr ⟨hmem, hcnt⟩))
        (h.sound reg hmem).owned (hok k e now rfl reg hreg hcnt) hstep
  · obtain ⟨k, hk, hget⟩ := List.getElem_of_mem hmem'
    rcases (evolves_apply h happly).back (hget ▸ List.getElem?_eq_getElem hk) with
      ⟨reg, hreg, hevent⟩ | ⟨c, point, _, _, rfl⟩
    · have hmem := List.mem_of_getElem? hreg
      have hcnt := (hevent.grows (h.sound reg hmem)).hoster.symm.trans hcnt'
      exact endsDry_event hevent (fun k e now heq => hasio ⟨k, e, now, heq⟩)
        (hdry reg (mem_linksOf.mpr ⟨hmem, hcnt⟩))
    · exact OutLink.endsDry_fresh (fresh_newLink c point)

/-- A connected link that has closed has ended its write loop with nothing left. -/
theorem closed_dry (h : t.Inv) (hdry : t.AllEndDry cnt) {reg : Registration}
    (hreg : reg ∈ t.linksOf cnt) (hconnected : reg.link.connected = true)
    (hclosed : reg.link.closeInvoked = true) :
    reg.link.stopAfterAllWrite = true ∧ reg.link.networkWriteBuffer = [] := by
  have howned := (h.sound reg (mem_linksOf.mp hreg).1).owned
  exact ((hdry reg hreg).ended hconnected (howned.closed hclosed).2).2

end TrunkLink

/-! ## The system -/

namespace System

variable {s s' : System} {e : SystemEvent} {c : ConnectID}

/-- The sockets the server opens for `c` give no trouble. -/
def ServerUntroubled (c : ConnectID) (s : System) : SystemEvent → Prop
  | .serverAsio k e _ => s.server.base.Untroubled c k e
  | _ => True

/-- The sockets the client accepted for `c` give no trouble. -/
def ClientUntroubled (c : ConnectID) (s : System) : SystemEvent → Prop
  | .clientAsio k e _ => s.client.base.Untroubled c k e
  | _ => True

instance (c : ConnectID) (s : System) : ∀ e, Decidable (ServerUntroubled c s e)
  | .serverAsio k e _ => inferInstanceAs (Decidable (s.server.base.Untroubled c k e))
  | .addConnect _ _ _ _ | .clientAsio _ _ _ | .clientTick _ _ _ | .serverTick _ _
  | .toServer _ _ _ _ | .toClient _ _ | .getStat => isTrue trivial

instance (c : ConnectID) (s : System) : ∀ e, Decidable (ClientUntroubled c s e)
  | .clientAsio k e _ => inferInstanceAs (Decidable (s.client.base.Untroubled c k e))
  | .addConnect _ _ _ _ | .serverAsio _ _ _ | .clientTick _ _ _ | .serverTick _ _
  | .toServer _ _ _ _ | .toClient _ _ | .getStat => isTrue trivial

/-- Only an asio event of a side makes its links act. -/
theorem serverOps_asio {k : Nat} {ev : AsioEvent} {now : Time}
    (h : .asio k ev now ∈ s.serverOps e) : e = .serverAsio k ev now := by
  cases e with
  | serverAsio k' ev' now' =>
      cases List.mem_singleton.mp h
      rfl
  | toServer n index sender now' =>
      simp only [serverOps] at h
      split at h
      · split at h <;> simp at h
      · simp at h
      · simp at h
  | _ => simp [serverOps] at h

/-- The client's socket events are the system's own. -/
theorem clientOps_asio {k : Nat} {ev : AsioEvent} {now : Time}
    (h : .asio k ev now ∈ s.clientOps e) : e = .clientAsio k ev now := by
  cases e with
  | addConnect cnt point registered cached =>
      simp only [clientOps] at h
      split at h <;> simp at h
  | clientAsio k' ev' now' =>
      cases List.mem_singleton.mp h
      rfl
  | toClient n now' =>
      simp only [clientOps] at h
      split at h <;> simp at h
  | _ => simp [clientOps] at h

end System

namespace TrunkLink

variable {t t' : TrunkLink} {cnt : ConnectID} {sent : List PacketInfo}

/-- The operations of an event, of which an asio event is the only one. -/
theorem allEndDry_acts {ops : List TrunkOp} (hacts : Acts t ops t' sent) (h : t.Inv)
    (hdry : t.AllEndDry cnt) (hok : ∀ k e now, .asio k e now ∈ ops →
      ops = [.asio k e now] ∧ t.Untroubled cnt k e) : t'.AllEndDry cnt := by
  by_cases hasio : ∃ k e now, .asio k e now ∈ ops
  · obtain ⟨k, e, now, hmem⟩ := hasio
    obtain ⟨rfl, hgood⟩ := hok k e now hmem
    cases hacts with
    | cons happly hrest =>
        cases hrest
        refine allEndDry_apply h happly hdry fun k' e' now' heq => ?_
        cases heq
        exact hgood
  · refine (hacts.invariant (I := fun t => t.Inv ∧ t.AllEndDry cnt)
      (Q := fun op => op ∈ ops) (fun _ hop => hop) ⟨h, hdry⟩ ?_).2
    intro t t' op sent h hop happly
    obtain ⟨hinv, hdry⟩ := h
    refine ⟨hinv.apply happly, allEndDry_apply hinv happly hdry fun k e now heq => ?_⟩
    exact absurd ⟨k, e, now, heq ▸ hop⟩ hasio

end TrunkLink

namespace System

variable {s s' : System} {e : SystemEvent} {c : ConnectID}

/-- In a run without trouble the server's links of the connection end dry. -/
theorem server_endDry {ok : System → SystemEvent → Prop} (h : Reachable ok s)
    (hok : ∀ s e, ok s e → ServerUntroubled c s e) : s.server.base.AllEndDry c := by
  refine h.invariant (I := fun s => s.server.base.AllEndDry c) ?_ ?_
  · intro s hstart reg hreg
    obtain ⟨clientTime, serverTime, trunkSockets, linkFabric, rfl⟩ := hstart
    exact absurd (TrunkLink.mem_linksOf.mp hreg).1 List.not_mem_nil
  · intro s e s' hs hdry hoke hstep
    obtain ⟨clientSent, serverSent, heffect⟩ := step_effect hstep
    refine TrunkLink.allEndDry_acts heffect.server (reachable_inv hs).linked.far hdry ?_
    intro k ev now hmem
    have heq := serverOps_asio hmem
    subst heq
    exact ⟨rfl, hok s _ hoke⟩

/-- So do the client's. -/
theorem client_endDry {ok : System → SystemEvent → Prop} (h : Reachable ok s)
    (hok : ∀ s e, ok s e → ClientUntroubled c s e) : s.client.base.AllEndDry c := by
  refine h.invariant (I := fun s => s.client.base.AllEndDry c) ?_ ?_
  · intro s hstart reg hreg
    obtain ⟨clientTime, serverTime, trunkSockets, linkFabric, rfl⟩ := hstart
    exact absurd (TrunkLink.mem_linksOf.mp hreg).1 List.not_mem_nil
  · intro s e s' hs hdry hoke hstep
    obtain ⟨clientSent, serverSent, heffect⟩ := step_effect hstep
    refine TrunkLink.allEndDry_acts heffect.client (reachable_inv hs).linked.near hdry ?_
    intro k ev now hmem
    have heq := clientOps_asio hmem
    subst heq
    exact ⟨rfl, hok s _ hoke⟩

/-- In every run every link takes its stream for complete only where it was told. -/
theorem reachable_endTold {ok : System → SystemEvent → Prop} (h : Reachable ok s) :
    (∀ reg ∈ s.client.base.objects, reg.EndTold) ∧ ∀ reg ∈ s.server.base.objects, reg.EndTold :=
  reachable_registrations Registration.endTold_new
    (fun _ _ _ _ htold hevent => hevent.endTold htold) h

/-- **Graceful end, upstream.**  A connected link of the server closes only after it has
written all that the client has read for the connection, unless its own socket fails or
ends, or the connection is given up as dead. -/
theorem graceful_end_upstream
    (hreach : Reachable (fun s e => GeneratesOnce c s e ∧ ServerUntroubled c s e) s)
    (hcount : ∀ r ∈ s.client.base.linksOf c, r.allocated < 4294967294) {reg : Registration}
    (hreg : reg ∈ s.server.base.linksOf c) (hconnected : reg.link.connected = true)
    (hclosed : reg.link.closeInvoked = true) (halive : .deadLink ∉ reg.stops) :
    reg.WroteAll s.client.base c := by
  have hlinked := (reachable_inv hreach).linked
  have hone := client_one_link hreach fun _ _ hok => hok.1
  have htold := (reachable_endTold hreach).2 reg (TrunkLink.mem_linksOf.mp hreg).1
  have hdry := server_endDry hreach fun _ _ hok => hok.2
  obtain ⟨hall, hempty⟩ := TrunkLink.closed_dry hlinked.far hdry hreg hconnected hclosed
  exact hlinked.whole_stream hone hcount hreg htold halive hall hempty

/-- The byte A goes up, then the client's peer closes. -/
def upstreamEnd : List SystemEvent :=
  upstreamByte ++ [.serverAsio 0 (.writeHandler 0) 0, .clientAsio 0 (.readDone 0 ⟨true, []⟩) 0,
    .clientAsio 0 (.readHandler 0) 0, .clientAsio 0 (.timerHandler 0) 0,
    .clientAsio 0 .closeCheck 0, .toServer 2 0 localhost 0, .serverAsio 0 (.timerHandler 0) 0,
    .serverAsio 0 (.readHandler 0) 0, .serverAsio 0 .closeCheck 0]

/-- The user's only byte reaches the target's socket before the end does. -/
theorem graceful_end_upstream_byte :
    ∃ s, Transition.run step loopback upstreamEnd = some s ∧
      ∃ reg ∈ s.server.base.linksOf (.ofByte 1), reg.link.written = [65] ∧
        reg.WroteAll s.client.base (.ofByte 1) := by
  have hany : (Transition.run step loopback upstreamEnd).any (fun s =>
      (∃ reg ∈ s.server.base.linksOf (.ofByte 1), reg.link.written = [65] ∧
        reg.link.connected = true ∧ reg.link.closeInvoked = true ∧ .deadLink ∉ reg.stops) ∧
        ∀ r ∈ s.client.base.linksOf (.ofByte 1), r.allocated < 4294967294) = true := by
    decide +kernel
  obtain ⟨s, hrun, hs⟩ := (Option.any_eq_true _ _).mp hany
  obtain ⟨⟨reg, hreg, hwritten, hconnected, hclosed, halive⟩, hcount⟩ := of_decide_eq_true hs
  exact ⟨s, hrun, reg, hreg, hwritten, graceful_end_upstream
    (.of_run (.start start_loopback) (by decide +kernel) hrun) hcount hreg hconnected hclosed
    halive⟩

/-- **Graceful end, downstream**, for a connection the server has opened one link for. -/
theorem graceful_end_downstream (hreach : Reachable (ClientUntroubled c) s)
    (hone : (s.server.base.linksOf c).length ≤ 1)
    (hcount : ∀ r ∈ s.server.base.linksOf c, r.allocated < 4294967294) {reg : Registration}
    (hreg : reg ∈ s.client.base.linksOf c) (hconnected : reg.link.connected = true)
    (hclosed : reg.link.closeInvoked = true) (halive : .deadLink ∉ reg.stops) :
    reg.WroteAll s.server.base c := by
  have hlinked := (reachable_inv hreach).linked
  have htold := (reachable_endTold hreach).1 reg (TrunkLink.mem_linksOf.mp hreg).1
  have hdry := client_endDry hreach fun _ _ hok => hok
  obtain ⟨hall, hempty⟩ := TrunkLink.closed_dry hlinked.near hdry hreg hconnected hclosed
  exact hlinked.symm.whole_stream hone hcount hreg htold halive hall hempty

/-- The byte B comes down, then the target closes. -/
def downstreamEnd : List SystemEvent :=
  connecting ++ [.serverAsio 0 (.readDone 0 ⟨false, [66]⟩) 0, .serverAsio 0 (.readHandler 0) 0,
    .toClient 1 0, .clientAsio 0 (.timerHandler 0) 0, .clientAsio 0 (.writeDone 0 ⟨false, 1⟩) 0,
    .clientAsio 0 (.writeHandler 0) 0, .serverAsio 0 (.readDone 0 ⟨true, []⟩) 0,
    .serverAsio 0 (.readHandler 0) 0, .serverAsio 0 (.timerHandler 0) 0,
    .serverAsio 0 .closeCheck 0, .toClient 2 0, .clientAsio 0 (.timerHandler 0) 0,
    .clientAsio 0 (.readHandler 0) 0, .clientAsio 0 .closeCheck 0]

/-- So does the target's byte on its way back. -/
theorem graceful_end_downstream_byte :
    ∃ s, Transition.run step loopback downstreamEnd = some s ∧
      ∃ reg ∈ s.client.base.linksOf (.ofByte 1), reg.link.written = [66] ∧
        reg.WroteAll s.server.base (.ofByte 1) := by
  have hany : (Transition.run step loopback downstreamEnd).any (fun s =>
      (∃ reg ∈ s.client.base.linksOf (.ofByte 1), reg.link.written = [66] ∧
        reg.link.connected = true ∧ reg.link.closeInvoked = true ∧ .deadLink ∉ reg.stops) ∧
        (s.server.base.linksOf (.ofByte 1)).length ≤ 1 ∧
        ∀ r ∈ s.server.base.linksOf (.ofByte 1), r.allocated < 4294967294) = true := by
    decide +kernel
  obtain ⟨s, hrun, hs⟩ := (Option.any_eq_true _ _).mp hany
  obtain ⟨⟨reg, hreg, hwritten, hconnected, hclosed, halive⟩, hone, hcount⟩ := of_decide_eq_true hs
  exact ⟨s, hrun, reg, hreg, hwritten, graceful_end_downstream
    (.of_run (.start start_loopback) (by decide +kernel) hrun) hone hcount hreg hconnected hclosed
    halive⟩

end System
