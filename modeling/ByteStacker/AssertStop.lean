import ByteStacker.StreamIntegrity

/-!
# The assertion of `SendData`

`SendData` asserts that no awaited chunk lies behind the stop point.  Both ends
are honest, so this is a question of where stop points come from.

* `Linked.data_before_release` — the Release of a link carries an index above
  all of its data, so a link stopped by it never sees stray data of its peer;
* the dead-link timer stops at the chunk awaited at that moment, whatever the
  peer has sent, and a second link for a connection counts from zero again.

`data_within_stop` is the condition on a delivery that excludes the latter two,
and `no_assert_fails` says that nothing else is needed: under it no assertion of
any link fails on either side.
-/

open Transition (Always run)

/-! ## Where the stop point lies -/

/-- What the stops a link was told say about its stop point. -/
structure Registration.StopPoint (reg : Registration) : Prop where
  unstopped : reg.stops = [] → reg.link.stopWriteChunkId = OutLink.kUndefinedChunkID
  released : ∀ n, reg.stops.getLast? = some (.release n) → n ≤ reg.link.stopWriteChunkId

/-- Asio events do not move the stop point. -/
theorem OutLink.chunkProperty_stopPoint (n : UInt32) :
    ChunkProperty fun l => l.stopWriteChunkId = n where
  congr := fun _ _ hs h => hs.stopWriteChunkId.trans h
  finish := fun _ h _ => h
  take := fun _ _ _ h _ _ => h

/-- `Stop` puts the stop point at or behind its argument. -/
theorem OutLink.le_stop (l : OutLink) (n : UInt32) : n ≤ (l.stop n).stopWriteChunkId := by
  by_cases hn : n ≤ l.nextWriteChunkId
  · rw [stop_atOnce hn]
    exact hn
  · rw [stop_later (UInt32.not_le.mp hn)]
    exact UInt32.le_refl n

/-- A new link knows its connection's stop point: it has none. -/
theorem Registration.stopPoint_new (cnt : ConnectID) (point : Option AddressPortPoint) :
    Registration.StopPoint { link := (newLink point).run cnt } where
  unstopped := fun _ =>
    (OutLink.chunkProperty_stopPoint _).fresh rfl (fun _ _ => rfl) (fresh_newLink cnt point)
  released := fun n hn => by simp at hn

/-- **Every event of a registration keeps it.** -/
theorem RegEvent.stopPoint {op : TrunkOp} {reg reg' : Registration} (h : RegEvent op reg reg')
    (hstop : reg.StopPoint) : reg'.StopPoint := by
  have hasio : ∀ {e link call}, reg.link.asioStep e = some (link, call) →
      ∀ after : Registration, after.link = link → after.stops = reg.stops → after.StopPoint := by
    intro e link call hstep after hlink hstops
    have hpoint : link.stopWriteChunkId = reg.link.stopWriteChunkId :=
      (OutLink.chunkProperty_stopPoint _).asioStep rfl hstep
    refine ⟨fun hs => ?_, fun n hn => ?_⟩
    · rw [hlink, hpoint]
      exact hstop.unstopped (hstops ▸ hs)
    · rw [hlink, hpoint]
      exact hstop.released n (hstops ▸ hn)
  induction h with
  | same => exact hstop
  | quiet hstep => exact hasio hstep _ rfl rfl
  | read hstep _ => exact hasio hstep _ rfl rfl
  | closed hstep _ => exact hasio hstep _ rfl rfl
  | dropped hstep _ => exact hasio hstep _ rfl rfl
  | @handed reg cnt packetIndex data now _ _ =>
      have hsame := (reg.link.sameLife_sendData packetIndex data).2
      exact ⟨fun hs => hsame.trans (hstop.unstopped hs), fun n hn => hsame ▸ hstop.released n hn⟩
  | @released reg cnt packetId now _ =>
      refine ⟨fun hs => by simp [Registration.stop] at hs, fun n hn => ?_⟩
      simp only [Registration.stop, List.getLast?_append, List.getLast?_singleton,
        Option.some_or, Option.some.injEq, StopCall.release.injEq] at hn
      subst hn
      exact reg.link.le_stop packetId
  | dead _ _ =>
      exact ⟨fun hs => by simp [Registration.stop] at hs,
        fun n hn => by simp [Registration.stop] at hn⟩

/-! ## Data lies before its Release -/

/-- **Data lies before its Release**: what one link of the other side sent and
the index with which it closed. -/
theorem Linked.data_before_release {a b : TrunkLink} {cnt : ConnectID} (h : Linked a b)
    (hone : (a.linksOf cnt).length ≤ 1)
    (hcount : ∀ r ∈ a.linksOf cnt, r.allocated < 4294967294) {reg : Registration}
    (hreg : reg ∈ b.linksOf cnt) {n packetIndex : UInt32} {data : Bytes}
    (hrelease : .release n ∈ reg.stops)
    (hdata : a.Vouched (.processDataToOutlink cnt packetIndex data)) : packetIndex < n := by
  obtain ⟨hmem, hcnt⟩ := TrunkLink.mem_linksOf.mp hreg
  obtain ⟨r, hr, hrcnt, hcreated⟩ := hdata
  obtain ⟨r', hr', hrcnt', hreleased⟩ := h.outward.told reg hmem cnt hcnt n hrelease
  have hrlink := TrunkLink.mem_linksOf.mpr ⟨hr, hrcnt⟩
  -- one link made both packets, and it counts them
  have hsame := eq_of_mem_linksOf hone (TrunkLink.mem_linksOf.mpr ⟨hr', hrcnt'⟩) hrlink
  rw [hsame] at hreleased
  have hbound := hcount r hrlink
  have hn := (h.near.sound r hr).numbered (Nat.le_of_lt hbound)
  obtain ⟨p, hp, _, hindex⟩ := hn.created.mem_position hcreated
  rcases hn.released with hnone | hlast
  · simp [hnone] at hreleased
  · rw [hlast] at hreleased
    have hlen := hn.count
    have hindex : packetIndex = UInt32.ofNat p := hindex
    rw [List.mem_singleton.mp hreleased, hindex]
    exact OutLink.index_lt (by omega) (by omega)

/-! ## Deliveries that cannot fail the assertion -/

/-- **The condition on a delivery.**  A chunk the registered link still awaits
comes before the link was told any stop, or the last stop was the Release of the
only link the other side has had for the connection, which has not run out of
indices. -/
def DataWithinStop (a b : TrunkLink) : HandlerCall → Prop
  | .processDataToOutlink cnt packetIndex _ =>
    ∀ reg ∈ b.registered cnt, reg.link.nextWriteChunkId ≤ packetIndex → reg.stops ≠ [] →
      reg.stops.getLast? ≠ some .deadLink ∧ (a.linksOf cnt).length ≤ 1 ∧
        ∀ r ∈ a.linksOf cnt, r.allocated < 4294967294
  | _ => True

instance (a b : TrunkLink) : ∀ call, Decidable (DataWithinStop a b call)
  | .processDataToOutlink cnt packetIndex _ =>
    inferInstanceAs (Decidable (∀ reg ∈ b.registered cnt,
      reg.link.nextWriteChunkId ≤ packetIndex → reg.stops ≠ [] →
        reg.stops.getLast? ≠ some .deadLink ∧ (a.linksOf cnt).length ≤ 1 ∧
          ∀ r ∈ a.linksOf cnt, r.allocated < 4294967294))
  | .processConnectData _ _ _ | .processAckConnectData _ | .processAckData _ _
  | .processReleaseConnect _ _ | .processLive _ => isTrue trivial

/-- A chunk that is delivered so is not behind the stop point. -/
theorem Linked.data_within_stop {a b : TrunkLink} {cnt : ConnectID} {packetIndex : UInt32}
    {data : Bytes} (h : Linked a b) {reg : Registration} (hreg : reg ∈ b.linksOf cnt)
    (hopen : reg.link.closeInvoked = false) (hstop : reg.StopPoint)
    (hdata : a.Vouched (.processDataToOutlink cnt packetIndex data))
    (hok : DataWithinStop a b (.processDataToOutlink cnt packetIndex data)) :
    ¬ (reg.link.nextWriteChunkId ≤ packetIndex ∧
      reg.link.stopWriteChunkId ≠ OutLink.kUndefinedChunkID ∧
      reg.link.stopWriteChunkId ≤ packetIndex) := by
  intro hfails
  obtain ⟨hawaited, hset, hbehind⟩ := hfails
  have hstopped : reg.stops ≠ [] := fun hnone => hset (hstop.unstopped hnone)
  obtain ⟨hlast, hone, hcount⟩ := hok reg (h.far.registered_eq hreg hopen) hawaited hstopped
  cases hcall : reg.stops.getLast hstopped with
  | deadLink =>
      rw [List.getLast?_eq_some_getLast hstopped, hcall] at hlast
      exact hlast rfl
  | release n =>
      have hmem : .release n ∈ reg.stops := hcall ▸ List.getLast_mem hstopped
      have hlt := h.data_before_release hone hcount hreg hmem hdata
      have hle := hstop.released n (by rw [List.getLast?_eq_some_getLast hstopped, hcall])
      exact UInt32.not_le.mpr hlt (UInt32.le_trans hle hbehind)

/-- One change of a registration fails no assertion, given its deliveries. -/
theorem RegEvent.asserts {op : TrunkOp} {reg reg' : Registration} (h : RegEvent op reg reg')
    (hinv : reg.Inv) (hok : ∀ cnt packetIndex data now,
      op = .handle (.processDataToOutlink cnt packetIndex data) now →
      reg.link.hoster = some cnt → reg.link.closeInvoked = false →
      ¬ (reg.link.nextWriteChunkId ≤ packetIndex ∧
        reg.link.stopWriteChunkId ≠ OutLink.kUndefinedChunkID ∧
        reg.link.stopWriteChunkId ≤ packetIndex)) :
    reg'.link.failedAsserts = reg.link.failedAsserts := by
  induction h with
  | same => rfl
  | quiet hstep => exact OutLink.asserts_asioStep hinv.owned hinv.reassembly hstep
  | read hstep _ => exact OutLink.asserts_asioStep hinv.owned hinv.reassembly hstep
  | closed hstep _ => exact OutLink.asserts_asioStep hinv.owned hinv.reassembly hstep
  | dropped hstep _ => exact OutLink.asserts_asioStep hinv.owned hinv.reassembly hstep
  | @handed reg cnt packetIndex data now hcnt hopen =>
      exact (reg.link.asserts_sendData packetIndex data).trans
        (if_neg (hok cnt packetIndex data now rfl hcnt hopen))
  | @released reg cnt packetId now _ => exact (reg.link.sameLife_stop packetId).2
  | @dead reg reg' curt _ ih => exact (reg'.link.sameLife_stop 0).2.trans (ih hinv hok)

/-- No assertion of a link of the side has failed. -/
def TrunkLink.AssertsHold (t : TrunkLink) : Prop :=
  ∀ reg ∈ t.objects, reg.link.failedAsserts = []

instance (t : TrunkLink) : Decidable t.AssertsHold :=
  inferInstanceAs (Decidable (∀ reg ∈ t.objects, _))

/-- **Every operation keeps the assertions, unless it delivers an awaited chunk behind the
stop.** -/
theorem asserts_apply {t t' : TrunkLink} {op : TrunkOp} {sent : List PacketInfo} (h : t.Inv)
    (happly : t.apply op = some (t', sent)) (hok : ∀ reg ∈ t.objects, ∀ cnt packetIndex data now,
      op = .handle (.processDataToOutlink cnt packetIndex data) now →
      reg.link.hoster = some cnt → reg.link.closeInvoked = false →
      ¬ (reg.link.nextWriteChunkId ≤ packetIndex ∧
        reg.link.stopWriteChunkId ≠ OutLink.kUndefinedChunkID ∧
        reg.link.stopWriteChunkId ≤ packetIndex))
    (hclean : t.AssertsHold) : t'.AssertsHold := by
  intro reg' hreg'
  obtain ⟨k, hk, hget⟩ := List.getElem_of_mem hreg'
  rcases (TrunkLink.evolves_apply h happly).back (hget ▸ List.getElem?_eq_getElem hk) with
    ⟨reg, hreg, hevent⟩ | ⟨cnt, point, _, _, rfl⟩
  · have hmem := List.mem_of_getElem? hreg
    exact (hevent.asserts (h.sound reg hmem) (hok reg hmem)).trans (hclean reg hmem)
  · exact OutLink.asserts_fresh (fresh_newLink cnt point)

/-- The operations of an event, of which a call of the dispatcher is the only one. -/
theorem Linked.asserts_acts {a b b' : TrunkLink} {ops : List TrunkOp} {sent : List PacketInfo}
    (h : Linked a b) (hacts : TrunkLink.Acts b ops b' sent)
    (hstop : ∀ reg ∈ b.objects, reg.StopPoint)
    (hcall : ∀ call now, .handle call now ∈ ops →
      ops = [.handle call now] ∧ a.Vouched call ∧ DataWithinStop a b call)
    (hclean : b.AssertsHold) : b'.AssertsHold := by
  by_cases hhandle : ∃ call now, .handle call now ∈ ops
  · obtain ⟨call, now, hmem⟩ := hhandle
    obtain ⟨rfl, hvouched, hok⟩ := hcall call now hmem
    cases hacts with
    | cons happly hrest =>
        cases hrest with
        | nil =>
            refine asserts_apply h.far happly ?_ hclean
            intro reg hreg cnt packetIndex data now' hop hcnt hopen
            cases hop
            exact h.data_within_stop (TrunkLink.mem_linksOf.mpr ⟨hreg, hcnt⟩) hopen
              (hstop reg hreg) hvouched hok
  · refine (hacts.invariant (I := fun t => t.Inv ∧ t.AssertsHold)
      (Q := fun op => ∀ call now, op ≠ .handle call now) ?_ ⟨h.far, hclean⟩ ?_).2
    · intro op hop call now heq
      subst heq
      exact hhandle ⟨call, now, hop⟩
    · intro t t' op sent hclean hno happly
      obtain ⟨hinv, hclean⟩ := hclean
      refine ⟨hinv.apply happly, asserts_apply hinv happly ?_ hclean⟩
      exact fun reg _ cnt packetIndex data now hop => absurd hop (hno _ _)

namespace System

variable {s s' : System} {e : SystemEvent}

/-- Every data chunk the event delivers, to either side, is within the stop point. -/
def DeliversWithinStop (s : System) (e : SystemEvent) : Prop :=
  (∀ call ∈ s.serverCall e, DataWithinStop s.client.base s.server.base call) ∧
    ∀ call ∈ s.clientCall e, DataWithinStop s.server.base s.client.base call

instance (s : System) (e : SystemEvent) : Decidable (DeliversWithinStop s e) :=
  inferInstanceAs (Decidable (_ ∧ _))

/-- In every reachable state every registration of either side knows its stop point. -/
theorem reachable_stopPoint {ok : System → SystemEvent → Prop} (h : Reachable ok s) :
    (∀ reg ∈ s.client.base.objects, reg.StopPoint) ∧
      ∀ reg ∈ s.server.base.objects, reg.StopPoint :=
  reachable_registrations Registration.stopPoint_new
    (fun _ _ _ _ hstop hevent => hevent.stopPoint hstop) h

/-- **No assertion fails** on either side, as long as no chunk that is still
awaited is delivered after a stop that did not come from the peer's own Release:
a stop of the dead-link timer, or a Release where the peer has had a second link
for the connection or has run out of indices. -/
theorem no_assert_fails (hreach : Reachable DeliversWithinStop s) :
    s.client.base.AssertsHold ∧ s.server.base.AssertsHold := by
  refine hreach.invariant
    (I := fun s : System => s.client.base.AssertsHold ∧ s.server.base.AssertsHold) ?_ ?_
  · intro s hstart
    obtain ⟨clientTime, serverTime, trunkSockets, linkFabric, rfl⟩ := hstart
    exact ⟨fun reg hreg => absurd hreg List.not_mem_nil,
      fun reg hreg => absurd hreg List.not_mem_nil⟩
  · intro s e s' hs hclean hwithin hstep
    obtain ⟨hclient, hserver⟩ := hclean
    obtain ⟨hup, hdown⟩ := hwithin
    obtain ⟨clientSent, serverSent, heffect⟩ := step_effect hstep
    have hinv := reachable_inv hs
    obtain ⟨hcstop, hsstop⟩ := reachable_stopPoint hs
    constructor
    · refine hinv.linked.symm.asserts_acts heffect.client hcstop ?_ hclient
      intro call now hop
      obtain ⟨hcall, hops⟩ := clientOps_handle hop
      exact ⟨hops, hinv.clientCall_vouched hcall, hdown call hcall⟩
    · refine hinv.linked.asserts_acts heffect.server hsstop ?_ hserver
      intro call now hop
      obtain ⟨hcall, hops⟩ := serverOps_handle hop
      exact ⟨hops, hinv.serverCall_vouched hcall, hup call hcall⟩

/-- The client reads A and closes; its Release overtakes the chunk. -/
def overtakingRelease : List SystemEvent :=
  connecting ++ [.clientAsio 0 (.readDone 0 ⟨false, [65]⟩) 0, .clientAsio 0 (.readHandler 0) 0,
    .clientAsio 0 (.readDone 0 ⟨true, []⟩) 0, .clientAsio 0 (.readHandler 0) 0,
    .clientAsio 0 (.timerHandler 0) 0, .clientAsio 0 .closeCheck 0,
    .toServer 2 0 localhost 0, .toServer 1 0 localhost 0]

/-- The release overtakes the last chunk, and no assertion fails. -/
theorem no_assert_fails_overtaking :
    ∃ s, run step loopback overtakingRelease = some s ∧
      s.client.base.AssertsHold ∧ s.server.base.AssertsHold := by
  have hsome : (run step loopback overtakingRelease).isSome := by decide +kernel
  obtain ⟨s, hrun⟩ := Option.isSome_iff_exists.mp hsome
  exact ⟨s, hrun, no_assert_fails (.of_run (.start start_loopback) (by decide +kernel) hrun)⟩

/-- No Live packet arrives for more than five seconds, then a late chunk does. -/
def lateChunk : List SystemEvent :=
  connecting ++ [.clientAsio 0 (.readDone 0 ⟨false, [65]⟩) 0, .clientAsio 0 (.readHandler 0) 0,
    .serverTick (milliseconds 5001) (milliseconds 5001), .toServer 1 0 localhost 0]

/-- The dead-link timer stopped the link at chunk 0, which then arrives. -/
theorem assert_fails_late :
    ∃ s, run step loopback lateChunk = some s ∧
      ∃ reg ∈ s.server.base.objects, reg.link.failedAsserts = [.sendData] := by
  have hany : (run step loopback lateChunk).any (fun s =>
      ∃ reg ∈ s.server.base.objects, reg.link.failedAsserts = [.sendData]) = true := by
    decide +kernel
  obtain ⟨s, hrun, hs⟩ := (Option.any_eq_true _ _).mp hany
  exact ⟨s, hrun, of_decide_eq_true hs⟩

end System
