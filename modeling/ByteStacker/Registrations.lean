import ByteStacker.OutLinkCalls
import ByteStacker.TrunkLink

/-!
# What can happen to one registered link

Client and server act on their common part through six operations: registering
a link, an asio event of a link, the two halves of the update tick, the handler
of a received packet, and the statistics.

`RegEvent` lists what these operations can do to one link object and its
history, so that a fact about registrations is checked against eight small
changes only.  `Registration.Inv.event` is the first of them: the invariants of
the link, and the numbering of the packets created for it, survive all eight.
-/

open OutLink (Owned Reassembly Drained Bounded ChunksFrom Fresh CallOutcome)

/-! ## Registrations -/

/-- The packets created for a registration are those its link caused: data
packets numbered from zero with the bytes read, then one Release. -/
structure Registration.Numbered (reg : Registration) : Prop where
  count : reg.created.length + reg.released.length = reg.allocated
  created : Enumerated UInt32.ofNat reg.created
  read : reg.link.readLog = reg.created.flatMap Prod.snd
  released : reg.released = [] ∨ reg.released = [UInt32.ofNat reg.created.length]

/-- What always holds of a link object and its history. -/
structure Registration.Inv (reg : Registration) : Prop where
  owned : Owned reg.link
  reassembly : Reassembly reg.link
  drained : Drained reg.link
  bounded : Bounded reg.link
  chunks : ChunksFrom (· ∈ reg.handed) reg.link
  good : ∀ e ∈ reg.created, e.1 ≠ kBadPacketIndex
  unreleased : reg.link.closeInvoked = false → reg.released = []
  numbered : reg.allocated ≤ 4294967294 → reg.Numbered

/-- An operation of the common part of a side.  `add` registers a connection
that is not registered yet, with an accepted socket or an address. -/
inductive TrunkOp
  | add (cnt : ConnectID) (point : Option AddressPortPoint) (now : Time)
  | asio (k : Nat) (e : AsioEvent) (now : Time)
  | live (curt : Time)
  | resend (curt : Time)
  | handle (call : HandlerCall) (now : Time)
  | getStat

/-- A link object before `Run`. -/
def newLink : Option AddressPortPoint → OutLink
  | none => .createAccepted
  | some point => .createAddress point.address point.port

/-- A link that is made and run is fresh. -/
theorem fresh_newLink (cnt : ConnectID) (point : Option AddressPortPoint) :
    Fresh ((newLink point).run cnt) := by
  cases point with
  | none => exact ⟨cnt, Or.inl rfl⟩
  | some point => exact ⟨cnt, Or.inr ⟨point.address, point.port, rfl⟩⟩

/-- A link right after `Run`. -/
theorem run_newLink (cnt : ConnectID) (point : Option AddressPortPoint) :
    ((newLink point).run cnt).hoster = some cnt ∧
      ((newLink point).run cnt).closeInvoked = false ∧
      ((newLink point).run cnt).readLog = [] := by
  cases point with
  | none => exact OutLink.stage_startLoops { OutLink.createAccepted with hoster := some cnt }
  | some point => exact ⟨rfl, rfl, rfl⟩

def TrunkLink.apply (t : TrunkLink) : TrunkOp → Option (TrunkLink × List PacketInfo)
  | .add cnt point now =>
    match t.getOutLink cnt with
    | some _ => none
    | none => some (t.intAddOutLink cnt (newLink point) now, [])
  | .asio k e now => t.asioStep k e now
  | .live curt => some (t.sendLivePacket curt)
  | .resend curt => some (t.onCacheResend curt)
  | .handle call now => some (t.handle now call)
  | .getStat => some (t.getStat.1, [])

/-- **The ways an operation changes a link object and its history.** -/
inductive RegEvent : TrunkOp → Registration → Registration → Prop
  | same {op : TrunkOp} {reg : Registration} : RegEvent op reg reg
  | quiet {k : Nat} {e : AsioEvent} {now : Time} {reg : Registration} {link : OutLink}
      (hstep : reg.link.asioStep e = some (link, none)) :
      RegEvent (.asio k e now) reg { reg with link := link }
  | read {k : Nat} {e : AsioEvent} {now : Time} {reg : Registration} {link : OutLink}
      {cnt : ConnectID} {data : Bytes}
      (hstep : reg.link.asioStep e = some (link, some (.sendData cnt data)))
      (hgood : UInt32.ofNat reg.allocated ≠ kBadPacketIndex) :
      RegEvent (.asio k e now) reg { reg with
        link := link
        allocated := reg.allocated + 1
        created := reg.created ++ [(UInt32.ofNat reg.allocated, data)] }
  | closed {k : Nat} {e : AsioEvent} {now : Time} {reg : Registration} {link : OutLink}
      {cnt : ConnectID}
      (hstep : reg.link.asioStep e = some (link, some (.closeConnect cnt)))
      (hgood : UInt32.ofNat reg.allocated ≠ kBadPacketIndex) :
      RegEvent (.asio k e now) reg { reg with
        link := link
        allocated := reg.allocated + 1
        released := reg.released ++ [UInt32.ofNat reg.allocated] }
  | dropped {k : Nat} {e : AsioEvent} {now : Time} {reg : Registration} {link : OutLink}
      {call : HosterCall} (hstep : reg.link.asioStep e = some (link, some call))
      (hbad : UInt32.ofNat reg.allocated = kBadPacketIndex) :
      RegEvent (.asio k e now) reg { reg with link := link, allocated := reg.allocated + 1 }
  | handed {reg : Registration} {cnt : ConnectID} {packetIndex : UInt32} {data : Bytes}
      {now : Time} (hcnt : reg.link.hoster = some cnt) (hopen : reg.link.closeInvoked = false) :
      RegEvent (.handle (.processDataToOutlink cnt packetIndex data) now) reg
        (reg.sendData packetIndex data)
  | released {reg : Registration} {cnt : ConnectID} {packetId : UInt32} {now : Time}
      (hcnt : reg.link.hoster = some cnt) :
      RegEvent (.handle (.processReleaseConnect cnt packetId) now) reg
        (reg.stop (.release packetId))
  | dead {reg reg' : Registration} {curt : Time} (hprev : RegEvent (.live curt) reg reg') :
      RegEvent (.live curt) reg (reg'.stop .deadLink)

/-- A good index is below the sentinel. -/
theorem allocated_lt {n : Nat} (hle : n + 1 ≤ 4294967294) : UInt32.ofNat n ≠ kBadPacketIndex := by
  intro heq
  have hnat := congrArg UInt32.toNat heq
  rw [OutLink.index_toNat (by omega)] at hnat
  simp only [kBadPacketIndex, UInt32.reduceToNat] at hnat
  omega

namespace Registration

variable {reg reg' : Registration}

/-- The links of a registration before and after an asio event. -/
structure LinkStep (reg : Registration) (link : OutLink) (call : Option HosterCall) : Prop where
  owned : Owned link
  reassembly : Reassembly link
  drained : Drained link
  bounded : Bounded link
  chunks : ChunksFrom (· ∈ reg.handed) link
  hoster : link.hoster = reg.link.hoster
  outcome : CallOutcome reg.link link call

/-- **An asio event of a sound registration is a link step.** -/
theorem Inv.linkStep (h : reg.Inv) {e : AsioEvent} {link : OutLink} {call : Option HosterCall}
    (hstep : reg.link.asioStep e = some (link, call)) : LinkStep reg link call where
  owned := OutLink.owned_asioStep h.owned hstep
  reassembly := OutLink.chunkProperty_reassembly.asioStep h.reassembly hstep
  drained := OutLink.drained_asioStep h.drained h.owned hstep
  bounded := OutLink.bounded_asioStep h.bounded hstep
  chunks := OutLink.chunkProperty_chunksFrom.asioStep h.chunks hstep
  hoster := (OutLink.asioStep_call h.owned h.bounded hstep).1
  outcome := (OutLink.asioStep_call h.owned h.bounded hstep).2

/-- The invariant concerns only what the calls of the hoster leave alone. -/
theorem Numbered.congr (h : reg.Numbered) (hlife : reg.link.SameLife reg'.link)
    (hallocated : reg'.allocated = reg.allocated) (hcreated : reg'.created = reg.created)
    (hreleased : reg'.released = reg.released) : reg'.Numbered := by
  refine ⟨?_, ?_, ?_, ?_⟩
  · rw [hcreated, hreleased, hallocated]
    exact h.count
  · rw [hcreated]
    exact h.created
  · rw [hlife.readLog, hcreated]
    exact h.read
  · rw [hreleased, hcreated]
    exact h.released

/-- A chunk handed over keeps the registration sound. -/
theorem Inv.sendData (h : reg.Inv) (packetIndex : UInt32) (data : Bytes) :
    (reg.sendData packetIndex data).Inv := by
  have hlife := (reg.link.sameLife_sendData packetIndex data).1
  refine ⟨OutLink.owned_sendData h.owned _ _, OutLink.reassembly_sendData h.reassembly _ _,
    OutLink.drained_sendData h.drained _ _, fun r hr => h.bounded r (hlife.reads ▸ hr), ?_, h.good,
    fun hopen => h.unreleased (hlife.closeInvoked ▸ hopen), ?_⟩
  · refine OutLink.chunksFrom_sendData ?_ (by simp [Registration.sendData])
    exact fun e he => List.mem_append_left _ (h.chunks e he)
  · exact fun hle => (h.numbered hle).congr hlife rfl rfl rfl

/-- So does a stop. -/
theorem Inv.stop (h : reg.Inv) (call : StopCall) : (reg.stop call).Inv := by
  have hlife := (reg.link.sameLife_stop call.chunk).1
  exact ⟨OutLink.owned_stop h.owned _, OutLink.reassembly_stop h.reassembly _,
    OutLink.drained_stop h.drained _, fun r hr => h.bounded r (hlife.reads ▸ hr),
    OutLink.chunksFrom_stop h.chunks _, h.good,
    fun hopen => h.unreleased (hlife.closeInvoked ▸ hopen),
    fun hle => (h.numbered hle).congr hlife rfl rfl rfl⟩

/-- A new link object. -/
theorem inv_new (cnt : ConnectID) (point : Option AddressPortPoint) :
    Registration.Inv { link := (newLink point).run cnt } := by
  have hfresh := fresh_newLink cnt point
  have hread := (run_newLink cnt point).2.2
  exact ⟨OutLink.owned_fresh hfresh, OutLink.reassembly_fresh hfresh, OutLink.drained_fresh hfresh,
    OutLink.bounded_fresh hfresh, OutLink.chunksFrom_fresh hfresh, by simp, fun _ => rfl,
    fun _ => ⟨rfl, rfl, hread, Or.inl rfl⟩⟩

/-- **Every change of a registration keeps its invariant.** -/
theorem Inv.event {op : TrunkOp} (h : reg.Inv) (hevent : RegEvent op reg reg') : reg'.Inv := by
  induction hevent with
  | same => exact h
  | quiet hstep =>
      have hl := h.linkStep hstep
      cases hl.outcome with
      | quiet hclose hread =>
          exact {
            owned := hl.owned
            reassembly := hl.reassembly
            drained := hl.drained
            bounded := hl.bounded
            chunks := hl.chunks
            good := h.good
            unreleased := fun hopen => h.unreleased (hclose.symm.trans hopen)
            numbered := fun hle =>
              have hn := h.numbered hle
              ⟨hn.count, hn.created, hread.trans hn.read, hn.released⟩ }
  | read hstep hgood =>
      have hl := h.linkStep hstep
      cases hl.outcome with
      | read _ _ hcnt hsize hopen hclose hread =>
          have hnone := h.unreleased hopen
          refine ⟨hl.owned, hl.reassembly, hl.drained, hl.bounded, hl.chunks, ?_,
            fun _ => hnone, ?_⟩
          · intro x hx
            rcases List.mem_append.mp hx with hx | hx
            · exact h.good x hx
            · rw [List.mem_singleton.mp hx]
              exact hgood
          · intro hle
            have hn := h.numbered (Nat.le_of_succ_le hle)
            have hcount := hn.count
            rw [hnone, List.length_nil, Nat.add_zero] at hcount
            refine ⟨?_, hn.created.snoc _ (by rw [hcount]), ?_, Or.inl hnone⟩
            · simp [hnone, hcount]
            · simp [hread, hn.read]
  | closed hstep hgood =>
      have hl := h.linkStep hstep
      cases hl.outcome with
      | closed _ hcnt hopen hclose hread =>
          have hnone := h.unreleased hopen
          refine ⟨hl.owned, hl.reassembly, hl.drained, hl.bounded, hl.chunks, h.good,
            fun hc => absurd (hclose.symm.trans hc) (by simp), ?_⟩
          intro hle
          have hn := h.numbered (Nat.le_of_succ_le hle)
          have hcount := hn.count
          rw [hnone, List.length_nil, Nat.add_zero] at hcount
          exact ⟨by simp [hnone, hcount], hn.created, hread.trans hn.read,
            Or.inr (by simp [hnone, hcount])⟩
  | dropped hstep hbad =>
      have hl := h.linkStep hstep
      refine ⟨hl.owned, hl.reassembly, hl.drained, hl.bounded, hl.chunks, h.good, ?_, ?_⟩
      · intro hopen
        cases hl.outcome with
        | read cnt data hcnt hsize hold hclose hread => exact h.unreleased hold
        | closed cnt hcnt hold hclose hread => exact h.unreleased hold
      · exact fun hle => absurd hbad (allocated_lt hle)
  | handed _ _ => exact h.sendData _ _
  | released _ => exact h.stop _
  | dead _ ih => exact (ih h).stop _

end Registration
