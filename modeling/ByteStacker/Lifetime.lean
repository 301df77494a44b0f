import ByteStacker.GracefulEnd
import ByteStacker.OutLinkEnd

/-!
# The life of a link object

A link object lives as long as somebody holds a `shared_ptr` to it: its registration, or a
handler of one of its operations.  When the last one goes, `~OutLink` asserts that the socket
is closed.

A link leaves the list of registrations with the call of `CloseConnect`, which it makes right
after it has closed its socket, and only when both loops have ended.  So nothing is left in
flight but posted closing checks; they find the link closed and only drop what they hold.
And a link that still waits for anything can always get that far.

The objects are the links registered in a run.  An accepted link that `AddConnect` drops because
the id drawn for it is in use is none of them, and nothing is said about the end of the process.
-/

open Transition (Possibly PossiblyBy)

namespace OutLink

variable {l l' : OutLink} {e : AsioEvent} {call : Option HosterCall}

/-- A link that has closed has closed its socket. -/
def Shut (l : OutLink) : Prop := l.closeInvoked = true → l.socketOpen = false

/-- **An asio event closes a link only together with its socket**, and nothing opens the socket
of a closed one. -/
theorem Shut.asioStep (hshut : l.Shut) (h : Owned l) (hstep : l.asioStep e = some (l', call)) :
    l'.Shut := by
  intro hclosed'
  by_cases hclosed : l.closeInvoked = true
  · obtain ⟨_, _, rfl⟩ := h.closed_event hclosed hstep
    exact hshut hclosed
  · -- the link closes now
    have hcheck : e = .closeCheck := by
      by_contra hother
      exact hclosed ((closeInvoked_asioStep hstep hother).symm.trans hclosed')
    subst hcheck
    cases asioStep_outcome hstep with
    | closeCheck hpos heq =>
        rcases checkReadyCloseProcessing_cases { l with posts := l.posts - 1 } with
          ⟨_, _, _, hclose⟩ | ⟨_, hsame⟩
        · rw [hclose] at heq
          exact (congrArg (fun r => r.1.socketOpen) heq).symm
        · rw [hsame] at heq
          cases heq
          exact absurd hclosed' hclosed

/-- A chunk handed over does not close a link. -/
theorem Shut.sendData (h : l.Shut) (chunkId : UInt32) (data : Bytes) :
    (l.sendData chunkId data).Shut := by
  have hout := sendData_outcome l chunkId data
  generalize l.sendData chunkId data = after at hout ⊢
  cases hout with
  | stale _ => exact h
  | afterStop _ _ _ => exact h
  | duplicate _ _ _ => exact h
  | stored _ _ _ _ _ => exact h

/-- A stop does not close it at once. -/
theorem Shut.stop (h : l.Shut) (n : UInt32) : (l.stop n).Shut := by
  by_cases hn : n ≤ l.nextWriteChunkId
  · rw [stop_atOnce hn]
    exact h
  · rw [stop_later (UInt32.not_le.mp hn)]
    exact h

end OutLink

/-- A new link is not closed. -/
theorem shut_new (cnt : ConnectID) (point : Option AddressPortPoint) :
    ((newLink point).run cnt).Shut := by
  intro hclosed
  exact absurd (hclosed.symm.trans (run_newLink cnt point).2.1) (by simp)

/-- No operation of a side separates the two. -/
theorem RegEvent.shut {op : TrunkOp} {reg reg' : Registration} (h : RegEvent op reg reg')
    (hinv : reg.Inv) (hshut : reg.link.Shut) : reg'.link.Shut := by
  induction h with
  | same => exact hshut
  | quiet hstep => exact hshut.asioStep hinv.owned hstep
  | read hstep _ => exact hshut.asioStep hinv.owned hstep
  | closed hstep _ => exact hshut.asioStep hinv.owned hstep
  | dropped hstep _ => exact hshut.asioStep hinv.owned hstep
  | handed _ _ => exact hshut.sendData _ _
  | released _ => exact hshut.stop _
  | dead _ ih => exact (ih hinv hshut).stop _

/-! ## The objects of a side -/

namespace TrunkLink

variable {t : TrunkLink} {k : Nat} {reg : Registration}

/-- Everybody who holds link object `k`. -/
def owners (t : TrunkLink) (k : Nat) : Nat :=
  (t.outLinks.countP fun item => item.link = k) +
    (t.objects[k]?.map fun reg => reg.link.handlers).getD 0

/-- No registration holds a closed link. -/
theorem Inv.owners_closed (h : t.Inv) (hobject : t.objects[k]? = some reg)
    (hclosed : reg.link.closeInvoked = true) : t.owners k = reg.link.handlers := by
  have hnone : (t.outLinks.countP fun item => item.link = k) = 0 := by
    refine List.countP_eq_zero.mpr fun item hitem hlink => ?_
    obtain ⟨own, hown, hserves⟩ := h.entries item hitem
    rw [of_decide_eq_true hlink, hobject] at hown
    cases hown
    exact absurd (hclosed.symm.trans hserves.unclosed) (by simp)
  rw [owners, hnone, hobject, Nat.zero_add]
  rfl

/-- **How the life of a link object ends.** -/
structure EndsWell (t : TrunkLink) (k : Nat) (reg : Registration) : Prop where
  /-- The assertion of `~OutLink`. -/
  destroyed : t.owners k = 0 → reg.link.socketOpen = false
  retired : (∀ item ∈ t.outLinks, item.link ≠ k) → ∀ e link call,
    reg.link.asioStep e = some (link, call) →
      call = none ∧ link.socketOpen = false ∧ link.handlers + 1 = reg.link.handlers

/-- The bookkeeping of a side and the closed sockets give both parts. -/
theorem Inv.endsWell (h : t.Inv) (hshut : ∀ reg ∈ t.objects, reg.link.Shut)
    (hobject : t.objects[k]? = some reg) : t.EndsWell k reg := by
  have hmem : reg ∈ t.objects := List.mem_of_getElem? hobject
  have howned := (h.sound reg hmem).owned
  have hclosed : (∀ item ∈ t.outLinks, item.link ≠ k) → reg.link.closeInvoked = true := by
    intro hgone
    by_contra hopen
    obtain ⟨item, hitem, hlink⟩ := h.alive k reg hobject (by simpa using hopen)
    exact hgone item hitem hlink
  refine ⟨fun hnobody => ?_, fun hgone e link call hstep => ?_⟩
  · have hnone : (t.outLinks.countP fun item => item.link = k) = 0 :=
      Nat.eq_zero_of_add_eq_zero_right hnobody
    refine hshut reg hmem (hclosed fun item hitem hlink => ?_)
    exact List.countP_eq_zero.mp hnone item hitem (by simpa using hlink)
  · obtain ⟨hpos, hcall, rfl⟩ := howned.closed_event (hclosed hgone) hstep
    have hbefore := howned.handlers_closed (hclosed hgone)
    have hafter := (OutLink.owned_asioStep howned hstep).handlers_closed (hclosed hgone)
    refine ⟨hcall, hshut reg hmem (hclosed hgone), ?_⟩
    rw [hbefore, hafter]
    exact Nat.sub_add_cancel hpos

/-- What a link can do, the side can do with its object. -/
theorem Inv.asio_move (h : t.Inv) (hobject : t.objects[k]? = some reg) (now : Time) {e : AsioEvent}
    {link : OutLink} (hmove : reg.link.move e = some link) :
    ∃ t' sent reg', t.asioStep k e now = some (t', sent) ∧ t'.objects[k]? = some reg' ∧
      reg'.link = link := by
  obtain ⟨⟨m, call⟩, hm, rfl⟩ := Option.map_eq_some_iff.mp hmove
  obtain ⟨r, hstep⟩ : ∃ r, t.asioStep k e now = some r := by simp [asioStep, hobject, hm]
  obtain ⟨own, reg', call', hown, hlink, hset⟩ := asio_object h hstep
  rw [hobject] at hown
  cases hown
  rw [hm] at hlink
  have hk : k < t.objects.length := (List.getElem?_eq_some_iff.mp hobject).1
  refine ⟨r.1, r.2, reg', hstep, by rw [hset, List.getElem?_set_self hk], ?_⟩
  exact (congrArg Prod.fst (Option.some.inj hlink)).symm

end TrunkLink

/-! ## Both sides -/

namespace System

variable {s : System} {k : Nat} {reg : Registration}

/-- **In every run**, a link that has closed has closed its socket. -/
theorem reachable_shut {ok : System → SystemEvent → Prop} (h : Reachable ok s) :
    (∀ reg ∈ s.client.base.objects, reg.link.Shut) ∧
      ∀ reg ∈ s.server.base.objects, reg.link.Shut :=
  reachable_registrations (P := fun reg => reg.link.Shut) shut_new
    (fun _ _ _ hinv hshut hevent => hevent.shut hinv hshut) h

/-- **No registered link dies with an open socket.**  In every state a run leads to, a link that
nobody holds any more has closed its socket; one that is off the list of registrations only waits
for closing checks, each of which brings it closer to its end and does nothing else. -/
theorem ends_well (hreach : Reachable (fun _ _ => True) s) :
    (s.client.base.objects[k]? = some reg → s.client.base.EndsWell k reg) ∧
      (s.server.base.objects[k]? = some reg → s.server.base.EndsWell k reg) := by
  have hlinked := (reachable_inv hreach).linked
  obtain ⟨hclient, hserver⟩ := reachable_shut hreach
  exact ⟨hlinked.near.endsWell hclient, hlinked.far.endsWell hserver⟩

/-- The server's link when it has just closed. -/
theorem ends_well_byte :
    ∃ s, Transition.run step loopback upstreamEnd = some s ∧
      ∃ reg, s.server.base.objects[0]? = some reg ∧ reg.link.handlers = 1 ∧
        s.server.base.EndsWell 0 reg := by
  have hany : (Transition.run step loopback upstreamEnd).any (fun s =>
      s.server.base.objects[0]?.any fun reg => reg.link.handlers = 1) = true := by
    decide +kernel
  obtain ⟨s, hrun, hs⟩ := (Option.any_eq_true _ _).mp hany
  obtain ⟨reg, hobject, hone⟩ := (Option.any_eq_true _ _).mp hs
  exact ⟨s, hrun, reg, hobject, of_decide_eq_true hone,
    (ends_well (reachable_loopback hrun)).2 hobject⟩

/-- Nobody holds the object, its link has called `CloseConnect` once, and its socket is
closed. -/
def Gone (k : Nat) (t : TrunkLink) : Prop :=
  t.owners k = 0 ∧ ∃ reg, t.objects[k]? = some reg ∧ reg.link.closeCalls = 1 ∧
    reg.link.socketOpen = false

/-- An asio event of the client's link object `k`, whose handler reads the clock at `now`. -/
def ClientSocket (k : Nat) (now : Time) (e : SystemEvent) : Prop :=
  ∃ ev, e = .clientAsio k ev now

/-- An asio event of the server's link object `k`. -/
def ServerSocket (k : Nat) (now : Time) (e : SystemEvent) : Prop :=
  ∃ ev, e = .serverAsio k ev now

/-- A side of the system whose links act by events of the system. -/
structure Side (side : System → TrunkLink) (socket : Nat → Time → SystemEvent → Prop) : Prop where
  inv : ∀ s, Reachable (fun _ _ => True) s → (side s).Inv
  shut : ∀ s, Reachable (fun _ _ => True) s → ∀ reg ∈ (side s).objects, reg.link.Shut
  act : ∀ s k e now t' sent, (side s).asioStep k e now = some (t', sent) →
    ∃ ev s', socket k now ev ∧ s.step ev = some s' ∧ side s' = t'

/-- The links of the client act by its own events. -/
theorem side_client : Side (fun s => s.client.base) ClientSocket where
  inv := fun _ h => (reachable_inv h).linked.near
  shut := fun _ h => (reachable_shut h).1
  act := by
    intro s k e now t' sent hstep
    refine ⟨.clientAsio k e now, s.setClient
      ({ s.client with base := t' }, sent.map TrunkClient.sendPacket), ⟨e, rfl⟩, ?_, rfl⟩
    simp [step, TrunkClient.asioStep, hstep]

/-- The links of the server act by its own. -/
theorem side_server : Side (fun s => s.server.base) ServerSocket where
  inv := fun _ h => (reachable_inv h).linked.far
  shut := fun _ h => (reachable_shut h).2
  act := by
    intro s k e now t' sent hstep
    refine ⟨.serverAsio k e now, s.setServer
      ({ s.server with base := t' }, sent.filterMap s.server.sendPacket), ⟨e, rfl⟩, ?_, rfl⟩
    simp [step, TrunkServer.asioStep, hstep]

/-- A link that waits for anything comes to its end by events of its own socket. -/
theorem Side.comes_to_end {side : System → TrunkLink} {socket : Nat → Time → SystemEvent → Prop}
    (h : Side side socket) (hreach : Reachable (fun _ _ => True) s) (hheld : 0 < reg.link.handlers)
    (now : Time) (hobject : (side s).objects[k]? = some reg) :
    PossiblyBy step (socket k now) s fun s' => Gone k (side s') := by
  have howned := ((h.inv s hreach).sound reg (List.mem_of_getElem? hobject)).owned
  -- the object follows its link
  refine (Possibly.lift (P := fun link s => Reachable (fun _ _ => True) s ∧
    ∃ reg, (side s).objects[k]? = some reg ∧ reg.link = link) ?_ (howned.comes_to_end hheld)
    ⟨hreach, reg, hobject, rfl⟩).mono ?_
  · intro link u e link' hpart hmove
    obtain ⟨hu, own, hown, rfl⟩ := hpart
    obtain ⟨t', sent, own', hstep, hown', hlink⟩ := (h.inv u hu).asio_move hown now hmove
    obtain ⟨ev, u', hsocket, hevent, rfl⟩ := h.act u k e now t' sent hstep
    exact ⟨ev, u', hsocket, hevent, hu.next trivial hevent, own', hown', hlink⟩
  · intro s' hlast
    obtain ⟨link, hpart, hclosed, hnone⟩ := hlast
    obtain ⟨hs', own, hown, rfl⟩ := hpart
    have hinv := h.inv s' hs'
    have hmem := List.mem_of_getElem? hown
    refine ⟨(hinv.owners_closed hown hclosed).trans hnone, own, hown, ?_,
      h.shut s' hs' own hmem hclosed⟩
    rw [(hinv.sound own hmem).owned.counted, hclosed]
    rfl

/-- **Every link can come to its end.**  In whatever state a run has left the system: a link
that still waits for anything, on either side, can be closed by events of its own socket and
nothing else, at any time of the clock, whereupon it is taken off the list and nobody holds
it. -/
theorem may_end (hreach : Reachable (fun _ _ => True) s) (hheld : 0 < reg.link.handlers)
    (now : Time) :
    (s.client.base.objects[k]? = some reg →
      PossiblyBy step (ClientSocket k now) s fun s' => Gone k s'.client.base) ∧
    (s.server.base.objects[k]? = some reg →
      PossiblyBy step (ServerSocket k now) s fun s' => Gone k s'.server.base) :=
  ⟨side_client.comes_to_end hreach hheld now, side_server.comes_to_end hreach hheld now⟩

/-- The server's link when it has just connected. -/
theorem may_end_connected :
    ∃ s, Transition.run step loopback connecting = some s ∧
      ∃ reg, s.server.base.objects[0]? = some reg ∧ reg.link.closeInvoked = false ∧
        PossiblyBy step (ServerSocket 0 (milliseconds 1000)) s fun s' => Gone 0 s'.server.base := by
  have hany : (Transition.run step loopback connecting).any (fun s =>
      s.server.base.objects[0]?.any fun reg =>
        decide (reg.link.closeInvoked = false ∧ 0 < reg.link.handlers)) = true := by
    decide +kernel
  obtain ⟨s, hrun, hs⟩ := (Option.any_eq_true _ _).mp hany
  obtain ⟨reg, hobject, hwaits⟩ := (Option.any_eq_true _ _).mp hs
  obtain ⟨hopen, hheld⟩ := of_decide_eq_true hwaits
  exact ⟨s, hrun, reg, hobject, hopen, (may_end (reachable_loopback hrun) hheld _).2 hobject⟩

end System
