import ByteStacker.AtMostOnce
import ByteStacker.Keepalive
import Mathlib.Algebra.GroupWithZero.Nat

/-!
# The number of connections

`GetStat` reports the length of the list of registrations as `ConnectAmount`.  The list and
the link objects lead separate lives: a link is registered when it is created, and taken off
the list when it asks for that itself, at the end of its closing.  In between the object and
its entry belong together, so the amount is what was created less what was closed: every
link is counted from its creation on, and subtracted once.
-/

/-- The indices of the elements with a property are as many as these elements. -/
theorem length_indices_eq_countP {α : Type*} {xs : List α} {ks : List Nat} {P : α → Bool}
    (hnodup : ks.Nodup) (hmem : ∀ k, k ∈ ks ↔ ∃ x, xs[k]? = some x ∧ P x = true) :
    ks.length = xs.countP P := by
  have hpairs : ((xs.zipIdx.filter fun p => P p.1).map Prod.snd).Perm ks := by
    refine (List.perm_ext_iff_of_nodup ?_ hnodup).mpr fun k => ?_
    · have hindices : (xs.zipIdx.map Prod.snd).Nodup := by
        rw [List.zipIdx_map_snd]
        exact List.nodup_range'
      exact hindices.sublist (List.filter_sublist.map Prod.snd)
    · rw [hmem k]
      simp [List.mem_zipIdx_iff_getElem?, and_comm]
  have hcount : xs.countP P = (xs.zipIdx.filter fun p => P p.1).length := by
    rw [← List.countP_eq_length_filter]
    conv_lhs => rw [← List.zipIdx_map_fst 0 xs]
    rw [List.countP_map]
    rfl
  rw [hcount, ← hpairs.length_eq, List.length_map]

/-- Elements that count one each are summed by counting the others. -/
theorem sum_add_countP_zero {α : Type*} {xs : List α} {f : α → Nat} (hf : ∀ x ∈ xs, f x ≤ 1) :
    (xs.countP fun x => f x = 0) + (xs.map f).sum = xs.length := by
  induction xs with
  | nil => rfl
  | cons x rest ih =>
      have hrest := ih fun y hy => hf y (List.mem_cons_of_mem x hy)
      have hx := hf x List.mem_cons_self
      rw [List.countP_cons, List.map_cons, List.sum_cons, List.length_cons]
      by_cases hzero : f x = 0
      · simp only [hzero, decide_true, if_true]
        omega
      · simp only [hzero, decide_false, Bool.false_eq_true, if_false]
        omega

namespace TrunkLink

variable {t : TrunkLink}

/-- **The list and the objects.**  The entries are those of the links that have not asked to
be taken off. -/
theorem Inv.registered_count (h : t.Inv) :
    t.outLinks.length = t.objects.countP fun reg => reg.link.closeCalls = 0 := by
  rw [← length_indices_eq_countP h.links_nodup fun k => ?_]
  · rw [List.length_map]
  · have hopen : ∀ reg, t.objects[k]? = some reg →
        (reg.link.closeCalls = 0 ↔ reg.link.closeInvoked = false) := by
      intro reg hreg
      rw [(h.sound reg (List.mem_of_getElem? hreg)).owned.counted]
      cases reg.link.closeInvoked <;> simp
    constructor
    · intro hmem
      obtain ⟨item, hitem, rfl⟩ := List.mem_map.mp hmem
      obtain ⟨reg, hreg, hserves⟩ := h.entries item hitem
      exact ⟨reg, hreg, decide_eq_true ((hopen reg hreg).mpr hserves.unclosed)⟩
    · intro ⟨reg, hreg, hzero⟩
      obtain ⟨item, hitem, hlink⟩ :=
        h.alive k reg hreg ((hopen reg hreg).mp (of_decide_eq_true hzero))
      exact hlink ▸ List.mem_map_of_mem hitem

end TrunkLink

namespace System

variable {s s' : System} {e : SystemEvent} {es : List SystemEvent}

/-- An event adds a link object for each link it creates. -/
theorem length_server_objects (h : s.Inv) (hstep : s.step e = some s') :
    s'.server.base.objects.length =
      s.server.base.objects.length + (s.serverCreates e).toList.length := by
  obtain ⟨clientSent, serverSent, heffect⟩ := step_effect hstep
  have hhosters := congrArg List.length (TrunkLink.hosters_acts h.linked.far heffect.server)
  rw [added_serverOps] at hhosters
  simpa [TrunkLink.hosters] using hhosters

/-- So does a run. -/
theorem length_server_objects_run (h : s.Inv) (hrun : Transition.run step s es = some s') :
    s'.server.base.objects.length = s.server.base.objects.length +
      (Transition.collect step (fun s e => (s.serverCreates e).toList) s es).length := by
  induction es generalizing s with
  | nil =>
      cases hrun
      rfl
  | cons e rest ih =>
      obtain ⟨m, hm, hrest⟩ := Transition.run_cons.mp hrun
      rw [ih (h.step hm) hrest, length_server_objects h hm, Transition.collect_cons hm,
        List.length_append]
      omega

/-- **Connections are counted right.**  In every run the amount `GetStat` reports and the
links that have called `CloseConnect` together are the links the server created in the run;
and no link calls it twice.  A link that never closes stays counted. -/
theorem connections_counted {clientTime serverTime : Time} {trunkSockets : Nat}
    {linkFabric : PointID → Option AddressPortPoint}
    (hrun : Transition.run step (launch clientTime serverTime trunkSockets linkFabric) es =
      some s) :
    s.server.getStat.2.connectAmount +
        (s.server.base.objects.map fun reg => reg.link.closeCalls).sum =
      (Transition.collect step (fun s e => (s.serverCreates e).toList)
        (launch clientTime serverTime trunkSockets linkFabric) es).length ∧
    ∀ reg ∈ s.server.base.objects, reg.link.closeCalls ≤ 1 := by
  have hrunInv : ∀ {es : List SystemEvent} {u v : System}, u.Inv →
      Transition.run step u es = some v → v.Inv :=
    fun hu hrun => Transition.run_invariant (fun _ _ _ h hstep => h.step hstep) hu hrun
  have hstart : (launch clientTime serverTime trunkSockets linkFabric).Inv :=
    inv_start ⟨clientTime, serverTime, trunkSockets, linkFabric, rfl⟩
  have hinv := (hrunInv hstart hrun).linked.far
  have hone : ∀ reg ∈ s.server.base.objects, reg.link.closeCalls ≤ 1 := by
    intro reg hreg
    rw [(hinv.sound reg hreg).owned.counted]
    exact Bool.toNat_le _
  refine ⟨?_, hone⟩
  have hcreated := length_server_objects_run hstart hrun
  have hsplit := sum_add_countP_zero hone
  have hamount : s.server.getStat.2.connectAmount = _ := hinv.registered_count
  have hnone : (launch clientTime serverTime trunkSockets linkFabric).server.base.objects.length
      = 0 := rfl
  omega

/-- The connection that carried a byte is still counted. -/
theorem connections_counted_byte :
    ∃ s, Transition.run step loopback upstreamByte = some s ∧
      s.server.getStat.2.connectAmount = 1 ∧
      s.server.getStat.2.connectAmount +
          (s.server.base.objects.map fun reg => reg.link.closeCalls).sum =
        (Transition.collect step (fun s e => (s.serverCreates e).toList) loopback
          upstreamByte).length := by
  obtain ⟨s, hrun⟩ : ∃ s, Transition.run step
      (launch 0 0 1 fun _ => some ⟨"localhost", 80⟩) upstreamByte = some s :=
    Option.isSome_iff_exists.mp (by decide +kernel)
  have hone : (Transition.run step (launch 0 0 1 fun _ => some ⟨"localhost", 80⟩)
      upstreamByte).map (fun s => s.server.getStat.2.connectAmount) = some 1 := by decide +kernel
  rw [hrun, Option.map_some, Option.some_inj] at hone
  exact ⟨s, hrun, hone, (connections_counted hrun).1⟩

end System
