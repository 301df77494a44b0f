import ByteStacker.StreamIntegrity

/-!
# Creating a connection at most once

The server looks for a `CreateConnect` only among the links that are registered
now.  A copy that arrives after the link has been closed and removed creates a
second link, which starts again at index zero in both directions.

`NoLateCreate` excludes this one event.  `at_most_once_iff` says that it is all
there is: along a run the server has at most one link for the connection, and
puts no chunk out twice, exactly as long as no late copy is accepted.  Under the
same condition a stream of the client comes from a single link of the server
(`downstream_integrity`).
-/

open Transition (Always run)

/-- A chunk a link was given never carries the index that marks a failure, so
the indices of the chunks a link put out have not wrapped around. -/
theorem Linked.length_appended {a b : TrunkLink} {cnt : ConnectID} (h : Linked a b)
    {reg : Registration} (hreg : reg ∈ b.linksOf cnt) :
    reg.link.appended.length ≤ 4294967294 := by
  obtain ⟨hmem, hcnt⟩ := TrunkLink.mem_linksOf.mp hreg
  have hinv := h.far.sound reg hmem
  by_contra hlong
  have hlt : 4294967294 < reg.link.appended.length := by omega
  have hget := List.getElem_mem hlt
  obtain ⟨r, hr, _, hcreated⟩ :=
    h.outward.heard reg hmem cnt hcnt _ (hinv.chunks _ (Or.inr hget))
  exact (h.near.sound r hr).good _ hcreated (hinv.reassembly.numbered.fst_getElem hlt)

/-- No link puts a chunk out twice. -/
theorem Linked.nodup_appended {a b : TrunkLink} {cnt : ConnectID} (h : Linked a b)
    {reg : Registration} (hreg : reg ∈ b.linksOf cnt) :
    (reg.link.appended.map Prod.fst).Nodup := by
  have hlen := h.length_appended hreg
  have hinv := h.far.sound reg (TrunkLink.mem_linksOf.mp hreg).1
  refine hinv.reassembly.numbered.nodup_fst fun i j hi hj hij => ?_
  exact OutLink.index_inj (by omega) (by omega) hij

namespace System

variable {s s' : System} {e : SystemEvent} {c : ConnectID}

/-- The server has created at most one link for `c`, and no index of a chunk
was put out to external sockets twice. -/
def AtMostOnce (c : ConnectID) (s : System) : Prop :=
  (s.server.base.linksOf c).length ≤ 1 ∧
    ((s.server.base.linksOf c).flatMap fun reg => reg.link.appended.map Prod.fst).Nodup

instance (c : ConnectID) (s : System) : Decidable (AtMostOnce c s) :=
  inferInstanceAs (Decidable (_ ∧ _))

/-- The server accepts no `CreateConnect` of `c` after it has had a link for it. -/
def NoLateCreate (c : ConnectID) (s : System) (e : SystemEvent) : Prop :=
  s.serverCreates e = some c → s.server.base.linksOf c = []

instance (c : ConnectID) (s : System) (e : SystemEvent) : Decidable (NoLateCreate c s e) :=
  inferInstanceAs (Decidable (_ → _))

/-- With one link, no chunk is put out twice. -/
theorem Inv.at_most_once (h : s.Inv) (hone : (s.server.base.linksOf c).length ≤ 1) :
    AtMostOnce c s := by
  refine ⟨hone, ?_⟩
  match hlist : s.server.base.linksOf c with
  | [] => simp
  | [reg] =>
      have hreg : reg ∈ s.server.base.linksOf c := hlist ▸ List.mem_singleton_self reg
      simpa using h.linked.nodup_appended hreg
  | _ :: _ :: _ => simp [hlist] at hone

/-- A step creates a second link exactly when it accepts a late copy. -/
theorem at_most_once_step (h : s.Inv) (hone : (s.server.base.linksOf c).length ≤ 1)
    (hstep : s.step e = some s') : AtMostOnce c s' ↔ NoLateCreate c s e := by
  have hlength := length_server_linksOf h hstep c
  constructor
  · intro hafter hcreates
    obtain ⟨hone', _⟩ := hafter
    rw [hcreates] at hlength
    simp only [Option.toList_some, List.count_singleton_self] at hlength
    exact List.eq_nil_of_length_eq_zero (by omega)
  · intro hlate
    refine (h.step hstep).at_most_once (one_link_step hlength hone fun hcreates => ?_)
    rw [hlate hcreates, List.length_nil]

/-- **At-most-once creation and delivery** holds in every state of a run if and
only if no step of the run accepts a `CreateConnect` for a connection whose link
was already created and removed. -/
theorem at_most_once_iff (hstart : Start s) (c : ConnectID) (es : List SystemEvent) :
    Always step (fun _ _ s' => AtMostOnce c s') s es ↔
      Always step (fun s e _ => NoLateCreate c s e) s es := by
  refine Transition.always_iff
    (I := fun s : System => s.Inv ∧ (s.server.base.linksOf c).length ≤ 1) ?_ ?_ ?_
  · exact fun s e s' h hstep => at_most_once_step h.1 h.2 hstep
  · exact fun s e s' h hlate hstep =>
      ⟨h.1.step hstep, ((at_most_once_step h.1 h.2 hstep).mpr hlate).1⟩
  · obtain ⟨clientTime, serverTime, trunkSockets, linkFabric, rfl⟩ := hstart
    exact ⟨inv_start ⟨clientTime, serverTime, trunkSockets, linkFabric, rfl⟩, Nat.zero_le 1⟩

/-- A copy that arrives while the link is registered is harmless. -/
theorem at_most_once_copy :
    Always step (fun _ _ s' => AtMostOnce (.ofByte 1) s') loopback
      (upstreamByte ++ [.toServer 0 0 localhost 0]) :=
  (at_most_once_iff start_loopback (.ofByte 1) _).mpr (by decide +kernel)

/-- The target closes the connection, the server removes the link, a copy of
`CreateConnect` and a copy of the data arrive. -/
def replayedByte : List SystemEvent :=
  upstreamByte ++ [.serverAsio 0 (.writeHandler 0) 0, .serverAsio 0 (.readDone 0 ⟨true, []⟩) 0,
    .serverAsio 0 (.readHandler 0) 0, .serverAsio 0 (.timerHandler 0) 0,
    .serverAsio 0 .closeCheck 0, .toServer 0 0 localhost 0,
    .serverAsio 1 (.resolved 0 (some [localhost])) 0, .serverAsio 1 (.connected 0 false) 0,
    .toServer 1 0 localhost 0, .serverAsio 1 (.timerHandler 0) 0,
    .serverAsio 1 (.writeDone 0 ⟨false, 1⟩) 0]

/-- The id is generated once, and the byte A is written to two sockets. -/
theorem written_twice :
    Always step (fun s e _ => GeneratesOnce (.ofByte 1) s e) loopback replayedByte ∧
      ¬ Always step (fun _ _ s' => AtMostOnce (.ofByte 1) s') loopback replayedByte ∧
      ∃ s, run step loopback replayedByte = some s ∧
        (s.server.base.linksOf (.ofByte 1)).map (fun reg => reg.link.written) = [[65], [65]] := by
  refine ⟨by decide +kernel, by decide +kernel, ?_⟩
  have hany : (run step loopback replayedByte).any (fun s =>
      (s.server.base.linksOf (.ofByte 1)).map (fun reg => reg.link.written) = [[65], [65]]) =
        true := by
    decide +kernel
  obtain ⟨s, hrun, hs⟩ := (Option.any_eq_true _ _).mp hany
  exact ⟨s, hrun, of_decide_eq_true hs⟩

/-! ## Downstream -/

/-- The server creates a second link only for a late copy. -/
theorem server_one_link {ok : System → SystemEvent → Prop} (h : Reachable ok s)
    (hok : ∀ s e, ok s e → NoLateCreate c s e) : (s.server.base.linksOf c).length ≤ 1 := by
  refine h.invariant (I := fun s => (s.server.base.linksOf c).length ≤ 1) ?_ ?_
  · intro s hstart
    obtain ⟨clientTime, serverTime, trunkSockets, linkFabric, rfl⟩ := hstart
    exact Nat.zero_le 1
  · exact fun s e s' hs hone hoke hstep =>
      ((at_most_once_step (reachable_inv hs) hone hstep).mpr (hok s e hoke)).1

/-- What a link of the client has written for `c` comes from one link of the server. -/
def SingleSource (c : ConnectID) (s : System) : Prop :=
  ∀ reg ∈ s.client.base.linksOf c, reg.link.written = [] ∨
    ∃ r ∈ s.server.base.linksOf c, reg.link.written <+: r.link.readLog

instance (c : ConnectID) (s : System) : Decidable (SingleSource c s) :=
  inferInstanceAs (Decidable (∀ reg ∈ s.client.base.linksOf c, _))

/-- **Downstream stream integrity.**  As long as no late `CreateConnect` is
accepted, the bytes the client writes to the user are the beginning of the bytes
read from one single link of the server. -/
theorem downstream_integrity (hreach : Reachable (NoLateCreate c) s)
    (hcount : ∀ r ∈ s.server.base.linksOf c, r.allocated < 4294967294) : SingleSource c s := by
  intro reg hreg
  have hone := server_one_link hreach fun _ _ hok => hok
  exact (reachable_inv hreach).linked.symm.stream hone hcount hreg

/-- The server reads the byte A, which comes out at the client. -/
def downstreamByte : List SystemEvent :=
  connecting ++ [.serverAsio 0 (.readDone 0 ⟨false, [65]⟩) 0, .serverAsio 0 (.readHandler 0) 0,
    .toClient 1 0, .clientAsio 0 (.timerHandler 0) 0, .clientAsio 0 (.writeDone 0 ⟨false, 1⟩) 0]

/-- The server reads A and then B and C; the second packet arrives before the first one,
which arrives twice. -/
def downstreamSwapped : List SystemEvent :=
  connecting ++ [.serverAsio 0 (.readDone 0 ⟨false, [65]⟩) 0, .serverAsio 0 (.readHandler 0) 0,
    .serverAsio 0 (.readDone 0 ⟨false, [66, 67]⟩) 0, .serverAsio 0 (.readHandler 0) 0,
    .toClient 2 0, .toClient 1 0, .toClient 1 0, .clientAsio 0 (.timerHandler 0) 0,
    .clientAsio 0 (.writeDone 0 ⟨false, 3⟩) 0]

/-- Two chunks in the wrong order, the second twice: each byte is written once. -/
theorem downstream_integrity_swapped :
    ∃ s, run step loopback downstreamSwapped = some s ∧ SingleSource (.ofByte 1) s ∧
      (s.client.base.linksOf (.ofByte 1)).map (fun reg => reg.link.written) =
        [[65, 66, 67]] := by
  have hany : (run step loopback downstreamSwapped).any (fun s =>
      (∀ r ∈ s.server.base.linksOf (.ofByte 1), r.allocated < 4294967294) ∧
        (s.client.base.linksOf (.ofByte 1)).map (fun reg => reg.link.written) =
          [[65, 66, 67]]) = true := by
    decide +kernel
  obtain ⟨s, hrun, hs⟩ := (Option.any_eq_true _ _).mp hany
  obtain ⟨hcount, hwritten⟩ := of_decide_eq_true hs
  have hreach : Reachable (NoLateCreate (.ofByte 1)) s :=
    .of_run (.start start_loopback) (by decide +kernel) hrun
  exact ⟨s, hrun, downstream_integrity hreach hcount, hwritten⟩

/-- The first link of the server sends A and is removed; a copy of
`CreateConnect` makes a second one, which sends X and Y. -/
def mixedStream : List SystemEvent :=
  downstreamByte ++ [.clientAsio 0 (.writeHandler 0) 0, .serverAsio 0 (.readDone 0 ⟨true, []⟩) 0,
    .serverAsio 0 (.readHandler 0) 0, .serverAsio 0 (.timerHandler 0) 0,
    .serverAsio 0 .closeCheck 0, .toServer 0 0 localhost 0,
    .serverAsio 1 (.resolved 0 (some [localhost])) 0, .serverAsio 1 (.connected 0 false) 0,
    .serverAsio 1 (.readDone 0 ⟨false, [88]⟩) 0, .serverAsio 1 (.readHandler 0) 0,
    .serverAsio 1 (.readDone 0 ⟨false, [89]⟩) 0, .serverAsio 1 (.readHandler 0) 0,
    .toClient 5 0, .clientAsio 0 (.timerHandler 0) 0, .clientAsio 0 (.writeDone 0 ⟨false, 1⟩) 0]

/-- The user gets A of the first link and Y of the second. -/
theorem mixed_sources :
    ∃ s, run step loopback mixedStream = some s ∧
      Always step (fun s e _ => GeneratesOnce (.ofByte 1) s e) loopback mixedStream ∧
      (∀ r ∈ s.server.base.linksOf (.ofByte 1), r.allocated < 4294967294) ∧
      (s.client.base.linksOf (.ofByte 1)).map (fun reg => reg.link.written) = [[65, 89]] ∧
      ¬ SingleSource (.ofByte 1) s := by
  have hany : (run step loopback mixedStream).any (fun s =>
      (∀ r ∈ s.server.base.linksOf (.ofByte 1), r.allocated < 4294967294) ∧
        (s.client.base.linksOf (.ofByte 1)).map (fun reg => reg.link.written) = [[65, 89]] ∧
        ¬ SingleSource (.ofByte 1) s) = true := by
    decide +kernel
  obtain ⟨s, hrun, hs⟩ := (Option.any_eq_true _ _).mp hany
  exact ⟨s, hrun, by decide +kernel, of_decide_eq_true hs⟩

end System
