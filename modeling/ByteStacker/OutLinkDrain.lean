import ByteStacker.OutLinkChunks

/-!
# What the drain takes

`FillNetworkBuffer` moves chunks from the map to the network buffer, and at its
two stop tests it clears the map.  Stop points move both ways, stale chunks
arrive and gaps open and close, but a stop point in force always lies above
every chunk of the map (`Wanted`).  So the map is empty whenever it is cleared,
and the drain takes exactly the run of consecutive chunks that starts at the
awaited index (`Drains`).

Here `RequestWrite` may be called at any moment, not only by the handlers that
hold the write token.
-/

namespace OutLink

open Transition

variable {l l' : OutLink}

/-! ## The chunks of the map are wanted -/

/-- A stop point in force lies above every chunk of the map. -/
def Wanted (l : OutLink) : Prop :=
  l.stopWriteChunkId ≠ kUndefinedChunkID →
    ∀ c ∈ l.writeChunks.entries, c.1 < l.stopWriteChunkId

/-- Whether the chunks are wanted is a matter of the chunks and the stop point. -/
theorem chunkProperty_wanted : ChunkProperty Wanted where
  congr := by
    intro l m hs h
    unfold Wanted
    rw [hs.stopWriteChunkId, hs.writeChunks]
    exact h
  finish := fun l _ _ _ c hc => absurd hc (by simp [finishFill])
  take := fun l data rest h _ _ hdef c hc => h hdef c (List.mem_of_mem_tail hc)

/-- A chunk at or behind the stop point is refused. -/
theorem wanted_sendData (h : Wanted l) (chunkId : UInt32) (data : Bytes) :
    (l.sendData chunkId data).Wanted := by
  have hout := sendData_outcome l chunkId data
  generalize l.sendData chunkId data = after at hout ⊢
  cases hout with
  | stale _ => exact h
  | afterStop _ _ _ => exact h
  | duplicate _ _ _ => exact h
  | stored _ hopen hnew timers _ =>
      intro hdef c hc
      rcases (SortedMap.mem_insert_new hnew).mp hc with rfl | hc
      · exact hopen.resolve_left hdef
      · exact h hdef c hc

/-- A stop clears away what it makes unwanted. -/
theorem wanted_stop (l : OutLink) (n : UInt32) : (l.stop n).Wanted := by
  by_cases hn : n ≤ l.nextWriteChunkId
  · rw [stop_atOnce hn]
    exact fun _ c hc => absurd hc (by simp)
  · rw [stop_later (UInt32.not_le.mp hn)]
    intro _ c hc
    have hkept := (List.mem_filter.mp hc).2
    exact UInt32.not_le.mp (by simpa using hkept)

/-- A new link has no chunks. -/
theorem wanted_fresh (h : Fresh l) : Wanted l := by
  refine chunkProperty_wanted.fresh ?_ ?_ h
  · exact fun _ c hc => absurd hc (by simp [createAccepted])
  · exact fun address port _ c hc => absurd hc (by simp [createAddress])

/-- Every chunk of the map is at or behind the awaited index and below the stop
point. -/
structure ChunkMap (l : OutLink) : Prop extends Reassembly l where
  wanted : Wanted l

/-- The invariant of the map is a matter of the chunks and the stop point. -/
theorem chunkProperty_chunkMap : ChunkProperty ChunkMap where
  congr := fun l m hs h =>
    ⟨chunkProperty_reassembly.congr l m hs h.toReassembly,
      chunkProperty_wanted.congr l m hs h.wanted⟩
  finish := fun l h hstop =>
    ⟨chunkProperty_reassembly.finish l h.toReassembly hstop,
      chunkProperty_wanted.finish l h.wanted hstop⟩
  take := fun l data rest h hopen hentries =>
    ⟨chunkProperty_reassembly.take l data rest h.toReassembly hopen hentries,
      chunkProperty_wanted.take l data rest h.wanted hopen hentries⟩

/-- **Every event keeps the map in order.** -/
theorem chunkMap_step {e : LinkEvent} (h : ChunkMap l) (hstep : l.step e = some l') :
    l'.ChunkMap := by
  cases e with
  | asio e =>
      obtain ⟨⟨m, call⟩, hm, rfl⟩ := Option.map_eq_some_iff.mp hstep
      exact chunkProperty_chunkMap.asioStep h hm
  | sendData chunkId data =>
      cases hstep
      exact ⟨reassembly_sendData h.toReassembly chunkId data,
        wanted_sendData h.wanted chunkId data⟩
  | stop n =>
      cases hstep
      exact ⟨reassembly_stop h.toReassembly n, wanted_stop l n⟩

/-- **Nothing is left to clear.**  Where the stop point is reached the map is
empty: its chunks would lie at or behind the awaited index and below the stop
point. -/
theorem ChunkMap.stopped_empty (h : ChunkMap l) (hstop : l.stopReached = true) :
    l.writeChunks.entries = [] := by
  obtain ⟨hdef, hreached⟩ : l.stopWriteChunkId ≠ kUndefinedChunkID ∧
      l.stopWriteChunkId ≤ l.nextWriteChunkId := by simpa [stopReached] using hstop
  rw [List.eq_nil_iff_forall_not_mem]
  intro c hc
  have hle : l.stopWriteChunkId ≤ c.1 := UInt32.le_trans hreached (h.keys c hc)
  exact absurd hle (UInt32.not_le.mpr (h.wanted hdef c hc))

/-! ## The run that is drained -/

/-- **What a drain does**: it takes the chunks `taken`, numbered consecutively
from the awaited index, and leaves the others in the map. -/
structure Drains (l m : OutLink) (taken : List (UInt32 × Bytes)) : Prop where
  consecutive : Enumerated (fun k => l.nextWriteChunkId + UInt32.ofNat k) taken
  kept : l.writeChunks.entries = taken ++ m.writeChunks.entries
  missing : m.writeChunks.contains m.nextWriteChunkId = false
  next : m.nextWriteChunkId = l.nextWriteChunkId + UInt32.ofNat taken.length
  buffer : m.networkWriteBuffer = l.networkWriteBuffer ++ taken.flatMap Prod.snd
  stopped : m.stopAfterAllWrite = (l.stopAfterAllWrite || m.stopReached)
  stopPoint : m.stopWriteChunkId = l.stopWriteChunkId
  asserts : m.failedAsserts = l.failedAsserts

/-- The drain ends where the next chunk is missing. -/
theorem Drains.none (hmissing : l.writeChunks.contains l.nextWriteChunkId = false)
    (hopen : l.stopReached = false) : Drains l l [] where
  consecutive := .nil
  kept := rfl
  missing := hmissing
  next := by simp
  buffer := by simp
  stopped := by simp [hopen]
  stopPoint := rfl
  asserts := rfl

/-- The drain ends at the stop point, where the map is empty. -/
theorem Drains.finish (h : ChunkMap l) (hstop : l.stopReached = true) :
    Drains l l.finishFill [] where
  consecutive := .nil
  kept := h.stopped_empty hstop
  missing := SortedMap.contains_eq_false_iff.mpr (by simp [finishFill])
  next := by simp [finishFill]
  buffer := by simp [finishFill]
  stopped := by
    have hsame : l.finishFill.stopReached = l.stopReached := rfl
    rw [hsame, hstop, Bool.or_true]
    rfl
  stopPoint := rfl
  asserts := rfl

/-- One more chunk is taken first. -/
theorem Drains.cons {m : OutLink} {data : Bytes} {rest taken : List (UInt32 × Bytes)}
    (hentries : l.writeChunks.entries = (l.nextWriteChunkId, data) :: rest)
    (h : Drains (l.takeChunk l.nextWriteChunkId data) m taken) :
    Drains l m ((l.nextWriteChunkId, data) :: taken) where
  consecutive := by
    have hshift : (fun k => l.nextWriteChunkId + 1 + UInt32.ofNat k) =
        fun k => l.nextWriteChunkId + UInt32.ofNat (k + 1) := by
      funext k
      rw [UInt32.ofNat_add, UInt32.add_assoc, UInt32.add_comm 1]
      rfl
    exact (hshift ▸ h.consecutive).cons data (by simp)
  kept := by
    have hrest : rest = taken ++ m.writeChunks.entries := by
      simpa [takeChunk, hentries] using h.kept
    rw [hentries, hrest, List.cons_append]
  missing := h.missing
  next := by
    have hnext := h.next
    simp only [takeChunk] at hnext
    rw [hnext, List.length_cons, UInt32.ofNat_add, UInt32.add_assoc, UInt32.add_comm 1]
    rfl
  buffer := by simpa [takeChunk] using h.buffer
  stopped := h.stopped
  stopPoint := h.stopPoint
  asserts := h.asserts

/-- **The loop takes out all it can**, when it may take as many chunks as there are. -/
theorem fillLoop_drains {fuel : Nat} (hfuel : l.writeChunks.entries.length ≤ fuel)
    (h : ChunkMap l) (hopen : l.stopReached = false) :
    ∃ taken, Drains l (fillLoop fuel l) taken := by
  induction fuel generalizing l with
  | zero =>
      have hnil : l.writeChunks.entries = [] := List.eq_nil_of_length_eq_zero (by omega)
      exact ⟨[], .none (SortedMap.contains_eq_false_iff.mpr (by simp [hnil])) hopen⟩
  | succ fuel ih =>
      unfold fillLoop
      split
      · rename_i hnil
        exact ⟨[], .none (SortedMap.contains_eq_false_iff.mpr (by simp [hnil])) hopen⟩
      · rename_i id data rest hentries
        have hkey : l.nextWriteChunkId ≤ id := h.keys (id, data) (by simp [hentries])
        simp only [hkey, decide_true, assertThat_true]
        split
        · -- the first key lies above the awaited index, so all keys do
          rename_i hne
          refine ⟨[], .none (SortedMap.contains_eq_false_iff.mpr fun v hmem => ?_) hopen⟩
          exact hne (UInt32.le_antisymm (SortedMap.begin_le hentries hmem) hkey)
        · rename_i hid
          have hid : id = l.nextWriteChunkId := by simpa using hid
          subst hid
          have htaken := chunkProperty_chunkMap.take l data rest h hopen hentries
          split
          · rename_i hstop
            exact ⟨_, (Drains.finish htaken hstop).cons hentries⟩
          · rename_i hstop
            have hlen :
                (l.takeChunk l.nextWriteChunkId data).writeChunks.entries.length ≤ fuel := by
              simp only [takeChunk, SortedMap.entries_eraseBegin, hentries, List.tail_cons]
              simp only [hentries, List.length_cons] at hfuel
              omega
            obtain ⟨taken, hdrains⟩ := ih hlen htaken (by simpa using hstop)
            exact ⟨_, hdrains.cons hentries⟩

/-- **`FillNetworkBuffer`**, from every state of the invariant. -/
theorem fillNetworkBuffer_drains (h : ChunkMap l) :
    ∃ taken, Drains l l.fillNetworkBuffer taken := by
  unfold fillNetworkBuffer
  split
  · rename_i hstop
    exact ⟨[], .finish h hstop⟩
  · rename_i hopen
    exact fillLoop_drains (Nat.le_refl _) h (by simpa using hopen)

/-- Below the sentinel the awaited index does not wrap around. -/
theorem Drains.next_toNat {m : OutLink} {taken : List (UInt32 × Bytes)} (h : Drains l m taken)
    (hids : ∀ c ∈ l.writeChunks.entries, c.1 < kUndefinedChunkID) :
    m.nextWriteChunkId.toNat = l.nextWriteChunkId.toNat + taken.length := by
  have hnext := UInt32.toNat_lt l.nextWriteChunkId
  have hroom : l.nextWriteChunkId.toNat + taken.length < 4294967296 := by
    by_contra hover
    -- the run would pass through the sentinel
    have hp : 4294967295 - l.nextWriteChunkId.toNat < taken.length := by omega
    have hmem : taken[4294967295 - l.nextWriteChunkId.toNat] ∈ l.writeChunks.entries := by
      rw [h.kept]
      exact List.mem_append_left _ (List.getElem_mem hp)
    have hlt := UInt32.lt_iff_toNat_lt.mp (hids _ hmem)
    rw [h.consecutive.fst_getElem hp, UInt32.toNat_add, UInt32.toNat_ofNat'] at hlt
    simp only [kUndefinedChunkID, UInt32.reduceToNat] at hlt
    omega
  rw [h.next, UInt32.toNat_add, UInt32.toNat_ofNat']
  omega

/-- The run is maximal: its successor is not in the map. -/
theorem Drains.maximal {m : OutLink} {taken : List (UInt32 × Bytes)} (h : Drains l m taken)
    (hids : ∀ c ∈ l.writeChunks.entries, c.1 < kUndefinedChunkID) (data : Bytes) :
    (m.nextWriteChunkId, data) ∉ l.writeChunks.entries := by
  intro hmem
  rw [h.kept] at hmem
  rcases List.mem_append.mp hmem with htaken | hleft
  · obtain ⟨k, hk, _, hnum⟩ := h.consecutive.mem_position htaken
    have hend := h.next_toNat hids
    have hbound := UInt32.toNat_lt m.nextWriteChunkId
    have hplace := congrArg UInt32.toNat hnum
    rw [UInt32.toNat_add, UInt32.toNat_ofNat'] at hplace
    simp only at hplace
    omega
  · exact SortedMap.contains_eq_false_iff.mp h.missing data hleft

/-! ## The assertion of the drain -/

/-- The assertion of `FillNetworkBuffer` has not failed. -/
def FillAsserted (l : OutLink) : Prop := .fillNetworkBuffer ∉ l.failedAsserts

/-- Other assertions do not count. -/
theorem fillAsserted_assertThat (h : FillAsserted l) (site : AssertSite)
    (hsite : site ≠ .fillNetworkBuffer) (cond : Bool) : (l.assertThat site cond).FillAsserted := by
  cases cond with
  | true => exact h
  | false =>
      intro hmem
      rcases List.mem_append.mp hmem with hmem | hmem
      · exact h hmem
      · exact hsite (List.mem_singleton.mp hmem).symm

/-- The assertion of the fill loop holds in every turn of the write loop. -/
theorem fillAsserted_requestWrite (hc : ChunkMap l) (h : FillAsserted l) :
    l.requestWrite.FillAsserted := by
  have hbefore := fillAsserted_assertThat h .requestWrite (by decide) l.writeProcessing
  have hchunks : (l.assertThat .requestWrite l.writeProcessing).ChunkMap := by
    obtain ⟨fails, heq⟩ := l.assertThat_eq .requestWrite l.writeProcessing
    rw [heq]
    exact chunkProperty_chunkMap.congr l _ (by constructor <;> rfl) hc
  unfold requestWrite
  generalize l.assertThat .requestWrite l.writeProcessing = m at hbefore hchunks ⊢
  obtain ⟨taken, hdrains⟩ := fillNetworkBuffer_drains hchunks
  have hfilled : m.fillNetworkBuffer.FillAsserted := by
    rw [FillAsserted, hdrains.asserts]
    exact hbefore
  simp only
  generalize m.fillNetworkBuffer = filled at hfilled ⊢
  split
  · exact hbefore
  · split
    · split
      · exact hfilled
      · exact hfilled
    · exact hfilled

/-- A read has nothing to do with it. -/
theorem fillAsserted_requestRead (h : FillAsserted l) : l.requestRead.FillAsserted :=
  fillAsserted_assertThat h .requestRead (by decide) l.readProcessing

/-- It holds when the loops start. -/
theorem fillAsserted_startLoops (hc : ChunkMap l) (h : FillAsserted l) :
    l.startLoops.FillAsserted := by
  have hread : FillAsserted ({ l with readProcessing := true, connected := true } :
      OutLink).requestRead := fillAsserted_requestRead h
  have hchunks := chunkProperty_chunkMap.congr _ _
    (sameChunks_requestRead { l with readProcessing := true, connected := true })
    (chunkProperty_chunkMap.congr l _ (by constructor <;> rfl) hc)
  exact fillAsserted_requestWrite
    (chunkProperty_chunkMap.congr _ _ (by constructor <;> rfl) hchunks) hread

/-- Nor has a completed read anything to do with it. -/
theorem fillAsserted_readHandler (h : FillAsserted l) (r : ReadResult) :
    (l.requestReadProcessing r).1.FillAsserted := by
  have hbefore := fillAsserted_assertThat h .requestReadProcessing (by decide)
    (r.data = [] ∨ l.hoster.isSome)
  unfold requestReadProcessing
  generalize l.assertThat .requestReadProcessing (r.data = [] ∨ l.hoster.isSome) = m at hbefore ⊢
  simp only
  split
  · exact hbefore
  · exact fillAsserted_requestRead hbefore

/-- It holds after a completed write. -/
theorem fillAsserted_writeHandler (hc : ChunkMap l) (h : FillAsserted l) (r : WriteResult) :
    (l.requestWriteProcessing r).FillAsserted := by
  obtain ⟨running, fails, hsites, heq⟩ := l.requestWriteProcessing_shape r
  have hfails : .fillNetworkBuffer ∉ fails := fun hmem => (hsites _ hmem).elim (by simp) h
  rcases heq with heq | heq
  · rw [heq]
    exact hfails
  · rw [heq]
    exact fillAsserted_requestWrite
      (chunkProperty_chunkMap.congr l _ (by constructor <;> rfl) hc) hfails

/-- It holds after every asio event. -/
theorem fillAsserted_asioStep {e : AsioEvent} {call : Option HosterCall} (hc : ChunkMap l)
    (h : FillAsserted l) (hstep : l.asioStep e = some (l', call)) : l'.FillAsserted := by
  have hcongr : ∀ m : OutLink, SameChunks l m → m.ChunkMap :=
    fun m hs => chunkProperty_chunkMap.congr l m hs hc
  have hconnect : ∀ m : OutLink, m.FillAsserted → m.requestConnect.FillAsserted := by
    intro m hm
    unfold requestConnect
    split <;> exact hm
  cases asioStep_outcome hstep with
  | @resolved i x results hx =>
      cases results with
      | none => exact h
      | some points => exact hconnect _ h
  | @connected i x error hx =>
      cases error with
      | true => exact hconnect _ h
      | false => exact fillAsserted_startLoops (hcongr _ (by constructor <;> rfl)) h
  | readDone hx hle => exact h
  | @readHandler i r _ _ hx heq =>
      have hread := fillAsserted_readHandler (l := { l with reads := l.reads.eraseIdx i }) h r
      rwa [heq] at hread
  | writeDone hx hle => exact h
  | @writeHandler i size r hx =>
      exact fillAsserted_writeHandler (l := { l with writes := l.writes.eraseIdx i })
        (hcongr _ (by constructor <;> rfl)) h r
  | timerExpire hx => exact h
  | @timerHandler i t hx ht =>
      exact fillAsserted_requestWrite (l := { l with timers := l.timers.eraseIdx i })
        (hcongr _ (by constructor <;> rfl)) h
  | closeCheck hpos heq =>
      rcases checkReadyCloseProcessing_cases { l with posts := l.posts - 1 } with
        ⟨_, _, _, hclose⟩ | ⟨_, hclose⟩
      · rw [hclose] at heq
        cases heq
        exact h
      · rw [hclose] at heq
        cases heq
        exact h

/-- It holds after every call of the trunk. -/
theorem fillAsserted_step {e : LinkEvent} (hc : ChunkMap l) (h : FillAsserted l)
    (hstep : l.step e = some l') : l'.FillAsserted := by
  cases e with
  | asio e =>
      obtain ⟨⟨m, call⟩, hm, rfl⟩ := Option.map_eq_some_iff.mp hstep
      exact fillAsserted_asioStep hc h hm
  | sendData chunkId data =>
      cases hstep
      have hout := sendData_outcome l chunkId data
      generalize l.sendData chunkId data = after at hout ⊢
      cases hout with
      | stale _ => exact h
      | afterStop _ _ _ => exact fillAsserted_assertThat h .sendData (by decide) false
      | duplicate _ _ _ => exact h
      | stored _ _ _ timers _ => exact h
  | stop n =>
      cases hstep
      by_cases hn : n ≤ l.nextWriteChunkId
      · rw [stop_atOnce hn]
        exact h
      · rw [stop_later (UInt32.not_le.mp hn)]
        exact h

/-! ## Runs -/

/-- An event of a link, or a call of `RequestWrite` out of turn. -/
inductive DrainEvent
  | link (e : LinkEvent)
  | requestWrite
  deriving DecidableEq

def drainStep (l : OutLink) : DrainEvent → Option OutLink
  | .link e => l.step e
  | .requestWrite => some l.requestWrite

/-- A state some run from `Run` on leads to. -/
def DrainReachable : OutLink → Prop := Reach drainStep (fun _ _ => True) Fresh

/-- A new link has filled nothing. -/
theorem fillAsserted_fresh (h : Fresh l) : FillAsserted l := by
  obtain ⟨cnt, rfl | ⟨address, port, rfl⟩⟩ := h
  · have hchunks : ChunkMap { createAccepted with hoster := some cnt } :=
      ⟨⟨rfl, rfl, fun e he => absurd he (by simp [createAccepted])⟩,
        fun _ c hc => absurd hc (by simp [createAccepted])⟩
    exact fillAsserted_startLoops hchunks (by simp [FillAsserted, createAccepted])
  · simp [FillAsserted, run, createAddress]

/-- The two invariants of every reachable state. -/
theorem DrainReachable.chunkMap (h : DrainReachable l) : ChunkMap l ∧ FillAsserted l := by
  refine Reach.invariant (I := fun l => ChunkMap l ∧ FillAsserted l) h ?_ ?_
  · intro s hs
    exact ⟨⟨reassembly_fresh hs, wanted_fresh hs⟩, fillAsserted_fresh hs⟩
  · intro s e s' _ hinv _ hstep
    obtain ⟨hc, hf⟩ := hinv
    cases e with
    | link e => exact ⟨chunkMap_step hc hstep, fillAsserted_step hc hf hstep⟩
    | requestWrite =>
        cases hstep
        exact ⟨chunkProperty_chunkMap.requestWrite hc, fillAsserted_requestWrite hc hf⟩

/-- **Chunk map and drain**, seen in one state. -/
structure ExactDrain (l : OutLink) : Prop where
  keys : ∀ c ∈ l.writeChunks.entries, l.nextWriteChunkId ≤ c.1 ∧
    (l.stopWriteChunkId ≠ kUndefinedChunkID → c.1 < l.stopWriteChunkId)
  asserted : .fillNetworkBuffer ∉ l.failedAsserts
  /-- The next call moves a run of consecutive chunks and keeps all others, where
  it clears the map too.  Without a chunk 2³²-1 the index does not wrap around,
  and the run is maximal. -/
  drains : ∃ taken, Drains l l.fillNetworkBuffer taken ∧
    ((∀ c ∈ l.writeChunks.entries, c.1 < kUndefinedChunkID) →
      l.fillNetworkBuffer.nextWriteChunkId.toNat = l.nextWriteChunkId.toNat + taken.length ∧
      ∀ data, (l.fillNetworkBuffer.nextWriteChunkId, data) ∉ l.writeChunks.entries)

/-- **Exact drain.**  In every state that handlers, `SendData`, `Stop` and calls of
`RequestWrite` lead to, the keys of the map are at or behind the awaited index
and below a stop point in force, the assertion of `FillNetworkBuffer` holds, and
the function moves exactly the maximal run of consecutive chunks. -/
theorem exact_drain (h : DrainReachable l) : ExactDrain l := by
  obtain ⟨hchunks, hasserted⟩ := h.chunkMap
  obtain ⟨taken, hdrains⟩ := fillNetworkBuffer_drains hchunks
  refine ⟨fun c hc => ⟨hchunks.keys c hc, fun hdef => hchunks.wanted hdef c hc⟩, hasserted,
    taken, hdrains, fun hids => ?_⟩
  exact ⟨hdrains.next_toNat hids, hdrains.maximal hids⟩

/-- Chunks 1, 0 and 3 are in the map, a stop point is set and moved up. -/
theorem exact_drain_gap :
    ∃ l, Transition.run drainStep (createAccepted.run (.ofByte 1))
        [.link (.sendData 1 [66]), .link (.stop 4), .link (.sendData 0 [65]), .link (.stop 9),
          .link (.sendData 3 [68])] = some l ∧
      l.fillNetworkBuffer.networkWriteBuffer = [65, 66] ∧
      l.fillNetworkBuffer.writeChunks.entries = [(3, [68])] ∧ ExactDrain l := by
  have hrun : Transition.run drainStep (createAccepted.run (.ofByte 1))
      [.link (.sendData 1 [66]), .link (.stop 4), .link (.sendData 0 [65]), .link (.stop 9),
        .link (.sendData 3 [68])] = some _ := rfl
  refine ⟨_, hrun, rfl, rfl, exact_drain ?_⟩
  exact .of_run (.start ⟨.ofByte 1, Or.inl rfl⟩) (always_of_mem fun _ _ => trivial) hrun

end OutLink
