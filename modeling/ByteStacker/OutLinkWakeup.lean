import ByteStacker.OutLinkChunks

/-!
# Waking the writer

A writer with nothing to do waits ten seconds on `write_idle_timer_`.  Three
functions have to wake it at once by cancelling the wait: `SendData` when it
files the next chunk, `Stop` when the stop point is reached already, and
`CancelReadWrite`.

`Awake` says that a link which has something to do, the next chunk or a stop
point reached, is not left waiting, and `Dozing` that one left waiting has
nothing in its buffer and no order to end.  Both follow from `asioStep_waiting`:
an asio event leaves a waiting writer alone or runs it.
-/

namespace OutLink

open Transition

variable {l l' : OutLink}

/-- A link that can drain its next chunk, or that has reached its stop point,
is not waiting for the idle timeout. -/
structure Awake (l : OutLink) : Prop where
  chunk : l.writeChunks.contains l.nextWriteChunkId = true → .waiting ∉ l.timers
  stopped : l.stopReached = true → .waiting ∉ l.timers

/-- A cancelled timer leaves no wait going on. -/
theorem not_waiting_abortWait (ts : List WaitStatus) : .waiting ∉ ts.map abortWait := by
  intro hmem
  obtain ⟨t, _, ht⟩ := List.mem_map.mp hmem
  cases t <;> simp [abortWait] at ht

/-- Whoever does not wait is awake. -/
theorem Awake.of_cancelled (h : .waiting ∉ l.timers) : l.Awake :=
  ⟨fun _ => h, fun _ => h⟩

/-- Being awake depends on the chunks, the stop point and the waits only. -/
theorem Awake.congr {m : OutLink} (h : Awake l) (hs : SameChunks l m)
    (htimers : .waiting ∈ m.timers → .waiting ∈ l.timers) : m.Awake where
  chunk := by
    rw [hs.writeChunks, hs.nextWriteChunkId]
    exact fun hc hm => h.chunk hc (htimers hm)
  stopped := by
    have hsame : m.stopReached = l.stopReached := by
      unfold stopReached
      rw [hs.stopWriteChunkId, hs.nextWriteChunkId]
    rw [hsame]
    exact fun hc hm => h.stopped hc (htimers hm)

/-- The loop of `FillNetworkBuffer` ends only where the next chunk is missing
or the stop point is reached. -/
theorem fillLoop_complete {fuel : Nat} (hfuel : l.writeChunks.entries.length ≤ fuel)
    (hr : Reassembly l) (hopen : l.stopReached = false) :
    (fillLoop fuel l).writeChunks.contains (fillLoop fuel l).nextWriteChunkId = false ∧
      ((fillLoop fuel l).stopReached = true → (fillLoop fuel l).stopAfterAllWrite = true) := by
  induction fuel generalizing l with
  | zero =>
      have hnil : l.writeChunks.entries = [] := List.eq_nil_of_length_eq_zero (by omega)
      refine ⟨SortedMap.contains_eq_false_iff.mpr (by simp [fillLoop, hnil]), ?_⟩
      simp [fillLoop, hopen]
  | succ fuel ih =>
      unfold fillLoop
      split
      · rename_i hnil
        refine ⟨SortedMap.contains_eq_false_iff.mpr (by simp [hnil]), ?_⟩
        simp [hopen]
      · rename_i id data rest hentries
        obtain ⟨fails, heq⟩ := l.assertThat_eq .fillNetworkBuffer (l.nextWriteChunkId ≤ id)
        simp only [heq]
        split
        · -- the first key lies above the awaited index, so all keys do
          rename_i hne
          refine ⟨SortedMap.contains_eq_false_iff.mpr ?_, fun hs => ?_⟩
          · intro v hmem
            have hle : id ≤ l.nextWriteChunkId := SortedMap.begin_le hentries hmem
            have hge := hr.keys (id, data) (by simp [hentries])
            exact hne (UInt32.le_antisymm hle hge)
          · exact absurd (hopen.symm.trans hs) (by simp)
        · rename_i hid
          have hid : id = l.nextWriteChunkId := by simpa using hid
          subst hid
          have htaken := chunkProperty_reassembly.take { l with failedAsserts := fails } data rest
            ⟨hr.numbered, hr.next, hr.keys⟩ hopen hentries
          split
          · exact ⟨SortedMap.contains_eq_false_iff.mpr (by simp [finishFill]), fun _ => rfl⟩
          · rename_i hstop
            refine ih ?_ htaken (by simpa using hstop)
            simp only [takeChunk, SortedMap.entries_eraseBegin, hentries, List.tail_cons]
            simp only [hentries, List.length_cons] at hfuel
            omega

/-- The buffer is filled up to the first gap or the stop point, whichever comes first. -/
theorem fillNetworkBuffer_complete (hr : Reassembly l) :
    l.fillNetworkBuffer.writeChunks.contains l.fillNetworkBuffer.nextWriteChunkId = false ∧
      (l.fillNetworkBuffer.stopReached = true → l.fillNetworkBuffer.stopAfterAllWrite = true) := by
  unfold fillNetworkBuffer
  split
  · exact ⟨SortedMap.contains_eq_false_iff.mpr (by simp [finishFill]), fun _ => rfl⟩
  · rename_i hopen
    exact fillLoop_complete (Nat.le_refl _) hr (by simpa using hopen)

/-- `RequestWrite` waits only after it has drained all it can. -/
theorem awake_requestWrite (hr : Reassembly l) (htimers : l.timers = []) :
    l.requestWrite.Awake := by
  have hout := requestWrite_outcome l
  generalize l.requestWrite = after at hout ⊢
  cases hout with
  | aborted fails _ => exact .of_cancelled (not_waiting_abortWait _)
  | finished fails m _ hm _ _ => exact .of_cancelled (not_waiting_abortWait _)
  | idle fails m _ hm _ hall =>
      have hr' : Reassembly { l with failedAsserts := fails } := ⟨hr.numbered, hr.next, hr.keys⟩
      obtain ⟨hmissing, hstop⟩ := fillNetworkBuffer_complete hr'
      rw [← hm] at hmissing hstop
      refine ⟨fun hc => absurd (hmissing.symm.trans hc) (by simp), fun hs => ?_⟩
      exact absurd (hall.symm.trans (hstop hs)) (by simp)
  | writing fails m _ hm _ =>
      have hnone : m.startWrite.timers = [] := (sameLoops_filled hm).timers.trans htimers
      exact .of_cancelled (by simp [hnone])

/-- So does the write loop when it starts. -/
theorem awake_startLoops (hr : Reassembly l) (htimers : l.timers = []) : l.startLoops.Awake := by
  unfold startLoops requestRead
  simp only [assertThat_true]
  exact awake_requestWrite ⟨hr.numbered, hr.next, hr.keys⟩ htimers

/-- The read loop leaves the idle wait alone or cancels it. -/
theorem timers_readHandler (l : OutLink) (r : ReadResult) :
    ((l.requestReadProcessing r).1.timers = l.timers ∧
      (l.requestReadProcessing r).1.stopWriteImmediate = l.stopWriteImmediate) ∨
    (l.requestReadProcessing r).1.timers = l.timers.map abortWait := by
  obtain ⟨fails, heq⟩ := l.assertThat_eq .requestReadProcessing (r.data = [] ∨ l.hoster.isSome)
  unfold requestReadProcessing
  simp only [heq]
  split
  · exact Or.inr rfl
  · obtain ⟨fails', heq'⟩ := ({ l with
      failedAsserts := fails
      readLog := l.readLog ++ r.data } : OutLink).assertThat_eq .requestRead l.readProcessing
    unfold requestRead
    rw [heq']
    exact Or.inl ⟨rfl, rfl⟩

/-- **What an asio event does to a waiting writer**: nothing that concerns it, or
the writer runs. -/
inductive WaitOutcome (l : OutLink) : OutLink → Prop
  | kept {m : OutLink} (hsame : SameChunks l m)
      (hwait : .waiting ∈ m.timers → .waiting ∈ l.timers ∧
        m.networkWriteBuffer = l.networkWriteBuffer ∧
        m.stopWriteImmediate = l.stopWriteImmediate) :
      WaitOutcome l m
  | woken {m : OutLink} (hsame : SameChunks l m) (htimers : m.timers = []) :
      WaitOutcome l m.requestWrite

/-- Trying the next endpoint does not concern the writer. -/
theorem waiting_requestConnect (l : OutLink) :
    SameChunks l l.requestConnect ∧ l.requestConnect.timers = l.timers ∧
      l.requestConnect.networkWriteBuffer = l.networkWriteBuffer ∧
      l.requestConnect.stopWriteImmediate = l.stopWriteImmediate := by
  refine ⟨sameChunks_requestConnect l, ?_⟩
  unfold requestConnect
  split <;> exact ⟨rfl, rfl, rfl⟩

/-- **Every asio event** leaves the waiting writer alone, cancels its wait, or runs it. -/
theorem asioStep_waiting {e : AsioEvent} {call : Option HosterCall} (ho : Owned l)
    (hstep : l.asioStep e = some (l', call)) : WaitOutcome l l' := by
  cases asioStep_outcome hstep with
  | @resolved i x results hx =>
      cases results with
      | none => exact .kept (by constructor <;> rfl) fun hm => ⟨hm, rfl, rfl⟩
      | some points =>
          obtain ⟨hs, ht, hb, hi⟩ := waiting_requestConnect { l with
            resolves := l.resolves.eraseIdx i
            resolvedPoints := l.resolvedPoints ++ points }
          exact .kept ⟨hs.1, hs.2, hs.3, hs.4, hs.5⟩ fun hm => ⟨ht ▸ hm, hb, hi⟩
  | @connected i x error hx =>
      have hpos : 0 < l.resolves.length + l.connects.length := by
        have := (List.getElem?_eq_some_iff.mp hx).1
        omega
      cases error with
      | true =>
          obtain ⟨hs, ht, hb, hi⟩ := waiting_requestConnect { l with
            connects := l.connects.eraseIdx i
            resolvedPoints := l.resolvedPoints.tail }
          exact .kept ⟨hs.1, hs.2, hs.3, hs.4, hs.5⟩ fun hm => ⟨ht ▸ hm, hb, hi⟩
      | false =>
          exact .woken (m := { ({ l with
              connects := l.connects.eraseIdx i
              readProcessing := true
              connected := true } : OutLink).requestRead with writeProcessing := true })
            (by constructor <;> rfl) (ho.offline_empty (ho.setup_offline hpos)).2.2
  | readDone hx hle => exact .kept (by constructor <;> rfl) fun hm => ⟨hm, rfl, rfl⟩
  | @readHandler i r _ _ hx heq =>
      have hs := sameChunks_readHandler { l with reads := l.reads.eraseIdx i } r
      have hb := (buffer_readHandler { l with reads := l.reads.eraseIdx i } r).1
      have ht := timers_readHandler { l with reads := l.reads.eraseIdx i } r
      rw [heq] at hs hb ht
      refine .kept ⟨hs.1, hs.2, hs.3, hs.4, hs.5⟩ fun hm => ?_
      rcases ht with ⟨ht, hi⟩ | ht
      · exact ⟨ht ▸ hm, hb.networkWriteBuffer, hi⟩
      · exact absurd (ht ▸ hm) (not_waiting_abortWait _)
  | writeDone hx hle => exact .kept (by constructor <;> rfl) fun hm => ⟨hm, rfl, rfl⟩
  | @writeHandler i size r hx =>
      obtain ⟨hwp, hone, _, ht⟩ := ho.writing hx
      obtain ⟨hsize, _, hle⟩ := ho.buffer ⟨size, some r⟩ (by simp [hone])
      rcases requestWriteProcessing_cases { l with writes := l.writes.eraseIdx i } r hwp
        (hsize ▸ hle r rfl) with ⟨_, heq⟩ | ⟨_, _, heq⟩
      · rw [heq]
        exact .kept (by constructor <;> rfl) fun hm => ⟨hm, rfl, rfl⟩
      · rw [heq]
        exact .woken (by constructor <;> rfl) ht
  | @timerExpire i hx =>
      refine .kept (by constructor <;> rfl) fun hm => ⟨?_, rfl, rfl⟩
      rcases List.mem_or_eq_of_mem_set hm with hm | hm
      · exact hm
      · cases hm
  | timerHandler hx ht =>
      obtain ⟨_, _, herase, _⟩ := ho.idling hx
      exact .woken (by constructor <;> rfl) herase
  | closeCheck hpos heq =>
      rcases checkReadyCloseProcessing_cases { l with posts := l.posts - 1 } with
        ⟨_, _, _, hclose⟩ | ⟨_, hclose⟩
      · rw [hclose] at heq
        cases heq
        exact .kept (by constructor <;> rfl) fun hm => ⟨hm, rfl, rfl⟩
      · rw [hclose] at heq
        cases heq
        exact .kept (by constructor <;> rfl) fun hm => ⟨hm, rfl, rfl⟩

/-- **No lost wakeup, asio events.** -/
theorem awake_asioStep {e : AsioEvent} {call : Option HosterCall} (h : Awake l)
    (ho : Owned l) (hr : Reassembly l) (hstep : l.asioStep e = some (l', call)) : l'.Awake := by
  cases asioStep_waiting ho hstep with
  | kept hsame hwait => exact h.congr hsame fun hm => (hwait hm).1
  | woken hsame htimers =>
      exact awake_requestWrite (chunkProperty_reassembly.congr l _ hsame hr) htimers

/-- The awaited chunk cancels the wait when it arrives, any other one cannot be drained yet. -/
theorem awake_sendData (h : Awake l) (chunkId : UInt32) (data : Bytes) :
    (l.sendData chunkId data).Awake := by
  have hout := sendData_outcome l chunkId data
  generalize l.sendData chunkId data = after at hout ⊢
  cases hout with
  | stale _ => exact h
  | afterStop _ _ _ => exact h.congr (by constructor <;> rfl) id
  | duplicate _ _ _ => exact h
  | stored _ _ hnew timers htimers =>
      by_cases hid : chunkId = l.nextWriteChunkId
      · rw [if_pos hid] at htimers
        exact .of_cancelled (htimers ▸ not_waiting_abortWait _)
      · rw [if_neg hid] at htimers
        subst htimers
        refine ⟨fun hc => h.chunk ?_, h.stopped⟩
        obtain ⟨v, hv⟩ := SortedMap.contains_iff.mp hc
        rcases (SortedMap.mem_insert_new hnew).mp hv with heq | hv
        · exact absurd (congrArg Prod.fst heq).symm hid
        · exact SortedMap.contains_iff.mpr ⟨v, hv⟩

/-- A stop at the awaited index cancels the wait, a later one is not reached yet. -/
theorem awake_stop (h : Awake l) (n : UInt32) : (l.stop n).Awake := by
  by_cases hn : n ≤ l.nextWriteChunkId
  · rw [stop_atOnce hn]
    exact .of_cancelled (not_waiting_abortWait _)
  · rw [stop_later (UInt32.not_le.mp hn)]
    refine ⟨fun hc => h.chunk ?_, fun hs => ?_⟩
    · obtain ⟨v, hv⟩ := SortedMap.contains_iff.mp hc
      exact SortedMap.contains_iff.mpr ⟨v, List.mem_of_mem_filter hv⟩
    · simp [stopReached, hn] at hs

/-- **Every event keeps the link awake.** -/
theorem awake_step {e : LinkEvent} (h : Awake l) (ho : Owned l) (hr : Reassembly l)
    (hstep : l.step e = some l') : l'.Awake := by
  cases e with
  | asio e =>
      obtain ⟨⟨m, call⟩, hm, rfl⟩ := Option.map_eq_some_iff.mp hstep
      exact awake_asioStep h ho hr hm
  | sendData chunkId data => exact Option.some.inj hstep ▸ awake_sendData h chunkId data
  | stop n => exact Option.some.inj hstep ▸ awake_stop h n

/-- A link that has just been created waits for nothing. -/
theorem awake_fresh (h : Fresh l) : Awake l := by
  obtain ⟨cnt, rfl | ⟨address, port, rfl⟩⟩ := h
  · refine awake_startLoops (l := { createAccepted with hoster := some cnt }) ?_ rfl
    exact ⟨rfl, rfl, fun e he => absurd he (by simp [createAccepted])⟩
  · exact .of_cancelled (by simp [run, createAddress])

/-- **Dozing.**  The writer waits only when it has nothing in its buffer and was
not told to finish or to stop. -/
def Dozing (l : OutLink) : Prop :=
  .waiting ∈ l.timers → l.networkWriteBuffer = [] ∧ l.stopAfterAllWrite = false ∧
    l.stopWriteImmediate = false

/-- `RequestWrite` waits only with an empty buffer and nothing to finish. -/
theorem dozing_requestWrite (htimers : l.timers = []) : l.requestWrite.Dozing := by
  have hout := requestWrite_outcome l
  generalize l.requestWrite = after at hout ⊢
  cases hout with
  | aborted fails _ => exact fun hm => absurd hm (not_waiting_abortWait _)
  | finished fails m _ hm _ _ => exact fun hm => absurd hm (not_waiting_abortWait _)
  | idle fails m himm hm hbuffer hall =>
      exact fun _ => ⟨hbuffer, hall, (sameLoops_filled hm).stopWriteImmediate.trans himm⟩
  | writing fails m _ hm _ =>
      have hnone : m.startWrite.timers = [] := (sameLoops_filled hm).timers.trans htimers
      exact fun hwait => absurd (hnone ▸ hwait) List.not_mem_nil

/-- **Every event keeps this.** -/
theorem dozing_step {e : LinkEvent} (h : Dozing l) (ho : Owned l) (hstep : l.step e = some l') :
    l'.Dozing := by
  cases e with
  | asio e =>
      obtain ⟨⟨m, call⟩, hm, rfl⟩ := Option.map_eq_some_iff.mp hstep
      cases asioStep_waiting ho hm with
      | kept hsame hwait =>
          intro hmem
          obtain ⟨hbefore, hbuffer, himm⟩ := hwait hmem
          rw [hbuffer, hsame.stopAfterAllWrite, himm]
          exact h hbefore
      | woken _ htimers => exact dozing_requestWrite htimers
  | sendData chunkId data =>
      cases hstep
      have hout := sendData_outcome l chunkId data
      generalize l.sendData chunkId data = after at hout ⊢
      cases hout with
      | stale _ => exact h
      | afterStop _ _ _ => exact h
      | duplicate _ _ _ => exact h
      | stored _ _ _ timers htimers =>
          intro hmem
          by_cases hid : chunkId = l.nextWriteChunkId
          · rw [if_pos hid] at htimers
            exact absurd (htimers ▸ hmem) (not_waiting_abortWait _)
          · rw [if_neg hid] at htimers
            exact h (htimers ▸ hmem)
  | stop n =>
      cases hstep
      by_cases hn : n ≤ l.nextWriteChunkId
      · rw [stop_atOnce hn]
        exact fun hmem => absurd hmem (not_waiting_abortWait _)
      · rw [stop_later (UInt32.not_le.mp hn)]
        exact h

/-- A link that has just been created does not wait. -/
theorem dozing_fresh (h : Fresh l) : Dozing l := by
  obtain ⟨cnt, rfl | ⟨address, port, rfl⟩⟩ := h
  · unfold run startLoops requestRead
    simp only [createAccepted, if_true, assertThat_true]
    exact dozing_requestWrite rfl
  · exact fun hmem => absurd hmem (by simp [run, createAddress])

/-- **No lost wakeup.**  In every state a link reaches, an idle wait that is
neither cancelled nor expired means that there is nothing to write, that the
next chunk has not arrived, that the link was not told to stop, and that its
stop point, if there is one, still lies ahead. -/
theorem no_lost_wakeup {l₀ l : OutLink} {es : List LinkEvent} (hfresh : Fresh l₀)
    (hrun : Transition.run step l₀ es = some l) (hwait : .waiting ∈ l.timers) :
    l.networkWriteBuffer = [] ∧ l.writeChunks.contains l.nextWriteChunkId = false ∧
      l.stopAfterAllWrite = false ∧ l.stopWriteImmediate = false ∧
      (l.stopWriteChunkId = kUndefinedChunkID ∨ l.nextWriteChunkId < l.stopWriteChunkId) := by
  obtain ⟨_, _, hawake, hdozing⟩ : Owned l ∧ Reassembly l ∧ Awake l ∧ Dozing l := by
    refine run_invariant (I := fun l => Owned l ∧ Reassembly l ∧ Awake l ∧ Dozing l) ?_
      ⟨owned_fresh hfresh, reassembly_fresh hfresh, awake_fresh hfresh, dozing_fresh hfresh⟩ hrun
    intro s e s' h hstep
    obtain ⟨ho, hr, ha, hd⟩ := h
    exact ⟨owned_step ho hstep, reassembly_step hr hstep, awake_step ha ho hr hstep,
      dozing_step hd ho hstep⟩
  obtain ⟨hbuffer, hall, himm⟩ := hdozing hwait
  refine ⟨hbuffer, ?_, hall, himm, ?_⟩
  · exact Bool.not_eq_true _ ▸ fun hc => hawake.chunk hc hwait
  · by_contra hstop
    obtain ⟨hdef, hreached⟩ := not_or.mp hstop
    exact hawake.stopped (by simpa [stopReached] using ⟨hdef, UInt32.not_lt.mp hreached⟩) hwait

/-- A stop ahead and a chunk behind a gap leave the writer asleep. -/
theorem no_lost_wakeup_gap :
    ∃ l, Transition.run step (createAccepted.run (.ofByte 1))
        [.stop 2, .sendData 1 [66]] = some l ∧ l.timers = [.waiting] ∧
      l.writeChunks.contains l.nextWriteChunkId = false ∧
      (l.stopWriteChunkId = kUndefinedChunkID ∨ l.nextWriteChunkId < l.stopWriteChunkId) := by
  refine ⟨_, rfl, rfl, ?_⟩
  have hrun : Transition.run step (createAccepted.run (.ofByte 1))
      [.stop 2, .sendData 1 [66]] = some _ := rfl
  have h := no_lost_wakeup ⟨.ofByte 1, Or.inl rfl⟩ hrun (by decide +kernel)
  exact ⟨h.2.1, h.2.2.2.2⟩

end OutLink
