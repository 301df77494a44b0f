import ByteStacker.OutLinkDrain
import ByteStacker.Possibility
import ByteStacker.Simulation

/-!
# The writer can always catch up

A link that is at work, told no stop and spared write errors, never gets into a state from
which what it holds cannot come out.  Wherever it is (a write in flight, a write done, an
idle wait), it gets back to `RequestWrite`; this fills the buffer with all chunks up to the
first gap; and one more write that takes the whole buffer leaves nothing but the gap.  No
event on this way calls the hoster.
-/

namespace OutLink

variable {l l' m : OutLink}

/-- An asio event that does not call the hoster. -/
def quietStep (l : OutLink) (e : AsioEvent) : Option OutLink :=
  match l.asioStep e with
  | some (l', none) => some l'
  | _ => none

/-- A quiet step is an asio event without a call. -/
theorem quietStep_eq_some {e : AsioEvent} :
    l.quietStep e = some l' ↔ l.asioStep e = some (l', none) := by
  unfold quietStep
  split
  · next m hm => simp [hm]
  · next hnone =>
      refine iff_of_false (by simp) fun h => hnone l' h

/-- **At work.**  The write loop runs, nobody has stopped the link, and no write in flight
has failed. -/
structure Working (l : OutLink) : Prop where
  running : l.writeProcessing = true
  uncancelled : l.stopWriteImmediate = false
  unstopped : l.stopWriteChunkId = kUndefinedChunkID
  unfinished : l.stopAfterAllWrite = false
  unfailed : ∀ w ∈ l.writes, ∀ r, w.result = some r → r.error = false ∧ 0 < r.transferred

/-- At work, with no write in flight. -/
def AtRest (l : OutLink) : Prop :=
  l.writeProcessing = true ∧ l.stopWriteImmediate = false ∧
    l.stopWriteChunkId = kUndefinedChunkID ∧ l.stopAfterAllWrite = false ∧ l.writes.length = 0

instance (l : OutLink) : Decidable l.AtRest :=
  inferInstanceAs (Decidable (_ ∧ _))

/-- With no write in flight none can have failed. -/
theorem AtRest.working (h : AtRest l) : Working l := by
  obtain ⟨hrunning, huncancelled, hunstopped, hunfinished, hwrites⟩ := h
  refine ⟨hrunning, huncancelled, hunstopped, hunfinished, fun w hw => ?_⟩
  exact absurd (List.length_pos_of_mem hw) (by omega)

/-- Everything up to the first gap has been put out. -/
def Flushed (l : OutLink) : Prop :=
  l.networkWriteBuffer = [] ∧ l.writeChunks.contains l.nextWriteChunkId = false

/-- A chunk handed over does not stop the work. -/
theorem Working.sendData (h : Working l) (chunkId : UInt32) (data : Bytes) :
    (l.sendData chunkId data).Working := by
  have hout := sendData_outcome l chunkId data
  generalize l.sendData chunkId data = after at hout ⊢
  cases hout with
  | stale _ => exact h
  | afterStop _ _ _ => exact ⟨h.1, h.2, h.3, h.4, h.5⟩
  | duplicate _ _ _ => exact h
  | stored _ _ _ timers _ => exact ⟨h.1, h.2, h.3, h.4, h.5⟩

/-- The link comes to `RequestWrite`, with no operation of the write loop in flight. -/
structure Resumes (l m : OutLink) : Prop where
  working : Working m
  writes : m.writes = []
  timers : m.timers = []
  chunks : SameChunks l m

/-! ## `RequestWrite` -/

/-- The buffer is filled up to the first gap, which may be nothing. -/
theorem Working.filled (h : Working l) (hr : Reassembly l) {fails : List AssertSite}
    (hm : m = { l with failedAsserts := fails }.fillNetworkBuffer) :
    m.writeChunks.contains m.nextWriteChunkId = false ∧
      m.stopWriteChunkId = kUndefinedChunkID ∧ m.stopAfterAllWrite = false ∧
      (l.Flushed → m.networkWriteBuffer = []) := by
  have hchunks : ChunkMap { l with failedAsserts := fails } :=
    ⟨⟨hr.numbered, hr.next, hr.keys⟩, fun hdef => absurd h.unstopped hdef⟩
  obtain ⟨taken, hdrains⟩ := fillNetworkBuffer_drains hchunks
  rw [← hm] at hdrains
  have hundef : m.stopWriteChunkId = kUndefinedChunkID := hdrains.stopPoint.trans h.unstopped
  have hopen : m.stopReached = false := by simp [stopReached, hundef]
  refine ⟨hdrains.missing, hundef, ?_, fun hflushed => ?_⟩
  · rw [hdrains.stopped, hopen, Bool.or_false]
    exact h.unfinished
  · obtain ⟨hempty, hmissing⟩ := hflushed
    cases taken with
    | nil => exact hdrains.buffer.trans (by simp [hempty])
    | cons first rest =>
        -- the first chunk taken would be the one that is missing
        have hfirst : first.1 = l.nextWriteChunkId := by
          simpa using hdrains.consecutive.fst_getElem (Nat.succ_pos rest.length)
        have hmem : first ∈ l.writeChunks.entries := by
          rw [show l.writeChunks.entries = _ from hdrains.kept]
          exact List.mem_cons_self
        exact absurd (hfirst ▸ hmem) (SortedMap.contains_eq_false_iff.mp hmissing first.2)

/-- **`RequestWrite` of a link at work** fills the buffer up to the first gap, and starts to
write if there is anything to write. -/
theorem Working.requestWrite (h : Working l) (hr : Reassembly l) (hwrites : l.writes = []) :
    l.requestWrite.Working ∧
      l.requestWrite.writeChunks.contains l.requestWrite.nextWriteChunkId = false ∧
      (l.requestWrite.networkWriteBuffer = [] ∨ ¬ l.Flushed ∧
        l.requestWrite.writes = [⟨l.requestWrite.networkWriteBuffer.length, none⟩]) := by
  have hout := requestWrite_outcome l
  generalize l.requestWrite = after at hout ⊢
  cases hout with
  | aborted fails himm => exact absurd (h.uncancelled.symm.trans himm) (by simp)
  | finished fails m _ hm _ hall =>
      exact absurd ((h.filled hr hm).2.2.1.symm.trans hall) (by simp)
  | idle fails m himm hm hbuffer hall =>
      obtain ⟨hmissing, hundef, _, _⟩ := h.filled hr hm
      have hs := sameLoops_filled hm
      have hnone : m.waitIdle.writes = [] := hs.writes.trans hwrites
      refine ⟨⟨hs.writeProcessing.trans h.running, hs.stopWriteImmediate.trans himm, hundef, hall,
        ?_⟩, hmissing, Or.inl hbuffer⟩
      intro w hw
      rw [hnone] at hw
      exact absurd hw List.not_mem_nil
  | writing fails m himm hm hbuffer =>
      obtain ⟨hmissing, hundef, hall, hflushed⟩ := h.filled hr hm
      have hs := sameLoops_filled hm
      have hone : m.startWrite.writes = [⟨m.networkWriteBuffer.length, none⟩] := by
        simp [startWrite, hs.writes, hwrites]
      refine ⟨⟨hs.writeProcessing.trans h.running, hs.stopWriteImmediate.trans himm, hundef, hall,
        ?_⟩, hmissing, Or.inr ⟨fun hl => hbuffer (hflushed hl), hone⟩⟩
      intro w hw r hresult
      rw [hone, List.mem_singleton] at hw
      rw [hw] at hresult
      cases hresult

/-! ## Back to `RequestWrite` -/

/-- A write that is done goes on with the rest of the buffer. -/
theorem resumes_written (ho : Owned l) (hw : Working l) {size : Nat} {r : WriteResult}
    (hone : l.writes = [⟨size, some r⟩]) :
    ∃ m, Transition.run quietStep l [.writeHandler 0] = some m.requestWrite ∧ Resumes l m ∧
      m.networkWriteBuffer = l.networkWriteBuffer.drop r.transferred := by
  have hget : l.writes[0]? = some ⟨size, some r⟩ := by simp [hone]
  have hmem : ⟨size, some r⟩ ∈ l.writes := List.mem_of_getElem? hget
  obtain ⟨hsize, _, hle⟩ := ho.buffer _ hmem
  obtain ⟨herror, hpos⟩ := hw.unfailed _ hmem r rfl
  have hfit : r.transferred ≤ l.networkWriteBuffer.length := hsize ▸ hle r rfl
  have hstep : l.quietStep (.writeHandler 0) =
      some (({ l with writes := [] } : OutLink).requestWriteProcessing r) := by
    simp [quietStep, asioStep, hone]
  rcases requestWriteProcessing_cases { l with writes := [] } r hw.running hfit with
    ⟨hfailed, _⟩ | ⟨_, _, heq⟩
  · rcases hfailed with herr | hzero
    · exact absurd (herror.symm.trans herr) (by simp)
    · omega
  · rw [heq] at hstep
    refine ⟨_, Transition.run_cons.mpr ⟨_, hstep, rfl⟩, ?_, rfl⟩
    exact {
      working := ⟨hw.running, hw.uncancelled, hw.unstopped, hw.unfinished, by simp⟩
      writes := rfl
      timers := (ho.writing hget).2.2.2
      chunks := by constructor <;> rfl }

/-- A write in flight may take the whole buffer. -/
theorem resumes_writing (ho : Owned l) (hw : Working l) {size : Nat}
    (hone : l.writes = [⟨size, none⟩]) :
    ∃ (es : List AsioEvent) (m : OutLink),
      Transition.run quietStep l es = some m.requestWrite ∧ Resumes l m ∧
        m.networkWriteBuffer = [] := by
  have hget : l.writes[0]? = some ⟨size, none⟩ := by simp [hone]
  obtain ⟨hsize, hpos, _⟩ := ho.buffer _ (List.mem_of_getElem? hget)
  have hdone : l.quietStep (.writeDone 0 ⟨false, size⟩) = some { l with
      writes := [⟨size, some ⟨false, size⟩⟩]
      written := l.written ++ l.networkWriteBuffer.take size } := by
    simp [quietStep, asioStep, hone]
  have howned := owned_asioStep ho (quietStep_eq_some.mp hdone)
  have hworking : Working { l with
      writes := [⟨size, some ⟨false, size⟩⟩]
      written := l.written ++ l.networkWriteBuffer.take size } := by
    refine ⟨hw.running, hw.uncancelled, hw.unstopped, hw.unfinished, ?_⟩
    intro w hmem r hresult
    rw [List.mem_singleton.mp hmem] at hresult
    cases hresult
    exact ⟨rfl, hpos⟩
  obtain ⟨m, hrun, hm, hbuffer⟩ := resumes_written howned hworking rfl
  refine ⟨_, m, Transition.run_cons.mpr ⟨_, hdone, hrun⟩,
    ⟨hm.working, hm.writes, hm.timers, ?_⟩, ?_⟩
  · exact ⟨hm.chunks.writeChunks, hm.chunks.stopWriteChunkId, hm.chunks.stopAfterAllWrite,
      hm.chunks.nextWriteChunkId, hm.chunks.appended⟩
  · rw [hbuffer]
    exact List.drop_eq_nil_of_le (Nat.le_of_eq hsize.symm)

/-- An idle wait ends at the latest when it expires. -/
theorem resumes_waiting (ho : Owned l) (hw : Working l) {t : WaitStatus}
    (hone : l.timers = [t]) :
    ∃ (es : List AsioEvent) (m : OutLink),
      Transition.run quietStep l es = some m.requestWrite ∧ Resumes l m := by
  have hget : l.timers[0]? = some t := by simp [hone]
  have hnone : l.writes = [] := (ho.idling hget).2.2.2
  have hresumes : Resumes l { l with timers := [] } := {
    working := ⟨hw.running, hw.uncancelled, hw.unstopped, hw.unfinished, by simp [hnone]⟩
    writes := hnone
    timers := rfl
    chunks := by constructor <;> rfl }
  by_cases hwait : t = .waiting
  · subst hwait
    refine ⟨[.timerExpire 0, .timerHandler 0], _, ?_, hresumes⟩
    simp [Transition.run, quietStep, asioStep, hone]
  · refine ⟨[.timerHandler 0], _, ?_, hresumes⟩
    cases t with
    | waiting => exact absurd rfl hwait
    | cancelled => simp [Transition.run, quietStep, asioStep, hone]
    | expired => simp [Transition.run, quietStep, asioStep, hone]

/-- Whatever the write loop has in flight, it can go on. -/
theorem resumes (ho : Owned l) (hw : Working l) :
    ∃ (es : List AsioEvent) (m : OutLink),
      Transition.run quietStep l es = some m.requestWrite ∧ Resumes l m := by
  have hone := ho.writes
  rw [hw.running, Bool.toNat_true] at hone
  cases hwrites : l.writes with
  | nil =>
      rw [hwrites, List.length_nil, Nat.zero_add] at hone
      obtain ⟨t, ht⟩ := List.length_eq_one_iff.mp hone
      exact resumes_waiting ho hw ht
  | cons w rest =>
      rw [hwrites, List.length_cons] at hone
      obtain rfl : rest = [] := List.eq_nil_of_length_eq_zero (by omega)
      obtain ⟨size, result⟩ := w
      cases result with
      | none =>
          obtain ⟨es, m, hrun, hm, _⟩ := resumes_writing ho hw hwrites
          exact ⟨es, m, hrun, hm⟩
      | some r =>
          obtain ⟨m, hrun, hm, _⟩ := resumes_written ho hw hwrites
          exact ⟨_, m, hrun, hm⟩

/-- What an asio event keeps, a run of quiet events keeps. -/
theorem quiet_invariant {I : OutLink → Prop} (h : I l)
    (hstep : ∀ l e l' call, I l → l.asioStep e = some (l', call) → I l') {es : List AsioEvent}
    (hrun : Transition.run quietStep l es = some l') : I l' :=
  Transition.run_invariant (fun _ _ _ hI hq => hstep _ _ _ _ hI (quietStep_eq_some.mp hq)) h hrun

/-- **The writer can always catch up.**  From every state of a link at work some asio events,
none of which calls the hoster, lead to a state in which the link has put out everything up
to the first gap. -/
theorem flush (ho : Owned l) (hr : Reassembly l) (hw : Working l) :
    Transition.Possibly quietStep l fun m => m.Flushed ∧ m.Working := by
  obtain ⟨es, m, hes, hm⟩ := resumes ho hw
  have hmr : Reassembly m := chunkProperty_reassembly.congr l m hm.chunks hr
  obtain ⟨hworking, hmissing, hempty | ⟨_, hwriting⟩⟩ := hm.working.requestWrite hmr hm.writes
  · exact .of_run hes ⟨⟨hempty, hmissing⟩, hworking⟩
  · -- one more write takes the whole buffer, and the next chunk is still missing
    have howned : m.requestWrite.Owned :=
      quiet_invariant ho (fun _ _ _ _ h hstep => owned_asioStep h hstep) hes
    have hreassembly : m.requestWrite.Reassembly :=
      quiet_invariant hr (fun _ _ _ _ h hstep => chunkProperty_reassembly.asioStep h hstep) hes
    obtain ⟨fs, n, hfs, hn, hbuffer⟩ := resumes_writing howned hworking hwriting
    have hnr : Reassembly n := chunkProperty_reassembly.congr _ n hn.chunks hreassembly
    have hflushed : Flushed n := by
      refine ⟨hbuffer, ?_⟩
      rw [hn.chunks.writeChunks, hn.chunks.nextWriteChunkId]
      exact hmissing
    obtain ⟨hlast, hgap, hout | ⟨hno, _⟩⟩ := hn.working.requestWrite hnr hn.writes
    · have hrun : Transition.run quietStep l (es ++ fs) = some n.requestWrite := by
        rw [Transition.run_append, hes]
        exact hfs
      exact .of_run hrun ⟨⟨hout, hgap⟩, hlast⟩
    · exact absurd hflushed hno

end OutLink
