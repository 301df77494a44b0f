import ByteStacker.OutLinkChunks

/-!
# What a link and its hoster tell each other

A link calls its hoster in two places: with every block it reads, and once when
it closes.  `asioStep_call` says what each call means for the link; the calls in
the other direction, `SendData` and `Stop`, leave the life of the link alone.

The last section is about the assertions: no handler of asio fails one
(`asserts_asioStep`), and neither does `Stop`, so only the one in `SendData` is
left.
-/

namespace OutLink

variable {l l' : OutLink}

/-- The blocks a read delivers fit into `read_buffer_`. -/
def Bounded (l : OutLink) : Prop :=
  ∀ r, some r ∈ l.reads → r.data.length ≤ kChunkSize

/-- **The calls of a link.**  A block handed to the hoster is what the link has
just read; the closing call is made when the link turns closed. -/
inductive CallOutcome (l l' : OutLink) : Option HosterCall → Prop
  | quiet (hclose : l'.closeInvoked = l.closeInvoked) (hread : l'.readLog = l.readLog) :
      CallOutcome l l' none
  | read (cnt : ConnectID) (data : Bytes) (hcnt : l.hoster = some cnt)
      (hsize : data.length ≤ kChunkSize) (hopen : l.closeInvoked = false)
      (hclose : l'.closeInvoked = false) (hread : l'.readLog = l.readLog ++ data) :
      CallOutcome l l' (some (.sendData cnt data))
  | closed (cnt : ConnectID) (hcnt : l.hoster = some cnt) (hopen : l.closeInvoked = false)
      (hclose : l'.closeInvoked = true) (hread : l'.readLog = l.readLog) :
      CallOutcome l l' (some (.closeConnect cnt))

/-- Trying the next endpoint concerns neither the hoster nor the reads. -/
theorem sameStage_requestConnect (l : OutLink) :
    l.requestConnect.hoster = l.hoster ∧ l.requestConnect.closeInvoked = l.closeInvoked ∧
      l.requestConnect.readLog = l.readLog ∧ l.requestConnect.reads = l.reads := by
  unfold requestConnect
  split <;> exact ⟨rfl, rfl, rfl, rfl⟩

/-- Nor do the loops when they start. -/
theorem stage_startLoops (l : OutLink) :
    l.startLoops.hoster = l.hoster ∧ l.startLoops.closeInvoked = l.closeInvoked ∧
      l.startLoops.readLog = l.readLog := by
  unfold startLoops requestRead
  simp only [assertThat_true]
  have h := sameStage_requestWrite { l with
    readProcessing := true
    connected := true
    reads := l.reads ++ [none]
    started := l.started + 1
    writeProcessing := true }
  exact ⟨h.hoster, h.closeInvoked, h.readLog⟩

/-- Nor does a completed write. -/
theorem stage_writeHandler (l : OutLink) (r : WriteResult) :
    (l.requestWriteProcessing r).hoster = l.hoster ∧
      (l.requestWriteProcessing r).closeInvoked = l.closeInvoked ∧
      (l.requestWriteProcessing r).readLog = l.readLog := by
  obtain ⟨running, fails, _, heq | heq⟩ := l.requestWriteProcessing_shape r
  · rw [heq]
    exact ⟨rfl, rfl, rfl⟩
  · rw [heq]
    have h := sameStage_requestWrite { l with
      writeProcessing := running
      failedAsserts := fails
      networkWriteBuffer := l.networkWriteBuffer.drop r.transferred }
    exact ⟨h.hoster, h.closeInvoked, h.readLog⟩

/-- A completed read is added to the log, whether it failed or not. -/
theorem stage_readHandler (l : OutLink) (r : ReadResult) :
    (l.requestReadProcessing r).1.hoster = l.hoster ∧
      (l.requestReadProcessing r).1.closeInvoked = l.closeInvoked ∧
      (l.requestReadProcessing r).1.readLog = l.readLog ++ r.data := by
  obtain ⟨fails, heq⟩ := l.assertThat_eq .requestReadProcessing (r.data = [] ∨ l.hoster.isSome)
  unfold requestReadProcessing
  simp only [heq]
  split
  · exact ⟨rfl, rfl, rfl⟩
  · obtain ⟨fails', heq'⟩ := ({ l with
      failedAsserts := fails
      readLog := l.readLog ++ r.data } : OutLink).assertThat_eq .requestRead l.readProcessing
    unfold requestRead
    rw [heq']
    exact ⟨rfl, rfl, rfl⟩

/-- What was read is handed to the hoster, unless it is nothing. -/
theorem call_readHandler (l : OutLink) (r : ReadResult) :
    (l.requestReadProcessing r).2 =
      if r.data = [] then none else l.hoster.map fun cnt => .sendData cnt r.data := by
  unfold requestReadProcessing
  by_cases herr : r.error = true <;> simp [herr]

/-- The read handler, seen from the hoster. -/
theorem readHandler_call (l : OutLink) (r : ReadResult) (hnamed : l.hoster.isSome = true)
    (hsize : r.data.length ≤ kChunkSize) (hopen : l.closeInvoked = false) :
    (l.requestReadProcessing r).1.hoster = l.hoster ∧
      CallOutcome l (l.requestReadProcessing r).1 (l.requestReadProcessing r).2 := by
  obtain ⟨cnt, hcnt⟩ := Option.isSome_iff_exists.mp hnamed
  obtain ⟨hhoster, hclose, hread⟩ := stage_readHandler l r
  refine ⟨hhoster, ?_⟩
  rw [call_readHandler, hcnt]
  by_cases hempty : r.data = []
  · rw [if_pos hempty]
    exact .quiet hclose (by rw [hread, hempty, List.append_nil])
  · rw [if_neg hempty]
    exact .read cnt r.data hcnt hsize hopen (hclose.trans hopen) hread

/-- **What an asio event tells the hoster.** -/
theorem asioStep_call {e : AsioEvent} {call : Option HosterCall} (h : Owned l) (hb : Bounded l)
    (hstep : l.asioStep e = some (l', call)) : l'.hoster = l.hoster ∧ CallOutcome l l' call := by
  cases asioStep_outcome hstep with
  | @resolved i x results hx =>
      cases results with
      | none => exact ⟨rfl, .quiet rfl rfl⟩
      | some points =>
          obtain ⟨hh, hc, hr, _⟩ := sameStage_requestConnect { l with
            resolves := l.resolves.eraseIdx i
            resolvedPoints := l.resolvedPoints ++ points }
          exact ⟨hh, .quiet hc hr⟩
  | @connected i x error hx =>
      cases error with
      | true =>
          obtain ⟨hh, hc, hr, _⟩ := sameStage_requestConnect { l with
            connects := l.connects.eraseIdx i
            resolvedPoints := l.resolvedPoints.tail }
          exact ⟨hh, .quiet hc hr⟩
      | false =>
          obtain ⟨hh, hc, hr⟩ := stage_startLoops { l with connects := l.connects.eraseIdx i }
          exact ⟨hh, .quiet hc hr⟩
  | readDone hx hle => exact ⟨rfl, .quiet rfl rfl⟩
  | @readHandler i r _ _ hx heq =>
      obtain ⟨_, hopen⟩ := h.toRest.online (Or.inl (h.reading hx).1)
      have hout := readHandler_call { l with reads := l.reads.eraseIdx i } r h.named
        (hb r (List.mem_of_getElem? hx)) hopen
      rw [heq] at hout
      refine ⟨hout.1, ?_⟩
      cases hout.2 with
      | quiet hc hr => exact .quiet hc hr
      | read cnt data hcnt hsize ho hc hr => exact .read cnt data hcnt hsize ho hc hr
      | closed cnt hcnt ho hc hr => exact .closed cnt hcnt ho hc hr
  | writeDone hx hle => exact ⟨rfl, .quiet rfl rfl⟩
  | @writeHandler i size r hx =>
      obtain ⟨hh, hc, hr⟩ := stage_writeHandler { l with writes := l.writes.eraseIdx i } r
      exact ⟨hh, .quiet hc hr⟩
  | timerExpire hx => exact ⟨rfl, .quiet rfl rfl⟩
  | @timerHandler i t hx ht =>
      have hs := sameStage_requestWrite { l with timers := l.timers.eraseIdx i }
      exact ⟨hs.hoster, .quiet hs.closeInvoked hs.readLog⟩
  | closeCheck hpos heq =>
      obtain ⟨cnt, hcnt⟩ := Option.isSome_iff_exists.mp h.named
      rcases checkReadyCloseProcessing_cases { l with posts := l.posts - 1 } with
        ⟨_, _, hopen, hclose⟩ | ⟨_, hclose⟩
      · rw [hclose] at heq
        cases heq
        refine ⟨rfl, ?_⟩
        simp only [hcnt, Option.map_some]
        exact .closed cnt hcnt hopen rfl rfl
      · rw [hclose] at heq
        cases heq
        exact ⟨rfl, .quiet rfl rfl⟩

/-! ## Bounded reads -/

/-- A read that has been started has no result yet. -/
theorem bounded_append (h : Bounded l) {m : OutLink} (hreads : m.reads = l.reads ++ [none]) :
    m.Bounded := by
  intro r hr
  rw [hreads] at hr
  exact h r (by simpa using hr)

/-- Results are kept or come without bytes. -/
theorem Bounded.congr {m : OutLink} (h : Bounded l)
    (hreads : ∀ r, some r ∈ m.reads → some r ∈ l.reads ∨ r.data = []) : m.Bounded := by
  intro r hr
  rcases hreads r hr with hold | hempty
  · exact h r hold
  · simp [hempty]

/-- Cancelling completes a read without data. -/
theorem mem_abortRead {rs : List (Option ReadResult)} {r : ReadResult}
    (h : some r ∈ rs.map abortRead) : some r ∈ rs ∨ r.data = [] := by
  obtain ⟨x, hx, heq⟩ := List.mem_map.mp h
  cases x with
  | none =>
      simp only [abortRead, Option.getD_none, Option.some.injEq] at heq
      exact Or.inr (by rw [← heq])
  | some r' =>
      simp only [abortRead, Option.getD_some, Option.some.injEq] at heq
      exact Or.inl (heq ▸ hx)

/-- The reads of a link around `RequestWrite`. -/
theorem bounded_requestWrite (h : Bounded l) : l.requestWrite.Bounded := by
  have hout := requestWrite_outcome l
  generalize l.requestWrite = after at hout ⊢
  cases hout with
  | aborted fails _ => exact h.congr fun r hr => mem_abortRead hr
  | finished fails m _ hm _ _ =>
      have hs := sameLoops_filled hm
      exact h.congr fun r hr => mem_abortRead (by
        simpa [endWrite, cancelReadWrite, cancelSocket, cancelTimer, checkReadyClose,
          hs.reads] using hr)
  | idle fails m _ hm _ _ =>
      have hs := sameLoops_filled hm
      exact h.congr fun r hr => Or.inl (by simpa [waitIdle, cancelTimer, hs.reads] using hr)
  | writing fails m _ hm _ =>
      have hs := sameLoops_filled hm
      exact h.congr fun r hr => Or.inl (by simpa [startWrite, hs.reads] using hr)

/-- The first read has no result. -/
theorem bounded_startLoops (h : Bounded l) : l.startLoops.Bounded := by
  unfold startLoops requestRead
  simp only [assertThat_true]
  exact bounded_requestWrite (bounded_append h rfl)

/-- Nor has the next one; a cancel aborts a read without bytes. -/
theorem bounded_readHandler (h : Bounded l) (r : ReadResult) :
    (l.requestReadProcessing r).1.Bounded := by
  obtain ⟨fails, heq⟩ := l.assertThat_eq .requestReadProcessing (r.data = [] ∨ l.hoster.isSome)
  unfold requestReadProcessing
  simp only [heq]
  split
  · exact h.congr fun r hr => mem_abortRead hr
  · obtain ⟨fails', heq'⟩ := ({ l with
      failedAsserts := fails
      readLog := l.readLog ++ r.data } : OutLink).assertThat_eq .requestRead l.readProcessing
    unfold requestRead
    rw [heq']
    exact bounded_append h rfl

/-- **Every asio event keeps the bound on what a read brings.** -/
theorem bounded_asioStep {e : AsioEvent} {call : Option HosterCall} (h : Bounded l)
    (hstep : l.asioStep e = some (l', call)) : l'.Bounded := by
  cases asioStep_outcome hstep with
  | @resolved i x results hx =>
      cases results with
      | none => exact h
      | some points =>
          have hreads := (sameStage_requestConnect { l with
            resolves := l.resolves.eraseIdx i
            resolvedPoints := l.resolvedPoints ++ points }).2.2.2
          exact h.congr fun r hr => Or.inl (hreads ▸ hr)
  | @connected i x error hx =>
      cases error with
      | true =>
          have hreads := (sameStage_requestConnect { l with
            connects := l.connects.eraseIdx i
            resolvedPoints := l.resolvedPoints.tail }).2.2.2
          exact h.congr fun r hr => Or.inl (hreads ▸ hr)
      | false => exact bounded_startLoops h
  | @readDone i r hx hle =>
      intro r' hr'
      rcases List.mem_or_eq_of_mem_set hr' with hr' | hr'
      · exact h r' hr'
      · exact Option.some.inj hr' ▸ hle
  | @readHandler i r _ _ hx heq =>
      have hb := bounded_readHandler (l := { l with reads := l.reads.eraseIdx i })
        (h.congr fun r' hr' => Or.inl (List.mem_of_mem_eraseIdx hr')) r
      rwa [heq] at hb
  | writeDone hx hle => exact h
  | @writeHandler i size r hx =>
      obtain ⟨running, fails, _, heq | heq⟩ :=
        ({ l with writes := l.writes.eraseIdx i } : OutLink).requestWriteProcessing_shape r
      · rw [heq]
        exact h.congr fun r' hr' => mem_abortRead hr'
      · rw [heq]
        exact bounded_requestWrite h
  | timerExpire hx => exact h
  | timerHandler hx ht => exact bounded_requestWrite h
  | closeCheck hpos heq =>
      rcases checkReadyCloseProcessing_cases { l with posts := l.posts - 1 } with
        ⟨_, _, _, hclose⟩ | ⟨_, hclose⟩
      · rw [hclose] at heq
        cases heq
        exact h.congr fun r hr => mem_abortRead hr
      · rw [hclose] at heq
        cases heq
        exact h

/-- A new link has read nothing. -/
theorem bounded_fresh (h : Fresh l) : Bounded l := by
  obtain ⟨cnt, rfl | ⟨address, port, rfl⟩⟩ := h
  · exact bounded_startLoops (l := { createAccepted with hoster := some cnt })
      (by simp [Bounded, createAccepted])
  · simp [Bounded, run, createAddress]

/-! ## The calls of the hoster -/

/-- Two states of a link that agree on all that is not the chunks to write. -/
structure SameLife (l m : OutLink) : Prop extends SameStage l m where
  reads : m.reads = l.reads
  stopWriteImmediate : m.stopWriteImmediate = l.stopWriteImmediate
  appended : m.appended = l.appended

/-- `SendData` only files a chunk, and leaves the stop point where it is. -/
theorem sameLife_sendData (l : OutLink) (chunkId : UInt32) (data : Bytes) :
    SameLife l (l.sendData chunkId data) ∧
      (l.sendData chunkId data).stopWriteChunkId = l.stopWriteChunkId := by
  have hout := sendData_outcome l chunkId data
  generalize l.sendData chunkId data = after at hout ⊢
  cases hout <;> exact ⟨⟨⟨rfl, rfl, rfl, rfl, rfl, rfl, rfl, rfl⟩, rfl, rfl, rfl⟩, rfl⟩

/-- `Stop` only sets the stop point; its assertion holds. -/
theorem sameLife_stop (l : OutLink) (n : UInt32) :
    SameLife l (l.stop n) ∧ (l.stop n).failedAsserts = l.failedAsserts := by
  by_cases hn : n ≤ l.nextWriteChunkId
  · rw [stop_atOnce hn]
    exact ⟨⟨⟨rfl, rfl, rfl, rfl, rfl, rfl, rfl, rfl⟩, rfl, rfl, rfl⟩, rfl⟩
  · rw [stop_later (UInt32.not_le.mp hn)]
    exact ⟨⟨⟨rfl, rfl, rfl, rfl, rfl, rfl, rfl, rfl⟩, rfl, rfl, rfl⟩, rfl⟩

/-! ## Flags that stay raised -/

/-- A turn of the write loop does not take back a cancel. -/
theorem flags_requestWrite (l : OutLink) :
    l.requestWrite.connected = l.connected ∧
      (l.stopWriteImmediate = true → l.requestWrite.stopWriteImmediate = true) := by
  refine ⟨(sameStage_requestWrite l).connected, ?_⟩
  have hout := requestWrite_outcome l
  generalize l.requestWrite = after at hout ⊢
  intro himm
  cases hout with
  | aborted fails _ => rfl
  | finished fails m _ hm _ _ => rfl
  | idle fails m hno hm _ _ => exact absurd (himm.symm.trans hno) (by simp)
  | writing fails m hno hm _ => exact absurd (himm.symm.trans hno) (by simp)

/-- Nor does the start of the loops, which connects the link. -/
theorem flags_startLoops (l : OutLink) :
    l.startLoops.connected = true ∧
      (l.stopWriteImmediate = true → l.startLoops.stopWriteImmediate = true) := by
  unfold startLoops requestRead
  simp only [assertThat_true]
  exact flags_requestWrite { l with
    readProcessing := true
    connected := true
    reads := l.reads ++ [none]
    started := l.started + 1
    writeProcessing := true }

/-- Nor does the next endpoint. -/
theorem flags_requestConnect (l : OutLink) :
    l.requestConnect.connected = l.connected ∧
      l.requestConnect.stopWriteImmediate = l.stopWriteImmediate := by
  unfold requestConnect
  split <;> exact ⟨rfl, rfl⟩

/-- Nor does a completed read. -/
theorem flags_readHandler (l : OutLink) (r : ReadResult) :
    (l.requestReadProcessing r).1.connected = l.connected ∧
      (l.stopWriteImmediate = true →
        (l.requestReadProcessing r).1.stopWriteImmediate = true) := by
  obtain ⟨fails, heq⟩ := l.assertThat_eq .requestReadProcessing (r.data = [] ∨ l.hoster.isSome)
  unfold requestReadProcessing
  simp only [heq]
  split
  · exact ⟨rfl, fun _ => rfl⟩
  · obtain ⟨fails', heq'⟩ := ({ l with
      failedAsserts := fails
      readLog := l.readLog ++ r.data } : OutLink).assertThat_eq .requestRead l.readProcessing
    unfold requestRead
    rw [heq']
    exact ⟨rfl, id⟩

/-- **A connection stays, and so does a cancel.** -/
theorem flags_asioStep {e : AsioEvent} {call : Option HosterCall}
    (hstep : l.asioStep e = some (l', call)) :
    (l.connected = true → l'.connected = true) ∧
      (l.stopWriteImmediate = true → l'.stopWriteImmediate = true) := by
  cases asioStep_outcome hstep with
  | @resolved i x results hx =>
      cases results with
      | none => exact ⟨id, id⟩
      | some points =>
          obtain ⟨hc, hi⟩ := flags_requestConnect { l with
            resolves := l.resolves.eraseIdx i
            resolvedPoints := l.resolvedPoints ++ points }
          exact ⟨hc.trans, hi.trans⟩
  | @connected i x error hx =>
      cases error with
      | true =>
          obtain ⟨hc, hi⟩ := flags_requestConnect { l with
            connects := l.connects.eraseIdx i
            resolvedPoints := l.resolvedPoints.tail }
          exact ⟨hc.trans, hi.trans⟩
      | false =>
          obtain ⟨hc, hi⟩ := flags_startLoops { l with connects := l.connects.eraseIdx i }
          exact ⟨fun _ => hc, hi⟩
  | readDone hx hle => exact ⟨id, id⟩
  | @readHandler i r _ _ hx heq =>
      have hflags := flags_readHandler { l with reads := l.reads.eraseIdx i } r
      rw [heq] at hflags
      exact ⟨hflags.1.trans, hflags.2⟩
  | writeDone hx hle => exact ⟨id, id⟩
  | @writeHandler i size r hx =>
      obtain ⟨running, fails, _, heq | heq⟩ :=
        ({ l with writes := l.writes.eraseIdx i } : OutLink).requestWriteProcessing_shape r
      · rw [heq]
        exact ⟨id, id⟩
      · rw [heq]
        obtain ⟨hc, hi⟩ := flags_requestWrite { l with
          writes := l.writes.eraseIdx i
          writeProcessing := running
          failedAsserts := fails
          networkWriteBuffer := l.networkWriteBuffer.drop r.transferred }
        exact ⟨hc.trans, hi⟩
  | timerExpire hx => exact ⟨id, id⟩
  | @timerHandler i t hx ht =>
      obtain ⟨hc, hi⟩ := flags_requestWrite { l with timers := l.timers.eraseIdx i }
      exact ⟨hc.trans, hi⟩
  | closeCheck hpos heq =>
      rcases checkReadyCloseProcessing_cases { l with posts := l.posts - 1 } with
        ⟨_, _, _, hclose⟩ | ⟨_, hclose⟩
      · rw [hclose] at heq
        cases heq
        exact ⟨id, id⟩
      · rw [hclose] at heq
        cases heq
        exact ⟨id, id⟩

/-- Only a connected link hands blocks to its hoster. -/
theorem connected_of_read {e : AsioEvent} {cnt : ConnectID} {data : Bytes} (h : Owned l)
    (hstep : l.asioStep e = some (l', some (.sendData cnt data))) : l.connected = true := by
  cases asioStep_outcome hstep with
  | readHandler hx heq => exact (h.toRest.online (Or.inl (h.reading hx).1)).1
  | closeCheck hpos heq =>
      rcases checkReadyCloseProcessing_cases { l with posts := l.posts - 1 } with
        ⟨_, _, _, hclose⟩ | ⟨_, hclose⟩
      · rw [hclose] at heq
        cases hh : l.hoster <;> simp [hh] at heq
      · rw [hclose] at heq
        cases heq

/-! ## Assertions -/

/-- The keys of the map are never below the awaited index. -/
theorem asserts_fillNetworkBuffer (h : Reassembly l) :
    l.fillNetworkBuffer.failedAsserts = l.failedAsserts := by
  have hloop : ∀ fuel (l : OutLink), Reassembly l → l.stopReached = false →
      (fillLoop fuel l).failedAsserts = l.failedAsserts := by
    intro fuel
    induction fuel with
    | zero => exact fun l _ _ => rfl
    | succ fuel ih =>
        intro l h hns
        unfold fillLoop
        split
        · rfl
        · rename_i id data rest hentries
          have hkey : l.nextWriteChunkId ≤ id := h.keys (id, data) (by simp [hentries])
          simp only [hkey, decide_true, assertThat_true]
          split
          · rfl
          · rename_i hid
            have hid : id = l.nextWriteChunkId := by simpa using hid
            subst hid
            split
            · rfl
            · rename_i hstop
              exact ih _ (chunkProperty_reassembly.take l data rest h hns hentries)
                (by simpa using hstop)
  unfold fillNetworkBuffer
  split
  · rfl
  · rename_i hstop
    exact hloop _ l h (by simpa using hstop)

/-- With the chunks in order no assertion of the write loop fails. -/
theorem asserts_requestWrite (h : Reassembly l) (hp : l.writeProcessing = true) :
    l.requestWrite.failedAsserts = l.failedAsserts := by
  have hfill := asserts_fillNetworkBuffer h
  unfold requestWrite
  simp only [hp, assertThat_true]
  generalize l.fillNetworkBuffer = m at hfill ⊢
  split
  · rfl
  · split
    · split
      · exact hfill
      · exact hfill
    · exact hfill

/-- None fails when the loops start. -/
theorem asserts_startLoops (h : Reassembly l) : l.startLoops.failedAsserts = l.failedAsserts := by
  unfold startLoops requestRead
  simp only [assertThat_true]
  exact asserts_requestWrite (chunkProperty_reassembly.congr l _ (by constructor <;> rfl) h) rfl

/-- **No handler of asio fails an assertion.** -/
theorem asserts_asioStep {e : AsioEvent} {call : Option HosterCall} (h : Owned l)
    (hr : Reassembly l) (hstep : l.asioStep e = some (l', call)) :
    l'.failedAsserts = l.failedAsserts := by
  have hcongr : ∀ m : OutLink, SameChunks l m → m.Reassembly :=
    fun m hs => chunkProperty_reassembly.congr l m hs hr
  cases asioStep_outcome hstep with
  | @resolved i x results hx =>
      cases results with
      | none => rfl
      | some points =>
          simp only [resolverProcessing, requestConnect]
          split <;> rfl
  | @connected i x error hx =>
      cases error with
      | true =>
          simp only [requestConnectProcessing, requestConnect, if_true]
          split <;> rfl
      | false => exact asserts_startLoops (hcongr _ (by constructor <;> rfl))
  | readDone hx hle => rfl
  | @readHandler i r _ _ hx heq =>
      have hp := (h.reading hx).1
      have hnamed := h.named
      simp only [requestReadProcessing, hnamed, or_true, decide_true, assertThat_true] at heq
      split at heq
      · cases heq
        rfl
      · simp only [requestRead, hp, assertThat_true] at heq
        cases heq
        rfl
  | writeDone hx hle => rfl
  | @writeHandler i size r hx =>
      obtain ⟨hwp, hone, _, _⟩ := h.writing hx
      obtain ⟨hsize, _, hle⟩ := h.buffer ⟨size, some r⟩ (by simp [hone])
      rcases requestWriteProcessing_cases { l with writes := l.writes.eraseIdx i } r hwp
        (hsize ▸ hle r rfl) with ⟨_, heq⟩ | ⟨_, _, heq⟩
      · rw [heq]
        rfl
      · rw [heq]
        exact asserts_requestWrite (hcongr _ (by constructor <;> rfl)) hwp
  | timerExpire hx => rfl
  | @timerHandler i t hx ht =>
      exact asserts_requestWrite (hcongr _ (by constructor <;> rfl)) (h.idling hx).1
  | closeCheck hpos heq =>
      rcases checkReadyCloseProcessing_cases { l with posts := l.posts - 1 } with
        ⟨_, _, _, hclose⟩ | ⟨_, hclose⟩
      · rw [hclose] at heq
        cases heq
        rfl
      · rw [hclose] at heq
        cases heq
        rfl

/-- None has failed of a new link. -/
theorem asserts_fresh (h : Fresh l) : l.failedAsserts = [] := by
  obtain ⟨cnt, rfl | ⟨address, port, rfl⟩⟩ := h
  · refine asserts_startLoops (l := { createAccepted with hoster := some cnt }) ?_
    exact ⟨rfl, rfl, fun e he => absurd he (by simp [createAccepted])⟩
  · rfl

/-- **`SendData` fails its assertion exactly on a chunk that is still awaited
and lies at or behind the stop point.** -/
theorem asserts_sendData (l : OutLink) (chunkId : UInt32) (data : Bytes) :
    (l.sendData chunkId data).failedAsserts =
      if l.nextWriteChunkId ≤ chunkId ∧ l.stopWriteChunkId ≠ kUndefinedChunkID ∧
          l.stopWriteChunkId ≤ chunkId then l.failedAsserts ++ [.sendData]
      else l.failedAsserts := by
  have hout := sendData_outcome l chunkId data
  generalize l.sendData chunkId data = after at hout ⊢
  cases hout with
  | stale hlt => rw [if_neg fun hbad => UInt32.not_le.mpr hlt hbad.1]
  | afterStop hge hdef hstop => rw [if_pos ⟨UInt32.not_lt.mp hge, hdef, hstop⟩]
  | duplicate hge hopen _ =>
      rw [if_neg fun hbad => hopen.elim hbad.2.1 fun hlt => UInt32.not_le.mpr hlt hbad.2.2]
  | stored hge hopen _ timers _ =>
      rw [if_neg fun hbad => hopen.elim hbad.2.1 fun hlt => UInt32.not_le.mpr hlt hbad.2.2]

end OutLink
